import KeyOrder.Unicode.Table

/-!
# Natural keys

A natural key splits a name at its maximal runs of ASCII digits and takes each run for the number
it denotes, so that `item2` comes before `item10`.  A key is a text followed by pairs of a number
and a text: two keys always have the same kind of part at the same place.

A run of more than `digitLimit` digits has no key.
-/

namespace KeyOrder

/-- The name of an entry. -/
abbrev Name := CodePoints

/-- The greatest number of digits that are read as a number. -/
def digitLimit : Nat := 4300

/-- A run of digits is too long to be read as a number. -/
structure TooManyDigits where
  count : Nat
deriving Repr, DecidableEq

namespace Natural

/-- Whether a code point is an ASCII digit. -/
def isDigit (c : CodePoint) : Bool := '0'.toNat ≤ c && c ≤ '9'.toNat

/-- A name cut at its maximal runs of digits: the text before the first run, and each run with
the text after it. -/
structure Cut where
  text : Name
  runs : List (CodePoints × Name)
deriving Repr, DecidableEq

/-- Puts one more code point in front of a cut name. -/
def Cut.cons (c : CodePoint) (k : Cut) : Cut :=
  if isDigit c then
    match k.text, k.runs with
    | [], (ds, t) :: rs => ⟨[], (c :: ds, t) :: rs⟩
    | t, rs => ⟨[], ([c], t) :: rs⟩
  else ⟨c :: k.text, k.runs⟩

/-- Cuts a name at its maximal runs of digits. -/
def cut (name : Name) : Cut := name.foldr Cut.cons ⟨[], []⟩

/-- The number that a run of digits denotes. -/
def value (digits : CodePoints) : Nat :=
  digits.foldl (fun n d => 10 * n + (d - '0'.toNat)) 0

end Natural

/-- A natural key. -/
structure NaturalKey where
  text : Name
  rest : List (Nat × Name)
deriving Repr, DecidableEq

namespace NaturalKey

/-- The key of a name whose runs of digits are within the limit. -/
def ofCut (k : Natural.Cut) : NaturalKey :=
  ⟨k.text, k.runs.map fun r => (Natural.value r.1, r.2)⟩

/-- The first run of digits that is over the limit. -/
def overLong? (name : Name) : Option TooManyDigits :=
  ((Natural.cut name).runs.find? fun r => digitLimit < r.1.length).map fun r => ⟨r.1.length⟩

/-- The natural key of a name. -/
def of (name : Name) : Except TooManyDigits NaturalKey :=
  match overLong? name with
  | some e => .error e
  | none => .ok (ofCut (Natural.cut name))

/-- A part of a key, seen as a sequence of texts and numbers. -/
inductive Part where
  | text (t : Name)
  | number (n : Nat)
deriving Repr, DecidableEq

/-- The parts of a key: a text, and then numbers and texts in turn. -/
def parts (k : NaturalKey) : List Part :=
  .text k.text :: k.rest.flatMap fun r => [.number r.1, .text r.2]

/-- Compares what follows the first texts: number, text, number, text, and so on. -/
def compareRest : List (Nat × Name) → List (Nat × Name) → Ordering
  | [], [] => .eq
  | [], _ :: _ => .lt
  | _ :: _, [] => .gt
  | (m, s) :: xs, (n, t) :: ys =>
    (compare m n).then ((compare s t).then (compareRest xs ys))

/-- Compares keys part by part. -/
def cmp (a b : NaturalKey) : Ordering :=
  (compare a.text b.text).then (compareRest a.rest b.rest)

end NaturalKey

end KeyOrder
