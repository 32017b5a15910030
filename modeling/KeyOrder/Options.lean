import KeyOrder.Json.Value
import KeyOrder.Order.Basic

/-!
# Options

Options are given as a JSON value: a direction, and an object with the settings `caseSensitive`,
`natural` and `minKeys`.  A value that is empty in any way stands for no options.  All faults of
the options are found, and the one at the shortest path is told; among those the one at the
greatest path, and of several at one path the first.
-/

namespace KeyOrder

/-- The identifier of the rule. -/
def ruleId : String := "sort-keys-fix"

/-- What the rule is run with. -/
structure Configuration where
  direction : Direction
  caseSensitive : Bool
  natural : Bool
  /-- Containers with fewer entries are not checked. -/
  minKeys : Json.Number
deriving Repr, DecidableEq

namespace Configuration

/-- What is used when no options are given. -/
def default : Configuration := ⟨.ascending, true, false, .integer 2⟩

/-- The order on names. -/
def order (c : Configuration) : Order := ⟨c.direction, !c.caseSensitive, c.natural⟩

/-- Whether a container with `n` entries is too small to be checked. -/
def tooSmall (c : Configuration) (n : Nat) : Bool :=
  match c.minKeys.toInt? with
  | some k => decide ((n : Int) < k)
  | none => false

/-- A configuration as it appears in the log. -/
def display (c : Configuration) : String :=
  let flag := fun b : Bool => if b then "True" else "False"
  "Configuration(order='" ++ c.direction.name ++ "', case_sensitive=" ++ flag c.caseSensitive ++
    ", natural=" ++ flag c.natural ++ ", min_keys=" ++ c.minKeys.display ++ ")"

end Configuration

namespace Options

open Json (Value Number)

/-- The kinds of values that options ask for. -/
inductive Kind where
  | object
  | boolean
  | integer
deriving Repr, DecidableEq

/-- The name of a kind. -/
def Kind.name : Kind → String
  | object => "object"
  | boolean => "boolean"
  | integer => "integer"

/-- What is wrong with options. -/
inductive Violation where
  | notADirection (v : Value)
  | notOfKind (v : Value) (k : Kind)
  | belowMinimum (v : Value)
  | unexpected (names : List CodePoints)
  | tooLong (values : List Value)
deriving Repr

/-- The wording of a violation. -/
def Violation.message : Violation → CodePoints
  | notADirection v => v.display ++ codePoints " is not one of ['asc', 'desc']"
  | notOfKind v k => v.display ++ codePoints (" is not of type '" ++ k.name ++ "'")
  | belowMinimum v => v.display ++ codePoints " is less than the minimum of 2"
  | unexpected names =>
    codePoints "Additional properties are not allowed (" ++
      Value.commaSeparated (names.map Quoted.string) ++
      codePoints (if names.length = 1 then " was unexpected)" else " were unexpected)")
  | tooLong values => (Value.array values).display ++ codePoints " is too long"

/-- A place in the options. -/
inductive Place where
  | whole
  | item (index : Nat)
  | setting (name : String)
deriving Repr, DecidableEq

namespace Place

/-- How deep a place lies. -/
def depth : Place → Nat
  | whole => 0
  | item _ => 1
  | setting _ => 2

/-- Whether a violation at `a` is told rather than one at `b` that was found before it. -/
def beats (a b : Place) : Bool :=
  if a.depth ≠ b.depth then a.depth < b.depth
  else
    match a, b with
    | item i, item j => j < i
    | setting m, setting n => n < m
    | _, _ => false

end Place

/-- A violation and its place. -/
structure Located where
  place : Place
  violation : Violation
deriving Repr

/-! ### Finding violations -/

/-- Whether a value is an integer; a boolean is none. -/
def isInteger : Value → Bool
  | .number n => n.toInt?.isSome
  | _ => false

/-- Whether a value is a boolean. -/
def isBoolean : Value → Bool
  | .bool _ => true
  | _ => false

/-- The direction that a value names. -/
def direction? : Value → Option Direction
  | .string s =>
    if s = codePoints "asc" then some .ascending
    else if s = codePoints "desc" then some .descending
    else none
  | _ => none

/-- The names of the settings. -/
def settingNames : List String := ["caseSensitive", "natural", "minKeys"]

/-- The violations of one boolean setting. -/
def booleanViolations (fields : Value) (name : String) : List Located :=
  match fields.field? name with
  | some v => if isBoolean v then [] else [⟨.setting name, .notOfKind v .boolean⟩]
  | none => []

/-- The violations of the least number of entries. -/
def minKeysViolations (fields : Value) : List Located :=
  match fields.field? "minKeys" with
  | some v =>
    (if isInteger v then [] else [⟨.setting "minKeys", .notOfKind v .integer⟩]) ++
      match v with
      | .number n => if n.below 2 then [⟨.setting "minKeys", .belowMinimum v⟩] else []
      | _ => []
  | none => []

/-- The fields that are no settings, in order. -/
def unexpectedNames (fields : List (CodePoints × Value)) : List CodePoints :=
  sort (fun a b => (compare a b).isLE)
    ((fields.map Prod.fst).filter fun k => !(settingNames.map codePoints).contains k)

/-- The violations of the object of settings. -/
def settingsViolations : Value → List Located
  | .object fields =>
    booleanViolations (.object fields) "caseSensitive" ++
      booleanViolations (.object fields) "natural" ++
      minKeysViolations (.object fields) ++
      if (unexpectedNames fields).isEmpty then []
      else [⟨.item 1, .unexpected (unexpectedNames fields)⟩]
  | v => [⟨.item 1, .notOfKind v .object⟩]

/-- All violations, in the order in which they are looked for. -/
def violations (values : List Value) : List Located :=
  (match values[0]? with
    | some v => if (direction? v).isSome then [] else [⟨.item 0, .notADirection v⟩]
    | none => []) ++
  (match values[1]? with
    | some v => settingsViolations v
    | none => []) ++
  (if 2 < values.length then [⟨.whole, .tooLong values⟩] else [])

/-- The violation that is told. -/
def worst? (found : List Located) : Option Located :=
  found.foldl (fun best v =>
    match best with
    | none => some v
    | some b => if v.place.beats b.place then some v else some b) none

/-! ### Reading options -/

/-- Why options are refused. -/
inductive Refusal where
  /-- The value is not a sequence of anything. -/
  | notASequence (v : Value)
  | violation (v : Violation)
deriving Repr

/-- The values that options stand for: the items of an array, the characters of a string, the
names of an object, and none for a value that is empty in any way. -/
def values : Value → Except Refusal (List Value)
  | .null => .ok []
  | .bool false => .ok []
  | .bool true => .error (.notASequence (.bool true))
  | .number n => if n.isZero then .ok [] else .error (.notASequence (.number n))
  | .string s => .ok (s.map fun c => .string [c])
  | .array items => .ok items
  | .object fields => .ok (fields.map fun f => .string f.1)

/-- The values of options that have no violation. -/
def validate (options : Value) : Except Refusal (List Value) := do
  let vs ← values options
  match worst? (violations vs) with
  | some l => .error (.violation l.violation)
  | none => return vs

/-- A boolean setting. -/
def boolean (fields : Value) (name : String) (default : Bool) : Bool :=
  match fields.field? name with
  | some (.bool b) => b
  | _ => default

/-- The configuration that valid values describe. -/
def configuration (values : List Value) : Configuration :=
  let fields := values[1]?.getD (.object [])
  { direction := (values[0]?.bind direction?).getD .ascending
    caseSensitive := boolean fields "caseSensitive" true
    natural := boolean fields "natural" false
    minKeys := match fields.field? "minKeys" with
      | some (.number n) => n
      | _ => .integer 2 }

end Options

end KeyOrder
