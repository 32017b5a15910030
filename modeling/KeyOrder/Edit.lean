import KeyOrder.Sorting
import KeyOrder.Text.Basic

/-!
# Edits

An edit replaces a range of a text.  The edits of one fix are merged into a single edit, which is
refused when two of them overlap; the fixes of one pass are applied together, each one that
starts past the end of the last one applied.
-/

namespace KeyOrder

/-- The replacement of a range by a text. -/
structure Edit where
  range : Range
  text : Text
deriving Repr, DecidableEq, Inhabited

namespace Edit

/-! ### Making edits -/

/-- Replaces a range. -/
def replace (range : Range) (text : Text) : Edit := ⟨range, text⟩

/-- Removes a range. -/
def remove (range : Range) : Edit := ⟨range, []⟩

/-- Inserts after a range. -/
def insertAfter (range : Range) (text : Text) : Edit := ⟨⟨range.stop, range.stop⟩, text⟩

/-- Inserts before a range. -/
def insertBefore (range : Range) (text : Text) : Edit := ⟨⟨range.start, range.start⟩, text⟩

/-- Edits in the order of their ranges; edits of equal ranges keep their order. -/
def inOrder (edits : List Edit) : List Edit := sort (fun a b => a.range.le b.range) edits

/-- The text after one edit. -/
def apply (e : Edit) (text : Text) : Text :=
  text.take e.range.start ++ e.text ++ text.drop e.range.stop

/-! ### Merging the edits of one fix -/

/-- Why edits could not be merged. -/
inductive MergeError where
  /-- There were no edits. -/
  | empty
  /-- An edit starts before the end of an earlier one. -/
  | overlap (range : Range) (last : Nat)
deriving Repr, DecidableEq

/-- The replacement text of edits in order, from the offset `last` on, and where they end. -/
def mergeFrom (text : Text) (last : Nat) : List Edit → Except MergeError (Text × Nat)
  | [] => .ok ([], last)
  | e :: es =>
    if e.range.start < last then .error (.overlap e.range last)
    else do
      let (rest, stop) ← mergeFrom text e.range.stop es
      return (text.slice last e.range.start ++ e.text ++ rest, stop)

/-- One edit that does what all of them do together.  Edits are applied in the order of their
ranges, and insertions at one offset in the order in which they were made. -/
def merge (edits : List Edit) (text : Text) : Except MergeError Edit :=
  match inOrder edits with
  | [] => .error .empty
  | e :: es => do
    let (t, stop) ← mergeFrom text e.range.start (e :: es)
    return ⟨⟨e.range.start, stop⟩, t⟩

/-! ### Applying the fixes of one pass -/

/-- The result of applying the fixes of a pass. -/
structure Applied where
  output : Text
  /-- How many fixes were applied. -/
  count : Nat
  /-- The ranges of the fixes that were left for a later pass. -/
  deferred : List Range
deriving Repr, DecidableEq

/-- Goes through fixes in order.  `last` is the end of the last one applied, and the text from
there on has not been written yet. -/
def applyFrom (text : Text) (last : Option Nat) : List Edit → Applied
  | [] => ⟨text.drop (last.getD 0), 0, []⟩
  | e :: es =>
    if last.any (e.range.start ≤ ·) then
      let r := applyFrom text last es
      { r with deferred := e.range :: r.deferred }
    else
      let r := applyFrom text (some e.range.stop) es
      { r with
        output := text.slice (last.getD 0) e.range.start ++ e.text ++ r.output
        count := r.count + 1 }

/-- Applies every fix that starts past the end of the one applied before it. -/
def applyAll (text : Text) (fixes : List Edit) : Applied :=
  applyFrom text none (inOrder fixes)

end Edit

end KeyOrder
