import KeyOrder.Container.EntryName
import KeyOrder.Segment

/-!
# Relocation

The edits that put the entries of a container in order.  Every named entry moves to its place by
replacing the text of the entry that stands there.  Comments that an entry owns move with it:

* those on lines of their own directly above it, unless they start on the line where the comma or
  the bracket before them ends; those belong to what precedes;
* those after its comma on its last line.

Entries never cross a spread, and entries without a name stay where they are.
-/

namespace KeyOrder

namespace Relocation

/-! ### Comments -/

/-- The range up to and with the comma after an entry, or the entry itself when none follows. -/
def commaAfter (src : Source) (e : Entry) : Range × Nat :=
  match src.codeAfter e.range.stop with
  | some t => if t.is "," then (t.range, t.endLine) else (e.range, e.endLine)
  | none => (e.range, e.endLine)

/-- The comments after the comma of an entry on the last line of the entry. -/
def trailingComments (src : Source) (e : Entry) : List Token :=
  (src.commentsAfter (commaAfter src e).1.stop).filter fun c => c.startLine == e.endLine

/-- The comments before an entry: those that belong to what precedes it, and those that it
owns. -/
structure Before where
  kept : List Token
  leading : List Token

/-- The comments before an entry, given the token before it. -/
def commentsBefore (src : Source) (e : Entry) (before : Token) : Before :=
  let comments := src.commentsBefore e.range.start
  { kept := comments.filter fun c => c.startLine == before.endLine
    leading := comments.filter fun c => c.startLine != before.endLine }

/-! ### Moving one entry -/

/-- The edits that move the comments above `e` to `slot`.  A line break keeps the last of them
from swallowing what stands at the slot. -/
def moveLeading (src : Source) (e slot : Entry) : Outcome (List Edit) :=
  match src.codeBefore e.range.start with
  | none => .error .misplaced
  | some before =>
    let comments := commentsBefore src e before
    match comments.leading.getLast? with
    | none => .ok []
    | some last =>
      let start := (comments.kept.getLast?.map (·.range.stop)).getD before.range.stop
      let range : Range := ⟨start, last.range.stop⟩
      match src.tokenBefore true slot.range.start with
      | none => .error .misplaced
      | some anchor =>
        .ok ([Edit.remove range, Edit.insertAfter anchor.range (src.slice range)] ++
          if anchor.endLine = slot.startLine then [Edit.insertBefore slot.range ['\n']] else [])

/-- The edits that move the comments after `e` to `slot`.  A line break keeps the last of them
from swallowing what follows the slot; the comments that leave the slot do not count. -/
def moveTrailing (src : Source) (e slot : Entry) : List Edit :=
  match (trailingComments src e).getLast? with
  | none => []
  | some last =>
    let range : Range := ⟨(commaAfter src e).1.stop, last.range.stop⟩
    let (target, targetLine) := commaAfter src slot
    let displaced := (trailingComments src slot).getLast?
    let following := src.tokenAfter true ((displaced.map (·.range.stop)).getD target.stop)
    [Edit.remove range, Edit.insertAfter target (src.slice range)] ++
      match following with
      | some t => if t.startLine = targetLine then [Edit.insertBefore t.range ['\n']] else []
      | none => []

/-- The edits that move an entry to a slot. -/
def move (src : Source) (e slot : Entry) : Outcome (List Edit) := do
  let leading ← moveLeading src e slot
  return Edit.replace slot.range (src.slice e.range) :: leading ++ moveTrailing src e slot

/-! ### Moving all entries -/

/-- An entry with a name, and its number among those of its segment. -/
structure Named where
  index : Nat
  entry : Entry
  name : Name

/-- The entries of a segment that have a name, numbered from `i` on. -/
def namedFrom (i : Nat) : List Entry → Outcome (List Named)
  | [] => .ok []
  | e :: es => do
    match ← e.name with
    | some n => return ⟨i, e, n⟩ :: (← namedFrom (i + 1) es)
    | none => namedFrom i es

/-- The edits that put each entry of the first list at the slot of the second; an entry that is
already there is left alone. -/
def moveAll (src : Source) : List Named → List Named → Outcome (List Edit)
  | x :: xs, s :: ss => do
    let here ← if x.index = s.index then .ok [] else move src x.entry s.entry
    return here ++ (← moveAll src xs ss)
  | _, _ => .ok []

/-- The edits that put a segment in order. -/
def sortSegment (src : Source) (o : Order) (segment : List Entry) : Outcome (List Edit) := do
  let slots ← namedFrom 0 segment
  let ordered ← Outcome.ofDigits (o.sortOn Named.name slots)
  moveAll src ordered slots

/-- The edits that put the entries of a container in order. -/
def edits (src : Source) (o : Order) (c : Container) : Outcome (List Edit) := do
  return (← (segments c.entries).mapM (sortSegment src o)).flatten

end Relocation

/-- The containers that have been relocated.  Each one is relocated at most once: all of its
entries move together, and a later request gets no edits. -/
structure Relocator where
  done : List (List Nat)
deriving Repr, DecidableEq

namespace Relocator

/-- Before any request. -/
def fresh : Relocator := ⟨[]⟩

/-- The edits for a container, none when it was asked for before.  It counts as asked for even
when its edits cannot be found. -/
def fix (src : Source) (o : Order) (r : Relocator) (c : Container) :
    Outcome (List Edit) × Relocator :=
  if r.done.contains c.path then (.ok [], r)
  else (Relocation.edits src o c, ⟨c.path :: r.done⟩)

end Relocator

end KeyOrder
