import KeyOrder.Bisect
import KeyOrder.Fault

/-!
# Lines

A line ends with `\n`, and with nothing else.  The index of a text knows where its lines start
and converts between offsets, positions (line and column in characters, both from one) and
places (line from one, column in bytes of UTF-8 from zero).
-/

namespace KeyOrder

/-- The lines of a text, each with its line break.  The last one has none and may be empty. -/
def Text.lines : Text → List Text
  | [] => [[]]
  | c :: cs =>
    if c = '\n' then [c] :: Text.lines cs
    else
      match Text.lines cs with
      | [] => [[c]]
      | l :: ls => (c :: l) :: ls

/-- The offsets at which consecutive lines start, the first one at `offset`. -/
def lineStarts (offset : Nat) : List Text → List Nat
  | [] => []
  | l :: ls => offset :: lineStarts (offset + l.length) ls

/-- The lines of a text and where they start. -/
structure LineIndex where
  lines : Array Text
  starts : Array Nat
deriving Repr

/-- A place: a line from one and a column in bytes from zero. -/
structure Place where
  line : Nat
  column : Nat
deriving Repr, DecidableEq, Inhabited

/-- Places in the order of lines and then of columns. -/
def Place.le (a b : Place) : Bool :=
  a.line < b.line || (a.line == b.line && a.column ≤ b.column)

/-- The number of characters in the first `bytes` bytes of a text, all of it when it is shorter. -/
def charactersIn : Text → Nat → Outcome Nat
  | [], _ => .ok 0
  | _ :: _, 0 => .ok 0
  | c :: cs, bytes =>
    if bytes < c.utf8Size then .error .insideCharacter
    else (charactersIn cs (bytes - c.utf8Size)).map (· + 1)

namespace LineIndex

/-- The index of a text. -/
def ofText (text : Text) : LineIndex :=
  let ls := text.lines
  ⟨ls.toArray, (lineStarts 0 ls).toArray⟩

/-- The line that holds an offset, from one. -/
def lineOf (index : LineIndex) (offset : Nat) : Nat :=
  bisectArray (fun s : Nat => decide (offset < s)) index.starts

/-- The line and the column of an offset, both from one. -/
def position (index : LineIndex) (offset : Nat) : Nat × Nat :=
  let line := index.lineOf offset
  (line, offset - (index.starts[line - 1]?).getD 0 + 1)

/-- The offset of a place.  A column past the end of the line is taken for the end, line break
included.  Line zero is the start of the last line, whatever the column. -/
def offset (index : LineIndex) (place : Place) : Outcome Nat :=
  if place.line = 0 then
    match index.starts.back? with
    | some s => .ok s
    | none => .error .noSuchLine
  else
    match index.starts[place.line - 1]?, index.lines[place.line - 1]? with
    | some s, some l => (charactersIn l place.column).map (s + ·)
    | _, _ => .error .noSuchLine

end LineIndex

end KeyOrder
