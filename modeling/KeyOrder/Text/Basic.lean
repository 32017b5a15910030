/-!
# Texts and ranges

A text is a sequence of characters, and positions in it are offsets from zero.  A range is half
open.
-/

namespace KeyOrder

/-- A text. -/
abbrev Text := List Char

/-- A half-open range of offsets. -/
structure Range where
  start : Nat
  stop : Nat
deriving Repr, DecidableEq, Inhabited

namespace Range

/-- Ranges in the order of their starts, and of their ends when they start together. -/
def le (a b : Range) : Bool :=
  a.start < b.start || (a.start == b.start && a.stop ≤ b.stop)

/-- A range as it appears in messages. -/
def display (r : Range) : String := "(" ++ toString r.start ++ ", " ++ toString r.stop ++ ")"

end Range

/-- The part of a text from one offset to another; what lies past the end is left out. -/
def Text.slice (text : Text) (start stop : Nat) : Text := (text.drop start).take (stop - start)

end KeyOrder
