import KeyOrder.Unicode.Printable

/-!
# Quoted strings

The form in which strings and byte strings appear in messages and entry names.  Single quotes
are used unless the string holds a single quote and no double quote.  What cannot be printed is
written as an escape: `\t`, `\n` and `\r` by name and all else by number.
-/

namespace KeyOrder

namespace Quoted

/-- A lower-case hexadecimal numeral of at least `width` digits. -/
def hex (width n : Nat) : CodePoints :=
  let digits := (Nat.toDigits 16 n).map Char.toNat
  List.replicate (width - digits.length) '0'.toNat ++ digits

/-- The quote around a string with the given content. -/
def quoteFor (s : CodePoints) : CodePoint :=
  if s.contains '\''.toNat && !s.contains '"'.toNat then '"'.toNat else '\''.toNat

/-- The escapes that strings and byte strings share, and nothing for any other code point. -/
def escape? (quote c : CodePoint) : Option CodePoints :=
  if c = quote ∨ c = '\\'.toNat then some ['\\'.toNat, c]
  else if c = '\t'.toNat then some (codePoints "\\t")
  else if c = '\n'.toNat then some (codePoints "\\n")
  else if c = '\r'.toNat then some (codePoints "\\r")
  else if c < 0x20 ∨ c = 0x7f then some (codePoints "\\x" ++ hex 2 c)
  else none

/-- One code point of a quoted string. -/
def writePoint (quote c : CodePoint) : CodePoints :=
  match escape? quote c with
  | some e => e
  | none =>
    if c < 0x7f ∨ Unicode.printable.contains c then [c]
    else if c < 0x100 then codePoints "\\x" ++ hex 2 c
    else if c < 0x10000 then codePoints "\\u" ++ hex 4 c
    else codePoints "\\U" ++ hex 8 c

/-- One byte of a quoted byte string. -/
def writeByte (quote b : Nat) : CodePoints :=
  match escape? quote b with
  | some e => e
  | none => if b < 0x7f then [b] else codePoints "\\x" ++ hex 2 b

/-- A quoted string. -/
def string (s : CodePoints) : CodePoints :=
  let q := quoteFor s
  q :: s.flatMap (writePoint q) ++ [q]

/-- A quoted byte string. -/
def bytes (s : List Nat) : CodePoints :=
  let q := quoteFor s
  'b'.toNat :: q :: s.flatMap (writeByte q) ++ [q]

end Quoted

end KeyOrder
