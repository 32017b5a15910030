import KeyOrder.Token.Basic
import KeyOrder.Unicode.Identifier
import KeyOrder.Unicode.Word

/-!
# Shapes of tokens

What stands at the start of a text, told by its length: a number, an operator, a name, a string
or an unfinished string, a comment, a line break.  Blanks have been passed over before.
-/

namespace KeyOrder

namespace Shape

/-! ### Numbers -/

/-- The length of the longest start of the form `(_?d)*`, with digits `d` of the class `p`. -/
def underscored (p : Char → Bool) : Text → Nat
  | '_' :: c :: cs => if p c then 2 + underscored p cs else 0
  | c :: cs => if p c then 1 + underscored p cs else 0
  | [] => 0

/-- The length of a decimal numeral with single underscores between digits. -/
def digitPart : Text → Nat
  | c :: cs => if c.isDigit then 1 + underscored Char.isDigit cs else 0
  | [] => 0

/-- The length of an exponent, zero when there is none. -/
def exponent : Text → Nat
  | e :: cs =>
    if e == 'e' || e == 'E' then
      let sign := match cs with
        | s :: _ => if s == '+' || s == '-' then 1 else 0
        | [] => 0
      let digits := digitPart (cs.drop sign)
      if digits = 0 then 0 else 1 + sign + digits
    else 0
  | [] => 0

/-- The length of a number with a point or an exponent, zero when there is none. -/
def float (cs : Text) : Nat :=
  let whole := digitPart cs
  match cs.drop whole with
  | '.' :: rest =>
    let fraction := digitPart rest
    if whole = 0 ∧ fraction = 0 then 0
    else whole + 1 + fraction + exponent (rest.drop fraction)
  | rest => if whole = 0 ∨ exponent rest = 0 then 0 else whole + exponent rest

/-- Whether a character is the mark of an imaginary number. -/
def isImaginaryMark (c : Option Char) : Bool := c == some 'j' || c == some 'J'

/-- Whether a character is a hexadecimal digit. -/
def isHexDigit (c : Char) : Bool :=
  c.isDigit || ('a' ≤ c && c ≤ 'f') || ('A' ≤ c && c ≤ 'F')

/-- The length of an integer, zero when there is none.  Zero may only be followed by zeros. -/
def integer (cs : Text) : Nat :=
  let based := match cs with
    | '0' :: x :: rest =>
      if x == 'x' || x == 'X' then underscored isHexDigit rest
      else if x == 'b' || x == 'B' then underscored (fun c => c == '0' || c == '1') rest
      else if x == 'o' || x == 'O' then underscored (fun c => '0' ≤ c && c ≤ '7') rest
      else 0
    | _ => 0
  if based ≠ 0 then 2 + based
  else
    match cs with
    | '0' :: rest => 1 + underscored (· == '0') rest
    | _ => digitPart cs

/-- The length of a number, zero when there is none. -/
def number (cs : Text) : Nat :=
  let whole := digitPart cs
  let real := float cs
  if whole ≠ 0 ∧ isImaginaryMark cs[whole]? then whole + 1
  else if real ≠ 0 then if isImaginaryMark cs[real]? then real + 1 else real
  else integer cs

/-! ### Operators -/

/-- The operators and delimiters, a longer one before its own beginnings. -/
def operators : List Text :=
  ["...", "**=", "//=", "<<=", ">>=", "!=", "%=", "&=", "**", "*=", "+=", "-=", "->", "//", "/=",
   ":=", "<<", "<=", "==", ">=", ">>", "@=", "^=", "|=", "%", "&", "(", ")", "*", "+", ",", "-",
   ".", "/", ":", ";", "<", "=", ">", "@", "[", "]", "^", "\x7b", "|", "\x7d", "~"].map
    String.toList

/-- The length of an operator, zero when there is none. -/
def operator (cs : Text) : Nat :=
  ((operators.find? (·.isPrefixOf cs)).map List.length).getD 0

/-! ### Strings -/

/-- How a string is delimited: its quote, once or three times. -/
structure Delimiter where
  quote : Char
  triple : Bool
deriving Repr, DecidableEq

/-- The letters that may stand before the opening quote, in lower case. -/
def stringPrefixes : List String := ["", "b", "r", "u", "f", "br", "rb", "fr", "rf"]

/-- The delimiter that a text starts with. -/
def quotes? : Text → Option Delimiter
  | a :: b :: c :: _ =>
    if a == '\'' || a == '"' then some ⟨a, a == b && a == c⟩ else none
  | a :: _ => if a == '\'' || a == '"' then some ⟨a, false⟩ else none
  | [] => none

/-- The length of the letters before the opening quote of a string, and its delimiter. -/
def stringStart? (cs : Text) : Option (Nat × Delimiter) :=
  let letters := cs.takeWhile Char.isAlpha
  if stringPrefixes.contains (String.ofList (letters.map Char.toLower)) then
    (quotes? (cs.drop letters.length)).map (letters.length, ·)
  else none

/-- The number of quotes of a delimiter. -/
def Delimiter.length (d : Delimiter) : Nat := if d.triple then 3 else 1

/-- The length of the rest of a string up to and with its closing quotes.  A backslash hides the
character after it, and none is found when that is a line break. -/
def closing (d : Delimiter) : Text → Option Nat
  | '\\' :: c :: cs => if c = '\n' then none else (closing d cs).map (· + 2)
  | c :: cs =>
    if c = '\\' then none
    else if c = d.quote ∧ (d.triple = false ∨ [c, c].isPrefixOf cs) then some d.length
    else (closing d cs).map (· + 1)
  | [] => none

/-- How the first line of a string between single quotes ends. -/
inductive FirstLine where
  /-- With the closing quote, after so many characters. -/
  | closed (length : Nat)
  /-- With a backslash before the line break. -/
  | continued

/-- One more character before the end of a first line. -/
def FirstLine.later (n : Nat) : FirstLine → FirstLine
  | closed m => closed (n + m)
  | continued => continued

/-- The rest of the first line of a string between single quotes. -/
def firstLine (quote : Char) : Text → Option FirstLine
  | '\\' :: '\n' :: _ => some .continued
  | '\\' :: '\r' :: '\n' :: _ => some .continued
  | '\\' :: _ :: cs => (firstLine quote cs).map (.later 2)
  | c :: cs =>
    if c = '\\' ∨ c = '\n' then none
    else if c = quote then some (.closed 1)
    else (firstLine quote cs).map (.later 1)
  | [] => none

/-! ### What stands at the start of a text -/

/-- What stands at the start of a line's rest, once blanks are passed over. -/
inductive Head where
  /-- Nothing more. -/
  | nothing
  /-- A backslash before the line break. -/
  | continuation (length : Nat)
  /-- The line break. -/
  | lineBreak (length : Nat)
  /-- A token. -/
  | token (kind : TokenKind) (length : Nat)
  /-- A string that goes on in the next line. -/
  | openString (delimiter : Delimiter)

/-- The string at the start of a text. -/
def string? (cs : Text) : Option Head :=
  (stringStart? cs).bind fun (n, d) =>
    let body := cs.drop (n + d.length)
    if d.triple then
      some (match closing d body with
        | some m => .token .string (n + 3 + m)
        | none => .openString d)
    else
      (firstLine d.quote body).map fun
        | .closed m => .token .string (n + 1 + m)
        | .continued => .openString d

/-- The word at the start of a text.  A word that starts with no letter is taken for an
operator. -/
def word? (cs : Text) : Option Head :=
  let n := (cs.takeWhile Unicode.isWord).length
  if n = 0 then none
  else
    let starts := (cs.head?.map fun c => Unicode.startsIdentifier c.toNat).getD false
    some (.token (if starts then .name else .operator) n)

/-- What stands at the start of a text, if anything does that is known. -/
def head? (cs : Text) : Option Head :=
  match cs with
  | [] => some .nothing
  | '\\' :: '\n' :: _ => some (.continuation 2)
  | '\\' :: '\r' :: '\n' :: _ => some (.continuation 3)
  | '\n' :: _ => some (.lineBreak 1)
  | '\r' :: '\n' :: _ => some (.lineBreak 2)
  | '#' :: rest =>
    some (.token .comment (1 + (rest.takeWhile fun c => c != '\r' && c != '\n').length))
  | _ =>
    if number cs ≠ 0 then some (.token .number (number cs))
    else if operator cs ≠ 0 then some (.token .operator (operator cs))
    else
      match string? cs with
      | some h => some h
      | none => word? cs

end Shape

end KeyOrder
