import KeyOrder.Json.Reader
import KeyOrder.Order.NaturalKey
import KeyOrder.Syntax.Node
import KeyOrder.Token.Shape

/-!
# Literals

The values of numbers and strings as they are written.  A malformed escape, a character outside
of ASCII in a byte string and a decimal integer of too many digits have no value.
-/

namespace KeyOrder

namespace Literal

/-! ### Numbers -/

/-- The value of a numeral in a base, underscores being passed over. -/
def numeral (base : Nat) (digits : Text) : Nat :=
  digits.foldl (fun n c => if c = '_' then n else base * n + (Json.hexValue? c).getD 0) 0

/-- A double precision number from its decimal form. -/
def float (cs : Text) : Binary64 :=
  let cs := cs.filter (· != '_')
  let isExponentMark := fun c : Char => c == 'e' || c == 'E'
  let mantissa := cs.takeWhile fun c => !isExponentMark c
  let whole := mantissa.takeWhile (· != '.')
  let fraction := (mantissa.dropWhile (· != '.')).drop 1
  let exponent : Int := match cs.drop (mantissa.length + 1) with
    | '-' :: ds => -(numeral 10 ds : Int)
    | '+' :: ds => numeral 10 ds
    | ds => numeral 10 ds
  Binary64.ofDecimal (numeral 10 (whole ++ fraction)) (exponent - fraction.length)

/-- The value of a number. -/
def number? (cs : Text) : Option Constant :=
  match cs with
  | '0' :: x :: rest =>
    if x == 'x' || x == 'X' then some (.integer (numeral 16 rest))
    else if x == 'o' || x == 'O' then some (.integer (numeral 8 rest))
    else if x == 'b' || x == 'B' then some (.integer (numeral 2 rest))
    else decimal? cs
  | _ => decimal? cs
where
  /-- The value of a number in decimal form. -/
  decimal? (cs : Text) : Option Constant :=
    match cs.getLast? with
    | none => none
    | some c =>
      if c == 'j' || c == 'J' then some (.imaginary (float cs.dropLast))
      else if cs.all fun c => c.isDigit || c == '_' then
        let n := numeral 10 cs
        if n ≠ 0 ∧ digitLimit < (cs.filter (· != '_')).length then none else some (.integer n)
      else some (.float (float cs))

/-! ### Strings -/

/-- A string literal without its prefix and quotes, and what the prefix says. -/
structure Quotation where
  bytes : Bool
  raw : Bool
  template : Bool
  /-- The number of characters before the body. -/
  lead : Nat
  body : Text

/-- Takes a string literal apart. -/
def quotation? (cs : Text) : Option Quotation :=
  (Shape.stringStart? cs).map fun (n, d) =>
    let letters := (cs.take n).map Char.toLower
    let lead := n + d.length
    { bytes := letters.contains 'b'
      raw := letters.contains 'r'
      template := letters.contains 'f'
      lead := lead
      body := (cs.drop lead).take (cs.length - lead - d.length) }

/-- The character that a single-letter escape denotes. -/
def simpleEscape? : Char → Option Nat
  | '\\' => some '\\'.toNat
  | '\'' => some '\''.toNat
  | '"' => some '"'.toNat
  | 'a' => some 7
  | 'b' => some 8
  | 'f' => some 12
  | 'n' => some 10
  | 'r' => some 13
  | 't' => some 9
  | 'v' => some 11
  | _ => none

/-- Whether a character is an octal digit. -/
def isOctal (c : Char) : Bool := '0' ≤ c && c ≤ '7'

/-- Reads exactly `n` hexadecimal digits. -/
def hexDigits? (n : Nat) (cs : Text) : Option Nat :=
  let ds := cs.take n
  if ds.length = n ∧ ds.all Shape.isHexDigit then some (numeral 16 ds) else none

/-- Stands for a character that an escape names.  Names of characters are not looked up, and this is
no code point. -/
def unnamed : Nat := 0x110000

/-- What a backslash and the text after it denote, and how much of that text belongs to the
escape.  An unknown escape stands for itself. -/
def escape? (bytes : Bool) (cs : Text) : Option (CodePoints × Nat) :=
  match cs with
  | [] => some (['\\'.toNat], 0)
  | c :: rest =>
    if c = '\n' then some ([], 1)
    else
      match simpleEscape? c with
      | some n => some ([n], 1)
      | none =>
        if isOctal c then
          let ds := (cs.take 3).takeWhile isOctal
          let n := numeral 8 ds
          some ([if bytes then n % 256 else n], ds.length)
        else if c = 'x' then (hexDigits? 2 rest).map fun n => ([n], 3)
        else if bytes then some (['\\'.toNat, c.toNat], 1)
        else if c = 'u' then (hexDigits? 4 rest).map fun n => ([n], 5)
        else if c = 'U' then
          (hexDigits? 8 rest).bind fun n => if n < 0x110000 then some ([n], 9) else none
        else if c = 'N' then
          match rest with
          | '\x7b' :: named =>
            let name := named.takeWhile (· != '\x7d')
            if name.isEmpty || name.length = named.length then none
            else some ([unnamed], name.length + 3)
          | _ => none
        else some (['\\'.toNat, c.toNat], 1)

/-- The code points that the body of a string denotes. -/
def decode? (bytes : Bool) : Text → Option CodePoints
  | [] => some []
  | c :: cs =>
    if c = '\\' then do
      let (points, n) ← escape? bytes cs
      let rest ← decode? bytes (cs.drop n)
      return points ++ rest
    else do
      let rest ← decode? bytes cs
      return c.toNat :: rest
termination_by cs => cs.length
decreasing_by all_goals (simp only [List.length_drop, List.length_cons]; omega)

/-- The code points that the body of a string denotes, when its prefix may turn escapes off. -/
def decodeBody? (bytes raw : Bool) (body : Text) : Option CodePoints :=
  if raw then some (body.map Char.toNat) else decode? bytes body

/-- Whether an escape in the body of a string names a character. -/
def bodyNamesCharacter : Text → Bool
  | '\\' :: 'N' :: '\x7b' :: _ => true
  | '\\' :: _ :: cs => bodyNamesCharacter cs
  | _ :: cs => bodyNamesCharacter cs
  | [] => false

/-- Whether a string literal names a character in an escape.  Only in a string of characters whose
prefix leaves escapes on does such an escape count. -/
def namesCharacter (cs : Text) : Bool :=
  match quotation? cs with
  | some q => !q.bytes && !q.raw && bodyNamesCharacter q.body
  | none => false

/-- The value of a byte string. -/
def bytes? (q : Quotation) : Option (List Nat) :=
  if q.body.all (·.toNat < 0x80) then decodeBody? true q.raw q.body else none

end Literal

end KeyOrder
