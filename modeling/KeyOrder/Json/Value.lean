import KeyOrder.Decimal.Notation
import KeyOrder.Text.Quoted

/-!
# JSON values

Values as they are read: the fields of an object keep their order, and a number remembers
whether it was written as an integer.  `display` is the form in which a value appears in
messages.
-/

namespace KeyOrder

namespace Json

/-- A number: an integer, or a double precision number when it was written with a fraction or an
exponent. -/
inductive Number where
  | integer (n : Int)
  | float (negative : Bool) (magnitude : Binary64)
deriving Repr, DecidableEq

namespace Number

/-- The value of a number that is an integer. -/
def toInt? : Number → Option Int
  | integer n => some n
  | float negative x => x.toNat?.map fun n => if negative then -(n : Int) else n

/-- Whether the number is zero. -/
def isZero : Number → Bool
  | integer n => n == 0
  | float _ (.finite m _) => m == 0
  | float _ .infinite => false

/-- Whether the number is less than the integer `k`. -/
def below (k : Nat) : Number → Bool
  | integer n => decide (n < k)
  | float true x => decide (0 < k) || x == .infinite || !isZero (float true x)
  | float false .infinite => false
  | float false (.finite m e) =>
    if 0 ≤ e then decide (m * Nat.pow 2 e.toNat < k) else decide (m < k * Nat.pow 2 (-e).toNat)

/-- The number as it appears in messages. -/
def display : Number → String
  | integer n => toString n
  | float negative x => (if negative then "-" else "") ++ FloatNotation.standard.write x

end Number

/-- A JSON value. -/
inductive Value where
  | null
  | bool (b : Bool)
  | number (n : Number)
  | string (s : CodePoints)
  | array (items : List Value)
  | object (fields : List (CodePoints × Value))
deriving Repr, Inhabited

namespace Value

/-- Joins pieces with a comma and a space. -/
def commaSeparated (pieces : List CodePoints) : CodePoints :=
  (pieces.intersperse (codePoints ", ")).flatten

mutual

/-- A value as it appears in messages. -/
def display : Value → CodePoints
  | null => codePoints "None"
  | bool true => codePoints "True"
  | bool false => codePoints "False"
  | number n => codePoints n.display
  | string s => Quoted.string s
  | array items => codePoints "[" ++ commaSeparated (displayItems items) ++ codePoints "]"
  | object fields =>
    codePoints "\x7b" ++ commaSeparated (displayFields fields) ++ codePoints "\x7d"

/-- The items of an array as they appear in messages. -/
def displayItems : List Value → List CodePoints
  | [] => []
  | v :: vs => display v :: displayItems vs

/-- The fields of an object as they appear in messages. -/
def displayFields : List (CodePoints × Value) → List CodePoints
  | [] => []
  | (k, v) :: fs => (Quoted.string k ++ codePoints ": " ++ display v) :: displayFields fs

end

/-- A string value from a string. -/
def ofString (s : String) : Value := string (codePoints s)

/-- The value of a field of an object. -/
def field? (v : Value) (name : String) : Option Value :=
  match v with
  | object fields => (fields.find? fun f => f.1 == codePoints name).map Prod.snd
  | _ => none

end Value

end Json

end KeyOrder
