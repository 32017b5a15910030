import KeyOrder.Json.Value

/-!
# Reading and writing JSON

Reading keeps the order of fields; of two fields with one name the later value stands at the
place of the earlier.  A pair of surrogate escapes is one code point, and an unpaired surrogate
escape stays as it is.
-/

namespace KeyOrder

namespace Json

/-! ### Reading -/

/-- Drops white space. -/
def skipBlanks (cs : List Char) : List Char :=
  cs.dropWhile fun c => c == ' ' || c == '\t' || c == '\n' || c == '\r'

/-- The value of a hexadecimal digit of either case. -/
def hexValue? (c : Char) : Option Nat :=
  if c.isDigit then some (c.toNat - '0'.toNat)
  else if 'a' ≤ c ∧ c ≤ 'f' then some (c.toNat - 'a'.toNat + 10)
  else if 'A' ≤ c ∧ c ≤ 'F' then some (c.toNat - 'A'.toNat + 10)
  else none

/-- Reads the four hexadecimal digits of an escape. -/
def readUnit : List Char → Option (Nat × List Char)
  | a :: b :: c :: d :: rest => do
    let a ← hexValue? a
    let b ← hexValue? b
    let c ← hexValue? c
    let d ← hexValue? d
    some (((a * 16 + b) * 16 + c) * 16 + d, rest)
  | _ => none

/-- The character that a single-letter escape denotes. -/
def simpleEscape? : Char → Option Char
  | '"' => some '"'
  | '\\' => some '\\'
  | '/' => some '/'
  | 'b' => some '\x08'
  | 'f' => some '\x0c'
  | 'n' => some '\n'
  | 'r' => some '\r'
  | 't' => some '\t'
  | _ => none

/-- Joins each high surrogate with a low surrogate that follows it. -/
def joinSurrogates : CodePoints → CodePoints
  | a :: b :: rest =>
    if 0xd800 ≤ a ∧ a < 0xdc00 ∧ 0xdc00 ≤ b ∧ b < 0xe000 then
      (0x10000 + (a - 0xd800) * 0x400 + (b - 0xdc00)) :: joinSurrogates rest
    else a :: joinSurrogates (b :: rest)
  | cs => cs

/-- Reads the rest of a string, after its opening quote. -/
def readString : Nat → List Char → Option (CodePoints × List Char)
  | 0, _ => none
  | _, [] => none
  | _, '"' :: rest => some ([], rest)
  | fuel + 1, '\\' :: 'u' :: rest => do
    let (u, rest) ← readUnit rest
    let (s, rest) ← readString fuel rest
    some (u :: s, rest)
  | fuel + 1, '\\' :: c :: rest => do
    let e ← simpleEscape? c
    let (s, rest) ← readString fuel rest
    some (e.toNat :: s, rest)
  | fuel + 1, c :: rest => do
    let (s, rest) ← readString fuel rest
    some (c.toNat :: s, rest)

/-- The value of a decimal numeral. -/
def decimalNumber (digits : List Char) : Nat :=
  digits.foldl (fun n c => 10 * n + (c.toNat - '0'.toNat)) 0

/-- Reads a number. -/
def readNumber (cs : List Char) : Option (Number × List Char) :=
  let (negative, cs) := match cs with
    | '-' :: rest => (true, rest)
    | _ => (false, cs)
  let whole := cs.takeWhile Char.isDigit
  let cs := cs.dropWhile Char.isDigit
  if whole.isEmpty then none
  else
    let (fraction, cs) := match cs with
      | '.' :: rest =>
        if (rest.takeWhile Char.isDigit).isEmpty then ([], cs)
        else (rest.takeWhile Char.isDigit, rest.dropWhile Char.isDigit)
      | _ => ([], cs)
    let (exponent, cs) := match cs with
      | e :: rest =>
        if e == 'e' || e == 'E' then
          let (down, rest) := match rest with
            | '-' :: r => (true, r)
            | '+' :: r => (false, r)
            | r => (false, r)
          let digits := rest.takeWhile Char.isDigit
          if digits.isEmpty then (none, cs)
          else
            let n : Int := decimalNumber digits
            (some (if down then -n else n), rest.dropWhile Char.isDigit)
        else (none, cs)
      | [] => (none, cs)
    if fraction.isEmpty && exponent.isNone then
      let n : Int := decimalNumber whole
      some (.integer (if negative then -n else n), cs)
    else
      let digits := decimalNumber (whole ++ fraction)
      let e := exponent.getD 0 - fraction.length
      some (.float negative (Binary64.ofDecimal digits e), cs)

/-- Adds a field, or replaces the value of the field with that name. -/
def addField (fields : List (CodePoints × Value)) (k : CodePoints) (v : Value) :
    List (CodePoints × Value) :=
  if fields.any (·.1 == k) then fields.map fun f => if f.1 == k then (k, v) else f
  else fields ++ [(k, v)]

mutual

/-- Reads a value. -/
def readValue : Nat → List Char → Option (Value × List Char)
  | 0, _ => none
  | fuel + 1, cs =>
    match skipBlanks cs with
    | 'n' :: 'u' :: 'l' :: 'l' :: rest => some (.null, rest)
    | 't' :: 'r' :: 'u' :: 'e' :: rest => some (.bool true, rest)
    | 'f' :: 'a' :: 'l' :: 's' :: 'e' :: rest => some (.bool false, rest)
    | '"' :: rest => do
      let (s, rest) ← readString (rest.length + 1) rest
      some (.string (joinSurrogates s), rest)
    | '[' :: rest =>
      match skipBlanks rest with
      | ']' :: rest => some (.array [], rest)
      | rest => do
        let (items, rest) ← readItems fuel rest
        some (.array items, rest)
    | '\x7b' :: rest =>
      match skipBlanks rest with
      | '\x7d' :: rest => some (.object [], rest)
      | rest => do
        let (fields, rest) ← readFields fuel [] rest
        some (.object fields, rest)
    | cs => (readNumber cs).map fun (n, rest) => (.number n, rest)

/-- Reads the items of an array up to its closing bracket. -/
def readItems : Nat → List Char → Option (List Value × List Char)
  | 0, _ => none
  | fuel + 1, cs => do
    let (v, rest) ← readValue fuel cs
    match skipBlanks rest with
    | ',' :: rest =>
      let (vs, rest) ← readItems fuel rest
      some (v :: vs, rest)
    | ']' :: rest => some ([v], rest)
    | _ => none

/-- Reads the fields of an object up to its closing brace, after the fields read so far. -/
def readFields : Nat → List (CodePoints × Value) → List Char →
    Option (List (CodePoints × Value) × List Char)
  | 0, _, _ => none
  | fuel + 1, fields, cs =>
    match skipBlanks cs with
    | '"' :: rest => do
      let (k, rest) ← readString (rest.length + 1) rest
      match skipBlanks rest with
      | ':' :: rest =>
        let (v, rest) ← readValue fuel rest
        let fields := addField fields (joinSurrogates k) v
        match skipBlanks rest with
        | ',' :: rest => readFields fuel fields rest
        | '\x7d' :: rest => some (fields, rest)
        | _ => none
      | _ => none
    | _ => none

end

/-- Reads a text that holds one value. -/
def Value.ofText? (s : String) : Option Value :=
  let cs := s.toList
  match readValue (cs.length + 1) cs with
  | some (v, rest) => if (skipBlanks rest).isEmpty then some v else none
  | none => none

/-! ### Writing -/

/-- A code point of a written string.  Controls, line and paragraph separators, the byte order
mark and surrogates are escaped. -/
def writePoint (c : CodePoint) : String :=
  if c = '"'.toNat then "\\\""
  else if c = '\\'.toNat then "\\\\"
  else if c < 0x20 ∨ c = 0x7f ∨ c = 0x85 ∨ c = 0x2028 ∨ c = 0x2029 ∨ c = 0xfeff ∨
      (0xd800 ≤ c ∧ c < 0xe000) then
    "\\u" ++ String.ofList ((Quoted.hex 4 c).map Char.ofNat)
  else String.singleton (Char.ofNat c)

/-- A written string. -/
def writeString (s : CodePoints) : String :=
  "\"" ++ s.foldl (fun acc c => acc ++ writePoint c) "" ++ "\""

mutual

/-- Writes a value. -/
def Value.render : Value → String
  | .null => "null"
  | .bool b => if b then "true" else "false"
  | .number n => n.display
  | .string s => writeString s
  | .array items => "[" ++ renderItems items ++ "]"
  | .object fields => "\x7b" ++ renderFields fields ++ "\x7d"

/-- Writes the items of an array. -/
def renderItems : List Value → String
  | [] => ""
  | [v] => v.render
  | v :: vs => v.render ++ "," ++ renderItems vs

/-- Writes the fields of an object. -/
def renderFields : List (CodePoints × Value) → String
  | [] => ""
  | [(k, v)] => writeString k ++ ":" ++ v.render
  | (k, v) :: fs => writeString k ++ ":" ++ v.render ++ "," ++ renderFields fs

end

end Json

end KeyOrder
