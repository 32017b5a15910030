import KeyOrder.Syntax.Expression

/-!
# Patterns

The rules of the patterns of a `match` statement.  A pattern refers to itself through `Rules`.
-/

namespace KeyOrder

namespace Grammar

open KeyOrder.Parser

/-! ### Literals and names -/

/-- Whether a constant is an imaginary number. -/
def isImaginary (n : Node) : Bool :=
  match n.kind with
  | .constant (.imaginary _) => true
  | _ => false

/-- A number, perhaps with a minus sign, and perhaps with an imaginary part. -/
def signedNumber : Parser Node := do
  let start ← startPlace
  let negative ← accept "-"
  let n ← number
  let value ← if negative then nodeFrom start .group [n] else pure n
  match ← optional (oneOf ["+", "-"]) with
  | none => return value
  | some _ =>
    let i ← number
    if isImaginary n || !isImaginary i then fail else nodeFrom start .group [value, i]

/-- A literal that may be a pattern or a key. -/
def literal (r : Rules) : Parser Node := do
  match ← peek 0 with
  | none => fail
  | some l =>
    match l.kind with
    | .number => signedNumber
    | .string => strings r
    | .operator => signedNumber
    | .name =>
      match l.text with
      | "True" => constantWord "True" (.boolean true)
      | "False" => constantWord "False" (.boolean false)
      | "None" => constantWord "None" .none
      | _ => fail
    | _ => fail

/-- A name with at least `least` attributes. -/
def dotted (least : Nat) : Parser Node := do
  let start ← startPlace
  let n ← nameNode
  let stops ← many do
    word "."
    let _ ← name
    stopPlace
  if stops.length < least then fail
  else return stops.foldl (fun n stop => .mk .attribute ⟨start, stop⟩ [n]) n

/-- A name that a pattern binds: not the low line, and not the start of anything longer. -/
def capture : Parser Node := do
  let start ← startPlace
  let l ← name
  if l.text == "_" || (← sees ".") || (← sees "(") || (← sees "=") then fail
  else nodeFrom start .group []

/-- The low line, which binds nothing. -/
def wildcard : Parser Node := do
  let start ← startPlace
  word "_"
  nodeFrom start .group []

/-! ### Sequences, mappings and classes -/

/-- A pattern of a sequence, perhaps for the rest of it. -/
def starPattern (r : Rules) : Parser Node := do
  let start ← startPlace
  if ← accept "*" then
    let _ ← capture <|> wildcard
    nodeFrom start .group []
  else r.pattern

/-- A pattern between parentheses, or a sequence. -/
def parenthesizedPattern (r : Rules) : Parser Node := do
  let start ← startPlace
  word "("
  if ← accept ")" then nodeFrom start .group []
  else
    let starred ← sees "*"
    let (ps, trailing) ← commaList (starPattern r)
    word ")"
    match ps, trailing with
    | [p], false => if starred then fail else return p
    | _, _ => nodeFrom start .group ps

/-- A sequence between brackets. -/
def bracketedPattern (r : Rules) : Parser Node := do
  let start ← startPlace
  word "["
  if ← accept "]" then nodeFrom start .group []
  else
    let (ps, _) ← commaList (starPattern r)
    word "]"
    nodeFrom start .group ps

/-- A key and a pattern for its value. -/
def keyPattern (r : Rules) : Parser Node := do
  let start ← startPlace
  let k ← literal r <|> dotted 1
  word ":"
  let p ← r.pattern
  nodeFrom start .pair [k, p]

/-- The end of a mapping that binds the rest of it, up to and with the closing brace. -/
def mappingRest : Parser Unit := do
  word "**"
  let _ ← capture
  let _ ← accept ","
  word "\x7d"

/-- A mapping. -/
def mappingPattern (r : Rules) : Parser Node := do
  let start ← startPlace
  word "\x7b"
  if ← accept "\x7d" then nodeFrom start .mapping []
  else if ← sees "**" then
    mappingRest
    nodeFrom start .mapping []
  else
    let (items, trailing) ← commaList (keyPattern r)
    if trailing then
      if ← sees "**" then mappingRest else word "\x7d"
    else word "\x7d"
    nodeFrom start .mapping items

/-- A pattern for an attribute of a class. -/
def attributePattern (r : Rules) : Parser Node := do
  let _ ← name
  word "="
  r.pattern

/-- The patterns of a class, positional ones before named ones, up to and with the closing
parenthesis. -/
def classPatterns (r : Rules) : Parser (List Node) := do
  if ← accept ")" then return []
  else
    let named := (← seesName) && (← seesSecond "=")
    let (ps, trailing) ← do
      if named then pure ([], true)
      else
        commaList do
          if (← seesName) && (← seesSecond "=") then fail else r.pattern
    let more := trailing && (← seesName) && (← seesSecond "=")
    let ks ← do
      if more then
        let (ks, _) ← commaList (attributePattern r)
        pure ks
      else pure []
    word ")"
    return ps ++ ks

/-- A class with patterns, or a name with attributes. -/
def valuePattern (r : Rules) : Parser Node := do
  let start ← startPlace
  let n ← dotted 0
  if ← accept "(" then
    let ps ← classPatterns r
    nodeFrom start .group (n :: ps)
  else if n.kind == .attribute && !(← sees "=") then return n
  else fail

/-! ### Patterns -/

/-- A pattern without alternatives.  The low line is never the start of anything longer. -/
def closedPattern (r : Rules) : Parser Node :=
  literal r <|> capture <|> wildcard <|> valuePattern r <|> parenthesizedPattern r <|>
    bracketedPattern r <|> mappingPattern r

/-- A pattern without commas: alternatives, perhaps bound to a name. -/
def pattern (r : Rules) : Parser Node := do
  let start ← startPlace
  let first ← closedPattern r
  let rest ← many do
    word "|"
    closedPattern r
  let p ← if rest.isEmpty then pure first else nodeFrom start .group (first :: rest)
  let bound := do
    word "as"
    let _ ← capture
    nodeFrom start .group [p]
  bound <|> pure p

/-- The pattern of a case, where a comma makes a sequence. -/
def casePattern (r : Rules) : Parser Node := do
  let start ← startPlace
  let starred ← sees "*"
  let (ps, trailing) ← commaList (starPattern r)
  match ps, trailing with
  | [p], false => if starred then fail else return p
  | _, _ => nodeFrom start .group ps

end Grammar

end KeyOrder
