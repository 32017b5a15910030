import KeyOrder.Syntax.Pattern

/-!
# Statements

The rules of statements.  A body refers to statements through `Rules`.  The parts of a statement
are kept in the order in which they are visited, which is not always the order of the source: the
decorators of a function come after its body.
-/

namespace KeyOrder

namespace Grammar

open KeyOrder.Parser

/-! ### Simple statements -/

/-- The operators that assign and compute. -/
def augmentations : List String :=
  ["+=", "-=", "*=", "@=", "/=", "%=", "&=", "|=", "^=", "<<=", ">>=", "**=", "//="]

/-- A statement that starts with an expression: an assignment of any form, or the expression
alone. -/
def expressionStatement (r : Rules) : Parser (List Node) := do
  let first ← yieldOrExpressions r
  if ← accept ":" then
    if isSingleTarget first then
      let a ← r.expression
      if ← accept "=" then
        let v ← yieldOrExpressions r
        return [first, a, v]
      else return [first, a]
    else fail
  else
    match ← optional (oneOf augmentations) with
    | some _ =>
      if isSingleTarget first then
        let v ← yieldOrExpressions r
        return [first, v]
      else fail
    | none =>
      let more ← many do
        word "="
        yieldOrExpressions r
      let all := first :: more
      if all.dropLast.all isStarTarget then return all else fail

/-- A name with a path of names. -/
def dottedName : Parser Unit := do
  let _ ← name
  let _ ← many do
    word "."
    name

/-- Another name for what is imported. -/
def asName : Parser Unit := do
  if ← accept "as" then
    let _ ← name

/-- An import of modules. -/
def importStatement : Parser (List Node) := do
  word "import"
  let (_, trailing) ← commaList do
    dottedName
    asName
  if trailing then fail else return []

/-- What is imported from a module. -/
def importedNames : Parser Unit := do
  let one := do
    let _ ← name
    asName
  if ← accept "*" then return ()
  else if ← accept "(" then
    let _ ← commaList one
    word ")"
  else
    let (_, trailing) ← commaList one
    if trailing then fail else return ()

/-- An import from a module. -/
def fromStatement : Parser (List Node) := do
  word "from"
  let dots ← many (oneOf [".", "..."])
  let path ← optional dottedName
  if dots.isEmpty && path.isNone then fail
  else
    word "import"
    importedNames
    return []

/-- Names after a word. -/
def namesStatement (s : String) : Parser (List Node) := do
  word s
  let (_, trailing) ← commaList name
  if trailing then fail else return []

/-- Whether a simple statement ends here. -/
def seesEnd : Parser Bool := do
  let atLineEnd := ((← peek 0).map fun l => l.kind == .newline).getD false
  return atLineEnd || (← sees ";")

/-- An expression list, unless the statement ends. -/
def restOfStatement (r : Rules) : Parser (List Node) := do
  if ← seesEnd then return []
  else
    let e ← starExpressions r
    return [e]

/-- A statement that raises. -/
def raiseStatement (r : Rules) : Parser (List Node) := do
  word "raise"
  if ← seesEnd then return []
  else
    let e ← r.expression
    if ← accept "from" then
      let cause ← r.expression
      return [e, cause]
    else return [e]

/-- A statement that deletes. -/
def deleteStatement (r : Rules) : Parser (List Node) := do
  word "del"
  let (ts, _) ← commaList r.primary
  if ts.all isDeletable && (← seesEnd) then return ts else fail

/-- A statement that asserts. -/
def assertStatement (r : Rules) : Parser (List Node) := do
  word "assert"
  let e ← r.expression
  if ← accept "," then
    let m ← r.expression
    return [e, m]
  else return [e]

/-- A simple statement. -/
def simpleStatement (r : Rules) : Parser (List Node) := do
  match ← peek 0 with
  | none => fail
  | some l =>
    if l.kind != .name then expressionStatement r
    else
      match l.text with
      | "pass" => word "pass"; return []
      | "break" => word "break"; return []
      | "continue" => word "continue"; return []
      | "return" =>
        word "return"
        restOfStatement r
      | "import" => importStatement
      | "from" => fromStatement
      | "raise" => raiseStatement r
      | "global" => namesStatement "global"
      | "nonlocal" => namesStatement "nonlocal"
      | "del" => deleteStatement r
      | "assert" => assertStatement r
      | _ => expressionStatement r

/-- Simple statements on one line. -/
def simpleStatements (r : Rules) : Parser (List Node) := do
  let first ← simpleStatement r
  let rest ← many do
    word ";"
    simpleStatement r
  let _ ← accept ";"
  let _ ← ofKind .newline
  return (first :: rest).map Node.bundle

/-! ### Compound statements -/

/-- A colon and a body. -/
def body (r : Rules) : Parser (List Node) := do
  word ":"
  r.block

/-- The body after `else`, if there is one. -/
def elseBody (r : Rules) : Parser (List Node) := do
  if ← accept "else" then body r else return []

/-- The alternatives of an `if`, at most `n` of them. -/
def ifRest (r : Rules) : Nat → Parser (List Node)
  | 0 => fail
  | n + 1 => do
    let test ← namedExpression r
    let b ← body r
    if ← accept "elif" then
      let rest ← ifRest r n
      return test :: b ++ [.bundle rest]
    else
      let e ← elseBody r
      return test :: b ++ e

/-- A conditional statement. -/
def ifStatement (r : Rules) : Parser (List Node) := do
  word "if"
  ifRest r (← size)

/-- A loop with a condition. -/
def whileStatement (r : Rules) : Parser (List Node) := do
  word "while"
  let test ← namedExpression r
  let b ← body r
  let e ← elseBody r
  return test :: b ++ e

/-- A loop over items. -/
def forStatement (r : Rules) : Parser (List Node) := do
  word "for"
  let target ← starTargets r
  word "in"
  let source ← starExpressions r
  let b ← body r
  let e ← elseBody r
  return target :: source :: b ++ e

/-- One item of a `with` statement. -/
def withItem (r : Rules) : Parser Node := do
  let e ← r.expression
  let named := do
    word "as"
    let t ← starTarget r
    if (← sees ",") || (← sees ")") || (← sees ":") then return Node.bundle [e, t] else fail
  named <|> pure (Node.bundle [e])

/-- A statement with managed contexts.  Parentheses around all items are no part of them. -/
def withStatement (r : Rules) : Parser (List Node) := do
  word "with"
  let wrapped := do
    word "("
    let (items, _) ← commaList (withItem r)
    word ")"
    if ← sees ":" then return items else fail
  let plain := do
    let (items, trailing) ← commaList (withItem r)
    if trailing then fail else return items
  let items ← wrapped <|> plain
  let b ← body r
  return items ++ b

/-- A handler of exceptions; with a star, of groups of them. -/
def handler (r : Rules) (star : Bool) : Parser Node := do
  word "except"
  if star then word "*" else pure ()
  let bare ← sees ":"
  if bare && !star then
    let b ← body r
    return .bundle b
  else
    let e ← r.expression
    asName
    let b ← body r
    return .bundle (e :: b)

/-- A statement with handlers. -/
def tryStatement (r : Rules) : Parser (List Node) := do
  word "try"
  let b ← body r
  let final := do
    word "finally"
    body r
  if ← sees "finally" then
    let f ← final
    return b ++ f
  else
    let hs ← many1 (handler r true) <|> many1 (handler r false)
    let e ← elseBody r
    let f ← optional final
    return b ++ hs ++ e ++ f.getD []

/-- A function, with its decorators. -/
def functionStatement (r : Rules) (decorators : List Node) : Parser (List Node) := do
  word "def"
  let _ ← name
  word "("
  let ps ← parameters r true ")"
  word ")"
  let result ← do
    if ← accept "->" then
      let e ← r.expression
      pure [e]
    else pure []
  let b ← body r
  return .bundle ps :: b ++ decorators ++ result

/-- A class, with its decorators. -/
def classStatement (r : Rules) (decorators : List Node) : Parser (List Node) := do
  word "class"
  let _ ← name
  let as ← do
    if ← accept "(" then
      let as ← arguments r
      word ")"
      pure as
    else pure []
  let b ← body r
  let (keywords, bases) := as.partition Node.isKeyword
  return bases ++ keywords ++ b ++ decorators

/-- A function or class after its decorators. -/
def decoratedStatement (r : Rules) : Parser (List Node) := do
  let ds ← many1 do
    word "@"
    let e ← namedExpression r
    let _ ← ofKind .newline
    return e
  if ← sees "class" then classStatement r ds
  else
    let _ ← accept "async"
    functionStatement r ds

/-- A statement that is marked as asynchronous. -/
def asyncStatement (r : Rules) : Parser (List Node) := do
  word "async"
  if ← sees "def" then functionStatement r []
  else if ← sees "for" then forStatement r
  else withStatement r

/-- A case of a `match` statement. -/
def caseBlock (r : Rules) : Parser Node := do
  word "case"
  let p ← casePattern r
  let guard ← do
    if ← accept "if" then
      let e ← namedExpression r
      pure [e]
    else pure []
  let b ← body r
  return .bundle (p :: guard ++ b)

/-- The subject of a `match` statement. -/
def subject (r : Rules) : Parser Node := do
  let start ← startPlace
  let starred ← sees "*"
  let (es, trailing) ← commaList (starNamedExpression r)
  match es, trailing with
  | [e], false => if starred then fail else return e
  | _, _ => nodeFrom start .tuple es

/-- A `match` statement. -/
def matchStatement (r : Rules) : Parser (List Node) := do
  word "match"
  let s ← subject r
  word ":"
  let _ ← ofKind .newline
  let _ ← ofKind .indent
  let cs ← many1 (caseBlock r)
  let _ ← ofKind .dedent
  return s :: cs

/-- A statement on one or several lines.  The word `match` starts a `match` statement only where
one can be read. -/
def statement (r : Rules) : Parser (List Node) := do
  let compound := fun (p : Parser (List Node)) => do
    let parts ← p
    return [Node.bundle parts]
  match ← peek 0 with
  | none => fail
  | some l =>
    match l.kind with
    | .name =>
      match l.text with
      | "if" => compound (ifStatement r)
      | "while" => compound (whileStatement r)
      | "for" => compound (forStatement r)
      | "with" => compound (withStatement r)
      | "try" => compound (tryStatement r)
      | "def" => compound (functionStatement r [])
      | "class" => compound (classStatement r [])
      | "async" => compound (asyncStatement r)
      | "match" => compound (matchStatement r) <|> simpleStatements r
      | _ => simpleStatements r
    | .operator => if l.text == "@" then compound (decoratedStatement r) else simpleStatements r
    | .number => simpleStatements r
    | .string => simpleStatements r
    | _ => fail

/-- The body of a compound statement: simple statements on the same line, or an indented
block. -/
def block (r : Rules) : Parser (List Node) := do
  let indented := ((← peek 0).map fun l => l.kind == .newline).getD false
  if indented then
    let _ ← ofKind .newline
    let _ ← ofKind .indent
    let ss ← many1 (statement r)
    let _ ← ofKind .dedent
    return ss.flatten
  else simpleStatements r

/-- A whole program. -/
def program (r : Rules) : Parser Node := do
  let ss ← many (statement r)
  let _ ← ofKind .stop
  return .bundle ss.flatten

end Grammar

end KeyOrder
