import KeyOrder.Syntax.Parser
import KeyOrder.Syntax.Template

/-!
# Expressions

The rules of expressions.  A rule refers to rules that may contain it again through `Rules`, so
every definition here is a plain one; `Program` ties the knot.
-/

namespace KeyOrder

/-- The rules that other rules refer to. -/
structure Rules where
  /-- An expression without assignment. -/
  expression : Parser Node
  /-- Alternatives joined by `or`. -/
  disjunction : Parser Node
  /-- An operand of a comparison. -/
  operand : Parser Node
  /-- A comparison, perhaps negated. -/
  inversion : Parser Node
  /-- A signed factor. -/
  factor : Parser Node
  /-- An atom with calls, subscripts and attributes. -/
  primary : Parser Node
  /-- A pattern without commas. -/
  pattern : Parser Node
  /-- The body of a compound statement. -/
  block : Parser (List Node)
  /-- The expression of a replacement field. -/
  embedded : Template.Embed

namespace Grammar

open KeyOrder.Parser

/-! ### Lists of expressions -/

/-- An expression that may assign to a name. -/
def namedExpression (r : Rules) : Parser Node := do
  let start ← startPlace
  if (← seesName) && (← seesSecond ":=") then
    let target ← nameNode
    word ":="
    let value ← r.expression
    nodeFrom start .group [target, value]
  else
    let e ← r.expression
    notAhead ":="
    return e

/-- A starred operand, or what `p` reads. -/
def starOr (r : Rules) (p : Parser Node) : Parser Node := do
  let start ← startPlace
  if ← accept "*" then
    let e ← r.operand
    nodeFrom start .starred [e]
  else p

/-- An expression that may be starred. -/
def starExpression (r : Rules) : Parser Node := starOr r r.expression

/-- An expression that may be starred or assign to a name. -/
def starNamedExpression (r : Rules) : Parser Node := starOr r (namedExpression r)

/-- Expressions that form a tuple as soon as there is a comma. -/
def starExpressions (r : Rules) : Parser Node := do
  let start ← startPlace
  let (es, trailing) ← commaList (starExpression r)
  match es, trailing with
  | [e], false => return e
  | _, _ => nodeFrom start .tuple es

/-- A `yield` with what it gives. -/
def yieldExpression (r : Rules) : Parser Node := do
  let start ← startPlace
  word "yield"
  if ← accept "from" then
    let e ← r.expression
    nodeFrom start .group [e]
  else
    match ← optional (starExpressions r) with
    | some e => nodeFrom start .group [e]
    | none => nodeFrom start .group []

/-- A `yield`, or expressions. -/
def yieldOrExpressions (r : Rules) : Parser Node := do
  if ← sees "yield" then yieldExpression r else starExpressions r

/-! ### Targets of assignments -/

mutual

/-- Whether a node may stand on the left of an assignment. -/
def isTarget : Node → Bool
  | .mk (.name _) _ _ => true
  | .mk .attribute _ _ => true
  | .mk .subscript _ _ => true
  | .mk .tuple _ es => areTargets es
  | .mk .list _ es => areTargets es
  | _ => false

/-- Whether all nodes are targets, perhaps starred. -/
def areTargets : List Node → Bool
  | [] => true
  | .mk .starred _ [e] :: es => isTarget e && areTargets es
  | e :: es => isTarget e && areTargets es

end

/-- Whether a node may stand on the left of a plain assignment, where it may be starred. -/
def isStarTarget (n : Node) : Bool := areTargets [n]

/-- Whether a node is a single target: a name, an attribute or a subscript. -/
def isSingleTarget : Node → Bool
  | .mk (.name _) _ _ => true
  | .mk .attribute _ _ => true
  | .mk .subscript _ _ => true
  | _ => false

mutual

/-- Whether a node may be deleted. -/
def isDeletable : Node → Bool
  | .mk (.name _) _ _ => true
  | .mk .attribute _ _ => true
  | .mk .subscript _ _ => true
  | .mk .tuple _ es => areDeletable es
  | .mk .list _ es => areDeletable es
  | _ => false

/-- Whether all nodes may be deleted. -/
def areDeletable : List Node → Bool
  | [] => true
  | e :: es => isDeletable e && areDeletable es

end

/-- A target where an expression would read too far: before `in`, or after `as`. -/
def starTarget (r : Rules) : Parser Node := do
  let start ← startPlace
  if ← accept "*" then
    let t ← r.primary
    if isTarget t then nodeFrom start .starred [t] else fail
  else
    let t ← r.primary
    if isTarget t then return t else fail

/-- Targets that form a tuple as soon as there is a comma. -/
def starTargets (r : Rules) : Parser Node := do
  let start ← startPlace
  let (ts, trailing) ← commaList (starTarget r)
  match ts, trailing with
  | [t], false => return t
  | _, _ => nodeFrom start .tuple ts

/-! ### Comprehensions -/

/-- Whether a clause of a comprehension comes next. -/
def seesClause : Parser Bool := do
  return (← sees "for") || (← sees "async")

/-- A clause of a comprehension. -/
def clause (r : Rules) : Parser Node := do
  let _ ← accept "async"
  word "for"
  let target ← starTargets r
  word "in"
  let source ← r.disjunction
  let conditions ← many do
    word "if"
    r.disjunction
  return .bundle (target :: source :: conditions)

/-! ### Arguments -/

/-- The arguments of a call are read in three stages: positional ones may come until the first
keyword, and starred ones until the first spread of keyword arguments. -/
inductive ArgumentStage where
  | positional
  | keywords
  | spreads
deriving DecidableEq

/-- One argument, and the stage after it. -/
def argument (r : Rules) (stage : ArgumentStage) : Parser (Node × ArgumentStage) := do
  let start ← startPlace
  if ← accept "**" then
    let e ← r.expression
    return (← nodeFrom start (.keyword none) [e], .spreads)
  else if (← seesName) && (← seesSecond "=") then
    let l ← name
    word "="
    let e ← r.expression
    let stage := if stage = .positional then .keywords else stage
    return (← nodeFrom start (.keyword (some (identifier l))) [e], stage)
  else if ← accept "*" then
    let e ← r.expression
    if stage = .spreads then fail else return (← nodeFrom start .starred [e], stage)
  else if stage = .positional then
    let e ← namedExpression r
    notAhead "="
    return (e, stage)
  else fail

/-- Arguments, each after a comma, at most `n` of them. -/
def moreArguments (r : Rules) (stage : ArgumentStage) : Nat → Parser (List Node)
  | 0 => return []
  | n + 1 => do
    let next ← optional do
      word ","
      argument r stage
    match next with
    | none => return []
    | some (a, stage) =>
      let as ← moreArguments r stage n
      return a :: as

/-- The number of lexemes. -/
def size : Parser Nat := fun ls i => some (ls.size, i)

/-- Arguments up to the closing parenthesis, which is not read. -/
def arguments (r : Rules) : Parser (List Node) := do
  if ← sees ")" then return []
  else
    let (a, stage) ← argument r .positional
    let as ← moreArguments r stage (← size)
    let _ ← accept ","
    if ← sees ")" then return a :: as else fail

/-- The arguments of a call with their parentheses.  A comprehension that is the only argument
takes the parentheses for its own. -/
def callArguments (r : Rules) : Parser (List Node) := do
  let start ← startPlace
  word "("
  let special := (← sees "*") || (← sees "**") || (← sees ")") ||
    ((← seesName) && (← seesSecond "="))
  if special then
    let as ← arguments r
    word ")"
    return as
  else
    let e ← namedExpression r
    if ← seesClause then
      let cs ← many1 (clause r)
      word ")"
      return [← nodeFrom start .group (e :: cs)]
    else
      notAhead "="
      let as ← moreArguments r .positional (← size)
      let _ ← accept ","
      word ")"
      return e :: as

/-! ### Subscripts -/

/-- A part of a slice that may be left out. -/
def slicePart (r : Rules) : Parser (List Node) := do
  if (← sees ":") || (← sees "]") || (← sees ",") then return []
  else
    let e ← r.expression
    return [e]

/-- The rest of a slice after its lower end. -/
def sliceFrom (r : Rules) (start : Place) (lower : List Node) : Parser Node := do
  word ":"
  let upper ← slicePart r
  let step ← do
    if ← accept ":" then slicePart r else pure []
  nodeFrom start .group (lower ++ upper ++ step)

/-- An index or a slice. -/
def slice (r : Rules) : Parser Node := do
  let start ← startPlace
  if ← sees ":" then sliceFrom r start []
  else
    let isAssignment := (← seesName) && (← seesSecond ":=")
    let e ← namedExpression r
    if !isAssignment && (← sees ":") then sliceFrom r start [e] else return e

/-- An index, a slice or a starred expression. -/
def sliceOrStarred (r : Rules) : Parser Node := do
  let start ← startPlace
  if ← accept "*" then
    let e ← r.expression
    nodeFrom start .starred [e]
  else slice r

/-- What stands between the brackets of a subscript. -/
def slices (r : Rules) : Parser Node := do
  let start ← startPlace
  let starred ← sees "*"
  let (ss, trailing) ← commaList (sliceOrStarred r)
  match ss, trailing with
  | [s], false => if starred then nodeFrom start .tuple [s] else return s
  | _, _ => nodeFrom start .tuple ss

/-! ### Atoms -/

/-- The strings in a row that form one literal. -/
def strings (r : Rules) : Parser Node := do
  let start ← startPlace
  let ls ← many1 (ofKind .string)
  let qs := ls.filterMap fun l => (Literal.quotation? l.text.toList).map (l, ·)
  let templates := qs.any (·.2.template)
  if qs.all (·.2.bytes) then
    match qs.mapM fun q => Literal.bytes? q.2 with
    | some bs => nodeFrom start (.constant (.bytes bs.flatten)) []
    | none => fail
  else if qs.any (·.2.bytes) then fail
  else
    let plain := fun (q : Literal.Quotation) => do
      let s ← Literal.decodeBody? false q.raw q.body
      some (Node.mk (.constant (.string s)) default [])
    let parts := qs.mapM fun (l, q) =>
      if q.template then
        let cur := (Cursor.mk l.text.toList l.span.1).skip q.lead
        Template.nodes? r.embedded q.raw ⟨q.body, cur.place⟩
      else (plain q).map fun n => [n]
    match parts with
    | none => fail
    | some parts =>
      if templates then nodeFrom start .template parts.flatten
      else
        let points := parts.flatten.flatMap fun n =>
          match n.kind with
          | .constant (.string s) => s
          | _ => []
        nodeFrom start (.constant (.string points)) []

/-- What stands between parentheses: a tuple, a generator, or an expression that keeps its own
span. -/
def parenthesized (r : Rules) : Parser Node := do
  let start ← startPlace
  word "("
  if ← accept ")" then nodeFrom start .tuple []
  else if ← sees "yield" then
    let e ← yieldExpression r
    word ")"
    return e
  else
    let starred ← sees "*"
    let e ← starNamedExpression r
    if ← accept "," then
      let rest ← do
        if ← sees ")" then pure [] else pure (← commaList (starNamedExpression r)).1
      word ")"
      nodeFrom start .tuple (e :: rest)
    else if starred then fail
    else if ← seesClause then
      let cs ← many1 (clause r)
      word ")"
      nodeFrom start .group (e :: cs)
    else
      word ")"
      return e

/-- A list, or a comprehension between brackets. -/
def bracketed (r : Rules) : Parser Node := do
  let start ← startPlace
  word "["
  if ← accept "]" then nodeFrom start .list []
  else
    let starred ← sees "*"
    let e ← starNamedExpression r
    if !starred && (← seesClause) then
      let cs ← many1 (clause r)
      word "]"
      nodeFrom start .group (e :: cs)
    else
      let rest ← do
        if ← accept "," then
          if ← sees "]" then pure [] else pure (← commaList (starNamedExpression r)).1
        else pure []
      word "]"
      nodeFrom start .list (e :: rest)

/-- A pair or a spread of a dict display. -/
def displayItem (r : Rules) : Parser Node := do
  let start ← startPlace
  if ← accept "**" then
    let e ← r.operand
    nodeFrom start .spread [e]
  else
    let k ← r.expression
    word ":"
    let v ← r.expression
    nodeFrom start .pair [k, v]

/-- More items after the first of a display, up to and with the closing brace. -/
def displayRest (r : Rules) (start : Place) (first : Node) : Parser Node := do
  let rest ← do
    if ← accept "," then
      if ← sees "\x7d" then pure [] else pure (← commaList (displayItem r)).1
    else pure []
  word "\x7d"
  nodeFrom start .display (first :: rest)

/-- More items after the first of a set, up to and with the closing brace. -/
def setRest (r : Rules) (start : Place) (first : Node) : Parser Node := do
  let rest ← do
    if ← accept "," then
      if ← sees "\x7d" then pure [] else pure (← commaList (starNamedExpression r)).1
    else pure []
  word "\x7d"
  nodeFrom start .group (first :: rest)

/-- A dict display, a set, or a comprehension between braces. -/
def braced (r : Rules) : Parser Node := do
  let start ← startPlace
  word "\x7b"
  if ← accept "\x7d" then nodeFrom start .display []
  else if ← sees "**" then
    let item ← displayItem r
    displayRest r start item
  else if (← sees "*") || ((← seesName) && (← seesSecond ":=")) then
    let starred ← sees "*"
    let e ← starNamedExpression r
    if !starred && (← seesClause) then
      let cs ← many1 (clause r)
      word "\x7d"
      nodeFrom start .group (e :: cs)
    else setRest r start e
  else
    let inner ← startPlace
    let e ← r.expression
    if ← accept ":" then
      let v ← r.expression
      if ← seesClause then
        let cs ← many1 (clause r)
        word "\x7d"
        nodeFrom start .group (e :: v :: cs)
      else
        let item ← nodeFrom inner .pair [e, v]
        displayRest r start item
    else
      notAhead ":="
      if ← seesClause then
        let cs ← many1 (clause r)
        word "\x7d"
        nodeFrom start .group (e :: cs)
      else setRest r start e

/-- A number. -/
def number : Parser Node := do
  let l ← ofKind .number
  match Literal.number? l.text.toList with
  | some c => return .mk (.constant c) ⟨l.span.1, l.span.2⟩ []
  | none => fail

/-- A constant that is written as a word. -/
def constantWord (s : String) (c : Constant) : Parser Node := do
  let start ← startPlace
  word s
  nodeFrom start (.constant c) []

/-- An expression without operators. -/
def atom (r : Rules) : Parser Node := do
  match ← peek 0 with
  | none => fail
  | some l =>
    match l.kind with
    | .number => number
    | .string => strings r
    | .name =>
      match l.text with
      | "True" => constantWord "True" (.boolean true)
      | "False" => constantWord "False" (.boolean false)
      | "None" => constantWord "None" .none
      | _ => nameNode
    | .operator =>
      match l.text with
      | "(" => parenthesized r
      | "[" => bracketed r
      | "\x7b" => braced r
      | "..." => constantWord "..." .ellipsis
      | _ => fail
    | _ => fail

/-! ### Operators -/

/-- What may follow an atom: an attribute, arguments or a subscript. -/
inductive Trailer where
  | attribute
  | call (arguments : List Node)
  | subscript (index : Node)

/-- Reads what may follow an atom, with the place after it. -/
def trailer (r : Rules) : Parser (Trailer × Place) := do
  if ← accept "." then
    let _ ← name
    return (.attribute, ← stopPlace)
  else if ← sees "(" then
    let as ← callArguments r
    return (.call as, ← stopPlace)
  else if ← accept "[" then
    let s ← slices r
    word "]"
    return (.subscript s, ← stopPlace)
  else fail

/-- An atom with what follows it, up to the given place. -/
def attach (start : Place) (n : Node) (t : Trailer × Place) : Node :=
  match t.1 with
  | .attribute => .mk .attribute ⟨start, t.2⟩ [n]
  | .call as => .mk .call ⟨start, t.2⟩ (n :: as)
  | .subscript s => .mk .subscript ⟨start, t.2⟩ [n, s]

/-- An atom with calls, subscripts and attributes. -/
def primary (r : Rules) : Parser Node := do
  let start ← startPlace
  let a ← atom r
  let ts ← many (trailer r)
  return ts.foldl (attach start) a

/-- A power, perhaps of something awaited. -/
def power (r : Rules) : Parser Node := do
  let start ← startPlace
  let base ← do
    if ← accept "await" then
      let p ← primary r
      nodeFrom start .group [p]
    else primary r
  if ← accept "**" then
    let e ← r.factor
    nodeFrom start .group [base, e]
  else return base

/-- Reads one of several operators. -/
def oneOf (ops : List String) : Parser Unit := do
  let _ ← satisfy fun l => l.kind == .operator && ops.contains l.text

/-- A signed factor. -/
def factor (r : Rules) : Parser Node := do
  let start ← startPlace
  match ← optional (oneOf ["+", "-", "~"]) with
  | some _ =>
    let e ← r.factor
    nodeFrom start .group [e]
  | none => power r

/-- Operands joined by operators of one level, grouped from the left. -/
def chain (ops : List String) (p : Parser Node) : Parser Node := do
  let start ← startPlace
  let first ← p
  let rest ← many do
    oneOf ops
    let e ← p
    return (e, ← stopPlace)
  return rest.foldl (fun left (right, stop) => .mk .group ⟨start, stop⟩ [left, right]) first

/-- An operand of a comparison: everything that binds more tightly. -/
def operand (r : Rules) : Parser Node :=
  chain ["|"] (chain ["^"] (chain ["&"] (chain ["<<", ">>"] (chain ["+", "-"]
    (chain ["*", "/", "//", "%", "@"] (factor r))))))

/-- An operator of a comparison. -/
def comparator : Parser Unit := do
  if ← accept "is" then
    let _ ← accept "not"
  else if ← accept "not" then word "in"
  else if ← accept "in" then return ()
  else oneOf ["==", "!=", "<=", "<", ">=", ">"]

/-- Operands joined by comparisons. -/
def comparison (r : Rules) : Parser Node := do
  let start ← startPlace
  let first ← operand r
  let rest ← many do
    comparator
    operand r
  if rest.isEmpty then return first else nodeFrom start .group (first :: rest)

/-- A comparison, perhaps negated. -/
def inversion (r : Rules) : Parser Node := do
  let start ← startPlace
  if ← accept "not" then
    let e ← r.inversion
    nodeFrom start .group [e]
  else comparison r

/-- Operands joined by a word. -/
def joined (s : String) (p : Parser Node) : Parser Node := do
  let start ← startPlace
  let first ← p
  let rest ← many do
    word s
    p
  if rest.isEmpty then return first else nodeFrom start .group (first :: rest)

/-- Alternatives joined by `or`. -/
def disjunction (r : Rules) : Parser Node := joined "or" (joined "and" (inversion r))

/-! ### Parameters -/

/-- The parts of a parameter list, in the order in which they are visited. -/
structure Parameters where
  positional : List Node
  rest : List Node
  keywordOnly : List Node
  keywordDefaults : List Node
  keywordRest : List Node
  defaults : List Node

/-- The parts of a parameter list in a row. -/
def Parameters.nodes (p : Parameters) : List Node :=
  p.positional ++ p.rest ++ p.keywordOnly ++ p.keywordDefaults ++ p.keywordRest ++ p.defaults

/-- How far a parameter list has come. -/
structure ParameterState where
  parts : Parameters
  /-- Some parameter has been read. -/
  nonempty : Bool
  /-- The slash has been read. -/
  slash : Bool
  /-- A parameter with a default has been read before the star. -/
  defaulted : Bool
  /-- A star has been read. -/
  star : Bool
  /-- A bare star waits for a parameter. -/
  bare : Bool
  /-- The last parameter, with two stars, has been read. -/
  closed : Bool

/-- Before the first parameter. -/
def ParameterState.initial : ParameterState :=
  ⟨⟨[], [], [], [], [], []⟩, false, false, false, false, false, false⟩

/-- The annotation of a parameter, where there may be one. -/
def annotation (r : Rules) (annotated star : Bool) : Parser (List Node) := do
  if !annotated then return []
  else if ← accept ":" then
    let e ← if star then starExpression r else r.expression
    return [e]
  else return []

/-- One parameter or mark. -/
def parameter (r : Rules) (annotated : Bool) (st : ParameterState) : Parser ParameterState := do
  if st.closed then fail
  else if ← accept "**" then
    if st.bare then fail
    else
      let _ ← name
      let a ← annotation r annotated false
      return { st with parts := { st.parts with keywordRest := a }, closed := true, nonempty := true }
  else if ← accept "*" then
    if st.star then fail
    else if ← seesName then
      let _ ← name
      let a ← annotation r annotated true
      return { st with parts := { st.parts with rest := a }, star := true, nonempty := true }
    else return { st with star := true, bare := true, nonempty := true }
  else if ← accept "/" then
    if st.slash || st.star || !st.nonempty then fail else return { st with slash := true }
  else
    let _ ← name
    let a ← annotation r annotated false
    let d ← do
      if ← accept "=" then
        let e ← r.expression
        pure [e]
      else pure []
    if st.star then
      return { st with
        parts := { st.parts with
          keywordOnly := st.parts.keywordOnly ++ a
          keywordDefaults := st.parts.keywordDefaults ++ d }
        bare := false, nonempty := true }
    else if st.defaulted && d.isEmpty then fail
    else
      return { st with
        parts := { st.parts with
          positional := st.parts.positional ++ a
          defaults := st.parts.defaults ++ d }
        defaulted := st.defaulted || !d.isEmpty, nonempty := true }

/-- Parameters, each after a comma, at most `n` of them. -/
def moreParameters (r : Rules) (annotated : Bool) (st : ParameterState) :
    Nat → Parser ParameterState
  | 0 => return st
  | n + 1 => do
    let next ← optional do
      word ","
      parameter r annotated st
    match next with
    | none => return st
    | some st => moreParameters r annotated st n

/-- A parameter list up to the word that ends it, which is not read. -/
def parameters (r : Rules) (annotated : Bool) (stop : String) : Parser (List Node) := do
  if ← sees stop then return []
  else
    let st ← parameter r annotated .initial
    let st ← moreParameters r annotated st (← size)
    if st.bare then fail
    else
      let _ ← accept ","
      if ← sees stop then return st.parts.nodes else fail

/-- A function without a name. -/
def lambda (r : Rules) : Parser Node := do
  let start ← startPlace
  word "lambda"
  let ps ← parameters r false ":"
  word ":"
  let body ← r.expression
  nodeFrom start .group [.bundle ps, body]

/-- An expression without assignment: perhaps with a condition, or a function without a name.
The parts of a conditional are visited in the order condition, value, alternative. -/
def expression (r : Rules) : Parser Node := do
  let start ← startPlace
  if ← sees "lambda" then lambda r
  else
    let e ← disjunction r
    if ← sees "if" then
      let conditional := do
        word "if"
        let test ← disjunction r
        word "else"
        let alternative ← r.expression
        nodeFrom start .group [test, e, alternative]
      conditional <|> pure e
    else return e

end Grammar

end KeyOrder
