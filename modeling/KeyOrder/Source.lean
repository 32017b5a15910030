import KeyOrder.Syntax.Program
import KeyOrder.Token.Scan

/-!
# Sources

A source is a program text with its syntax tree, its lines and its tokens.  Lookups go from an
offset to the tokens around it; comments are passed over unless they are asked for.
-/

namespace KeyOrder

/-- A program text with all that is known about it. -/
structure Source where
  text : Text
  tree : Node
  lines : LineIndex
  tokens : Array Token

namespace Source

/-- Reads a text.  A character that a string names in an escape is left open, and its name need not
exist.  A null character is refused before anything else. -/
def read (text : Text) : Outcome Source :=
  if text.contains '\x00' then .error .invalidSyntax
  else
    match Node.ofText? text with
    | none => .error .invalidSyntax
    | some tree => do
      let tokens ← Token.ofText text
      return ⟨text, tree, .ofText text, tokens.toArray⟩

/-- The source of a text.  Where a string names a character, it is not known what the string is, nor
whether the text is a program. -/
def ofText (text : Text) : Outcome Source := do
  let src ← read text
  if Node.namesCharacter text then .error .characterName else return src

/-- The text of a range. -/
def slice (src : Source) (r : Range) : Text := src.text.slice r.start r.stop

/-- The range of a span. -/
def rangeOf (src : Source) (s : Span) : Outcome Range := do
  let start ← src.lines.offset s.start
  let stop ← src.lines.offset s.stop
  return ⟨start, stop⟩

/-! ### Tokens around an offset -/

/-- The number of tokens that end at or before an offset. -/
def endedBy (src : Source) (offset : Nat) : Nat :=
  bisectArray (fun t : Token => decide (offset < t.range.stop)) src.tokens

/-- The number of tokens that start before an offset. -/
def startedBefore (src : Source) (offset : Nat) : Nat :=
  bisectArray (fun t : Token => decide (offset ≤ t.range.start)) src.tokens

/-- The number of tokens that start at or before an offset. -/
def startedBy (src : Source) (offset : Nat) : Nat :=
  bisectArray (fun t : Token => decide (offset < t.range.start)) src.tokens

/-- The last of the first `n` tokens that is no comment, or just the last one when comments are
asked for. -/
def lastOf (src : Source) (comments : Bool) : Nat → Option Token
  | 0 => none
  | n + 1 =>
    match src.tokens[n]? with
    | some t => if comments || !t.isComment then some t else src.lastOf comments n
    | none => none

/-- The first token from index `i` on that is no comment, or just the first one when comments are
asked for. -/
def firstFrom (src : Source) (comments : Bool) (i : Nat) : Option Token :=
  if h : i < src.tokens.size then
    let t := src.tokens[i]
    if comments || !t.isComment then some t else src.firstFrom comments (i + 1)
  else none
termination_by src.tokens.size - i

/-- The comments at the end of the first `n` tokens, the last one first. -/
def commentsDown (src : Source) : Nat → List Token
  | 0 => []
  | n + 1 =>
    match src.tokens[n]? with
    | some t => if t.isComment then t :: src.commentsDown n else []
    | none => []

/-- The comments from index `i` on, up to the first other token. -/
def commentsUp (src : Source) (i : Nat) : List Token :=
  if h : i < src.tokens.size then
    let t := src.tokens[i]
    if t.isComment then t :: src.commentsUp (i + 1) else []
  else []
termination_by src.tokens.size - i

/-- The token before an offset; comments count when they are asked for. -/
def tokenBefore (src : Source) (comments : Bool) (offset : Nat) : Option Token :=
  src.lastOf comments (src.endedBy offset)

/-- The token after an offset; comments count when they are asked for. -/
def tokenAfter (src : Source) (comments : Bool) (offset : Nat) : Option Token :=
  src.firstFrom comments (src.startedBefore offset)

/-- The token before an offset that is no comment. -/
def codeBefore (src : Source) (offset : Nat) : Option Token := src.tokenBefore false offset

/-- The token after an offset that is no comment. -/
def codeAfter (src : Source) (offset : Nat) : Option Token := src.tokenAfter false offset

/-- The comments between an offset and the token before it. -/
def commentsBefore (src : Source) (offset : Nat) : List Token :=
  (src.commentsDown (src.endedBy offset)).reverse

/-- The comments between an offset and the token after it. -/
def commentsAfter (src : Source) (offset : Nat) : List Token :=
  src.commentsUp (src.startedBefore offset)

/-- Whether an offset falls strictly inside a string. -/
def inString (src : Source) (offset : Nat) : Bool :=
  match src.startedBy offset with
  | 0 => false
  | n + 1 =>
    match src.tokens[n]? with
    | some t => t.kind == .string && t.range.start < offset && offset < t.range.stop
    | none => false

/-- Widens a range over the parentheses that wrap it, but over none that starts at or before
`floor`. -/
def unwrap (src : Source) (floor : Nat) (r : Range) : Range :=
  match src.codeBefore r.start, src.codeAfter r.stop with
  | some before, some after =>
    if before.is "(" && after.is ")" && floor < before.range.start then
      if before.range.start < r.start then
        src.unwrap floor ⟨before.range.start, after.range.stop⟩
      else r
    else r
  | _, _ => r
termination_by r.start

end Source

end KeyOrder
