import KeyOrder.Syntax.Statement

/-!
# Programs

The syntax tree of a program text, when the text is a program.  The rules of the grammar refer to
each other to a depth that the length of the text bounds: a rule that refers to another has read
at least one character since it was referred to itself, but for a few steps.
-/

namespace KeyOrder

namespace Grammar

/-- A lexeme of a replacement field with the place that it is said to have.  A field is cut as a
text of its own, and what is read in its first line is moved to where the field starts.  Only a
string that goes on after the first line is not moved: it counts as read in its last line, and its
start keeps the column that it has in the text of the field. -/
def displaced (brace : Place) (l : Lexeme) : Lexeme :=
  if l.kind = .string ∧ l.span.1.line = brace.line ∧ brace.line < l.span.2.line then
    { l with span := (⟨brace.line, l.span.1.column - brace.column⟩, l.span.2) }
  else l

/-- The expression of a replacement field, which is read as if it stood between parentheses.  The
opening one takes the place of the brace before it. -/
def embedded (r : Rules) (start : Place) (text : Text) : Option Node := do
  let brace : Place := ⟨start.line, start.column - 1⟩
  let ls ← Lexeme.cut ('(' :: text ++ [')', '\n']) brace
  let ls := ls.map (displaced brace)
  let (n, i) ← starExpressions r ls 0
  let l ← ls[i]?
  if l.kind == .newline then some n else none

/-- The rules, each referring to the given ones. -/
def step (r : Rules) : Rules where
  expression := expression r
  disjunction := disjunction r
  operand := operand r
  inversion := inversion r
  factor := factor r
  primary := primary r
  pattern := pattern r
  block := block r
  embedded := embedded r

/-- Rules that read nothing. -/
def nothing : Rules where
  expression := Parser.fail
  disjunction := Parser.fail
  operand := Parser.fail
  inversion := Parser.fail
  factor := Parser.fail
  primary := Parser.fail
  pattern := Parser.fail
  block := Parser.fail
  embedded := fun _ _ => none

/-- The rules to a depth. -/
def rules : Nat → Rules
  | 0 => nothing
  | n + 1 => step (rules n)

end Grammar

/-- The syntax tree of a text, when it is a program. -/
def Node.ofText? (text : Text) : Option Node := do
  let ls ← Lexeme.cut (Lexeme.normalize text) ⟨1, 0⟩
  let (n, _) ← Grammar.program (Grammar.rules (3 * text.length + 10)) ls 0
  return n

/-- Whether a string of a text that can be cut names a character in an escape. -/
def Node.namesCharacter (text : Text) : Bool :=
  match Lexeme.cut (Lexeme.normalize text) ⟨1, 0⟩ with
  | some ls => ls.any fun l => l.kind == .string && Literal.namesCharacter l.text.toList
  | none => false

end KeyOrder
