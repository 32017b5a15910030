import KeyOrder.Syntax.Lexeme
import KeyOrder.Syntax.Literal

/-!
# Formatted strings

The body of a formatted string alternates literal text and replacement fields.  A field holds an
expression, perhaps a mark that shows the expression itself, a conversion and a format, which may
hold fields again.  Two braces stand for one, except within a format.
-/

namespace KeyOrder

namespace Template

/-- A reader of the expression of a replacement field, given its text and where it starts. -/
abbrev Embed := Place → Text → Option Node

/-! ### Literal text -/

/-- What ends a stretch of literal text. -/
inductive Break where
  /-- The end of the body. -/
  | stop
  /-- Two braces, of which one belongs to the literal text. -/
  | doubled
  /-- A single brace. -/
  | brace

/-- The length of the literal text at the start of a body, and what ends it.  A brace after a
backslash still counts, and the name in an escape `\N\x7b…\x7d` does not. -/
def literal (raw nested : Bool) : Text → Nat × Break
  | [] => (0, .stop)
  | c :: cs =>
    let more := fun n (r : Nat × Break) => (r.1 + n, r.2)
    let brace := fun (b : Char) (rest : Text) (n : Nat) =>
      if !nested && rest.head? == some b then (n + 1, Break.doubled) else (n, .brace)
    if !raw && c == '\\' then
      match cs with
      | 'N' :: '\x7b' :: rest =>
        let n := (rest.takeWhile (· != '\x7d')).length + 1
        more (3 + n) (literal raw nested (rest.drop n))
      | '\x7b' :: rest => brace '\x7b' rest 1
      | '\x7d' :: rest => brace '\x7d' rest 1
      | _ :: rest => more 2 (literal raw nested rest)
      | [] => (1, .stop)
    else if c == '\x7b' || c == '\x7d' then brace c cs 0
    else more 1 (literal raw nested cs)
termination_by cs => cs.length
decreasing_by all_goals (simp only [List.length_drop, List.length_cons]; omega)

/-! ### Expressions -/

/-- The length of the expression at the start of a field.  It ends at the first `!`, `:`, `=` or
closing brace outside of brackets and strings that is not part of a comparison.  Backslashes are
refused everywhere, and number signs outside of strings. -/
def expression? (quote : Option Shape.Delimiter) (brackets : List Char) : Text → Option Nat
  | [] => none
  | c :: cs =>
    let go := fun (q : Option Shape.Delimiter) (bs : List Char) (n : Nat) =>
      (expression? q bs (cs.drop n)).map (· + n + 1)
    if c = '\\' then none
    else
      match quote with
      | some d =>
        if c = d.quote then
          if d.triple then if [c, c].isPrefixOf cs then go none brackets 2 else go quote brackets 0
          else go none brackets 0
        else go quote brackets 0
      | none =>
        if c = '\'' ∨ c = '"' then
          if [c, c].isPrefixOf cs then go (some ⟨c, true⟩) brackets 2
          else go (some ⟨c, false⟩) brackets 0
        else if (Lexeme.closer? c).isSome then
          if Lexeme.maxBrackets ≤ brackets.length then none else go none (c :: brackets) 0
        else if c = '#' then none
        else if brackets.isEmpty && "!:\x7d=<>".toList.contains c then
          if "!=<>".toList.contains c && cs.head? == some '=' then go none brackets 1
          else if c = '<' ∨ c = '>' then go none brackets 0
          else some 0
        else if c = ')' ∨ c = ']' ∨ c = '\x7d' then
          match brackets with
          | b :: bs => if Lexeme.closer? b = some c then go none bs 0 else none
          | [] => none
        else go none brackets 0
termination_by cs => cs.length
decreasing_by all_goals (simp only [List.length_drop, List.length_cons]; omega)

/-- Whether a character is white space of ASCII. -/
def isSpace (c : Char) : Bool := c == ' ' || ('\t' ≤ c && c ≤ '\r')

/-- Passes over the mark that shows the expression itself, and blanks after it. -/
def skipShow (cur : Cursor) : Cursor :=
  if cur.rest.head? = some '=' then (cur.skip 1).skipWhile isSpace else cur

/-- Passes over a conversion. -/
def skipConversion? (cur : Cursor) : Option Cursor :=
  match cur.rest with
  | '!' :: c :: _ => if c == 's' || c == 'r' || c == 'a' then some (cur.skip 2) else none
  | '!' :: [] => none
  | _ => some cur

/-! ### Bodies -/

/-- The parts of a body from a cursor on.  `depth` counts the formats around, and a body within a
format ends at its closing brace, where the cursor is left. -/
def parts (embed : Embed) (raw : Bool) : Nat → Nat → Cursor → Option (List Node × Cursor)
  | 0, _, _ => none
  | fuel + 1, depth, cur => do
    let (n, why) := literal raw (depth != 0) cur.rest
    let points ← Literal.decodeBody? false raw (cur.rest.take n)
    let text := if n = 0 then []
      else [Node.mk (.constant (.string points)) ⟨cur.place, cur.place⟩ []]
    let next := cur.skip n
    match why with
    | .stop => return (text, next)
    | .doubled =>
      let (rest, stop) ← parts embed raw fuel depth (next.skip 1)
      return (text ++ rest, stop)
    | .brace =>
      if next.rest.head? = some '\x7d' then
        if depth = 0 then none else return (text, next)
      else if 2 ≤ depth then none
      else
        let start := next.skip 1
        let n ← expression? none [] start.rest
        let source := start.rest.take n
        if source.all fun c => c == ' ' || c == '\t' || c == '\n' || c == '\x0c' then none
        else
          let value ← embed start.place source
          let after ← skipConversion? (skipShow (start.skip n))
          let (format, after) ←
            if after.rest.head? = some ':' then
              if (after.skip 1).rest.isEmpty then none
              else do
                let (inner, stop) ← parts embed raw fuel (depth + 1) (after.skip 1)
                pure ([Node.mk .template ⟨after.place, stop.place⟩ inner], stop)
            else pure ([], after)
          if after.rest.head? = some '\x7d' then
            let (rest, stop) ← parts embed raw fuel depth (after.skip 1)
            return (text ++ Node.bundle (value :: format) :: rest, stop)
          else none

/-- The parts of the body of a formatted string.  The cursor stands at the start of the body. -/
def nodes? (embed : Embed) (raw : Bool) (cur : Cursor) : Option (List Node) :=
  (parts embed raw (2 * cur.rest.length + 2) 0 cur).map Prod.fst

end Template

end KeyOrder
