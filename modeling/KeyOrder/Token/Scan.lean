import KeyOrder.Fault
import KeyOrder.Text.Lines
import KeyOrder.Token.Shape

/-!
# The tokens of a text

A text is read line by line.  Between lines it is remembered how many brackets are open, whether
the line was continued by a backslash, which string is still open and how its lines have to end,
and the columns of the blocks around.  Outside of brackets a comment of its own line runs to the
end of that line.
-/

namespace KeyOrder

namespace Scan

/-- A string that is not closed yet. -/
structure OpenString where
  start : Nat
  startLine : Nat
  value : Text
  delimiter : Shape.Delimiter

/-- What is known between two lines. -/
structure State where
  /-- Opening brackets less closing ones. -/
  depth : Int
  /-- The last line ended with a backslash. -/
  continued : Bool
  /-- The columns of the blocks around, the innermost first. -/
  columns : List Nat
  openString : Option OpenString
  /-- A line that goes on with an open string and does not end it has to end with a backslash.
  This is so from where a string between single quotes is left open until an open string ends, and
  a string that breaks off does not end. -/
  strict : Bool

/-- Before the first line. -/
def State.initial : State := ⟨0, false, [0], none, false⟩

/-- Whether a character is a blank within a line. -/
def isBlank (c : Char) : Bool := c == ' ' || c == '\t' || c == '\x0c'

/-- The change of the number of open brackets by a token. -/
def depthChange (kind : TokenKind) (value : Text) : Int :=
  if kind = .operator then
    match value with
    | ['('] | ['['] | ['\x7b'] => 1
    | [')'] | [']'] | ['\x7d'] => -1
    | _ => 0
  else 0

/-- Reads the tokens of the rest of a line, which starts at `offset`. -/
def scanRest (line offset : Nat) (st : State) : Text → List Token × State
  | [] => ([], st)
  | c :: cs =>
    let blanks := ((c :: cs).takeWhile isBlank).length
    let body := (c :: cs).drop blanks
    match Shape.head? body with
    | none =>
      let (ts, st) := scanRest line (offset + 1) st cs
      (Token.make .error [c] offset line line :: ts, st)
    | some .nothing => ([], st)
    | some (.continuation n) =>
      scanRest line (offset + blanks + n) { st with continued := true } (cs.drop (blanks + n - 1))
    | some (.lineBreak n) => scanRest line (offset + blanks + n) st (cs.drop (blanks + n - 1))
    | some (.token kind n) =>
      let value := body.take n
      let st := { st with depth := st.depth + depthChange kind value }
      let (ts, st) := scanRest line (offset + blanks + n) st (cs.drop (blanks + n - 1))
      (Token.make kind value (offset + blanks) line line :: ts, st)
    | some (.openString d) =>
      ([], { st with
        openString := some ⟨offset + blanks, line, body, d⟩
        strict := st.strict || !d.triple })
termination_by rest => rest.length
decreasing_by all_goals (simp only [List.length_drop, List.length_cons]; omega)

/-- The number of leading blanks of a line, and the column they lead to: a tab goes to the next
multiple of eight, and a form feed back to zero. -/
def indentation : Nat → Text → Nat × Nat
  | column, ' ' :: cs => let (n, k) := indentation (column + 1) cs; (n + 1, k)
  | column, '\t' :: cs => let (n, k) := indentation ((column / 8 + 1) * 8) cs; (n + 1, k)
  | _, '\x0c' :: cs => let (n, k) := indentation 0 cs; (n + 1, k)
  | column, _ => (0, column)

/-- The columns of the blocks around a line that starts at `column`, if it fits. -/
def columnsAt (column : Nat) (columns : List Nat) : Outcome (List Nat) :=
  match columns with
  | [] => .ok [column]
  | top :: _ =>
    if top < column then .ok (column :: columns)
    else if columns.contains column then .ok (columns.dropWhile (column < ·))
    else .error .invalidSyntax

/-- A line without its final line break characters. -/
def stripBreak (line : Text) : Text :=
  (line.reverse.dropWhile fun c => c == '\r' || c == '\n').reverse

/-- Reads a line that goes on with an open string. -/
def scanString (line offset : Nat) (st : State) (s : OpenString) (text : Text) :
    List Token × State :=
  match Shape.closing s.delimiter text with
  | some n =>
    let value := s.value ++ text.take n
    let (ts, st) := scanRest line (offset + n) { st with openString := none, strict := false }
      (text.drop n)
    (Token.make .string value s.start s.startLine line :: ts, st)
  | none =>
    let goesOn := !st.strict || ['\n', '\\'].isPrefixOf text.reverse ||
      ['\n', '\r', '\\'].isPrefixOf text.reverse
    if goesOn then ([], { st with openString := some { s with value := s.value ++ text } })
    else
      ([Token.make .error (s.value ++ text) s.start s.startLine line],
        { st with openString := none })

/-- Reads a line that starts a statement. -/
def scanStatement (line offset : Nat) (st : State) (text : Text) :
    Outcome (List Token × State) :=
  let (blanks, column) := indentation 0 text
  match text.drop blanks with
  | [] => .ok ([], st)
  | '#' :: rest =>
    .ok ([Token.make .comment (stripBreak ('#' :: rest)) (offset + blanks) line line], st)
  | '\r' :: _ => .ok ([], st)
  | '\n' :: _ => .ok ([], st)
  | rest => do
    let columns ← columnsAt column st.columns
    return scanRest line (offset + blanks) { st with columns := columns } rest

/-- Reads a line. -/
def scanLine (line offset : Nat) (st : State) (text : Text) : Outcome (List Token × State) :=
  match st.openString with
  | some s => .ok (scanString line offset st s text)
  | none =>
    if st.depth = 0 ∧ st.continued = false then scanStatement line offset st text
    else .ok (scanRest line offset { st with continued := false } text)

/-- Reads lines, the first of which has the number `line` and starts at `offset`.  An open
string, an open bracket or a continued line at the end is a fault. -/
def scanLines (line offset : Nat) (st : State) : List Text → Outcome (List Token)
  | [] =>
    if st.openString.isSome ∨ st.depth ≠ 0 ∨ st.continued then .error .unreadableTokens
    else .ok []
  | l :: ls => do
    let (ts, st) ← scanLine line offset st l
    let rest ← scanLines (line + 1) (offset + l.length) st ls
    return ts ++ rest

end Scan

/-- The tokens of a text, in order. -/
def Token.ofText (text : Text) : Outcome (List Token) :=
  Scan.scanLines 1 0 .initial (text.lines.filter fun l => !l.isEmpty)

end KeyOrder
