import KeyOrder.Text.Lines
import KeyOrder.Token.Shape

/-!
# Lexemes

The words of a program as its grammar sees them: names, numbers, strings and operators, with line
ends and changes of indentation, and without comments and blanks.  A text that cannot be cut into
lexemes is no program.

Line breaks of every kind count as one `\n` here, and the text ends with one.  Places count lines
of this form of the text.
-/

namespace KeyOrder

/-- The kinds of lexemes. -/
inductive LexemeKind where
  | name
  | number
  | string
  | operator
  | newline
  | indent
  | dedent
  | stop
deriving Repr, DecidableEq, Inhabited

/-- A lexeme. -/
structure Lexeme where
  kind : LexemeKind
  text : String
  span : Place × Place
deriving Repr, Inhabited

/-- The rest of a text and the place where it starts. -/
structure Cursor where
  rest : Text
  place : Place
deriving Repr

namespace Cursor

/-- The place after a character. -/
def after (p : Place) (c : Char) : Place :=
  if c = '\n' then ⟨p.line + 1, 0⟩ else ⟨p.line, p.column + c.utf8Size⟩

/-- Passes over `n` characters. -/
def skip : Nat → Cursor → Cursor
  | 0, cur => cur
  | n + 1, ⟨c :: cs, p⟩ => skip n ⟨cs, after p c⟩
  | _ + 1, ⟨[], p⟩ => ⟨[], p⟩

/-- Passes over the characters of a class. -/
def skipWhile (p : Char → Bool) (cur : Cursor) : Cursor :=
  cur.skip (cur.rest.takeWhile p).length

end Cursor

namespace Lexeme

/-- Writes every kind of line break as `\n`. -/
def unifyBreaks : Text → Text
  | '\r' :: '\n' :: cs => '\n' :: unifyBreaks cs
  | '\r' :: cs => '\n' :: unifyBreaks cs
  | c :: cs => c :: unifyBreaks cs
  | [] => []

/-- The text as it is cut into lexemes.  A line break is added when the text has none at its end,
and also after a final `\r\n`. -/
def normalize (text : Text) : Text :=
  let unified := unifyBreaks text
  let pairAtEnd := ['\n', '\r'].isPrefixOf text.reverse
  if unified.getLast? = some '\n' ∧ pairAtEnd = false then unified else unified ++ ['\n']

/-! ### Words -/

/-- Whether a character may stand in an identifier, before a closer look at those outside of
ASCII. -/
def isIdentifierChar (c : Char) : Bool := c.isAlphanum || c == '_' || 0x80 ≤ c.toNat

/-- The length of an identifier, and none when it holds a character that may not stand in one. -/
def identifier? (cs : Text) : Option Nat :=
  let word := cs.takeWhile isIdentifierChar
  if word.all (·.toNat < 0x80) || Unicode.isIdentifier (word.map Char.toNat) then
    some word.length
  else none

/-- The words that may follow a number without a blank. -/
def wordsAfterNumber : List Text :=
  ["and", "else", "for", "if", "in", "is", "or", "not"].map String.toList

/-- Whether a number may end before the given text. -/
def endsNumber (rest : Text) : Bool :=
  wordsAfterNumber.any (·.isPrefixOf rest) || !(rest.head?.map isIdentifierChar).getD false

/-- The length of a number that starts a text, and none when it is malformed. -/
def number? (cs : Text) : Option Nat :=
  let based := match cs with
    | '0' :: x :: _ => "xXoObB".toList.contains x
    | _ => false
  let length :=
    if based then if Shape.integer cs ≤ 2 then 0 else Shape.integer cs
    else
      let whole := Shape.digitPart cs
      let real := Shape.float cs
      if real ≠ 0 then if Shape.isImaginaryMark cs[real]? then real + 1 else real
      else if Shape.isImaginaryMark cs[whole]? then whole + 1
      else if cs.head? == some '0' && (cs.take whole).any fun c => c != '0' && c != '_' then 0
      else whole
  if length ≠ 0 && endsNumber (cs.drop length) then some length else none

/-- The length of the rest of a string up to and with its closing quotes.  Only a string between
triple quotes may hold a line break that is not hidden by a backslash. -/
def closing (d : Shape.Delimiter) : Text → Option Nat
  | '\\' :: _ :: cs => (closing d cs).map (· + 2)
  | c :: cs =>
    if c = d.quote ∧ (d.triple = false ∨ [c, c].isPrefixOf cs) then some d.length
    else if c = '\n' ∧ d.triple = false then none
    else (closing d cs).map (· + 1)
  | [] => none

/-- The length of a string that starts a text. -/
def string? (cs : Text) : Option Nat :=
  (Shape.stringStart? cs).bind fun (n, d) =>
    (closing d (cs.drop (n + d.length))).map (n + d.length + ·)

/-- The kind and the length of the word that starts a text. -/
def word? (cs : Text) : Option (LexemeKind × Nat) :=
  match cs with
  | [] => none
  | c :: rest =>
    if (Shape.stringStart? cs).isSome then (string? cs).map (.string, ·)
    else if c.isDigit || (c == '.' && (rest.head?.map Char.isDigit).getD false) then
      (number? cs).map (.number, ·)
    else if isIdentifierChar c then (identifier? cs).map (.name, ·)
    else if ['<', '>'].isPrefixOf cs || Shape.operator cs = 0 then none
    else some (.operator, Shape.operator cs)

/-! ### Lines and brackets -/

/-- What is known while a text is cut: the columns of the blocks around, each measured twice,
with tabs to multiples of eight and with tabs as single columns; the open brackets; and the
lexemes so far. -/
structure State where
  blocks : List (Nat × Nat)
  brackets : List Char
  lexemes : Array Lexeme

/-- Adds a lexeme. -/
def State.push (st : State) (kind : LexemeKind) (text : String) (start stop : Place) : State :=
  { st with lexemes := st.lexemes.push ⟨kind, text, (start, stop)⟩ }

/-- The greatest number of blocks within one another. -/
def maxBlocks : Nat := 100

/-- The greatest number of brackets within one another. -/
def maxBrackets : Nat := 200

/-- The bracket that closes an opening one. -/
def closer? : Char → Option Char
  | '(' => some ')'
  | '[' => some ']'
  | '\x7b' => some '\x7d'
  | _ => none

/-- Keeps track of brackets.  They have to match, and may not be nested too deeply. -/
def State.bracket (st : State) (text : Text) : Option State :=
  match text with
  | [c] =>
    if (closer? c).isSome then
      if maxBrackets ≤ st.brackets.length then none
      else some { st with brackets := c :: st.brackets }
    else if c == ')' || c == ']' || c == '\x7d' then
      match st.brackets with
      | b :: bs => if closer? b = some c then some { st with brackets := bs } else none
      | [] => none
    else some st
  | _ => some st

/-- Closes blocks down to the one at a column, which has to exist. -/
def State.dedent (st : State) (column alternative : Nat) (place : Place) : Option State :=
  let closed := st.blocks.takeWhile fun b => column < b.1
  match st.blocks.drop closed.length with
  | (c, a) :: outer =>
    if c = column ∧ a = alternative then
      some (closed.foldl (fun st _ => st.push .dedent "" place place)
        { st with blocks := (c, a) :: outer })
    else none
  | [] => none

/-- Opens or closes blocks at the start of a statement.  The two measures have to agree on which
it is. -/
def State.indent (st : State) (column alternative : Nat) (place : Place) : Option State :=
  match st.blocks with
  | [] => none
  | (c, a) :: _ =>
    if column = c then if alternative = a then some st else none
    else if c < column then
      if maxBlocks ≤ st.blocks.length ∨ alternative ≤ a then none
      else
        some ({ st with blocks := (column, alternative) :: st.blocks }.push .indent "" place place)
    else st.dedent column alternative place

/-- The two measures of the blanks at the start of a line, the column at the first continuation
among them, and what follows. -/
structure Margin where
  column : Nat
  alternative : Nat
  continued : Nat
  cursor : Cursor

/-- Measures the blanks at the start of a line.  A line of blanks that ends with a backslash is
taken together with the next. -/
def margin : Nat → Margin → Option Margin
  | 0, _ => none
  | fuel + 1, m =>
    match m.cursor.rest with
    | ' ' :: _ =>
      margin fuel { m with
        column := m.column + 1, alternative := m.alternative + 1, cursor := m.cursor.skip 1 }
    | '\t' :: _ =>
      margin fuel { m with
        column := (m.column / 8 + 1) * 8, alternative := m.alternative + 1
        cursor := m.cursor.skip 1 }
    | '\x0c' :: _ =>
      margin fuel { m with column := 0, alternative := 0, cursor := m.cursor.skip 1 }
    | '\\' :: '\n' :: rest =>
      if rest.isEmpty then none
      else
        margin fuel { m with
          continued := if m.continued = 0 then m.column else m.continued
          cursor := m.cursor.skip 2 }
    | '\\' :: _ => none
    | _ => some m

/-- Cuts a text into lexemes.  `fresh` tells that a line starts here. -/
def cutFrom : Nat → Bool → State → Cursor → Option State
  | 0, _, _, _ => none
  | fuel + 1, true, st, cur => do
    let m ← margin (cur.rest.length + 1) ⟨0, 0, 0, cur⟩
    let column := if m.continued = 0 then m.column else m.continued
    let alternative := if m.continued = 0 then m.alternative else m.continued
    let cur := m.cursor
    match cur.rest with
    | [] =>
      if st.brackets.isEmpty then
        let st ← st.indent column alternative cur.place
        return st.push .stop "" cur.place cur.place
      else none
    | '\n' :: _ => cutFrom fuel true st (cur.skip 1)
    | '#' :: _ => cutFrom fuel true st ((cur.skipWhile (· != '\n')).skip 1)
    | _ =>
      if st.brackets.isEmpty then
        let st ← st.indent column alternative cur.place
        cutFrom fuel false st cur
      else cutFrom fuel false st cur
  | fuel + 1, false, st, cur =>
    let cur := cur.skipWhile fun c => c == ' ' || c == '\t' || c == '\x0c'
    let cur := if cur.rest.head? = some '#' then cur.skipWhile (· != '\n') else cur
    match cur.rest with
    | [] => none
    | '\n' :: _ =>
      let next := cur.skip 1
      if st.brackets.isEmpty then
        cutFrom fuel true (st.push .newline "" cur.place cur.place) next
      else cutFrom fuel true st next
    | '\\' :: '\n' :: rest => if rest.isEmpty then none else cutFrom fuel false st (cur.skip 2)
    | _ => do
      let (kind, n) ← word? cur.rest
      let text := cur.rest.take n
      let st ← if kind = .operator then st.bracket text else some st
      let next := cur.skip n
      cutFrom fuel false (st.push kind (String.ofList text) cur.place next.place) next

/-- The lexemes of a text from a place on, when it can be cut. -/
def cut (text : Text) (place : Place) : Option (Array Lexeme) :=
  (cutFrom (2 * text.length + 2) true ⟨[(0, 0)], [], #[]⟩ ⟨text, place⟩).map State.lexemes

end Lexeme

end KeyOrder
