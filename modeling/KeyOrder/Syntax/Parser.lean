import KeyOrder.Syntax.Lexeme
import KeyOrder.Syntax.Node
import KeyOrder.Unicode.Compatibility

/-!
# Reading lexemes

A parser reads from an index in a sequence of lexemes and gives a value and the index after what
it read, or nothing.  Choice is ordered: a later alternative is tried only when an earlier one
gives nothing.
-/

namespace KeyOrder

/-- A reader of lexemes. -/
def Parser (α : Type) : Type := Array Lexeme → Nat → Option (α × Nat)

namespace Parser

variable {α β : Type}

/-- Reads nothing. -/
def done (a : α) : Parser α := fun _ i => some (a, i)

/-- Fails. -/
def fail : Parser α := fun _ _ => none

/-- Reads with one parser and goes on with another. -/
def andThen (p : Parser α) (f : α → Parser β) : Parser β := fun ls i =>
  match p ls i with
  | some (a, j) => f a ls j
  | none => none

instance : Monad Parser where
  pure := done
  bind := andThen

instance : OrElse (Parser α) where
  orElse p q := fun ls i =>
    match p ls i with
    | some r => some r
    | none => q () ls i

/-- Reads with a parser if it succeeds. -/
def optional (p : Parser α) : Parser (Option α) := fun ls i =>
  match p ls i with
  | some (a, j) => some (some a, j)
  | none => some (none, i)

/-- Reads at most `n` times, and stops when a round fails or reads nothing. -/
def upTo (n : Nat) (p : Parser α) : Parser (List α) := fun ls i =>
  match n with
  | 0 => some ([], i)
  | n + 1 =>
    match p ls i with
    | none => some ([], i)
    | some (a, j) =>
      if j ≤ i then some ([a], j)
      else
        match upTo n p ls j with
        | some (as, k) => some (a :: as, k)
        | none => none

/-- Reads as often as possible. -/
def many (p : Parser α) : Parser (List α) := fun ls i => upTo (ls.size - i) p ls i

/-- Reads at least once. -/
def many1 (p : Parser α) : Parser (List α) := do
  let a ← p
  let as ← many p
  return a :: as

/-! ### Single lexemes -/

/-- The lexeme that comes next, or the one after `k` more. -/
def peek (k : Nat) : Parser (Option Lexeme) := fun ls i => some (ls[i + k]?, i)

/-- Reads a lexeme of which a condition holds. -/
def satisfy (p : Lexeme → Bool) : Parser Lexeme := fun ls i =>
  match ls[i]? with
  | some l => if p l then some (l, i + 1) else none
  | none => none

/-- Whether a lexeme is the given operator or word. -/
def isWord (s : String) (l : Lexeme) : Bool :=
  (l.kind == .operator || l.kind == .name) && l.text == s

/-- Reads the given operator or word. -/
def word (s : String) : Parser Unit := do
  let _ ← satisfy (isWord s)

/-- Whether the given operator or word comes next. -/
def sees (s : String) : Parser Bool := do
  return ((← peek 0).map (isWord s)).getD false

/-- Whether the given operator or word comes after the next lexeme. -/
def seesSecond (s : String) : Parser Bool := do
  return ((← peek 1).map (isWord s)).getD false

/-- Reads the given operator or word if it comes next, and tells whether it did. -/
def accept (s : String) : Parser Bool := do
  if ← sees s then
    word s
    return true
  else return false

/-- Succeeds when the given operator or word does not come next. -/
def notAhead (s : String) : Parser Unit := do
  if ← sees s then fail else return ()

/-- Reads a lexeme of a kind. -/
def ofKind (k : LexemeKind) : Parser Lexeme := satisfy (·.kind == k)

/-- The words that are no names. -/
def keywords : List String :=
  ["False", "None", "True", "and", "as", "assert", "async", "await", "break", "class", "continue",
   "def", "del", "elif", "else", "except", "finally", "for", "from", "global", "if", "import",
   "in", "is", "lambda", "nonlocal", "not", "or", "pass", "raise", "return", "try", "while",
   "with", "yield"]

/-- Whether a lexeme is a name. -/
def isName (l : Lexeme) : Bool := l.kind == .name && !keywords.contains l.text

/-- Reads a name. -/
def name : Parser Lexeme := satisfy isName

/-- Whether a name comes next. -/
def seesName : Parser Bool := do
  return ((← peek 0).map isName).getD false

/-- Reads items with commas between them, and perhaps one after the last; tells whether there was
one. -/
def commaList (p : Parser α) : Parser (List α × Bool) := do
  let a ← p
  let as ← many do
    word ","
    p
  let trailing ← accept ","
  return (a :: as, trailing)

/-! ### Places and nodes -/

/-- The place where the next lexeme starts. -/
def startPlace : Parser Place := fun ls i =>
  some (((ls[i]?).map (·.span.1)).getD default, i)

/-- The place where the last lexeme read ends. -/
def stopPlace : Parser Place := fun ls i =>
  some (((ls[i - 1]?).map (·.span.2)).getD default, i)

/-- A node from a place to the end of what was read. -/
def nodeFrom (start : Place) (kind : NodeKind) (children : List Node) : Parser Node := do
  return .mk kind ⟨start, ← stopPlace⟩ children

/-- The compatibility form of a name. -/
def identifier (l : Lexeme) : CodePoints := Unicode.compatibilityForm (codePoints l.text)

/-- Reads a name as a node. -/
def nameNode : Parser Node := do
  let l ← name
  return .mk (.name (identifier l)) ⟨l.span.1, l.span.2⟩ []

end Parser

end KeyOrder
