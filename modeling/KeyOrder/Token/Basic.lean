import KeyOrder.Text.Basic

/-!
# Tokens

What a program text consists of besides blanks and line breaks: names, numbers, strings,
operators and comments.  A string with its prefix and quotes is one token, replacement fields
included.  A character that fits nothing is a token of its own.
-/

namespace KeyOrder

/-- The kinds of tokens. -/
inductive TokenKind where
  | name
  | number
  | string
  | operator
  | comment
  | error
deriving Repr, DecidableEq, Inhabited

/-- The word for a kind of tokens. -/
def TokenKind.label : TokenKind → String
  | name => "NAME"
  | number => "NUMBER"
  | string => "STRING"
  | operator => "OP"
  | comment => "COMMENT"
  | error => "ERRORTOKEN"

/-- A token, with the lines on which it starts and ends. -/
structure Token where
  kind : TokenKind
  value : Text
  range : Range
  startLine : Nat
  endLine : Nat
deriving Repr, DecidableEq, Inhabited

namespace Token

/-- Whether a token is a comment. -/
def isComment (t : Token) : Bool := t.kind == .comment

/-- Whether a token is the given operator. -/
def is (t : Token) (s : String) : Bool := t.value == s.toList

/-- A token with the given value at an offset. -/
def make (kind : TokenKind) (value : Text) (start startLine endLine : Nat) : Token :=
  ⟨kind, value, ⟨start, start + value.length⟩, startLine, endLine⟩

end Token

end KeyOrder
