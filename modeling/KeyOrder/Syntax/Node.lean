import KeyOrder.Decimal.Binary64
import KeyOrder.Text.Lines
import KeyOrder.Unicode.Table

/-!
# Syntax trees

A node has a kind, a span and its children in the order in which they are visited.  Kinds tell
apart what the library looks at: containers and their entries, keys, and what may be assigned to.
Every other construct is a `group` of its parts.
-/

namespace KeyOrder

/-- A stretch of source from one place to another. -/
structure Span where
  start : Place
  stop : Place
deriving Repr, DecidableEq, Inhabited

/-- The value of a literal. -/
inductive Constant where
  | string (s : CodePoints)
  | bytes (b : List Nat)
  | integer (n : Nat)
  | float (x : Binary64)
  | imaginary (x : Binary64)
  | boolean (b : Bool)
  | none
  | ellipsis
deriving Repr, DecidableEq, Inhabited

/-- The kinds of nodes. -/
inductive NodeKind where
  /-- A plain name, in its compatibility form. -/
  | name (id : CodePoints)
  | constant (value : Constant)
  /-- A formatted string; its children are constants and replacement fields. -/
  | template
  /-- A dict display; its children are pairs and spreads. -/
  | display
  /-- A call; its children are the function and the arguments in source order. -/
  | call
  /-- A mapping pattern; its children are pairs of a key and a pattern. -/
  | mapping
  /-- A key and a value. -/
  | pair
  /-- A value that is spread into a display. -/
  | spread
  /-- An argument with a keyword, or a spread of keyword arguments. -/
  | keyword (name : Option CodePoints)
  | starred
  | attribute
  | subscript
  | tuple
  | list
  /-- Any other construct. -/
  | group
deriving Repr, DecidableEq, Inhabited

/-- A node of a syntax tree. -/
inductive Node where
  | mk (kind : NodeKind) (span : Span) (children : List Node)
deriving Repr, Inhabited

namespace Node

/-- The kind of a node. -/
def kind : Node → NodeKind
  | mk k _ _ => k

/-- The span of a node. -/
def span : Node → Span
  | mk _ s _ => s

/-- The children of a node. -/
def children : Node → List Node
  | mk _ _ cs => cs

/-- Whether a node is an argument with a keyword. -/
def isKeyword (n : Node) : Bool :=
  match n.kind with
  | .keyword _ => true
  | _ => false

/-- A construct of no kind of its own around some nodes.  Its span is never looked at. -/
def bundle (children : List Node) : Node := mk .group default children

end Node

end KeyOrder
