import KeyOrder.Source

/-!
# Containers

Three constructs hold keyed entries: dict displays, calls of the plain name `dict`, and mapping
patterns.  Their entries are properties, which have a key, and spreads, which have none: spread
values, positional arguments and spread arguments.
-/

namespace KeyOrder

/-- The kinds of containers. -/
inductive ContainerKind where
  | display
  | call
  | pattern
deriving Repr, DecidableEq

/-- The word for a kind of containers. -/
def ContainerKind.label : ContainerKind → String
  | display => "dict-display"
  | call => "dict-call"
  | pattern => "mapping-pattern"

/-- The kinds of entries. -/
inductive EntryKind where
  | property
  | spread
deriving Repr, DecidableEq

/-- The word for a kind of entries. -/
def EntryKind.label : EntryKind → String
  | property => "property"
  | spread => "spread"

/-- The key of a property. -/
inductive EntryKey where
  | expression (node : Node)
  | keyword (name : Name)
deriving Repr

/-- An entry of a container. -/
structure Entry where
  kind : EntryKind
  key : Option EntryKey
  range : Range
  /-- Where a problem with the entry is reported. -/
  keyRange : Range
  startLine : Nat
  endLine : Nat
deriving Repr

/-- An entry as it appears in the log. -/
def Entry.display (e : Entry) : String :=
  "Entry(" ++ e.kind.label ++ ", range=" ++ e.range.display ++ ")"

/-- A container.  Its path leads from the root of the tree to its node, the last step first, so
different containers of a tree have different paths. -/
structure Container where
  kind : ContainerKind
  range : Range
  entries : List Entry
  path : List Nat
deriving Repr

/-- A container as it appears in the log. -/
def Container.display (c : Container) : String :=
  "Container(" ++ c.kind.label ++ ", range=" ++ c.range.display ++ ")"

namespace Container

/-- The entry with the given ranges. -/
def entry (src : Source) (kind : EntryKind) (key : Option EntryKey) (range keyRange : Range) :
    Entry :=
  ⟨kind, key, range, keyRange, src.lines.lineOf range.start, src.lines.lineOf range.stop⟩

/-- The range of a node with the parentheses around it. -/
def wrappedRange (src : Source) (floor : Nat) (n : Node) : Outcome Range := do
  return src.unwrap floor (← src.rangeOf n.span)

/-- The entry of a key and a value whose range is known. -/
def pairEntry (src : Source) (floor : Nat) (key : Node) (valueRange : Range) :
    Outcome Entry := do
  let wrapped ← wrappedRange src floor key
  let keyRange ← src.rangeOf key.span
  return entry src .property (some (.expression key)) ⟨wrapped.start, valueRange.stop⟩ keyRange

/-- The entry of a spread value: the stars before it belong to it. -/
def spreadEntry (src : Source) (valueRange : Range) : Outcome Entry :=
  match src.codeBefore valueRange.start with
  | some stars =>
    if stars.is "**" then
      let range := ⟨stars.range.start, valueRange.stop⟩
      .ok (entry src .spread none range range)
    else .error .misplaced
  | none => .error .misplaced

/-- An entry of a dict display.  The value is looked at before the key. -/
def displayEntry (src : Source) (floor : Nat) (n : Node) : Outcome Entry :=
  match n.children with
  | [k, v] => do
    let valueRange ← wrappedRange src floor v
    pairEntry src floor k valueRange
  | [v] => do
    let valueRange ← wrappedRange src floor v
    spreadEntry src valueRange
  | _ => .error .misplaced

/-- An entry of a mapping pattern.  The key is looked at before the pattern. -/
def patternEntry (src : Source) (floor : Nat) (n : Node) : Outcome Entry :=
  match n.children with
  | [k, p] => do
    let wrapped ← wrappedRange src floor k
    let patternRange ← wrappedRange src floor p
    let keyRange ← src.rangeOf k.span
    return entry src .property (some (.expression k)) ⟨wrapped.start, patternRange.stop⟩ keyRange
  | _ => .error .misplaced

/-- An entry of a call.  A keyword is as long as its name, and its entry as long as the argument
or its value, whichever ends last. -/
def argumentEntry (src : Source) (floor : Nat) (n : Node) : Outcome Entry :=
  match n with
  | .mk (.keyword (some name)) span children => do
    let valueRange ← match children with
      | [v] => wrappedRange src floor v
      | _ => .error .misplaced
    let range ← src.rangeOf span
    return entry src .property (some (.keyword name))
      ⟨range.start, max range.stop valueRange.stop⟩ ⟨range.start, range.start + name.length⟩
  | .mk (.keyword none) span _ => do
    let range ← src.rangeOf span
    return entry src .spread none range range
  | n => do
    let range ← wrappedRange src floor n
    return entry src .spread none range range

/-- The first token from an offset on that is no closing parenthesis, in at most `n` steps. -/
def afterClosers (src : Source) (offset : Nat) : Nat → Option Token
  | 0 => none
  | n + 1 =>
    match src.codeAfter offset with
    | some t => if t.is ")" then afterClosers src t.range.stop n else some t
    | none => none

/-- Where the opening parenthesis of a call stands.  Those that close the function are passed
over. -/
def callFloor (src : Source) (function : Node) : Outcome Nat := do
  let range ← src.rangeOf function.span
  match afterClosers src range.stop (src.tokens.size + 1) with
  | some t => if t.is "(" then return t.range.start else .error .misplaced
  | none => .error .misplaced

/-- Whether a node is the plain name `dict`. -/
def isDict (n : Node) : Bool :=
  match n.kind with
  | .name id => id == codePoints "dict"
  | _ => false

/-- The kind of container that a node is. -/
def kindOf? (n : Node) : Option ContainerKind :=
  match n.kind with
  | .display => some .display
  | .mapping => some .pattern
  | .call => if (n.children.head?.map isDict).getD false then some .call else none
  | _ => none

/-- Whether the start of a node decides if it is a container: displays, mapping patterns and all
calls. -/
def isCandidate (n : Node) : Bool :=
  match n.kind with
  | .display | .mapping | .call => true
  | _ => false

/-- The container of a kind at a node. -/
def build (src : Source) (path : List Nat) (kind : ContainerKind) (n : Node) :
    Outcome Container := do
  let range ← src.rangeOf n.span
  let entries ← match kind with
    | .display => n.children.mapM (displayEntry src range.start)
    | .pattern => n.children.mapM (patternEntry src range.start)
    | .call =>
      match n.children with
      | [] => .error .misplaced
      | function :: arguments => do
        let floor ← callFloor src function
        arguments.mapM (argumentEntry src floor)
  return ⟨kind, range, entries, path⟩

/-- The container at a node, if it is one.  A node that starts strictly inside a string token, in
a replacement field, is none. -/
def ofNode? (src : Source) (path : List Nat) (n : Node) : Outcome (Option Container) := do
  if isCandidate n then
    let range ← src.rangeOf n.span
    if src.inString range.start then return none
    else
      match kindOf? n with
      | some kind => return some (← build src path kind n)
      | none => return none
  else return none

end Container

end KeyOrder
