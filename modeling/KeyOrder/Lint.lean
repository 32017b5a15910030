import KeyOrder.Container.Walk
import KeyOrder.Log
import KeyOrder.Relocation

/-!
# Checking a text

The checker listens to the walk.  Every open container has a scope that remembers the last named
entry; each named entry is compared with it.  A spread makes the scope forget, and entries without
a name are passed over.  The first problem of a container carries a fix that puts the whole
container in order.
-/

namespace KeyOrder

/-- A problem: the rule that it belongs to, a name that should stand before the one that precedes
it, and where. -/
structure Problem where
  ruleId : String
  message : CodePoints
  line : Nat
  column : Nat
  endLine : Nat
  endColumn : Nat
  fix : Option Edit
deriving Repr

/-- Problems in the order of their lines and columns. -/
def Problem.le (a b : Problem) : Bool :=
  a.line < b.line || (a.line == b.line && a.column ≤ b.column)

namespace Checker

/-- The wording of a problem. -/
def message (c : Configuration) (name previous : Name) : CodePoints :=
  codePoints ("Expected object keys to be in " ++ (if c.natural then "natural " else "") ++
      (if c.caseSensitive then "" else "insensitive ") ++ c.direction.name ++
      "ending order. '") ++
    name ++ codePoints "' should be before '" ++ previous ++ codePoints "'."

/-- An open container and the last of its entries that had a name. -/
structure Scope where
  container : Container
  previous : Option (Name × Entry)

/-- What the checker knows. -/
structure State where
  /-- The open containers, the innermost first. -/
  scopes : List Scope
  relocator : Relocator
  /-- The problems, in the order in which they were found. -/
  problems : List Problem
  log : List Record

/-- Before the first event. -/
def State.initial (c : Configuration) : State := ⟨[], .fresh, [], [.checking c]⟩

/-- Reports that an entry is out of order. -/
def report (src : Source) (c : Configuration) (st : State) (container : Container)
    (entry : Entry) (name : Name) (previous : Name × Entry) : Outcome State := do
  let (line, column) := src.lines.position entry.keyRange.start
  let (endLine, endColumn) := src.lines.position entry.keyRange.stop
  let asked := st.relocator.done.contains container.path
  let (result, relocator) := st.relocator.fix src c.order container
  let edits ← result
  let fix ← if edits.isEmpty then pure none
    else (Outcome.ofMerge (Edit.merge edits src.text)).map some
  let problem : Problem :=
    { ruleId := ruleId
      message := message c name previous.1
      line := line
      column := column
      endLine := endLine
      endColumn := endColumn
      fix := fix }
  return { st with
    relocator := relocator
    problems := st.problems ++ [problem]
    log := st.log ++ .outOfOrder entry previous.2 ::
      if asked then [] else [.relocating container edits.length] }

/-- Checks a property against the last named entry of its scope. -/
def property (src : Source) (c : Configuration) (st : State) (container : Container)
    (entry : Entry) (scope : Scope) (outer : List Scope) : Outcome State := do
  if container.kind = .pattern ∨ c.tooSmall container.entries.length then return st
  else
    match ← entry.name with
    | none => return st
    | some name =>
      let st := { st with scopes := { scope with previous := some (name, entry) } :: outer }
      match scope.previous with
      | none => return st
      | some previous =>
        if ← Outcome.ofDigits (c.order.check previous.1 name) then return st
        else report src c st container entry name previous

/-- Takes note of an event. -/
def step (src : Source) (c : Configuration) (st : State) : Event → Outcome State
  | .enter container => .ok { st with scopes := ⟨container, none⟩ :: st.scopes }
  | .leave container =>
    match st.scopes with
    | scope :: outer =>
      if scope.container.path = container.path then .ok { st with scopes := outer }
      else .error .misplaced
    | [] => .error .misplaced
  | .entry container entry =>
    match st.scopes with
    | [] => .error .misplaced
    | scope :: outer =>
      match entry.kind with
      | .spread => .ok { st with scopes := { scope with previous := none } :: outer }
      | .property =>
        if scope.container.path = container.path then
          property src c st container entry scope outer
        else .error .misplaced

/-- Takes note of all events of a walk.  A fault of the walk comes after all that was told before
it. -/
def run (src : Source) (c : Configuration) (walk : Walk) : Outcome State := do
  let st ← walk.events.foldlM (step src c) (.initial c)
  match walk.fault with
  | some f => .error f
  | none => return st

end Checker

/-- The problems of a text, in order, and the log. -/
structure Report where
  problems : List Problem
  log : List Record

/-- Checks a text. -/
def lint (c : Configuration) (text : Text) : Outcome Report := do
  let src ← Source.ofText text
  let st ← Checker.run src c src.walk
  return ⟨sort Problem.le st.problems, st.log⟩

/-- Checks a text under options. -/
def verify (options : Json.Value) (text : Text) : Outcome Report := do
  let values ← Outcome.ofOptions (Options.validate options)
  lint (Options.configuration values) text

end KeyOrder
