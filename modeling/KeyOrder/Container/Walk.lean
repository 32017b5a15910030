import KeyOrder.Container.Basic

/-!
# The walk

A depth-first walk over a syntax tree tells of every container that it is entered, of each of its
entries before what the entry holds, and that it is left.  A fault ends the walk, and what it told
before stands.
-/

namespace KeyOrder

/-- What a walk tells. -/
inductive Event where
  | enter (container : Container)
  | entry (container : Container) (entry : Entry)
  | leave (container : Container)
deriving Repr

/-- A walk: its events, and the fault that ended it early. -/
structure Walk where
  events : List Event
  fault : Option Fault
deriving Repr

namespace Walk

/-- A walk over nothing. -/
def empty : Walk := ⟨[], none⟩

/-- A walk of one event. -/
def single (e : Event) : Walk := ⟨[e], none⟩

/-- One walk after another.  Nothing comes after a fault. -/
def append (a b : Walk) : Walk :=
  match a.fault with
  | some _ => a
  | none => ⟨a.events ++ b.events, b.fault⟩

instance : Append Walk := ⟨append⟩

/-- Walks one after another. -/
def concat (ws : List Walk) : Walk := ws.foldr append empty

/-- The walk over the inside of a container: each entry, and then what it holds. -/
def entries (c : Container) (es : List Entry) (inner : List Walk) : Walk :=
  concat ((es.zip inner).map fun (e, w) => single (.entry c e) ++ w)

/-- The walk over a container, given the walks over its children.  The function of a call is
visited before the entries. -/
def ofContainer (c : Container) (inner : List Walk) : Walk :=
  let (function, inner) := match c.kind, inner with
    | .call, f :: rest => (f, rest)
    | _, ws => (empty, ws)
  single (.enter c) ++ function ++ entries c c.entries inner ++ single (.leave c)

/-- The walks over the children of a call that is no container: arguments with keywords come
last. -/
def ofCall (children : List Node) (inner : List Walk) : Walk :=
  let (keywords, others) := (children.zip inner).partition fun (n, _) => n.isKeyword
  concat (others.map Prod.snd ++ keywords.map Prod.snd)

mutual

/-- The walk over a node. -/
def visit (src : Source) (path : List Nat) : Node → Walk
  | .mk kind span children =>
    match Container.ofNode? src path (.mk kind span children) with
    | .error f => ⟨[], some f⟩
    | .ok (some c) => ofContainer c (visitAll src path 0 children)
    | .ok none =>
      match kind with
      | .display | .mapping =>
        -- All keys come before all values.
        let pairs := visitPairs src path 0 children
        concat (pairs.map Prod.fst ++ pairs.map Prod.snd)
      | .call => ofCall children (visitAll src path 0 children)
      | _ => concat (visitAll src path 0 children)

/-- The walks over the children of a node, from the one with index `i` on. -/
def visitAll (src : Source) (path : List Nat) (i : Nat) : List Node → List Walk
  | [] => []
  | n :: ns => visit src (i :: path) n :: visitAll src path (i + 1) ns

/-- The walks over the keys and over the values of pairs, from the one with index `i` on. -/
def visitPairs (src : Source) (path : List Nat) (i : Nat) : List Node → List (Walk × Walk)
  | [] => []
  | .mk .pair _ [k, v] :: ns =>
    (visit src (0 :: i :: path) k, visit src (1 :: i :: path) v) ::
      visitPairs src path (i + 1) ns
  | n :: ns => (empty, visit src (i :: path) n) :: visitPairs src path (i + 1) ns

end

end Walk

namespace Source

/-- The walk over the tree of a source. -/
def walk (src : Source) : Walk := Walk.visit src [] src.tree

/-- The containers of a source, in the order of the walk, when the walk has no fault. -/
def containers (src : Source) : Outcome (List Container) :=
  match src.walk.fault with
  | some f => .error f
  | none =>
    .ok (src.walk.events.filterMap fun
      | .enter c => some c
      | _ => none)

end Source

end KeyOrder
