import KeyOrder.Order.NaturalKey
import KeyOrder.Sorting
import KeyOrder.Unicode.Lowercase

/-!
# Orders on names

There are eight orders: ascending or descending, letter case compared or not, digits compared as
characters or as numbers.  An order answers whether one name may follow another.  Names are
compared by their keys; only the natural orders can fail, on a run of digits that is too long.
-/

namespace KeyOrder

/-- The direction of an order. -/
inductive Direction where
  | ascending
  | descending
deriving Repr, DecidableEq

/-- The name of a direction. -/
def Direction.name : Direction → String
  | .ascending => "asc"
  | .descending => "desc"

/-- An order on names. -/
structure Order where
  direction : Direction
  insensitive : Bool
  natural : Bool
deriving Repr, DecidableEq

namespace Order

/-- What names are compared by. -/
inductive Key where
  | plain (name : Name)
  | natural (key : NaturalKey)
deriving Repr, DecidableEq

/-- Compares keys.  An order gives all names keys of one kind, so the last two cases do not
arise within an order. -/
def Key.cmp : Key → Key → Ordering
  | plain a, plain b => compare a b
  | natural a, natural b => a.cmp b
  | plain _, natural _ => .lt
  | natural _, plain _ => .gt

/-- The name as it is compared: in lower case when letter case does not count. -/
def fold (o : Order) (name : Name) : Name :=
  if o.insensitive then Unicode.lower name else name

/-- The key of a name. -/
def key (o : Order) (name : Name) : Except TooManyDigits Key :=
  if o.natural then (NaturalKey.of (o.fold name)).map .natural
  else .ok (.plain (o.fold name))

/-- Whether the second key may follow the first. -/
def allows (o : Order) (a b : Key) : Bool :=
  match o.direction with
  | .ascending => (a.cmp b).isLE
  | .descending => (b.cmp a).isLE

/-- Whether `b` may follow `a`.  The smaller side of the comparison is read first. -/
def check (o : Order) (a b : Name) : Except TooManyDigits Bool :=
  match o.direction with
  | .ascending => do
    let ka ← o.key a
    let kb ← o.key b
    return o.allows ka kb
  | .descending => do
    let kb ← o.key b
    let ka ← o.key a
    return o.allows ka kb

/-- Three-way comparison: names that may follow each other either way are equal. -/
def compareNames (o : Order) (a b : Name) : Except TooManyDigits Ordering := do
  if ← o.check a b then
    if ← o.check b a then return .eq else return .lt
  else return .gt

/-- The keys of the items of a list.  With fewer than two items no comparison is made and no key
is needed.  The first comparison is between the second item and the first. -/
def keys {α : Type} (o : Order) (name : α → Name) : List α → Except TooManyDigits (List (Key × α))
  | [] => .ok []
  | [x] => .ok [(.plain (name x), x)]
  | x :: y :: rest => do
    match o.direction with
    | .ascending =>
      let ky ← o.key (name y)
      let kx ← o.key (name x)
      let krest ← rest.mapM fun z => (o.key (name z)).map (·, z)
      return (kx, x) :: (ky, y) :: krest
    | .descending =>
      let kx ← o.key (name x)
      let ky ← o.key (name y)
      let krest ← rest.mapM fun z => (o.key (name z)).map (·, z)
      return (kx, x) :: (ky, y) :: krest

/-- Sorts a list by the names of its items.  Items that compare equal keep their order. -/
def sortOn {α : Type} (o : Order) (name : α → Name) (xs : List α) :
    Except TooManyDigits (List α) := do
  let keyed ← o.keys name xs
  return (sort (fun a b => o.allows a.1 b.1) keyed).map Prod.snd

/-! ### Orders by name -/

/-- The name of an order: its direction, then `I` when letter case does not count, then `N` when
digits compare as numbers. -/
def name (o : Order) : String :=
  o.direction.name ++ (if o.insensitive then "I" else "") ++ (if o.natural then "N" else "")

/-- The eight orders. -/
def all : List Order :=
  [⟨.ascending, false, false⟩, ⟨.ascending, true, false⟩, ⟨.ascending, false, true⟩,
   ⟨.ascending, true, true⟩, ⟨.descending, false, false⟩, ⟨.descending, true, false⟩,
   ⟨.descending, false, true⟩, ⟨.descending, true, true⟩]

/-- The order with the given name. -/
def named? (s : CodePoints) : Option Order :=
  all.find? fun o => s = codePoints o.name

/-- The name under which the order with a given base name and flags is looked up. -/
def lookupName (base : CodePoints) (insensitive natural : Bool) : CodePoints :=
  base ++ codePoints ((if insensitive then "I" else "") ++ (if natural then "N" else ""))

end Order

end KeyOrder
