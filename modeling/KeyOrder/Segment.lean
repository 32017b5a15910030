import KeyOrder.Container.Basic

/-!
# Segments

Spreads split the entries of a container into segments that are sorted on their own.  A spread
belongs to no segment, so there is one more segment than there are spreads.
-/

namespace KeyOrder

/-- The parts of a list between the items of which `p` holds. -/
def splitAt {α : Type} (p : α → Bool) : List α → List (List α)
  | [] => [[]]
  | x :: xs =>
    if p x then [] :: splitAt p xs
    else
      match splitAt p xs with
      | [] => [[x]]
      | s :: ss => (x :: s) :: ss

/-- The segments of a list of entries. -/
def segments (entries : List Entry) : List (List Entry) :=
  splitAt (fun e => e.kind == .spread) entries

end KeyOrder
