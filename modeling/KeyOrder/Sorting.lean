/-!
# Sorting

A merge sort that keeps equal items in their order.  Merging is split into two loops, each over one
of the two lists, so that a sort of concrete items can be evaluated inside a proof.
-/

namespace KeyOrder

namespace Sorting

variable {α : Type} (le : α → α → Bool)

/-- Merges a list that starts with `x` with another one; `rest` merges what follows `x`. -/
def mergeHead (x : α) (rest : List α → List α) : List α → List α
  | [] => x :: rest []
  | y :: ys => if le x y then x :: rest (y :: ys) else y :: mergeHead x rest ys

/-- Merges two lists. -/
def mergeLists : List α → List α → List α
  | [], ys => ys
  | x :: xs, ys => mergeHead le x (mergeLists xs) ys

/-- Sorts a list by halving it at most `n` times. -/
def halving : Nat → List α → List α
  | 0, xs => xs
  | n + 1, xs =>
    if xs.length < 2 then xs
    else
      let middle := (xs.length + 1) / 2
      mergeLists le (halving n (xs.take middle)) (halving n (xs.drop middle))

end Sorting

/-- Sorts a list.  Items that compare equal keep their order. -/
def sort {α : Type} (le : α → α → Bool) (xs : List α) : List α := Sorting.halving le xs.length xs

end KeyOrder
