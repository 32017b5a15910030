/-!
# Bisection

The least index at which a condition starts to hold, found by halving an interval.  The
condition is meant to be monotone: once it holds it keeps holding to the right.  All ordered
lookups of the library, in token lists, line starts and character tables, go through here.
-/

namespace KeyOrder

/-- The least index of `[lo, hi)` at which the monotone condition `p` holds, and `hi` when it
holds nowhere. -/
def bisect (p : Nat → Bool) (lo hi : Nat) : Nat :=
  if lo < hi then
    let mid := (lo + hi) / 2
    if p mid then bisect p lo mid else bisect p (mid + 1) hi
  else lo
termination_by hi - lo

/-- The number of leading elements of `xs` on which `p` fails, when `p` is monotone along `xs`. -/
def bisectArray {α : Type} (p : α → Bool) (xs : Array α) : Nat :=
  bisect (fun i => (xs[i]?).all p) 0 xs.size

end KeyOrder
