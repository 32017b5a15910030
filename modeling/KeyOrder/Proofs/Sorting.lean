import KeyOrder.Sorting
import Mathlib.Tactic.Lemma

/-!
# Sorted lists

Items of a list stand in an order, and in a list without repetitions in one order only.

The sort of the program is the standard merge sort, for every comparison, a preorder or not
(`sort_eq_mergeSort`).
-/

namespace KeyOrder

/-! ### Items in order -/

section Items

variable {α : Type}

lemma eq_or_rel_of_mem {R : α → α → Prop} {xs : List α} (h : xs.Pairwise R) {a b : α}
    (ha : a ∈ xs) (hb : b ∈ xs) : a = b ∨ R a b ∨ R b a := by
  obtain ⟨i, hi, rfl⟩ := List.mem_iff_getElem.1 ha
  obtain ⟨j, hj, rfl⟩ := List.mem_iff_getElem.1 hb
  rcases Nat.lt_trichotomy i j with hij | rfl | hij
  · exact .inr (.inl (List.pairwise_iff_getElem.1 h i j hi hj hij))
  · exact .inl rfl
  · exact .inr (.inr (List.pairwise_iff_getElem.1 h j i hj hi hij))

lemma eq_or_sublist_of_mem {xs : List α} {a b : α} (ha : a ∈ xs) (hb : b ∈ xs) :
    a = b ∨ [a, b].Sublist xs ∨ [b, a].Sublist xs := by
  have hpair : xs.Pairwise fun a b => [a, b].Sublist xs :=
    List.pairwise_iff_forall_sublist.2 fun hsub => hsub
  exact eq_or_rel_of_mem hpair ha hb

lemma not_sublist_swap {l : List α} (hl : l.Nodup) {a b : α} (hab : [a, b].Sublist l)
    (hba : [b, a].Sublist l) : False := by
  induction l with
  | nil => cases hab
  | cons c l ih =>
    obtain ⟨hc, hl⟩ := List.nodup_cons.1 hl
    cases hab with
    | cons _ hab =>
      cases hba with
      | cons _ hba => exact ih hl hab hba
      | cons_cons _ hba => exact hc (hab.subset (by simp))
    | cons_cons _ hab =>
      cases hba with
      | cons _ hba => exact hc (hba.subset (by simp))
      | cons_cons _ hba => exact hc (hba.subset (by simp))

/-- When no item of a second kind stands before one of a first kind, filtering by both kinds gives
those of the first kind and then those of the second. -/
lemma filter_eq_append {p q r : α → Bool} {xs : List α}
    (h : xs.Pairwise fun x y => r x = true → q y = false)
    (hp : ∀ x ∈ xs, p x = (q x || r x)) (hqr : ∀ x ∈ xs, r x = true → q x = false) :
    xs.filter p = xs.filter q ++ xs.filter r := by
  induction xs with
  | nil => rfl
  | cons x xs ih =>
    obtain ⟨hx, hxs⟩ := List.pairwise_cons.1 h
    have ih := ih hxs (fun y hy => hp y (List.mem_cons_of_mem _ hy))
      (fun y hy => hqr y (List.mem_cons_of_mem _ hy))
    have hpx := hp x (List.mem_cons_self ..)
    have hqx := hqr x (List.mem_cons_self ..)
    cases hr : r x with
    | true =>
      -- nothing of the first kind is left
      have hnil : xs.filter q = [] := List.filter_eq_nil_iff.2 fun y hy => by simp [hx y hy hr]
      rw [hnil, List.nil_append] at ih
      rw [List.filter_cons_of_pos (by simp [hpx, hr]), List.filter_cons_of_neg (by simp [hqx hr]),
        List.filter_cons_of_pos hr, hnil, ih, List.nil_append]
    | false =>
      rw [List.filter_cons, List.filter_cons, List.filter_cons_of_neg (by simp [hr]), hpx, hr,
        Bool.or_false, ih]
      split <;> rfl

end Items

/-! ### Merge sort -/

namespace Sorting

variable {α : Type} (le : α → α → Bool)

lemma mergeLists_eq_merge (xs ys : List α) : mergeLists le xs ys = xs.merge ys le := by
  induction xs generalizing ys with
  | nil => rw [mergeLists, List.nil_merge]
  | cons x xs ih =>
    rw [mergeLists]
    induction ys with
    | nil => rw [mergeHead, ih, List.merge_right, List.merge_right]
    | cons y ys ihy => rw [mergeHead, List.cons_merge_cons, ih, ihy]

lemma halving_eq_mergeSort {n : Nat} {xs : List α} (h : xs.length ≤ n + 1) :
    halving le n xs = xs.mergeSort le := by
  induction n generalizing xs with
  | zero =>
    match xs, h with
    | [], _ => rw [halving, List.mergeSort_nil]
    | [x], _ => rw [halving, List.mergeSort_singleton]
  | succ n ih =>
    match xs, h with
    | [], _ => rw [List.mergeSort_nil]; rfl
    | [x], _ => rw [List.mergeSort_singleton]; rfl
    | x :: y :: zs, h =>
      have hlength : (x :: y :: zs).length = zs.length + 2 := rfl
      rw [halving, if_neg (by omega), List.mergeSort, mergeLists_eq_merge,
        ih (by rw [List.length_take]; omega), ih (by rw [List.length_drop]; omega)]
      simp only [List.MergeSort.Internal.splitInTwo, List.splitAt_eq]

end Sorting

lemma sort_eq_mergeSort {α : Type} (le : α → α → Bool) (xs : List α) :
    sort le xs = xs.mergeSort le :=
  Sorting.halving_eq_mergeSort le (Nat.le_succ _)

end KeyOrder
