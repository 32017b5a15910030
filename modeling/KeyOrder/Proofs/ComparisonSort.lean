import KeyOrder.Proofs.Comparison
import Mathlib.Data.Fin.Basic
import Mathlib.Data.List.FinRange

/-!
# Sorting by comparing two items at a time

An order sorts a list by the keys of its items, and asks for all keys at once.  A sort that knows
nothing of keys compares two items at a time, and a comparison of names fails when one of them has
no key.  What such a sort compares is its own affair, so it might never look at a name without a
key.  It cannot be so when it sorts: an item that takes part in no comparison could as well be less
than all others or greater than all others, and the sort would not tell the difference.

* `Sorter` is a sort that asks for comparisons, and `Sorter.IsStable` says that it sorts stably;
* `Sorter.IsStable.asks`: with two items or more each one takes part in a comparison;
* `Sorter.IsStable.sortOn_eq_ok_iff`: such a sort goes through exactly where the order sorts, with
  the same result.
-/

namespace KeyOrder

/-- A sort of `n` items that compares two of them at a time.  What it does next depends on the
answer, and in the end it tells the items in their new order. -/
inductive Sorter (n : Nat) where
  | done (order : List (Fin n))
  | ask (i j : Fin n) (next : Ordering → Sorter n)

namespace Sorter

variable {n : Nat} {ε : Type}

/-- The result of a sort whose comparisons may fail; the first one that does ends it. -/
def run (cmp : Fin n → Fin n → Except ε Ordering) : Sorter n → Except ε (List (Fin n))
  | done order => .ok order
  | ask i j next => do
    let answer ← cmp i j
    (next answer).run cmp

/-- The result of a sort with comparisons that do not fail. -/
def sort (cmp : Fin n → Fin n → Ordering) : Sorter n → List (Fin n)
  | done order => order
  | ask i j next => (next (cmp i j)).sort cmp

/-- No item is compared with itself. -/
def Apart : Sorter n → Prop
  | done _ => True
  | ask i j next => i ≠ j ∧ ∀ answer, (next answer).Apart

/-- Items stand in a stable order: all of them, the lesser before the greater, and equal ones as
they stood before. -/
def Sorted (cmp : Fin n → Fin n → Ordering) (order : List (Fin n)) : Prop :=
  order.Perm (List.finRange n) ∧ order.Pairwise fun i j => cmp i j = .lt ∨ cmp i j = .eq ∧ i < j

/-- A sort puts items in a stable order, whatever total preorder they are compared by. -/
structure IsStable (s : Sorter n) : Prop where
  apart : s.Apart
  sorts : ∀ (cmp : Fin n → Fin n → Ordering) [Std.TransCmp cmp], Sorted cmp (s.sort cmp)

lemma Sorted.mem {cmp : Fin n → Fin n → Ordering} {order : List (Fin n)} (h : Sorted cmp order)
    (i : Fin n) : i ∈ order :=
  h.1.mem_iff.2 (List.mem_finRange i)

/-- Items have one stable order. -/
lemma Sorted.unique {cmp : Fin n → Fin n → Ordering} [Std.TransCmp cmp]
    {order order' : List (Fin n)} (h : Sorted cmp order) (h' : Sorted cmp order') :
    order = order' := by
  refine (h.1.trans h'.1.symm).eq_of_pairwise ?_ h.2 h'.2
  rintro i j - - hij hji
  have hswap : cmp j i = (cmp i j).swap := Std.OrientedCmp.eq_swap
  rcases hij with hlt | ⟨heq, hij⟩
  · rcases hji with hlt' | ⟨heq', -⟩
    · simp [hlt, hlt'] at hswap
    · simp [hlt, heq'] at hswap
  · rcases hji with hlt' | ⟨-, hji⟩
    · simp [heq, hlt'] at hswap
    · exact absurd hij (Nat.lt_asymm hji)

/-- A sort that goes through does the same with any comparison that agrees with the answers. -/
lemma sort_eq_of_run {cmp : Fin n → Fin n → Except ε Ordering} {s : Sorter n}
    {order : List (Fin n)} (h : s.run cmp = .ok order) {full : Fin n → Fin n → Ordering}
    (hfull : ∀ i j r, cmp i j = .ok r → full i j = r) : s.sort full = order := by
  induction s with
  | done order' => exact Except.ok.inj h
  | ask i j next ih =>
    obtain ⟨answer, hanswer, h⟩ := Outcome.bind_eq_ok.1 h
    rw [sort, hfull i j answer hanswer]
    exact ih answer h

/-- A sort of which no comparison fails goes through. -/
lemma run_eq_ok_of_forall {cmp : Fin n → Fin n → Except ε Ordering}
    {full : Fin n → Fin n → Ordering} {s : Sorter n} (hs : s.Apart)
    (h : ∀ i j, i ≠ j → cmp i j = .ok (full i j)) : s.run cmp = .ok (s.sort full) := by
  induction s with
  | done order => rfl
  | ask i j next ih =>
    rw [run, h i j hs.1, sort]
    exact ih _ (hs.2 _)

section Rank

/-- A comparison by a rank, and of items of one rank by another comparison. -/
def byRank (rank : Fin n → Nat) (cmp : Fin n → Fin n → Ordering) : Fin n → Fin n → Ordering :=
  compareLex (compareOn rank) cmp

instance (rank : Fin n → Nat) (cmp : Fin n → Fin n → Ordering) [Std.TransCmp cmp] :
    Std.TransCmp (byRank rank cmp) := by
  unfold byRank
  infer_instance

lemma byRank_of_eq {rank : Fin n → Nat} (cmp : Fin n → Fin n → Ordering) {i j : Fin n}
    (h : rank i = rank j) : byRank rank cmp i j = cmp i j := by
  simp [byRank, compareLex, compareOn, h]

lemma byRank_of_gt {rank : Fin n → Nat} (cmp : Fin n → Fin n → Ordering) {i j : Fin n}
    (h : rank j < rank i) : byRank rank cmp i j = .gt := by
  simp [byRank, compareLex, compareOn, compare_gt_iff_gt.2 h]

end Rank

/-- **Each of two items or more takes part in a comparison.**  If a sort goes through although all
comparisons of one item fail, it gives the same order with this item ranked before all others, and
after them. -/
lemma IsStable.asks {s : Sorter n} (hs : s.IsStable) (hn : 2 ≤ n)
    {cmp : Fin n → Fin n → Except ε Ordering} {full : Fin n → Fin n → Ordering}
    [Std.TransCmp full] (hfull : ∀ i j r, cmp i j = .ok r → full i j = r) {i : Fin n}
    (hleft : ∀ j r, cmp i j ≠ .ok r) (hright : ∀ j r, cmp j i ≠ .ok r) (order : List (Fin n)) :
    s.run cmp ≠ .ok order := by
  intro hrun
  have hagrees : ∀ rank : Fin n → Nat, (∀ j k, j ≠ i → k ≠ i → rank j = rank k) →
      Sorted (byRank rank full) order := by
    intro rank hrank
    have hsort : s.sort (byRank rank full) = order := by
      refine sort_eq_of_run hrun fun j k r hr => ?_
      rw [byRank_of_eq full (hrank j k ?_ ?_), hfull j k r hr]
      · rintro rfl
        exact hleft k r hr
      · rintro rfl
        exact hright j r hr
    rw [← hsort]
    exact hs.sorts _
  obtain ⟨j, hj⟩ : ∃ j : Fin n, j ≠ i := by
    have : Nontrivial (Fin n) := Fin.nontrivial_iff_two_le.2 hn
    exact exists_ne i
  have hfirst := hagrees (fun k => if k = i then 0 else 1) fun j k hj hk => by simp [hj, hk]
  have hlast := hagrees (fun k => if k = i then 1 else 0) fun j k hj hk => by simp [hj, hk]
  rcases eq_or_sublist_of_mem (hfirst.mem i) (hfirst.mem j) with heq | hij | hji
  · exact hj heq.symm
  · have hij := List.pairwise_iff_forall_sublist.1 hlast.2 hij
    rw [byRank_of_gt full (by simp [hj])] at hij
    simp at hij
  · have hji := List.pairwise_iff_forall_sublist.1 hfirst.2 hji
    rw [byRank_of_gt full (by simp [hj])] at hji
    simp at hji

/-- Two items are sorted with one comparison. -/
def pair : Sorter 2 := .ask 1 0 fun answer => .done (if answer = .lt then [1, 0] else [0, 1])

lemma isStable_pair : pair.IsStable where
  apart := ⟨by decide, fun _ => trivial⟩
  sorts cmp _ := by
    have hswap : cmp 0 1 = (cmp 1 0).swap := Std.OrientedCmp.eq_swap
    cases hcmp : cmp 1 0 with
    | lt =>
      refine ⟨?_, ?_⟩
      · simp only [pair, sort, hcmp, if_true]
        decide
      · simp [pair, sort, hcmp]
    | eq | gt =>
      refine ⟨?_, ?_⟩
      · simp only [pair, sort, hcmp]
        decide
      · simp [pair, sort, hcmp, hswap]

end Sorter

/-! ### Orders as sorts -/

namespace Order

variable {α β : Type} {o : Order}

/-- Keys are given to items alone, so a list may be changed item by item before they are found. -/
lemma keys_map {f : α → β} {name : β → Name} : ∀ {xs : List α} {ps : List (Key × α)},
    o.keys (name ∘ f) xs = .ok ps → o.keys name (xs.map f) = .ok (ps.map (Prod.map id f))
  | [], _, h => by
    cases h
    rfl
  | [x], _, h => by
    cases h
    rfl
  | x :: y :: xs, ps, h => by
    have hall : ∀ z ∈ x :: y :: xs, ∃ k, o.key (name (f z)) = .ok k := by
      have hsort : o.sortOn (name ∘ f) (x :: y :: xs) = .ok _ := Outcome.bind_eq_ok.2 ⟨ps, h, rfl⟩
      exact exists_sortOn_iff.1 ⟨_, hsort⟩ (Nat.le_add_left ..)
    obtain ⟨qs, hqs⟩ : ∃ qs, o.keys name ((x :: y :: xs).map f) = .ok qs := by
      refine exists_keys fun _ z hz => ?_
      obtain ⟨w, hw, rfl⟩ := List.mem_map.1 hz
      exact hall w hw
    rw [hqs]
    have hps : List.Forall₂ (fun z q => o.key (name z) = .ok q.1 ∧ q.2 = z)
        ((x :: y :: xs).map f) (ps.map (Prod.map id f)) := by
      rw [List.forall₂_map_left_iff, List.forall₂_map_right_iff]
      exact (keys_eq_ok h).imp fun z p ⟨hkey, hz⟩ => ⟨hkey, congrArg f hz⟩
    refine congrArg _ (List.right_unique_forall₂' ?_ (keys_eq_ok hqs) hps)
    rintro z ⟨k, w⟩ ⟨k', w'⟩ ⟨hk, hw⟩ ⟨hk', hw'⟩
    rw [hk] at hk'
    cases hk'
    cases hw
    cases hw'
    rfl

lemma sortOn_map {f : α → β} {name : β → Name} {xs ys : List α}
    (h : o.sortOn (name ∘ f) xs = .ok ys) : o.sortOn name (xs.map f) = .ok (ys.map f) := by
  obtain ⟨ps, hps, rfl⟩ := sortOn_eq_ok h
  refine Outcome.bind_eq_ok.2 ⟨_, keys_map hps, ?_⟩
  have hsort : (ps.map (Prod.map id f)).mergeSort (fun a b => o.allows a.1 b.1) =
      (ps.mergeSort fun a b => o.allows a.1 b.1).map (Prod.map id f) :=
    (List.map_mergeSort (f := Prod.map id f) fun _ _ _ _ => rfl).symm
  rw [sort_eq_mergeSort, hsort, List.map_map, List.map_map]
  rfl

end Order

namespace Sorter

variable {o : Order} {n : Nat}

/-- What an order tells a sort of some names. -/
def answers (o : Order) (names : Fin n → Name) (i j : Fin n) : Except TooManyDigits Ordering :=
  o.compareNames (names i) (names j)

/-- The comparison of names by their keys, where names without a key are all alike. -/
def full (o : Order) (names : Fin n → Name) (i j : Fin n) : Ordering :=
  o.compareKeys ((o.key (names i)).toOption.getD (.plain []))
    ((o.key (names j)).toOption.getD (.plain []))

instance (names : Fin n → Name) : Std.TransCmp (full o names) where
  eq_swap := by
    unfold full
    exact Std.OrientedCmp.eq_swap
  isLE_trans hij hjk := by
    unfold full at *
    exact Std.TransCmp.isLE_trans hij hjk

lemma full_of_answers {names : Fin n → Name} {i j : Fin n} {r : Ordering}
    (h : answers o names i j = .ok r) : full o names i j = r := by
  obtain ⟨ki, kj, hi, hj, rfl⟩ := Order.compareNames_eq_ok.1 h
  rw [full, hi, hj]
  rfl

/-- The order puts items in the stable order by their keys. -/
lemma sorted_of_sortOn {names : Fin n → Name} {order : List (Fin n)}
    (h : o.sortOn names (List.finRange n) = .ok order) : Sorted (full o names) order := by
  refine ⟨Order.sortOn_perm h, List.pairwise_iff_forall_sublist.2 fun {i j} hij => ?_⟩
  have hcheck := List.pairwise_iff_forall_sublist.1 (Order.sortOn_pairwise h) hij
  obtain ⟨ki, kj, hi, hj, hallows⟩ := Order.check_eq_ok.1 hcheck
  have hfull : full o names i j = o.compareKeys ki kj := by
    rw [full, hi, hj]
    rfl
  rw [Order.allows_eq, ← hfull] at hallows
  cases hcmp : full o names i j with
  | lt => exact .inl rfl
  | gt => simp [hcmp] at hallows
  | eq =>
    -- equal items stand as they stood before
    refine .inr ⟨rfl, ?_⟩
    have hswap : o.compareKeys kj ki = .eq := Std.OrientedCmp.eq_symm (hfull ▸ hcmp)
    have hback : o.check (names j) (names i) = .ok true :=
      Order.check_eq_ok.2 ⟨kj, ki, hj, hi, by rw [Order.allows_eq, hswap]; rfl⟩
    have hsub := Order.sortOn_keeps h (List.nodup_finRange n) hij hback
    exact List.pairwise_iff_forall_sublist.1 (List.pairwise_lt_finRange n) hsub

/-- A stable sort of indices by their names goes through where the order sorts them, and gives the
same. -/
lemma IsStable.run_eq_ok_iff {s : Sorter n} (hs : s.IsStable) (names : Fin n → Name)
    {order : List (Fin n)} :
    s.run (answers o names) = .ok order ↔ o.sortOn names (List.finRange n) = .ok order := by
  by_cases hkeys : 2 ≤ n → ∀ i, ∃ k, o.key (names i) = .ok k
  · obtain ⟨order', horder'⟩ : ∃ order', o.sortOn names (List.finRange n) = .ok order' := by
      refine Order.exists_sortOn_iff.2 fun hn i _ => hkeys ?_ i
      rwa [List.length_finRange] at hn
    have hrun : s.run (answers o names) = .ok (s.sort (full o names)) := by
      refine run_eq_ok_of_forall hs.apart fun i j hij => ?_
      have hn : 2 ≤ n := by
        have := Fin.val_ne_of_ne hij
        omega
      obtain ⟨ki, hi⟩ := hkeys hn i
      obtain ⟨kj, hj⟩ := hkeys hn j
      refine Order.compareNames_eq_ok.2 ⟨ki, kj, hi, hj, ?_⟩
      rw [full, hi, hj]
      rfl
    rw [hrun, horder', (hs.sorts (full o names)).unique (sorted_of_sortOn horder')]
  · push Not at hkeys
    obtain ⟨hn, i, hi⟩ := hkeys
    refine iff_of_false (hs.asks hn (fun j k r => full_of_answers) (i := i) ?_ ?_ order) fun h => ?_
    · intro j r hr
      obtain ⟨ki, kj, hki, -⟩ := Order.compareNames_eq_ok.1 hr
      exact hi ki hki
    · intro j r hr
      obtain ⟨kj, ki, -, hki, -⟩ := Order.compareNames_eq_ok.1 hr
      exact hi ki hki
    · obtain ⟨ki, hki⟩ := Order.exists_sortOn_iff.1 ⟨order, h⟩
        (by rwa [List.length_finRange]) i (List.mem_finRange i)
      exact hi ki hki

/-- **Any stable sort that compares names is the one of the order**: it goes through where that one
does, and puts the items in the same order. -/
lemma IsStable.sortOn_eq_ok_iff {α : Type} {name : α → Name} {xs ys : List α}
    {s : Sorter xs.length} (hs : s.IsStable) :
    o.sortOn name xs = .ok ys ↔
      ∃ order, s.run (answers o fun i => name (xs.get i)) = .ok order ∧ order.map xs.get = ys := by
  have hmap : ∀ {order}, o.sortOn (name ∘ xs.get) (List.finRange xs.length) = .ok order →
      o.sortOn name xs = .ok (order.map xs.get) := by
    intro order h
    have h := Order.sortOn_map h
    rwa [List.map_get_finRange] at h
  constructor
  · intro h
    obtain ⟨order, horder⟩ :
        ∃ order, o.sortOn (name ∘ xs.get) (List.finRange xs.length) = .ok order := by
      refine Order.exists_sortOn_iff.2 fun hn i _ => ?_
      rw [List.length_finRange] at hn
      exact Order.exists_sortOn_iff.1 ⟨ys, h⟩ hn _ (List.get_mem xs i)
    refine ⟨order, (hs.run_eq_ok_iff _).2 horder, ?_⟩
    rw [hmap horder] at h
    exact Except.ok.inj h
  · rintro ⟨order, hrun, rfl⟩
    exact hmap ((hs.run_eq_ok_iff _).1 hrun)

/-- Such a sort fails exactly where the order does not sort. -/
lemma IsStable.exists_error_iff {α : Type} {name : α → Name} {xs : List α}
    {s : Sorter xs.length} (hs : s.IsStable) :
    (∃ d, s.run (answers o fun i => name (xs.get i)) = .error d) ↔
      ¬∃ ys, o.sortOn name xs = .ok ys := by
  simp only [hs.sortOn_eq_ok_iff]
  cases s.run (answers o fun i => name (xs.get i)) with
  | ok order => simp
  | error d => simp

end Sorter

end KeyOrder
