import KeyOrder.Proofs.Outcome
import KeyOrder.Proofs.Sorting

/-!
# Orders are total preorders

Keys of names are compared by a total order, so each of the eight orders is total and transitive
on the names that have a key.  From this a sorted list is one in which every name may follow all
those before it, and names that may follow each other either way keep their order.

The main statements are

* `Order.check_eq_ok`: a comparison of names is a comparison of their keys;
* `Order.sortOn_perm`, `Order.sortOn_pairwise`, `Order.sortOn_stable`: what sorting does.
-/

namespace KeyOrder

/-! ### Comparing keys -/

namespace NaturalKey

/-- Compares a number with the text after it. -/
def comparePair (a b : Nat × Name) : Ordering :=
  compareLex (compareOn Prod.fst) (compareOn Prod.snd) a b

instance : Std.TransCmp comparePair := by
  unfold comparePair
  infer_instance

lemma compareRest_eq (a b : List (Nat × Name)) :
    compareRest a b = List.compareLex comparePair a b := by
  induction a generalizing b with
  | nil => cases b <;> rfl
  | cons x a ih =>
    cases b with
    | nil => rfl
    | cons y b =>
      rw [compareRest, List.compareLex_cons_cons, ih, comparePair, compareLex,
        Ordering.then_assoc]
      rfl

lemma cmp_eq : cmp = compareLex (compareOn NaturalKey.text)
    (fun a b => List.compareLex comparePair a.rest b.rest) := by
  funext a b
  rw [cmp, compareRest_eq]
  rfl

instance : Std.TransCmp fun a b : NaturalKey => List.compareLex comparePair a.rest b.rest where
  eq_swap := Std.OrientedCmp.eq_swap
  isLE_trans := Std.TransCmp.isLE_trans

lemma cmp_swap (a b : NaturalKey) : a.cmp b = (b.cmp a).swap := by
  rw [cmp_eq]
  exact Std.OrientedCmp.eq_swap

lemma cmp_trans {a b c : NaturalKey} (hab : (a.cmp b).isLE) (hbc : (b.cmp c).isLE) :
    (a.cmp c).isLE := by
  rw [cmp_eq] at *
  exact Std.TransCmp.isLE_trans hab hbc

end NaturalKey

namespace Order

lemma Key.cmp_swap (a b : Key) : a.cmp b = (b.cmp a).swap := by
  cases a with
  | plain s =>
    cases b with
    | plain t => exact Std.OrientedOrd.eq_swap
    | natural t => rfl
  | natural s =>
    cases b with
    | plain t => rfl
    | natural t => exact NaturalKey.cmp_swap s t

lemma Key.cmp_trans {a b c : Key} (hab : (a.cmp b).isLE) (hbc : (b.cmp c).isLE) :
    (a.cmp c).isLE := by
  -- Plain keys come before natural ones, so only keys of one kind need an argument.
  cases a <;> cases b <;> cases c
  · exact Std.TransOrd.isLE_trans hab hbc
  · rfl
  · exact absurd hbc (by simp [Key.cmp])
  · rfl
  · exact absurd hab (by simp [Key.cmp])
  · exact absurd hab (by simp [Key.cmp])
  · exact absurd hbc (by simp [Key.cmp])
  · exact NaturalKey.cmp_trans hab hbc

lemma allows_trans (o : Order) (a b c : Key) (hab : o.allows a b) (hbc : o.allows b c) :
    o.allows a c := by
  obtain ⟨d, insensitive, natural⟩ := o
  cases d with
  | ascending => exact Key.cmp_trans hab hbc
  | descending => exact Key.cmp_trans hbc hab

lemma allows_total (o : Order) (a b : Key) : o.allows a b || o.allows b a := by
  have hab : (a.cmp b).isLE || (b.cmp a).isLE := by
    rw [Key.cmp_swap b a]
    cases a.cmp b <;> rfl
  obtain ⟨d, insensitive, natural⟩ := o
  cases d with
  | ascending => exact hab
  | descending => rwa [Bool.or_comm]

/-! ### Comparing names -/

/-- A comparison of names is a comparison of their keys. -/
lemma check_eq_ok {o : Order} {a b : Name} {v : Bool} :
    o.check a b = .ok v ↔ ∃ ka kb, o.key a = .ok ka ∧ o.key b = .ok kb ∧ o.allows ka kb = v := by
  unfold check
  cases o.direction with
  | ascending =>
    simp only [Outcome.bind_eq_ok, Outcome.pure_eq_ok]
    constructor
    · rintro ⟨ka, ha, kb, hb, h⟩
      exact ⟨ka, kb, ha, hb, h⟩
    · rintro ⟨ka, kb, ha, hb, h⟩
      exact ⟨ka, ha, kb, hb, h⟩
  | descending =>
    simp only [Outcome.bind_eq_ok, Outcome.pure_eq_ok]
    constructor
    · rintro ⟨kb, hb, ka, ha, h⟩
      exact ⟨ka, kb, ha, hb, h⟩
    · rintro ⟨ka, kb, ha, hb, h⟩
      exact ⟨kb, hb, ka, ha, h⟩

lemma check_trans {o : Order} {a b c : Name} (hab : o.check a b = .ok true)
    (hbc : o.check b c = .ok true) : o.check a c = .ok true := by
  obtain ⟨ka, kb, hka, hkb, hab⟩ := check_eq_ok.1 hab
  obtain ⟨kb', kc, hkb', hkc, hbc⟩ := check_eq_ok.1 hbc
  rw [hkb] at hkb'
  cases hkb'
  exact check_eq_ok.2 ⟨ka, kc, hka, hkc, o.allows_trans ka kb kc hab hbc⟩

/-! ### Sorting -/

section Sorting

variable {α : Type} {o : Order} {name : α → Name} {xs ys : List α}

/-- The keys of a list of at least two items are those of their names. -/
lemma keys_eq_ok {x y : α} {ps : List (Key × α)} (h : o.keys name (x :: y :: xs) = .ok ps) :
    List.Forall₂ (fun z p => o.key (name z) = .ok p.1 ∧ p.2 = z) (x :: y :: xs) ps := by
  have hrest : ∀ {zs : List α} {qs : List (Key × α)},
      (zs.mapM fun z => (o.key (name z)).map (·, z)) = .ok qs →
      List.Forall₂ (fun z p => o.key (name z) = .ok p.1 ∧ p.2 = z) zs qs := by
    intro zs qs hqs
    refine (Outcome.mapM_eq_ok.1 hqs).imp ?_
    intro z q hq
    obtain ⟨k, hk, rfl⟩ := Outcome.map_eq_ok.1 hq
    exact ⟨hk, rfl⟩
  unfold keys at h
  cases hd : o.direction with
  | ascending =>
    simp only [hd, Outcome.bind_eq_ok, Outcome.pure_eq_ok] at h
    obtain ⟨ky, hy, kx, hx, krest, hr, rfl⟩ := h
    exact .cons ⟨hx, rfl⟩ (.cons ⟨hy, rfl⟩ (hrest hr))
  | descending =>
    simp only [hd, Outcome.bind_eq_ok, Outcome.pure_eq_ok] at h
    obtain ⟨kx, hx, ky, hy, krest, hr, rfl⟩ := h
    exact .cons ⟨hx, rfl⟩ (.cons ⟨hy, rfl⟩ (hrest hr))

lemma keys_map_snd : ∀ {xs : List α} {ps : List (Key × α)},
    o.keys name xs = .ok ps → ps.map Prod.snd = xs
  | [], _, h => by
    cases h
    rfl
  | [x], _, h => by
    cases h
    rfl
  | x :: y :: xs, ps, h => by
    have hps := keys_eq_ok h
    clear h
    generalize x :: y :: xs = zs at hps
    induction hps with
    | nil => rfl
    | cons hp _ ih => rw [List.map_cons, hp.2, ih]

/-- With two items or more, the key of every item is the key of its name. -/
lemma key_of_mem_keys : ∀ {xs : List α} {ps : List (Key × α)}, o.keys name xs = .ok ps →
    2 ≤ xs.length → ∀ {p : Key × α}, p ∈ ps → o.key (name p.2) = .ok p.1
  | x :: y :: xs, ps, h, _, p, hp => by
    have hps := keys_eq_ok h
    clear h
    generalize x :: y :: xs = zs at hps
    induction hps with
    | nil => simp at hp
    | @cons z q zs qs hq _ ih =>
      rcases List.mem_cons.1 hp with rfl | hp
      · rw [hq.2]
        exact hq.1
      · exact ih hp

/-- A list has keys when all of its names do; with fewer than two items none is asked for. -/
lemma exists_keys (h : 2 ≤ xs.length → ∀ x ∈ xs, ∃ k, o.key (name x) = .ok k) :
    ∃ ps, o.keys name xs = .ok ps := by
  match xs, h with
  | [], _ => exact ⟨_, rfl⟩
  | [x], _ => exact ⟨_, rfl⟩
  | x :: y :: rest, h =>
    have h := h (Nat.le_add_left ..)
    obtain ⟨kx, hkx⟩ := h x (List.mem_cons_self ..)
    obtain ⟨ky, hky⟩ := h y (by simp)
    obtain ⟨krest, hkrest⟩ : ∃ krest,
        (rest.mapM fun z => (o.key (name z)).map (·, z)) = .ok krest := by
      refine Outcome.exists_mapM_eq_ok fun z hz => ?_
      obtain ⟨kz, hkz⟩ := h z (by simp [hz])
      exact ⟨(kz, z), by rw [hkz]; rfl⟩
    simp only [keys]
    cases o.direction with
    | ascending => exact ⟨_, by simp only [hkx, hky, hkrest]; rfl⟩
    | descending => exact ⟨_, by simp only [hkx, hky, hkrest]; rfl⟩

lemma sortOn_eq_ok (h : o.sortOn name xs = .ok ys) :
    ∃ ps, o.keys name xs = .ok ps ∧
      (ps.mergeSort fun a b => o.allows a.1 b.1).map Prod.snd = ys := by
  simpa only [sortOn, sort_eq_mergeSort, Outcome.bind_eq_ok, Outcome.pure_eq_ok] using h

/-- A list of two items or more is sorted when all of its names have keys, and only then. -/
lemma exists_sortOn_iff :
    (∃ ys, o.sortOn name xs = .ok ys) ↔
      (2 ≤ xs.length → ∀ x ∈ xs, ∃ k, o.key (name x) = .ok k) := by
  constructor
  · rintro ⟨ys, h⟩ hlen x hx
    obtain ⟨ps, hps, -⟩ := sortOn_eq_ok h
    rw [← keys_map_snd hps] at hx
    obtain ⟨p, hp, rfl⟩ := List.mem_map.1 hx
    exact ⟨p.1, key_of_mem_keys hps hlen hp⟩
  · intro h
    obtain ⟨ps, hps⟩ := exists_keys h
    exact ⟨_, Outcome.bind_eq_ok.2 ⟨ps, hps, rfl⟩⟩

lemma sortOn_perm (h : o.sortOn name xs = .ok ys) : ys.Perm xs := by
  obtain ⟨ps, hps, rfl⟩ := sortOn_eq_ok h
  rw [← keys_map_snd hps]
  exact (List.mergeSort_perm ps _).map Prod.snd

/-- In a sorted list every name may follow all those before it. -/
lemma sortOn_pairwise (h : o.sortOn name xs = .ok ys) :
    ys.Pairwise fun a b => o.check (name a) (name b) = .ok true := by
  by_cases hlen : 2 ≤ xs.length
  · obtain ⟨ps, hps, rfl⟩ := sortOn_eq_ok h
    have hsorted : (ps.mergeSort fun a b => o.allows a.1 b.1).Pairwise
        fun a b => o.allows a.1 b.1 :=
      List.pairwise_mergeSort (fun a b c => o.allows_trans a.1 b.1 c.1)
        (fun a b => o.allows_total a.1 b.1) ps
    rw [List.pairwise_map]
    refine hsorted.imp_of_mem ?_
    intro p q hp hq hpq
    have hkp := key_of_mem_keys hps hlen (List.mem_mergeSort.1 hp)
    have hkq := key_of_mem_keys hps hlen (List.mem_mergeSort.1 hq)
    exact check_eq_ok.2 ⟨_, _, hkp, hkq, hpq⟩
  · -- A list of at most one item has no pairs.
    have hys : ys.length ≤ 1 := by
      rw [(sortOn_perm h).length_eq]
      omega
    match ys, hys with
    | [], _ => exact .nil
    | [y], _ => exact List.pairwise_singleton _ y

/-- Items that may stand in their order keep it. -/
lemma sortOn_stable (h : o.sortOn name xs = .ok ys) {a b : α} (hab : [a, b].Sublist xs)
    (hcheck : o.check (name a) (name b) = .ok true) : [a, b].Sublist ys := by
  have hlen : 2 ≤ xs.length := hab.length_le
  obtain ⟨ps, hps, rfl⟩ := sortOn_eq_ok h
  rw [← keys_map_snd hps] at hab
  obtain ⟨qs, hqs, heq⟩ := List.sublist_map_iff.1 hab
  match qs, heq with
  | [p, q], heq =>
    obtain ⟨rfl, rfl⟩ : a = p.2 ∧ b = q.2 := by simpa using heq
    have hp : p ∈ ps := hqs.subset (by simp)
    have hq : q ∈ ps := hqs.subset (by simp)
    have hkp := key_of_mem_keys hps hlen hp
    have hkq := key_of_mem_keys hps hlen hq
    obtain ⟨kp, kq, hkp', hkq', hallow⟩ := check_eq_ok.1 hcheck
    rw [hkp] at hkp'
    rw [hkq] at hkq'
    cases hkp'
    cases hkq'
    have hsub : [p, q].Sublist (ps.mergeSort fun a b => o.allows a.1 b.1) :=
      List.pair_sublist_mergeSort (fun a b c => o.allows_trans a.1 b.1 c.1)
        (fun a b => o.allows_total a.1 b.1) hallow hqs
    exact hsub.map Prod.snd

/-- Of two items that may stand in either order, the one that came first stays first. -/
lemma sortOn_keeps (h : o.sortOn name xs = .ok ys) (hxs : xs.Nodup) {a b : α}
    (hab : [a, b].Sublist ys) (hcheck : o.check (name b) (name a) = .ok true) :
    [a, b].Sublist xs := by
  have hperm := sortOn_perm h
  have hys : ys.Nodup := hperm.nodup_iff.2 hxs
  have ha : a ∈ xs := hperm.subset (hab.subset (by simp))
  have hb : b ∈ xs := hperm.subset (hab.subset (by simp))
  rcases eq_or_sublist_of_mem ha hb with rfl | hsub | hsub
  · exact (not_sublist_swap hys hab hab).elim
  · exact hsub
  · exact (not_sublist_swap hys hab (sortOn_stable h hsub hcheck)).elim

end Sorting

end Order

end KeyOrder
