import KeyOrder.Proofs.Merge
import KeyOrder.Proofs.Sorting

/-!
# Edits applied one at a time

All edits of a fix are made against the same text.  Applied one at a time they must go from the last
one to the first, so that each one finds its range where it was: what is changed before it lies
behind it.  This is what a merged edit does at once.

The order of edits is that of their ranges, and edits of one range stand as they were made.  This
says all there is to say about it: two ways to list the same edits give the same merged edit as long
as they agree on the edits of each range.

* `applyEach_of_chain`: edits that follow one another, applied from the last one to the first;
* `inOrder_congr`: what the order of edits depends on;
* `merge_applies_each` puts both together.
-/

namespace KeyOrder

namespace Edit

/-! ### The order of edits -/

/-- The same edits in another order, in which those of one range have kept theirs. -/
structure Reorders (es fs : List Edit) : Prop where
  perm : fs.Perm es
  ties : ∀ r : Range, fs.filter (·.range = r) = es.filter (·.range = r)

lemma Reorders.symm {es fs : List Edit} (h : Reorders es fs) : Reorders fs es :=
  ⟨h.perm.symm, fun r => (h.ties r).symm⟩

lemma Reorders.trans {es fs gs : List Edit} (h : Reorders es fs) (h' : Reorders fs gs) :
    Reorders es gs :=
  ⟨h'.perm.trans h.perm, fun r => (h'.ties r).trans (h.ties r)⟩

lemma reorders_inOrder (es : List Edit) : Reorders es (inOrder es) := by
  have hperm := inOrder_perm es
  refine ⟨hperm, fun r => ?_⟩
  -- the edits of one range may stand as they do, so sorting leaves them so
  have hties : (es.filter (·.range = r)).Pairwise fun e f => e.range.le f.range = true := by
    refine List.pairwise_of_forall_mem_list fun e he f hf => ?_
    have he' : e.range = r := by simpa using (List.mem_filter.1 he).2
    have hf' : f.range = r := by simpa using (List.mem_filter.1 hf).2
    rw [he', hf', Range.le_iff]
    exact .inr ⟨rfl, Nat.le_refl _⟩
  have hsub : (es.filter (·.range = r)).Sublist (inOrder es) := by
    rw [inOrder_eq_mergeSort]
    exact List.sublist_mergeSort (fun a b c => Range.le_trans a.range b.range c.range)
      (fun a b => Range.le_total a.range b.range) hties List.filter_sublist
  have hfilter := hsub.filter (·.range = r)
  rw [List.filter_filter] at hfilter
  simp only [Bool.and_self] at hfilter
  exact (hfilter.eq_of_length (hperm.filter _).length_eq.symm).symm

/-- Edits have only one order. -/
lemma Reorders.eq_of_pairwise {es fs : List Edit} (h : Reorders es fs)
    (hes : es.Pairwise fun e f => e.range.le f.range = true)
    (hfs : fs.Pairwise fun e f => e.range.le f.range = true) : es = fs := by
  induction es generalizing fs with
  | nil => exact (List.perm_nil.1 h.perm).symm
  | cons e es ih =>
    cases fs with
    | nil => exact absurd (List.nil_perm.1 h.perm) (List.cons_ne_nil _ _)
    | cons f fs =>
      obtain ⟨he, hes'⟩ := List.pairwise_cons.1 hes
      obtain ⟨hf, hfs'⟩ := List.pairwise_cons.1 hfs
      -- each of the first edits stands somewhere in the other list
      have hef : e.range.le f.range = true := by
        rcases List.mem_cons.1 (h.perm.subset (List.mem_cons_self ..)) with rfl | hmem
        · exact Range.le_iff.2 (.inr ⟨rfl, Nat.le_refl _⟩)
        · exact he f hmem
      have hfe : f.range.le e.range = true := by
        rcases List.mem_cons.1 (h.perm.symm.subset (List.mem_cons_self ..)) with rfl | hmem
        · exact Range.le_iff.2 (.inr ⟨rfl, Nat.le_refl _⟩)
        · exact hf e hmem
      have hrange : f.range = e.range := Range.le_antisymm hfe hef
      -- so both are the first one of their range
      obtain rfl : f = e := by
        have hties := h.ties e.range
        rw [List.filter_cons_of_pos (by simpa using hrange), List.filter_cons_of_pos (by simp)]
          at hties
        exact (List.cons.inj hties).1
      refine congrArg (f :: ·) (ih ⟨h.perm.cons_inv, fun r => ?_⟩ hes' hfs')
      have hties := h.ties r
      rw [List.filter_cons, List.filter_cons] at hties
      split at hties
      · exact (List.cons.inj hties).2
      · exact hties

lemma inOrder_congr {es fs : List Edit} (h : Reorders es fs) : inOrder fs = inOrder es :=
  (((reorders_inOrder es).symm.trans h).trans (reorders_inOrder fs)).eq_of_pairwise
    (pairwise_inOrder es) (pairwise_inOrder fs) |>.symm

/-! ### One at a time -/

/-- The text after edits that are applied one at a time, from the last one to the first. -/
def applyEach (text : Text) (es : List Edit) : Text :=
  es.reverse.foldl (fun t e => e.apply t) text

lemma applyEach_cons (text : Text) (e : Edit) (es : List Edit) :
    applyEach text (e :: es) = e.apply (applyEach text es) := by
  simp [applyEach]

/-- Edits that follow one another, applied one at a time: each one leaves alone what lies before it,
where the edits still to come have their ranges. -/
lemma applyEach_of_chain {text : Text} {lo hi : Nat} {es : List Edit} (h : Chain lo hi es)
    (hhi : hi ≤ text.length) :
    applyEach text es = text.take lo ++ rewritten text lo hi es ++ text.drop hi := by
  induction es generalizing lo with
  | nil =>
    have hlo : lo ≤ hi := h
    rw [rewritten, text.take_append_slice hlo, List.take_append_drop]
    rfl
  | cons e es ih =>
    obtain ⟨hlo, hrange, hchain⟩ := h
    have hlength : (text.take e.range.stop).length = e.range.stop := by
      rw [List.length_take]
      exact Nat.min_eq_left (Nat.le_trans hchain.le hhi)
    have htake : (applyEach text es).take e.range.start = text.take e.range.start := by
      rw [ih hchain, List.append_assoc, List.take_append_of_le_length (by omega), List.take_take,
        Nat.min_eq_left hrange]
    have hdrop : (applyEach text es).drop e.range.stop =
        rewritten text e.range.stop hi es ++ text.drop hi := by
      rw [ih hchain, List.append_assoc, List.drop_append_of_le_length (by omega),
        List.drop_of_length_le (by omega), List.nil_append]
    rw [applyEach_cons, apply, htake, hdrop, rewritten, ← text.take_append_slice hlo]
    simp only [List.append_assoc]

/-! ### Merging is applying one at a time -/

/-- **A merged edit does what its edits do one at a time**, from the last one to the first in the
order of their ranges, in which edits of one range stand as they were made.  It reaches from the
least start to the greatest end.  Another list of the same edits gives the same merged edit when the
edits of each range have kept their order. -/
theorem merge_applies_each {text : Text} {edits : List Edit} {m : Edit}
    (hin : ∀ e ∈ edits, e.range.start ≤ e.range.stop ∧ e.range.stop ≤ text.length)
    (h : merge edits text = .ok m) :
    (∃ es, Reorders edits es ∧ es.Pairwise (fun e f => e.range.le f.range = true) ∧
        m.apply text = applyEach text es) ∧
      ((∃ e ∈ edits, e.range.start = m.range.start) ∧
        ∀ e ∈ edits, m.range.start ≤ e.range.start) ∧
      ((∃ e ∈ edits, e.range.stop = m.range.stop) ∧
        ∀ e ∈ edits, e.range.stop ≤ m.range.stop) ∧
      ∀ es, Reorders edits es → merge es text = .ok m := by
  have hreorders := reorders_inOrder edits
  have hforward : ∀ e ∈ edits, e.range.start ≤ e.range.stop := fun e he => (hin e he).1
  obtain ⟨hchain, htext⟩ := chain_of_merge hforward h
  obtain ⟨hstart, e, he, hstop⟩ := exists_ends_of_merge h
  have hwithin : ∀ e ∈ edits, m.range.start ≤ e.range.start ∧ e.range.stop ≤ m.range.stop := by
    intro e he
    obtain ⟨hlo, -, hhi⟩ := hchain.mem_le (hreorders.perm.symm.subset he)
    exact ⟨hlo, hhi⟩
  have hlength : m.range.stop ≤ text.length := by
    rw [← hstop]
    exact (hin e he).2
  refine ⟨⟨inOrder edits, hreorders, pairwise_inOrder edits, ?_⟩,
    ⟨hstart, fun e he => (hwithin e he).1⟩, ⟨⟨e, he, hstop⟩, fun e he => (hwithin e he).2⟩,
    fun es hes => ?_⟩
  · rw [applyEach_of_chain hchain hlength, ← htext]
    rfl
  · rw [merge, inOrder_congr hes]
    exact h

/-- Two insertions at one offset, a replacement that starts there and another one, listed from the
last one on. -/
def Sample.edits : List Edit :=
  [⟨⟨3, 4⟩, ['Z']⟩, ⟨⟨1, 2⟩, ['B']⟩, ⟨⟨1, 1⟩, ['x']⟩, ⟨⟨1, 1⟩, ['y']⟩]

/-- In `abcde` the insertions come first, as they were made, and then the replacements. -/
theorem merge_applies_each_insertions :
    (∀ e ∈ Sample.edits, e.range.start ≤ e.range.stop ∧ e.range.stop ≤ "abcde".toList.length) ∧
      merge Sample.edits "abcde".toList = .ok ⟨⟨1, 4⟩, "xyBcZ".toList⟩ ∧
      ∃ es, Reorders Sample.edits es ∧ es.Pairwise (fun e f => e.range.le f.range = true) ∧
        applyEach "abcde".toList es = "axyBcZe".toList := by
  have hin : ∀ e ∈ Sample.edits,
      e.range.start ≤ e.range.stop ∧ e.range.stop ≤ "abcde".toList.length := by decide +kernel
  have hmerge : merge Sample.edits "abcde".toList = .ok ⟨⟨1, 4⟩, "xyBcZ".toList⟩ := by
    decide +kernel
  obtain ⟨⟨es, hreorders, hsorted, happly⟩, -⟩ := merge_applies_each hin hmerge
  refine ⟨hin, hmerge, es, hreorders, hsorted, happly.symm.trans ?_⟩
  decide +kernel

end Edit

end KeyOrder
