import KeyOrder.Proofs.Sequential
import Mathlib.Data.List.Pairwise

/-!
# Edits that cannot be merged

Merging goes through edits in order and looks at neighbours only: an edit must not start before the
end of the one before it.  That this finds every overlap rests on what is known of the edits behind
the current one, as long as none has been refused: they follow one another, so none of them ends
after the last one does.  And an edit that is refused does overlap its neighbour, because the order
puts an insertion before any other edit that starts at the same offset.

* `mergeFrom_eq_error`: an edit is refused where the edits before it follow one another and end
  after it starts;
* `merge_refuses_overlaps`: what is refused, and what the refusal tells.
-/

namespace KeyOrder

namespace Edit

/-! ### Overlapping edits -/

/-- Each of two edits starts before the other one ends.  Edits that only touch do not overlap, nor
does an insertion at either end of an edit. -/
def Overlaps (e f : Edit) : Prop :=
  e.range.start < f.range.stop ∧ f.range.start < e.range.stop

instance (e f : Edit) : Decidable (Overlaps e f) := inferInstanceAs (Decidable (_ ∧ _))

lemma Overlaps.symm {e f : Edit} (h : Overlaps e f) : Overlaps f e := ⟨h.2, h.1⟩

/-- Two of some edits, at different positions of the list, overlap. -/
def HasOverlap (edits : List Edit) : Prop :=
  ∃ i j : Fin edits.length, i ≠ j ∧ Overlaps (edits.get i) (edits.get j)

instance (edits : List Edit) : Decidable (HasOverlap edits) :=
  inferInstanceAs (Decidable (∃ _ _ : Fin edits.length, _))

/-- Edits that touch and insertions where they touch do not overlap. -/
example : ¬HasOverlap [⟨⟨3, 5⟩, ['B']⟩, ⟨⟨3, 3⟩, ['x']⟩, ⟨⟨1, 3⟩, ['A']⟩, ⟨⟨3, 3⟩, ['y']⟩] := by
  decide

lemma hasOverlap_iff {edits : List Edit} :
    HasOverlap edits ↔ ¬edits.Pairwise fun e f => ¬Overlaps e f := by
  rw [List.pairwise_iff_get]
  constructor
  · rintro ⟨i, j, hij, hoverlaps⟩ hapart
    rcases Nat.lt_or_gt_of_ne (Fin.val_ne_of_ne hij) with hlt | hgt
    · exact hapart i j hlt hoverlaps
    · exact hapart j i hgt hoverlaps.symm
  · intro h
    push Not at h
    obtain ⟨i, j, hij, hoverlaps⟩ := h
    exact ⟨i, j, Fin.ne_of_lt hij, hoverlaps⟩

/-- Whether edits overlap does not depend on their order. -/
lemma hasOverlap_of_perm {es fs : List Edit} (h : es.Perm fs) :
    HasOverlap es ↔ HasOverlap fs := by
  rw [hasOverlap_iff, hasOverlap_iff,
    h.pairwise_iff fun {e f} (hne : ¬Overlaps e f) hfe => hne hfe.symm]

/-- Edits that follow one another: none starts before the end of an earlier one. -/
lemma Chain.pairwise {lo hi : Nat} {es : List Edit} (h : Chain lo hi es) :
    es.Pairwise fun e f => e.range.stop ≤ f.range.start := by
  induction es generalizing lo with
  | nil => exact .nil
  | cons e es ih =>
    obtain ⟨-, -, hchain⟩ := h
    exact .cons (fun f hf => (hchain.mem_le hf).1) (ih hchain)

lemma Chain.not_hasOverlap {lo hi : Nat} {es : List Edit} (h : Chain lo hi es) :
    ¬HasOverlap es := by
  rw [hasOverlap_iff, not_not]
  refine h.pairwise.imp fun {e f} hle hoverlaps => ?_
  exact absurd hoverlaps.2 (Nat.not_lt_of_le hle)

/-- Of two edits in order, the second one overlaps the first one when it starts before its end. -/
lemma overlaps_of_lt {e f : Edit} (hf : f.range.start ≤ f.range.stop)
    (hle : e.range.le f.range = true) (hlt : f.range.start < e.range.stop) : Overlaps e f := by
  rw [Range.le_iff] at hle
  exact ⟨by omega, hlt⟩

/-! ### The edit that is refused -/

/-- Where edits in order are refused: those before the refused one follow one another, and the last
one of them ends after it starts. -/
lemma mergeFrom_eq_error {text : Text} {last : Nat} {es : List Edit} {error : MergeError}
    (hes : ∀ e ∈ es, e.range.start ≤ e.range.stop) (h : mergeFrom text last es = .error error) :
    ∃ before e after, es = before ++ e :: after ∧
      ∃ stop, Chain last stop before ∧ (before.getLast?.map (·.range.stop)).getD last = stop ∧
        e.range.start < stop ∧ error = .overlap e.range stop := by
  induction es generalizing last with
  | nil => cases h
  | cons e es ih =>
    rw [mergeFrom] at h
    split at h
    · -- the first edit is refused
      rename_i hlt
      cases h
      exact ⟨[], e, es, rfl, last, Nat.le_refl _, rfl, hlt, rfl⟩
    · rename_i hle
      have hrest : mergeFrom text e.range.stop es = .error error := by
        cases hmerge : mergeFrom text e.range.stop es with
        | error error' =>
          rw [hmerge] at h
          exact h
        | ok r =>
          rw [hmerge] at h
          cases h
      obtain ⟨before, f, after, rfl, stop, hchain, hstop, hlt, herror⟩ :=
        ih (fun d hd => hes d (List.mem_cons_of_mem _ hd)) hrest
      refine ⟨e :: before, f, after, rfl, stop, ⟨Nat.le_of_not_lt hle, ?_, hchain⟩, ?_, hlt, herror⟩
      · exact hes e (List.mem_cons_self ..)
      · rw [← hstop]
        cases hlast : before.getLast? with
        | none => simp [List.getLast?_eq_none_iff.1 hlast]
        | some d => simp [List.getLast?_cons, hlast]

/-- Edits are merged, or one of them starts before the end of the one before it in order.  The edits
before that one follow one another, so none of them ends after the last one. -/
lemma merge_cases (text : Text) {edits : List Edit} (hne : edits ≠ [])
    (hedits : ∀ e ∈ edits, e.range.start ≤ e.range.stop) :
    (∃ m, merge edits text = .ok m) ∨
      ∃ before d e after, inOrder edits = before ++ d :: e :: after ∧
        (before ++ [d]).Pairwise (fun a b => a.range.stop ≤ b.range.start) ∧
        (∀ a ∈ before, a.range.stop ≤ d.range.stop) ∧ e.range.start < d.range.stop ∧
        merge edits text = .error (.overlap e.range d.range.stop) := by
  have hforward : ∀ e ∈ inOrder edits, e.range.start ≤ e.range.stop := fun e he =>
    hedits e ((inOrder_perm edits).subset he)
  cases hsorted : inOrder edits with
  | nil => exact absurd (List.nil_perm.1 (hsorted ▸ inOrder_perm edits)) hne
  | cons first rest =>
    cases hmerge : mergeFrom text first.range.start (first :: rest) with
    | ok r =>
      refine .inl ⟨⟨⟨first.range.start, r.2⟩, r.1⟩, ?_⟩
      rw [merge, hsorted]
      dsimp only
      rw [hmerge]
      rfl
    | error error =>
      refine .inr ?_
      rw [hsorted] at hforward
      obtain ⟨before, e, after, hsplit, stop, hchain, hstop, hlt, rfl⟩ :=
        mergeFrom_eq_error hforward hmerge
      rcases List.eq_nil_or_concat before with rfl | ⟨before, d, rfl⟩
      · -- the first edit does not start before itself
        cases hsplit
        cases hstop
        exact absurd hlt (Nat.lt_irrefl _)
      · rw [List.concat_eq_append] at hsplit hchain hstop
        obtain rfl : d.range.stop = stop := by simpa using hstop
        refine ⟨before, d, e, after, by simpa using hsplit, hchain.pairwise,
          fun a ha => (hchain.mem_le (List.mem_append_left _ ha)).2.2, hlt, ?_⟩
        rw [merge, hsorted]
        dsimp only
        rw [hmerge]
        rfl

/-- **Exactly overlapping edits are refused.**  Edits, none of which ends before it starts, are
merged unless two of them overlap, in whatever order they are listed.  The refusal names the first
edit, in the order of their ranges, that starts before the end of the one before it, and that end;
no edit before it ends later. -/
theorem merge_refuses_overlaps {text : Text} {edits : List Edit} (hne : edits ≠ [])
    (hedits : ∀ e ∈ edits, e.range.start ≤ e.range.stop) :
    ((∃ range last, merge edits text = .error (.overlap range last)) ↔ HasOverlap edits) ∧
      ((∃ m, merge edits text = .ok m) ↔ ¬HasOverlap edits) ∧
      ∀ range last, merge edits text = .error (.overlap range last) →
        ∃ before d e after, Reorders edits (before ++ d :: e :: after) ∧
          (before ++ d :: e :: after).Pairwise (fun a b => a.range.le b.range = true) ∧
          (before ++ [d]).IsChain (fun a b => a.range.stop ≤ b.range.start) ∧
          e.range.start < d.range.stop ∧ e.range = range ∧ d.range.stop = last ∧
          ∀ a ∈ before, a.range.stop ≤ last := by
  have hperm := inOrder_perm edits
  rcases merge_cases text hne hedits with ⟨m, hm⟩ | ⟨before, d, e, after, hsorted, hchain, hstop,
    hlt, herror⟩
  · -- edits that were merged follow one another
    have hapart : ¬HasOverlap edits :=
      (hasOverlap_of_perm hperm).not.1 (chain_of_merge hedits hm).1.not_hasOverlap
    simp [hm, hapart]
  · -- the refused edit overlaps the one before it
    have hpairwise := pairwise_inOrder edits
    have hreorders := reorders_inOrder edits
    rw [hsorted] at hperm hpairwise hreorders
    have hle := (List.pairwise_cons.1 (List.pairwise_append.1 hpairwise).2.1).1 e (by simp)
    have hde : Overlaps d e := overlaps_of_lt (hedits e (hperm.subset (by simp))) hle hlt
    have hoverlap : HasOverlap edits := by
      refine (hasOverlap_of_perm hperm).1 (hasOverlap_iff.2 fun hapart => ?_)
      exact (List.pairwise_cons.1 (List.pairwise_append.1 hapart).2.1).1 e (by simp) hde
    refine ⟨by simp [herror, hoverlap], by simp [herror, hoverlap], fun range last h => ?_⟩
    rw [herror] at h
    cases h
    exact ⟨before, d, e, after, hreorders, hpairwise, hchain.isChain, hlt, rfl, rfl, hstop⟩

/-- An insertion inside an edit, listed before that edit and one that only touches it. -/
def Sample.clashing : List Edit :=
  [⟨⟨4, 4⟩, ['x']⟩, ⟨⟨3, 5⟩, ['B']⟩, ⟨⟨1, 3⟩, ['A']⟩]

/-- In `abcdef` the insertion is refused, after the edit that it lies in. -/
theorem merge_refuses_overlaps_insertion :
    Sample.clashing ≠ [] ∧ (∀ e ∈ Sample.clashing, e.range.start ≤ e.range.stop) ∧
      HasOverlap Sample.clashing ∧
      merge Sample.clashing "abcdef".toList = .error (.overlap ⟨4, 4⟩ 5) ∧
      ∃ before d e after, Reorders Sample.clashing (before ++ d :: e :: after) ∧
        e.range = ⟨4, 4⟩ ∧ d.range.stop = 5 ∧ ∀ a ∈ before, a.range.stop ≤ 5 := by
  have hedits : ∀ e ∈ Sample.clashing, e.range.start ≤ e.range.stop := by decide +kernel
  have hmerge : merge Sample.clashing "abcdef".toList = .error (.overlap ⟨4, 4⟩ 5) := by
    decide +kernel
  obtain ⟨hrefused, -, hnamed⟩ :=
    @merge_refuses_overlaps "abcdef".toList _ (List.cons_ne_nil _ _) hedits
  obtain ⟨before, d, e, after, hreorders, -, -, -, he, hd, hbefore⟩ := hnamed _ _ hmerge
  exact ⟨List.cons_ne_nil _ _, hedits, hrefused.1 ⟨_, _, hmerge⟩, hmerge, before, d, e, after,
    hreorders, he, hd, hbefore⟩

end Edit

end KeyOrder
