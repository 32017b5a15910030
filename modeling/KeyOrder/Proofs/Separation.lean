import KeyOrder.Proofs.Arrangement
import KeyOrder.Proofs.Changes

/-!
# The edits of a relocation do not overlap

The frames of the entries of a well-formed container follow one another between its brackets, and
the edits that a relocation makes are the changes of the permutation that sorts the entries.  So the
edits can be merged, and the merged edit stays inside the brackets.
-/

namespace KeyOrder

lemma infix_of_succ {α : Type} {xs : List α} {i j : Fin xs.length} (hij : i.val + 1 = j.val) :
    [xs.get i, xs.get j] <:+: xs := by
  obtain ⟨j, hj⟩ := j
  obtain rfl : i.val + 1 = j := hij
  refine ⟨xs.take i.val, xs.drop (i.val + 2), ?_⟩
  have hdrop : xs.drop i.val = xs.get i :: xs.get ⟨i.val + 1, hj⟩ :: xs.drop (i.val + 2) := by
    rw [List.drop_eq_getElem_cons i.isLt, List.drop_eq_getElem_cons hj]
    rfl
  rw [List.append_assoc, List.cons_append, List.cons_append, List.nil_append, ← hdrop,
    List.take_append_drop]

namespace Container.WellFormed

variable {src : Source} {c : Container} {opening closing : Token}
  (h : c.WellFormed src opening closing)

/-- The frames of the entries of a container. -/
def frames (src : Source) (c : Container) (i : Fin c.entries.length) : Frame :=
  Frame.of src (c.entries.get i)

include h

lemma sequence : Frame.Sequence (frames src c) opening.range.stop closing.range.start := by
  refine ⟨fun i => h.frame_ordered (List.get_mem ..), fun i j hij => ?_, fun i hi => ?_,
    fun i hi => ?_⟩
  · exact h.frame_follows (infix_of_succ hij)
  · have hfirst : c.entries.head? = some (c.entries.get i) := by
      rw [List.head?_eq_getElem?, ← hi, List.get_eq_getElem, List.getElem?_eq_getElem]
    exact Nat.le_of_eq (h.frame_first hfirst).symm
  · have hlast : c.entries.getLast? = some (c.entries.get i) := by
      rw [List.getLast?_eq_getElem?, ← hi, Nat.add_sub_cancel, List.get_eq_getElem,
        List.getElem?_eq_getElem]
    exact h.frame_last hlast

/-- **The edits of a relocation are the changes of the permutation that sorts the entries.** -/
lemma exists_sorts {o : Order} {es : List Edit} (hes : Relocation.edits src o c = .ok es) :
    ∃ σ : Equiv.Perm (Fin c.entries.length), Sorts o c.entries σ ∧
      es = (Change.all (frames src c) σ).map (Change.edit src) := by
  obtain ⟨σ, hσ, -, rfl⟩ := Relocation.exists_sorts hes
  refine ⟨σ, hσ, ?_⟩
  rw [Change.all, List.map_flatMap, List.flatMap_map]
  refine List.flatMap_congr ?_
  intro i _
  unfold Change.atSlot
  dsimp only
  split
  · rfl
  · rw [Relocation.moveOf, h.move_eq (List.get_mem ..) (List.get_mem ..)]
    exact (Change.map_edit_moved (f := frames src c) src i (σ i)).symm

end Container.WellFormed

/-- A relocator that gives edits gives those of the container. -/
lemma Relocator.edits_of_fix {src : Source} {o : Order} {r : Relocator} {c : Container}
    {es : List Edit} (h : (r.fix src o c).1 = .ok es) (hne : es ≠ []) :
    Relocation.edits src o c = .ok es := by
  unfold fix at h
  split at h
  · cases h
    exact absurd rfl hne
  · exact h

lemma Change.length_pos_of_ne_nil {n : Nat} {f : Fin n → Frame} {σ : Fin n → Fin n}
    (h : all f σ ≠ []) : 0 < n := by
  rcases Nat.eq_zero_or_pos n with rfl | hn
  · exact absurd rfl h
  · exact hn

/-- The edits of a relocation are changes that can be merged to one edit between the brackets. -/
lemma Container.WellFormed.exists_merged {src : Source} {c : Container} {opening closing : Token}
    (h : c.WellFormed src opening closing) {o : Order} {es : List Edit}
    (hes : Relocation.edits src o c = .ok es) (hne : es ≠ []) :
    ∃ (σ : Equiv.Perm (Fin c.entries.length)) (m : Edit),
      es = (Change.all (frames src c) σ).map (Change.edit src) ∧
      Edit.merge es src.text = .ok m ∧ opening.range.stop ≤ m.range.start ∧
      m.range.start ≤ m.range.stop ∧ m.range.stop ≤ closing.range.start := by
  obtain ⟨σ, -, rfl⟩ := h.exists_sorts hes
  have hn := Change.length_pos_of_ne_nil fun hnil => hne (by rw [hnil]; rfl)
  obtain ⟨m, hm, hrange, -⟩ := Edit.merge_of_chain src.text hne
    (Change.chain_inOrder h.sequence src hn σ.injective)
  exact ⟨σ, m, rfl, hm, hrange⟩

/-- **The edits of one relocation never overlap and stay inside the brackets.**  In a well-formed
container, whatever comments and line breaks stand in its gaps, the edits of a fix can be merged,
and the merged edit lies between the end of the opening bracket and the start of the closing
one. -/
theorem fix_within_brackets {src : Source} {c : Container} {opening closing : Token}
    (h : c.WellFormed src opening closing) {o : Order} {r : Relocator} {es : List Edit}
    (hfix : (r.fix src o c).1 = .ok es) (hne : es ≠ []) :
    ∃ m, Edit.merge es src.text = .ok m ∧ opening.range.stop ≤ m.range.start ∧
      m.range.start ≤ m.range.stop ∧ m.range.stop ≤ closing.range.start := by
  obtain ⟨σ, -, rfl⟩ := h.exists_sorts (Relocator.edits_of_fix hfix hne)
  have hn := Change.length_pos_of_ne_nil fun hnil => hne (by rw [hnil]; rfl)
  obtain ⟨m, hm, hrange, -⟩ := Edit.merge_of_chain src.text hne
    (Change.chain_inOrder h.sequence src hn σ.injective)
  exact ⟨m, hm, hrange⟩

namespace Sample

/-- The source `dict(b=1,#x⏎#y⏎a=2)`, without a tree: one comment trails the first entry, the other
one stands above the second. -/
def source : Source where
  text := ['d', 'i', 'c', 't', '(', 'b', '=', '1', ',', '#', 'x', '\n', '#', 'y', '\n', 'a', '=',
    '2', ')']
  tree := default
  lines := .ofText ['d', 'i', 'c', 't', '(', 'b', '=', '1', ',', '#', 'x', '\n', '#', 'y', '\n',
    'a', '=', '2', ')']
  tokens := #[.make .name ['d', 'i', 'c', 't'] 0 1 1, .make .operator ['('] 4 1 1,
    .make .name ['b'] 5 1 1, .make .operator ['='] 6 1 1, .make .number ['1'] 7 1 1,
    .make .operator [','] 8 1 1, .make .comment ['#', 'x'] 9 1 1, .make .comment ['#', 'y'] 12 2 2,
    .make .name ['a'] 15 3 3, .make .operator ['='] 16 3 3, .make .number ['2'] 17 3 3,
    .make .operator [')'] 18 3 3]

/-- The call in the source. -/
def call : Container where
  kind := .call
  range := ⟨0, 19⟩
  entries := [⟨.property, some (.keyword [98]), ⟨5, 8⟩, ⟨5, 6⟩, 1, 1⟩,
    ⟨.property, some (.keyword [97]), ⟨15, 18⟩, ⟨15, 16⟩, 3, 3⟩]
  path := [0]

lemma tokens_source : (Token.ofText source.text).toOption = some source.tokens.toList := by
  decide +kernel

lemma wellFormed_call :
    call.WellFormed source (.make .operator ['('] 4 1 1) (.make .operator [')'] 18 3 3) where
  tokens := ⟨by decide, by decide⟩
  lines := rfl
  tokenLines := by decide +kernel
  commentsEnd := by decide +kernel
  entryLines := by simp [call]; decide +kernel
  aligned := by simp [call]; decide +kernel
  brackets := ⟨rfl, rfl⟩
  opening_mem := by decide
  first := by
    intro e he
    cases he
    decide
  commas := by
    intro a b hab
    cases hab.eq_of_length rfl
    exact ⟨.make .operator [','] 8 1 1, by decide, by decide⟩
  last := by
    intro e he
    cases he
    exact .inl (by decide)

lemma exists_edits :
    ∃ es, (Relocator.fresh.fix source ⟨.ascending, false, false⟩ call).1 = .ok es ∧
      es.length = 8 := by
  refine Outcome.exists_of_toOption_map ?_
  decide +kernel

end Sample

/-- The eight edits that sort the call in `dict(b=1,#x⏎#y⏎a=2)` merge to one between its
parentheses. -/
theorem fix_within_brackets_sample :
    (Token.ofText Sample.source.text).toOption = some Sample.source.tokens.toList ∧
      ∃ es m,
      (Relocator.fresh.fix Sample.source ⟨.ascending, false, false⟩ Sample.call).1 = .ok es ∧
      es ≠ [] ∧ Edit.merge es Sample.source.text = .ok m ∧ 5 ≤ m.range.start ∧
      m.range.start ≤ m.range.stop ∧ m.range.stop ≤ 18 := by
  obtain ⟨es, hes, hlength⟩ := Sample.exists_edits
  have hne : es ≠ [] := by
    rintro rfl
    cases hlength
  obtain ⟨m, hm⟩ := fix_within_brackets Sample.wellFormed_call hes hne
  exact ⟨Sample.tokens_source, es, m, hes, hne, hm⟩

end KeyOrder
