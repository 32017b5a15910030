import KeyOrder.Proofs.Pieces
import KeyOrder.Proofs.Separation

/-!
# One fix permutes the entries

The text of a container is made of gaps and entries in turn, its brackets being part of the first
and of the last gap.  A fix is a bag of local edits; made together they leave a text of the same
shape, with the entries in sorted order.  Every gap keeps its code, and whole comments go from gap
to gap.
-/

namespace KeyOrder

namespace Container

/-- The ranges of the entries. -/
def ranges (c : Container) (i : Fin c.entries.length) : Range := (c.entries.get i).range

/-- The gaps between the entries.  The brackets belong to the first and to the last one. -/
def gap (c : Container) (opening closing : Token) : Fin (c.entries.length + 1) → Range :=
  Range.gap c.ranges opening.range.start closing.range.stop

end Container

/-- A text made of what stands before an opening bracket, of gaps and entries in turn, and of what
stands after a closing bracket. -/
def Source.framed (src : Source) {n : Nat} (opening closing : Token) (gap : Fin (n + 1) → Text)
    (entry : Fin n → Text) : Text :=
  src.text.take opening.range.start ++ weave gap entry ++ src.text.drop closing.range.stop

namespace Container.WellFormed

variable {src : Source} {c : Container} {opening closing : Token}
  (h : c.WellFormed src opening closing)

include h

/-! ### The brackets -/

lemma opening_le : opening.range.start ≤ opening.range.stop :=
  Nat.le_of_lt (h.tokens.nonempty opening h.opening_mem.1)

lemma closing_le (hn : 0 < c.entries.length) : closing.range.start ≤ closing.range.stop := by
  obtain ⟨e, he⟩ : ∃ e, c.entries.getLast? = some e :=
    ⟨_, List.getLast?_eq_some_getLast (List.ne_nil_of_length_pos hn)⟩
  exact Nat.le_of_lt (h.tokens.nonempty closing (h.closing_after he).1)

/-! ### The gaps -/

/-- The changes in the gaps leave code alone. -/
lemma harmless_of_mem_gapPart {σ : Fin c.entries.length → Fin c.entries.length}
    {j : Fin (c.entries.length + 1)} {x : Change}
    (hx : x ∈ Change.gapPart (frames src c) σ j) : x.Harmless src := by
  have hmem : ∀ i, c.entries.get i ∈ c.entries := fun i => List.get_mem ..
  obtain ⟨i, -, hx | hx⟩ := Change.exists_of_mem_gapPart hx
  · obtain ⟨-, rfl | rfl | ⟨-, rfl⟩⟩ := Change.mem_leads.1 hx
    · exact ⟨h.codeFree_leading (hmem _), fun hfill => absurd rfl hfill, nofun⟩
    · refine ⟨h.codeFree_anchor (hmem _), fun _ => rfl, ?_⟩
      rintro _ ⟨⟩
      exact h.codeFree_leading (hmem _)
    · exact ⟨h.codeFree_start (hmem _), fun _ => rfl, nofun⟩
  · obtain ⟨-, rfl | rfl | ⟨o, ho, rfl⟩⟩ := Change.mem_trails.1 hx
    · exact ⟨h.codeFree_trailing (hmem _), fun hfill => absurd rfl hfill, nofun⟩
    · refine ⟨h.codeFree_comma (hmem _), fun _ => rfl, ?_⟩
      rintro _ ⟨⟩
      exact h.codeFree_trailing (hmem _)
    · exact ⟨h.codeFree_break ho, fun _ => rfl, nofun⟩

/-- Only comments are taken out of the gaps. -/
lemma comments_of_mem_gapPart {σ : Fin c.entries.length → Fin c.entries.length}
    {j : Fin (c.entries.length + 1)} {x : Change}
    (hx : x ∈ Change.gapPart (frames src c) σ j) {r : Range} (hr : x.piece = .dropped r) :
    src.Comments r := by
  have hmem : ∀ i, c.entries.get i ∈ c.entries := fun i => List.get_mem ..
  obtain ⟨i, -, hx | hx⟩ := Change.exists_of_mem_gapPart hx
  · obtain ⟨hlead, rfl | rfl | ⟨-, rfl⟩⟩ := Change.mem_leads.1 hx
    · cases hr
      exact h.comments_leading (hmem _) hlead
    · cases hr
    · cases hr
  · obtain ⟨htrail, rfl | rfl | ⟨o, -, rfl⟩⟩ := Change.mem_trails.1 hx
    · cases hr
      exact h.comments_trailing (hmem _) htrail
    · cases hr
    · cases hr

/-- The pieces of the gaps after a rearrangement. -/
def pieces (src : Source) (c : Container) (opening closing : Token)
    (σ : Fin c.entries.length → Fin c.entries.length) (j : Fin (c.entries.length + 1)) :
    List Piece :=
  Change.pieces (c.gap opening closing j).start (c.gap opening closing j).stop
    (Change.gapPart (frames src c) σ j)

lemma chain_gap (hn : 0 < c.entries.length) {σ : Fin c.entries.length → Fin c.entries.length}
    (hσ : Function.Injective σ) (j : Fin (c.entries.length + 1)) :
    Edit.Chain (c.gap opening closing j).start (c.gap opening closing j).stop
      ((Change.gapPart (frames src c) σ j).map (Change.edit src)) :=
  Change.chain_gapPart h.sequence hn h.opening_le (h.closing_le hn) hσ src j

lemma rebuilt (hn : 0 < c.entries.length) {σ : Fin c.entries.length → Fin c.entries.length}
    (hσ : Function.Injective σ) :
    Rebuilt src (c.gap opening closing) (pieces src c opening closing σ) := by
  refine ⟨fun j => ?_, fun j => ?_, fun j r hr => ?_, fun j r hr => ?_, ?_⟩
  · exact Change.tile_pieces (h.chain_gap hn hσ j) fun x => h.harmless_of_mem_gapPart
  · exact Change.code_pieces h.tokens (h.chain_gap hn hσ j) fun x => h.harmless_of_mem_gapPart
  · obtain ⟨x, hx, hr⟩ := (Change.mem_pieces (by simp)).1 hr
    exact h.comments_of_mem_gapPart hx hr
  · obtain ⟨x, hx, hr⟩ := (Change.mem_pieces (by simp)).1 hr
    obtain ⟨k, hk, y, hy, hr⟩ := Change.exists_dropped_of_brought hx hr
    exact ⟨k, hk, (Change.mem_pieces (by simp)).2 ⟨y, hy, hr⟩⟩
  · simp only [pieces, Change.filterMap_pieces (g := Piece.brought?) fun _ => rfl,
      Change.filterMap_pieces (g := Piece.dropped?) fun _ => rfl]
    exact Change.brought_perm_dropped h.sequence hσ

/-! ### The text -/

/-- The text between the brackets after a rearrangement. -/
lemma rewritten_eq (hn : 0 < c.entries.length)
    {σ : Fin c.entries.length → Fin c.entries.length} (hσ : Function.Injective σ) :
    Edit.rewritten src.text opening.range.start closing.range.stop
        ((Change.inOrder (frames src c) σ).map (Change.edit src)) =
      weave (fun j => (pieces src c opening closing σ j).flatMap (Piece.text src))
        fun i => src.slice (c.ranges (σ i)) := by
  simp only [pieces, Change.text_pieces]
  exact Change.rewritten_eq_weave h.sequence hn h.opening_le (h.closing_le hn) hσ src

/-- The brackets of a container stand in order. -/
lemma brackets_le (hn : 0 < c.entries.length) : opening.range.start ≤ closing.range.stop :=
  calc opening.range.start
    _ ≤ opening.range.stop := h.opening_le
    _ ≤ closing.range.start := (Change.chain_inOrder h.sequence src hn Function.injective_id).le
    _ ≤ closing.range.stop := h.closing_le hn

/-- A text is what stands before its container, the gaps and entries, and what stands after it. -/
lemma text_eq (hn : 0 < c.entries.length) :
    src.text = src.framed opening closing (fun j => src.slice (c.gap opening closing j))
      fun i => src.slice (c.ranges i) := by
  -- this is the rearrangement that changes nothing
  have hnone : Change.inOrder (frames src c) id = [] := by
    have hall : Change.all (frames src c) id = [] := by simp [Change.all, Change.atSlot]
    rw [Change.inOrder, hall, List.mergeSort_nil]
  have hweave := Change.rewritten_eq_weave h.sequence hn h.opening_le (h.closing_le hn)
    Function.injective_id src
  simp only [Change.gapPart, hnone, Change.between, List.filter_nil, List.map_nil,
    Edit.rewritten] at hweave
  have hinside : src.text.slice opening.range.start closing.range.stop =
      weave (fun j => src.slice (c.gap opening closing j)) fun i => src.slice (c.ranges i) := hweave
  rw [Source.framed, ← hinside, Text.take_append_slice _ (h.brackets_le hn),
    List.take_append_drop]

end Container.WellFormed

/-- **One fix permutes the entries and touches no other code.**  The text around a well-formed
container is made of gaps and entries in turn.  After a fix it is again, with the entries in the
order of the permutation that sorts them; every gap holds the code that it held, and is made of
parts of its own, of comments that another gap has lost, each once, and of line breaks. -/
theorem fix_permutes_entries {src : Source} {c : Container} {opening closing : Token}
    (h : c.WellFormed src opening closing) {o : Order} {r : Relocator} {es : List Edit}
    (hfix : (r.fix src o c).1 = .ok es) (hne : es ≠ []) :
    ∃ (m : Edit) (σ : Equiv.Perm (Fin c.entries.length))
      (pieces : Fin (c.entries.length + 1) → List Piece),
      Edit.merge es src.text = .ok m ∧ Sorts o c.entries σ ∧
      Rebuilt src (c.gap opening closing) pieces ∧
      src.text = src.framed opening closing (fun j => src.slice (c.gap opening closing j))
        (fun i => src.slice (c.ranges i)) ∧
      m.apply src.text = src.framed opening closing
        (fun j => (pieces j).flatMap (Piece.text src)) fun i => src.slice (c.ranges (σ i)) := by
  obtain ⟨σ, hσ, rfl⟩ := h.exists_sorts (Relocator.edits_of_fix hfix hne)
  have hn := Change.length_pos_of_ne_nil fun hnil => hne (by rw [hnil]; rfl)
  have hchain := Change.chain_inOrder h.sequence src hn σ.injective
  obtain ⟨m, hm, -, happly⟩ := Edit.merge_of_chain src.text hne
    ((hchain.mono h.opening_le).mono_right (h.closing_le hn))
  refine ⟨m, σ, Container.WellFormed.pieces src c opening closing σ, hm, hσ,
    h.rebuilt hn σ.injective, h.text_eq hn, ?_⟩
  rw [happly, ← Change.map_edit_inOrder, h.rewritten_eq hn σ.injective, Source.framed]

lemma Sample.exists_fixed :
    ∃ es, (Relocator.fresh.fix source ⟨.ascending, false, false⟩ call).1 = .ok es ∧ es ≠ [] ∧
      (Edit.merge es source.text).toOption.map (·.apply source.text) =
        some ['d', 'i', 'c', 't', '(', '\n', '#', 'y', '\n', 'a', '=', '2', ',', '\n', 'b', '=',
          '1', '#', 'x', '\n', ')'] := by
  have hrun : ((Relocator.fresh.fix source ⟨.ascending, false, false⟩ call).1.toOption.map
      fun es => (es.isEmpty, (Edit.merge es source.text).toOption.map (·.apply source.text))) =
      some (false, some ['d', 'i', 'c', 't', '(', '\n', '#', 'y', '\n', 'a', '=', '2', ',', '\n',
        'b', '=', '1', '#', 'x', '\n', ')']) := by
    decide +kernel
  obtain ⟨es, hes, hdata⟩ := Outcome.exists_of_toOption_map hrun
  obtain ⟨hempty, htext⟩ := Prod.mk.inj hdata
  exact ⟨es, hes, List.isEmpty_eq_false_iff.1 hempty, htext⟩

/-- The fix of `dict(b=1,#x⏎#y⏎a=2)` gives `dict(⏎#y⏎a=2,⏎b=1#x⏎)`: two entries, three gaps, and a
comment that comes to the first gap and to the last one. -/
theorem fix_permutes_entries_sample :
    ∃ (es : List Edit) (m : Edit) (σ : Equiv.Perm (Fin 2)) (pieces : Fin 3 → List Piece),
      (Relocator.fresh.fix Sample.source ⟨.ascending, false, false⟩ Sample.call).1 = .ok es ∧
      es ≠ [] ∧ Edit.merge es Sample.source.text = .ok m ∧
      Sorts ⟨.ascending, false, false⟩ Sample.call.entries σ ∧
      Rebuilt Sample.source
        (Sample.call.gap (.make .operator ['('] 4 1 1) (.make .operator [')'] 18 3 3)) pieces ∧
      m.apply Sample.source.text =
        Sample.source.framed (.make .operator ['('] 4 1 1) (.make .operator [')'] 18 3 3)
          (fun j => (pieces j).flatMap (Piece.text Sample.source))
          (fun i => Sample.source.slice (Sample.call.ranges (σ i))) ∧
      m.apply Sample.source.text = ['d', 'i', 'c', 't', '(', '\n', '#', 'y', '\n', 'a', '=', '2',
        ',', '\n', 'b', '=', '1', '#', 'x', '\n', ')'] := by
  obtain ⟨es, hes, hne, htext⟩ := Sample.exists_fixed
  obtain ⟨m, σ, pieces, hm, hσ, hpieces, -, happly⟩ :=
    fix_permutes_entries Sample.wellFormed_call hes hne
  rw [hm] at htext
  exact ⟨es, m, σ, pieces, hes, hne, hm, hσ, hpieces, happly, Option.some_inj.1 htext⟩

end KeyOrder
