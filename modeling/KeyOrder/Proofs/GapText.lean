import KeyOrder.Proofs.LineBreaks

/-!
# What a gap reads after a rearrangement

At every place of a gap there is at most one change.  Taken place by place, the changes leave the
comma after a slot, the comments that trail the entry which goes to it, those that lead the entry
which goes to the next slot, and line breaks between them.
-/

namespace KeyOrder

namespace Change

/-! ### Line breaks that are put in -/

/-- Line breaks at the end of a range. -/
lemma exists_lineBreaks {src : Source} {lo hi : Nat} {xs : List Change}
    (hchain : Edit.Chain lo hi (xs.map (edit src))) (hfill : ∀ x ∈ xs, x.fill = .lineBreak)
    (hat : ∀ x ∈ xs, x.range.start = hi) :
    ∃ breaks, Edit.rewritten src.text lo hi (xs.map (edit src)) =
      src.text.slice lo hi ++ breaks ∧ ∀ ch ∈ breaks, ch = '\n' := by
  induction xs generalizing lo with
  | nil => exact ⟨[], (List.append_nil _).symm, nofun⟩
  | cons x xs ih =>
    obtain ⟨-, hrange, hrest⟩ : lo ≤ x.range.start ∧ x.range.start ≤ x.range.stop ∧
      Edit.Chain x.range.stop hi (xs.map (edit src)) := hchain
    obtain ⟨hx, hxs⟩ := List.forall_mem_cons.1 hfill
    obtain ⟨hstart, hat⟩ := List.forall_mem_cons.1 hat
    have hstop : x.range.stop = hi := by
      have := hrest.le
      omega
    rw [hstop] at hrest
    obtain ⟨breaks, heq, hbreaks⟩ := ih hrest hxs hat
    refine ⟨'\n' :: breaks, ?_, List.forall_mem_cons.2 ⟨rfl, hbreaks⟩⟩
    simp only [List.map_cons, Edit.rewritten, edit, hx, Fill.text, hstart, hstop, heq,
      Text.slice_self, List.nil_append, List.append_assoc, List.cons_append]

/-- Line breaks where nothing else is. -/
lemma forall_lineBreak {src : Source} {o : Nat} {xs : List Change}
    (hchain : Edit.Chain o o (xs.map (edit src))) (hfill : ∀ x ∈ xs, x.fill = .lineBreak) :
    ∀ ch ∈ Edit.rewritten src.text o o (xs.map (edit src)), ch = '\n' := by
  have hat : ∀ x ∈ xs, x.range.start = o := by
    intro x hx
    obtain ⟨hlo, hrange, hhi⟩ := hchain.mem_le (List.mem_map_of_mem hx)
    simp only [edit] at hlo hrange hhi
    omega
  obtain ⟨breaks, heq, hbreaks⟩ := exists_lineBreaks hchain hfill hat
  rw [heq, Text.slice_self, List.nil_append]
  exact hbreaks

/-! ### Comments that are put in and taken out -/

/-- Comments that are put in, if there are any. -/
lemma rewritten_in (src : Source) {a b o : Nat} (hao : a ≤ o) (hob : o ≤ b) {r : Range}
    (hr : r.start ≤ r.stop) (place : Nat) :
    Edit.rewritten src.text a b
        ((if r.start < r.stop then [⟨place, ⟨o, o⟩, .taken r⟩] else []).map (edit src)) =
      src.slice ⟨a, o⟩ ++ (src.slice r ++ src.slice ⟨o, b⟩) := by
  split
  · simp only [List.map_cons, List.map_nil, Edit.rewritten, edit, Fill.text, List.append_assoc]
    rfl
  · rename_i hempty
    have hslice : src.slice r = [] := by
      rw [Source.slice, show r.stop = r.start by omega, Text.slice_self]
    rw [hslice]
    exact (src.text.slice_append_slice hao hob).symm

/-- Comments that are taken out, if there are any. -/
lemma rewritten_out (src : Source) {r : Range} (hr : r.start ≤ r.stop) (place : Nat) :
    Edit.rewritten src.text r.start r.stop
      ((if r.start < r.stop then [⟨place, r, .nothing⟩] else []).map (edit src)) = [] := by
  split
  · simp only [List.map_cons, List.map_nil, Edit.rewritten, edit, Fill.text, Text.slice_self,
      List.append_nil]
  · rename_i hempty
    simp only [List.map_nil, Edit.rewritten, show r.stop = r.start by omega, Text.slice_self]

/-! ### One place after the other -/

section Places

variable {n : Nat} {f : Fin n → Frame} {σ : Fin n → Fin n}

/-- All changes of a gap but four kinds put in line breaks. -/
lemma fill_of_mem_gapPart {j : Fin (n + 1)} {x : Change} (hx : x ∈ gapPart f σ j) :
    x.fill = .lineBreak ∨ x.place % 9 = 0 ∨ x.place % 9 = 2 ∨ x.place % 9 = 6 ∨
      x.place % 9 = 7 := by
  rcases gapPart_cases hx with ⟨k, -, -, rfl⟩ | ⟨k, -, -, -, rfl | rfl⟩ | ⟨k, -, -, rfl⟩ |
    ⟨k, -, -, -, rfl | ⟨o, -, rfl⟩⟩
  · exact .inr (.inl (by simp only [leadOut]; omega))
  · exact .inr (.inr (.inl (by simp only [leadIn]; omega)))
  · exact .inl rfl
  · exact .inr (.inr (.inr (.inr (by simp only [trailOut]; omega))))
  · exact .inr (.inr (.inr (.inl (by simp only [trailIn]; omega))))
  · exact .inl rfl

/-- The changes in a part of a gap without those kinds put in line breaks. -/
lemma fill_of_mem_between {a b : Nat} (j : Fin (n + 1)) (ha : 9 * j.val ≤ a + 3)
    (hb : b ≤ 9 * j.val + 5)
    (hab : ∀ p, a ≤ p → p < b → p % 9 = 1 ∨ p % 9 = 3 ∨ p % 9 = 4 ∨ p % 9 = 8) {x : Change}
    (hx : x ∈ between a b (inOrder f σ)) : x.fill = .lineBreak := by
  obtain ⟨hmem, hlo, hhi⟩ := mem_between.1 hx
  have hplace := hab x.place hlo hhi
  have hgap : x ∈ gapPart f σ j := mem_between.2 ⟨hmem, by omega, by omega⟩
  rcases fill_of_mem_gapPart hgap with hfill | hplace'
  · exact hfill
  · omega

/-- Where a change of comments is made there are comments. -/
lemma comments_of_place (k : Fin n) {x : Change} (hx : x ∈ inOrder f σ) :
    (x.place = 9 * k.val + 6 → (f (σ k)).comma < (f (σ k)).trail) ∧
      (x.place = 9 * k.val + 7 → (f k).comma < (f k).trail) ∧
      (x.place = 9 * k.val → (f k).kept < (f k).anchor) ∧
      (x.place = 9 * k.val + 2 → (f (σ k)).kept < (f (σ k)).anchor) := by
  obtain ⟨i, -, hx⟩ := mem_all.1 ((inOrder_perm f σ).subset hx)
  have heq : ∀ a b : Fin n, 9 * a.val = 9 * b.val → a = b := fun a b hab => Fin.ext (by omega)
  rcases mem_moved.1 hx with rfl | hx | hx
  · simp only [entry]
    omega
  · obtain ⟨hlead, rfl | rfl | ⟨-, rfl⟩⟩ := mem_leads.1 hx
    · simp only [leadOut]
      refine ⟨by omega, by omega, fun hplace => ?_, by omega⟩
      rwa [heq _ _ hplace] at hlead
    · simp only [leadIn]
      refine ⟨by omega, by omega, by omega, fun hplace => ?_⟩
      rwa [heq i k (by omega)] at hlead
    · simp only [leadBreak]
      omega
  · obtain ⟨htrail, rfl | rfl | ⟨o, -, rfl⟩⟩ := mem_trails.1 hx
    · simp only [trailOut]
      refine ⟨by omega, fun hplace => ?_, by omega, by omega⟩
      rwa [heq (σ i) k (by omega)] at htrail
    · simp only [trailIn]
      refine ⟨fun hplace => ?_, by omega, by omega, by omega⟩
      rwa [heq i k (by omega)] at htrail
    · have hbreak := breakPlace_cases f i o
      simp only [trailBreak]
      omega

lemma between_eq_nil {a b : Nat} {xs : List Change}
    (h : ∀ x ∈ xs, a ≤ x.place → x.place < b → False) : between a b xs = [] := by
  refine List.eq_nil_iff_forall_not_mem.2 fun x hx => ?_
  obtain ⟨hmem, hlo, hhi⟩ := mem_between.1 hx
  exact h x hmem hlo hhi

variable {lo hi : Nat} (h : Frame.Sequence f lo hi) (hσ : Function.Injective σ)

include h hσ

/-- At one place there is at most one change. -/
lemma between_succ {x : Change} (hx : x ∈ inOrder f σ) :
    between x.place (x.place + 1) (inOrder f σ) = [x] := by
  have hmem : x ∈ between x.place (x.place + 1) (inOrder f σ) :=
    mem_between.2 ⟨hx, Nat.le_refl _, Nat.lt_succ_self _⟩
  have hplaces : (between x.place (x.place + 1) (inOrder f σ)).Pairwise
      fun y z => y.place < z.place := (pairwise_place_inOrder h hσ).filter _
  have hall : ∀ y ∈ between x.place (x.place + 1) (inOrder f σ), y.place = x.place := by
    intro y hy
    obtain ⟨-, hlo, hhi⟩ := mem_between.1 hy
    omega
  generalize between x.place (x.place + 1) (inOrder f σ) = ys at hmem hplaces hall
  match ys, hmem with
  | [y], hmem => rw [List.mem_singleton.1 hmem]
  | y :: z :: ys, _ =>
    have hlt := (List.pairwise_cons.1 hplaces).1 z (List.mem_cons_self ..)
    rw [hall y (by simp), hall z (by simp)] at hlt
    exact absurd hlt (Nat.lt_irrefl _)

/-- The change at a place, if there is one. -/
lemma between_eq_ite {p : Nat} {P : Prop} [Decidable P] {x : Change} (hplace : x.place = p)
    (hx : P → x ∈ inOrder f σ) (hall : ∀ y ∈ inOrder f σ, y.place = p → P) :
    between p (p + 1) (inOrder f σ) = if P then [x] else [] := by
  split
  · rename_i hP
    rw [← hplace]
    exact between_succ h hσ (hx hP)
  · rename_i hP
    exact between_eq_nil fun y hy hlo hhi => hP (hall y hy (by omega))

/-- Nothing is changed around an entry that stays. -/
lemma place_of_fixed {k : Fin n} (hk : σ k = k) {x : Change} (hx : x ∈ inOrder f σ) :
    x.place ≠ 9 * k.val ∧ x.place ≠ 9 * k.val + 2 ∧ x.place ≠ 9 * k.val + 6 ∧
      x.place ≠ 9 * k.val + 7 := by
  obtain ⟨i, hi', hx⟩ := mem_all.1 ((inOrder_perm f σ).subset hx)
  have hik : i.val ≠ k.val := by
    intro heq
    obtain rfl : i = k := Fin.ext heq
    exact hi' hk
  have hσik : (σ i).val ≠ k.val := by
    intro heq
    have hσk : σ i = σ k := by
      rw [hk]
      exact Fin.ext heq
    exact hik (congrArg Fin.val (hσ hσk))
  have hplace := place_cases h hx
  omega

omit h in
/-- An entry that moves is the one that goes to some other slot. -/
lemma exists_slot {k : Fin n} (hk : σ k ≠ k) : ∃ i, σ i = k ∧ σ i ≠ i := by
  obtain ⟨i, hi'⟩ := Finite.injective_iff_surjective.1 hσ k
  refine ⟨i, hi', fun heq => hk ?_⟩
  rw [← hi', heq]
  exact heq

/-- The changes of comments at a slot whose entry moves. -/
lemma between_of_moved {k : Fin n} (hk : σ k ≠ k) :
    between (9 * k.val + 6) (9 * k.val + 7) (inOrder f σ) =
        (if (f (σ k)).comma < (f (σ k)).trail then [trailIn f k (σ k)] else []) ∧
      between (9 * k.val + 7) (9 * k.val + 8) (inOrder f σ) =
        (if (f k).comma < (f k).trail then [trailOut f k] else []) ∧
      between (9 * k.val) (9 * k.val + 1) (inOrder f σ) =
        (if (f k).kept < (f k).anchor then [leadOut f k] else []) ∧
      between (9 * k.val + 2) (9 * k.val + 3) (inOrder f σ) =
        (if (f (σ k)).kept < (f (σ k)).anchor then [leadIn f k (σ k)] else []) := by
  have hmem : ∀ {i x}, σ i ≠ i → x ∈ leads f i (σ i) ∨ x ∈ trails f i (σ i) →
      x ∈ inOrder f σ := fun hi' hx =>
    (inOrder_perm f σ).symm.subset (mem_all.2 ⟨_, hi', mem_moved.2 (.inr hx)⟩)
  have hplaces := fun x (hx : x ∈ inOrder f σ) => comments_of_place k hx
  obtain ⟨i, hik, hi'⟩ := exists_slot hσ hk
  refine ⟨between_eq_ite h hσ rfl (fun htrail => hmem hk (.inr ?_)) fun x hx => (hplaces x hx).1,
    between_eq_ite h hσ rfl (fun htrail => hmem hi' (.inr ?_)) fun x hx => (hplaces x hx).2.1,
    between_eq_ite h hσ rfl (fun hlead => hmem hi' (.inl ?_)) fun x hx => (hplaces x hx).2.2.1,
    between_eq_ite h hσ rfl (fun hlead => hmem hk (.inl ?_)) fun x hx => (hplaces x hx).2.2.2⟩
  · exact mem_trails.2 ⟨htrail, .inr (.inl rfl)⟩
  · rw [hik]
    exact mem_trails.2 ⟨htrail, .inl rfl⟩
  · rw [hik]
    exact mem_leads.2 ⟨hlead, .inl rfl⟩
  · exact mem_leads.2 ⟨hlead, .inr (.inl rfl)⟩

/-- The changes at two or more places in a row. -/
lemma rewritten_between (src : Source) {a b c : Nat} (hab : a ≤ b) (hbc : b ≤ c) :
    Edit.rewritten src.text (Frame.cuts f hi a) (Frame.cuts f hi c)
        ((between a c (inOrder f σ)).map (edit src)) =
      Edit.rewritten src.text (Frame.cuts f hi a) (Frame.cuts f hi b)
          ((between a b (inOrder f σ)).map (edit src)) ++
        Edit.rewritten src.text (Frame.cuts f hi b) (Frame.cuts f hi c)
          ((between b c (inOrder f σ)).map (edit src)) := by
  rw [between_append (pairwise_place_inOrder h hσ) hab hbc, List.map_append]
  exact Edit.rewritten_append _ (chain_between h hσ src hab) (chain_between h hσ src hbc)

/-! ### Around a slot -/

/-- The text after a slot, up to where the comments ended that trailed its old entry: its comma, and
the comments that trail its new entry. -/
lemma rewritten_trailing (src : Source) (k : Fin n) :
    Edit.rewritten src.text (f k).stop (f k).trail
        ((between (9 * k.val + 6) (9 * k.val + 8) (inOrder f σ)).map (edit src)) =
      src.slice ⟨(f k).stop, (f k).comma⟩ ++ src.slice (f (σ k)).trailing := by
  have hk := h.ordered k
  have hsplit := rewritten_between h hσ src (Nat.le_add_right (9 * k.val + 6) 1)
    (Nat.le_add_right (9 * k.val + 7) 1)
  simp only [Nat.add_assoc, Nat.reduceAdd] at hsplit
  rw [Frame.cuts_eq f hi k (r := 6) (by omega), Frame.cuts_eq f hi k (r := 7) (by omega),
    Frame.cuts_eq f hi k (r := 8) (by omega)] at hsplit
  refine hsplit.trans ?_
  by_cases hfix : σ k = k
  · -- the entry stays, and its comments with it
    have hnone := fun x (hx : x ∈ inOrder f σ) => place_of_fixed h hσ hfix hx
    rw [between_eq_nil fun x hx hlo hhi => (hnone x hx).2.2.1 (by omega),
      between_eq_nil fun x hx hlo hhi => (hnone x hx).2.2.2 (by omega), hfix]
    rfl
  · obtain ⟨hin, hout, -, -⟩ := between_of_moved h hσ hfix
    rw [hin, hout]
    have htaken := rewritten_in src hk.stop_le (Nat.le_refl (f k).comma)
      (r := (f (σ k)).trailing) (h.ordered (σ k)).comma_le (9 * k.val + 6)
    have hdropped := rewritten_out src (r := (f k).trailing) hk.comma_le (9 * k.val + 7)
    have hnothing : src.slice ⟨(f k).comma, (f k).comma⟩ = [] := Text.slice_self _ _
    rw [hnothing, List.append_nil] at htaken
    exact (congrArg₂ (· ++ ·) htaken hdropped).trans (List.append_nil _)

/-- The text before a slot, place by place: where comments are taken out, where they are put in, and
line breaks. -/
lemma exists_rewritten_before (src : Source) (k : Fin n) :
    ∃ first second, (∀ ch ∈ first, ch = '\n') ∧ (∀ ch ∈ second, ch = '\n') ∧
      Edit.rewritten src.text (f k).kept (f k).start
          ((between (9 * k.val) (9 * k.val + 5) (inOrder f σ)).map (edit src)) =
        Edit.rewritten src.text (f k).kept (f k).anchor
            ((between (9 * k.val) (9 * k.val + 1) (inOrder f σ)).map (edit src)) ++
          (first ++ (Edit.rewritten src.text (f k).anchor (f k).start
            ((between (9 * k.val + 2) (9 * k.val + 3) (inOrder f σ)).map (edit src)) ++
              second)) := by
  have hcut0 : Frame.cuts f hi (9 * k.val) = (f k).kept := Frame.cuts_eq f hi k (r := 0) (by omega)
  have hcut1 : Frame.cuts f hi (9 * k.val + 1) = (f k).anchor := Frame.cuts_eq f hi k (by omega)
  have hcut2 : Frame.cuts f hi (9 * k.val + 2) = (f k).anchor := Frame.cuts_eq f hi k (by omega)
  have hcut3 : Frame.cuts f hi (9 * k.val + 3) = (f k).start := Frame.cuts_eq f hi k (by omega)
  have hcut5 : Frame.cuts f hi (9 * k.val + 5) = (f k).start := Frame.cuts_eq f hi k (by omega)
  have hfirst := chain_between h hσ src (Nat.le_add_right (9 * k.val + 1) 1)
  have hsecond := chain_between h hσ src (Nat.le_add_right (9 * k.val + 3) 2)
  have hsplit := rewritten_between h hσ src (Nat.le_add_right (9 * k.val) 1)
    (Nat.le_add_right (9 * k.val + 1) 4)
  rw [rewritten_between h hσ src (Nat.le_add_right (9 * k.val + 1) 1)
      (Nat.le_add_right (9 * k.val + 2) 3),
    rewritten_between h hσ src (Nat.le_add_right (9 * k.val + 2) 1)
      (Nat.le_add_right (9 * k.val + 3) 2)] at hsplit
  simp only [Nat.add_assoc, Nat.reduceAdd, hcut0, hcut1, hcut2, hcut3, hcut5]
    at hsplit hfirst hsecond
  have hgap : 9 * k.castSucc.val = 9 * k.val := rfl
  refine ⟨_, _, forall_lineBreak hfirst fun x => ?_, forall_lineBreak hsecond fun x => ?_, hsplit⟩
  · exact fill_of_mem_between k.castSucc (by omega) (by omega) (by omega)
  · exact fill_of_mem_between k.castSucc (by omega) (by omega) (by omega)

/-- The text before a slot, from where the comments started that led its old entry: those that lead
its new entry, and white space around them. -/
lemma rewritten_leading (src : Source) (k : Fin n) :
    ∃ breaks rest, Edit.rewritten src.text (f k).kept (f k).start
          ((between (9 * k.val) (9 * k.val + 5) (inOrder f σ)).map (edit src)) =
        breaks ++ (src.slice (f (σ k)).leading ++ rest) ∧ (∀ ch ∈ breaks, ch = '\n') ∧
      ∀ ch ∈ rest, ch = '\n' ∨ ch ∈ src.slice ⟨(f k).anchor, (f k).start⟩ := by
  have hk := h.ordered k
  obtain ⟨first, second, hfirst, hsecond, hsplit⟩ := exists_rewritten_before h hσ src k
  rw [hsplit]
  by_cases hfix : σ k = k
  · -- the entry stays, and its comments with it
    have hnone := fun x (hx : x ∈ inOrder f σ) => place_of_fixed h hσ hfix hx
    rw [between_eq_nil fun x hx hlo hhi => (hnone x hx).1 (by omega),
      between_eq_nil fun x hx hlo hhi => (hnone x hx).2.1 (by omega), hfix]
    refine ⟨[], _, rfl, nofun, fun ch hch => ?_⟩
    simp only [List.mem_append, List.map_nil, Edit.rewritten] at hch
    rcases hch with hch | hch | hch
    · exact .inl (hfirst ch hch)
    · exact .inr hch
    · exact .inl (hsecond ch hch)
  · obtain ⟨-, -, hout, hin⟩ := between_of_moved h hσ hfix
    have htaken := rewritten_in src (Nat.le_refl (f k).anchor) hk.anchor_le
      (r := (f (σ k)).leading) (h.ordered (σ k)).kept_le (9 * k.val + 2)
    have hdropped := rewritten_out src (r := (f k).leading) hk.kept_le (9 * k.val)
    have hnothing : src.slice ⟨(f k).anchor, (f k).anchor⟩ = [] := Text.slice_self _ _
    rw [hnothing, List.nil_append] at htaken
    refine ⟨first, src.slice ⟨(f k).anchor, (f k).start⟩ ++ second, ?_, hfirst, fun ch hch => ?_⟩
    · rw [hin, hout]
      refine (congrArg₂ (fun x y => x ++ (first ++ (y ++ second))) hdropped htaken).trans ?_
      simp only [List.nil_append, List.append_assoc]
    · rcases List.mem_append.1 hch with hch | hch
      · exact .inr hch
      · exact .inl (hsecond ch hch)

/-! ### Whole gaps -/

/-- The gap before the first slot. -/
lemma exists_rewritten_first (src : Source) {k : Fin n} (hk : k.val = 0) {a : Nat}
    (ha : a ≤ (f k).kept) :
    ∃ breaks rest, Edit.rewritten src.text a (f k).start
          ((gapPart f σ k.castSucc).map (edit src)) =
        src.slice ⟨a, (f k).kept⟩ ++ (breaks ++ (src.slice (f (σ k)).leading ++ rest)) ∧
      (∀ ch ∈ breaks, ch = '\n') ∧
      ∀ ch ∈ rest, ch = '\n' ∨ ch ∈ src.slice ⟨(f k).anchor, (f k).start⟩ := by
  obtain ⟨breaks, rest, heq, hbreaks, hrest⟩ := rewritten_leading h hσ src k
  refine ⟨breaks, rest, ?_, hbreaks, hrest⟩
  have hpart : gapPart f σ k.castSucc = between (9 * k.val) (9 * k.val + 5) (inOrder f σ) := by
    rw [gapPart, Fin.val_castSucc, show 9 * k.val - 3 = 9 * k.val by omega]
  have hkept : Frame.cuts f hi (9 * k.val) = (f k).kept := Frame.cuts_eq f hi k (r := 0) (by omega)
  have hstart : Frame.cuts f hi (9 * k.val + 5) = (f k).start := Frame.cuts_eq f hi k (by omega)
  have hchain := chain_between h hσ src (Nat.le_add_right (9 * k.val) 5)
  rw [hkept, hstart] at hchain
  rw [hpart, Edit.rewritten_of_le src.text ha hchain]
  exact congrArg (src.slice ⟨a, (f k).kept⟩ ++ ·) heq

/-- The gap between two slots, where the comments that trail the first entry are followed by those
that lead the second one. -/
lemma exists_rewritten_next (src : Source) {k l : Fin n} (hkl : k.val + 1 = l.val)
    (htie : (f k).trail = (f l).kept) :
    ∃ breaks rest, Edit.rewritten src.text (f k).stop (f l).start
          ((gapPart f σ l.castSucc).map (edit src)) =
        src.slice ⟨(f k).stop, (f k).comma⟩ ++ (src.slice (f (σ k)).trailing ++
          (breaks ++ (src.slice (f (σ l)).leading ++ rest))) ∧
      (∀ ch ∈ breaks, ch = '\n') ∧
      ∀ ch ∈ rest, ch = '\n' ∨ ch ∈ src.slice ⟨(f l).anchor, (f l).start⟩ := by
  obtain ⟨breaks, rest, heq, hbreaks, hrest⟩ := rewritten_leading h hσ src l
  have hkept : Frame.cuts f hi (9 * k.val + 9) = (f l).kept := by
    rw [show 9 * k.val + 9 = 9 * l.val + 0 by omega, Frame.cuts_eq f hi l (by omega)]
    rfl
  have htrail : Frame.cuts f hi (9 * k.val + 8) = (f k).trail := Frame.cuts_eq f hi k (by omega)
  have hchain := chain_between h hσ src (Nat.le_add_right (9 * k.val + 8) 1)
  have hsplit := rewritten_between h hσ src (Nat.le_add_right (9 * k.val + 6) 2)
    (Nat.le_add_right (9 * k.val + 8) 6)
  rw [rewritten_between h hσ src (Nat.le_add_right (9 * k.val + 8) 1)
    (Nat.le_add_right (9 * k.val + 9) 5)] at hsplit
  simp only [Nat.add_assoc, Nat.reduceAdd, hkept, htrail] at hsplit hchain
  rw [htie] at hchain
  have hbetween := forall_lineBreak hchain fun x => fill_of_mem_between l.castSucc
    (by rw [Fin.val_castSucc]; omega) (by rw [Fin.val_castSucc]; omega) (by omega)
  have hstop : Frame.cuts f hi (9 * k.val + 6) = (f k).stop := Frame.cuts_eq f hi k (by omega)
  have hstart : Frame.cuts f hi (9 * l.val + 5) = (f l).start := Frame.cuts_eq f hi l (by omega)
  rw [hstop, show 9 * k.val + 14 = 9 * l.val + 5 by omega, hstart,
    show 9 * k.val + 9 = 9 * l.val by omega, rewritten_trailing h hσ, heq] at hsplit
  have hpart : gapPart f σ l.castSucc =
      between (9 * k.val + 6) (9 * l.val + 5) (inOrder f σ) := by
    rw [gapPart, Fin.val_castSucc, show 9 * l.val - 3 = 9 * k.val + 6 by omega]
  rw [show 9 * k.val + 9 = 9 * l.val by omega] at hbetween
  refine ⟨_ ++ breaks, rest, ?_, List.forall_mem_append.2 ⟨hbetween, hbreaks⟩, hrest⟩
  rw [hpart]
  refine hsplit.trans ?_
  rw [htie]
  simp only [List.append_assoc]

/-- The gap after the last slot, where line breaks go to its end only. -/
lemma exists_rewritten_last (src : Source) {k : Fin n} (hk : k.val + 1 = n)
    (hat : ∀ o ∈ (f k).break?, o = hi) :
    ∃ breaks, Edit.rewritten src.text (f k).stop hi ((gapPart f σ k.succ).map (edit src)) =
        src.slice ⟨(f k).stop, (f k).comma⟩ ++ (src.slice (f (σ k)).trailing ++
          (src.slice ⟨(f k).trail, hi⟩ ++ breaks)) ∧
      ∀ ch ∈ breaks, ch = '\n' := by
  have htrail : Frame.cuts f hi (9 * k.val + 8) = (f k).trail := Frame.cuts_eq f hi k (by omega)
  have hstop : Frame.cuts f hi (9 * k.val + 6) = (f k).stop := Frame.cuts_eq f hi k (by omega)
  have hend : Frame.cuts f hi (9 * k.val + 14) = hi := Frame.cuts_of_le f hi (by omega)
  have hchain := chain_between h hσ src (Nat.le_add_right (9 * k.val + 8) 6)
  have hsplit := rewritten_between h hσ src (Nat.le_add_right (9 * k.val + 6) 2)
    (Nat.le_add_right (9 * k.val + 8) 6)
  simp only [Nat.add_assoc, Nat.reduceAdd, htrail, hstop, hend] at hsplit hchain
  rw [rewritten_trailing h hσ] at hsplit
  have hbreak : ∀ x ∈ between (9 * k.val + 8) (9 * k.val + 14) (inOrder f σ),
      x.fill = .lineBreak ∧ x.range.start = hi := by
    intro x hx
    obtain ⟨hmem, hlo, hhi⟩ := mem_between.1 hx
    have hgap : x ∈ gapPart f σ k.succ :=
      mem_between.2 ⟨hmem, by rw [Fin.val_succ]; omega, by rw [Fin.val_succ]; omega⟩
    rcases gapPart_cases hgap with ⟨i, hi', -, -⟩ | ⟨i, hi', -, -, -⟩ | ⟨i, hi', -, rfl⟩ |
      ⟨i, hi', -, -, rfl | ⟨o, ho, rfl⟩⟩
    all_goals rw [Fin.val_succ] at hi'
    · omega
    · omega
    · simp only [trailOut] at hlo
      omega
    · simp only [trailIn] at hlo
      omega
    · obtain rfl : i = k := Fin.ext (by omega)
      exact ⟨rfl, hat o ho⟩
  obtain ⟨breaks, heq, hbreaks⟩ := exists_lineBreaks hchain (fun x hx => (hbreak x hx).1)
    fun x hx => (hbreak x hx).2
  have hpart : gapPart f σ k.succ = between (9 * k.val + 6) (9 * k.val + 14) (inOrder f σ) := by
    rw [gapPart, Fin.val_succ, show 9 * (k.val + 1) - 3 = 9 * k.val + 6 by omega,
      show 9 * (k.val + 1) + 5 = 9 * k.val + 14 by omega]
  refine ⟨breaks, ?_, hbreaks⟩
  rw [hpart]
  refine hsplit.trans ?_
  rw [heq, List.append_assoc]
  rfl

/-! ### The edits of a gap -/

omit hσ in
/-- A change starts before the end of every slot that its place does not come after, and stops after
the start of every slot that its place does not come before. -/
lemma range_of_slot (k : Fin n) {x : Change} (hx : x ∈ inOrder f σ) :
    (x.place ≤ 9 * k.val + 5 → x.range.start < (f k).stop) ∧
      (9 * k.val + 5 ≤ x.place → (f k).start < x.range.stop) := by
  have hslot := (h.ordered k).start_lt
  have hstart : Frame.cuts f hi (9 * k.val + 5) = (f k).start := Frame.cuts_eq f hi k (by omega)
  have hstop : Frame.cuts f hi (9 * k.val + 6) = (f k).stop := Frame.cuts_eq f hi k (by omega)
  obtain ⟨hlo, hrange, hhi⟩ := fits_of_mem_inOrder h hx
  rcases Nat.lt_trichotomy x.place (9 * k.val + 5) with hlt | heq | hgt
  · have := h.cuts_mono (show x.place + 1 ≤ 9 * k.val + 5 by omega)
    exact ⟨fun _ => by omega, fun hle => by omega⟩
  · -- this is the change of the entry
    obtain ⟨i, -, hx⟩ := mem_all.1 ((inOrder_perm f σ).subset hx)
    rcases mem_moved.1 hx with rfl | hx
    · have hik : i = k := Fin.ext (by simp only [entry] at heq; omega)
      rw [hik]
      exact ⟨fun _ => hslot, fun _ => hslot⟩
    · have hgap := inGap_of_mem hx
      rw [inGap, bne_iff_ne] at hgap
      omega
  · have := h.cuts_mono (show 9 * k.val + 6 ≤ x.place by omega)
    exact ⟨fun hle => by omega, fun _ => by omega⟩

omit hσ in
/-- The changes with places in a gap are those with ranges in it. -/
lemma within_gap_iff (hn : 0 < n) {lo' hi' : Nat} (hlo : lo' ≤ lo) (hhi : hi ≤ hi')
    (j : Fin (n + 1)) {x : Change} (hx : x ∈ inOrder f σ) :
    (Range.gap (Frame.spans f) lo' hi' j).start ≤ x.range.start ∧
        x.range.stop ≤ (Range.gap (Frame.spans f) lo' hi' j).stop ↔
      9 * j.val - 3 ≤ x.place ∧ x.place < 9 * j.val + 5 := by
  constructor
  · rintro ⟨hstart, hstop⟩
    constructor
    · cases j using Fin.cases with
      | zero => exact Nat.zero_le _
      | succ k =>
        rw [gap_start_succ] at hstart
        by_contra hplace
        have := (range_of_slot h k hx).1 (by rw [Fin.val_succ] at hplace; omega)
        omega
    · cases j using Fin.lastCases with
      | last =>
        obtain ⟨i, -, hx⟩ := mem_all.1 ((inOrder_perm f σ).subset hx)
        have := place_lt h hx
        rw [Fin.val_last]
        omega
      | cast l =>
        rw [gap_stop_castSucc] at hstop
        by_contra hplace
        have := (range_of_slot h l hx).2 (by rw [Fin.val_castSucc] at hplace; omega)
        omega
  · rintro ⟨hlo', hhi'⟩
    obtain ⟨hstart, -, hstop⟩ := fits_of_mem_inOrder h hx
    exact ⟨(gap_start_le h hn hlo j).trans ((h.cuts_mono hlo').trans hstart),
      hstop.trans ((h.cuts_mono hhi').trans (le_gap_stop hhi j))⟩

end Places

end Change

/-! ### The text of a gap -/

/-- The text of a range after those of some edits that lie in it. -/
def Edit.rewrittenIn (text : Text) (es : List Edit) (r : Range) : Text :=
  rewritten text r.start r.stop ((inOrder es).filter fun e =>
    decide (r.start ≤ e.range.start ∧ e.range.stop ≤ r.stop))

/-- The edits of a rearrangement that lie in a gap are the changes of the gap. -/
lemma Container.WellFormed.rewrittenIn_gap {src : Source} {c : Container} {opening closing : Token}
    (h : c.WellFormed src opening closing) (hn : 0 < c.entries.length)
    (σ : Fin c.entries.length → Fin c.entries.length) (j : Fin (c.entries.length + 1)) :
    Edit.rewrittenIn src.text ((Change.all (frames src c) σ).map (Change.edit src))
        (c.gap opening closing j) =
      Edit.rewritten src.text (c.gap opening closing j).start (c.gap opening closing j).stop
        ((Change.gapPart (frames src c) σ j).map (Change.edit src)) := by
  rw [Edit.rewrittenIn, ← Change.map_edit_inOrder, List.filter_map, Change.gapPart, Change.between]
  refine congrArg (fun xs => Edit.rewritten _ _ _ (List.map (Change.edit src) xs))
    (List.filter_congr fun x hx => ?_)
  have hiff := Change.within_gap_iff h.sequence hn h.opening_le (h.closing_le hn) j hx
  rw [Bool.eq_iff_iff]
  simp only [Function.comp_apply, decide_eq_true_eq, Bool.and_eq_true]
  exact hiff

end KeyOrder
