import KeyOrder.Proofs.Changes

/-!
# Gaps and entries in turn

A container reads: a gap, an entry, a gap, an entry, and so on to the last gap, the brackets being
part of the first gap and of the last one.  The places of changes fall into stretches in the same
way, so the text after a rearrangement is again made of gaps and entries in turn: each gap is
rewritten by the changes of its own stretch, and each slot holds the entry that goes there.
-/

namespace KeyOrder

/-- Gaps and entries in turn. -/
def weave {n : Nat} (gap : Fin (n + 1) → Text) (entry : Fin n → Text) : Text :=
  ((List.finRange n).flatMap fun i => gap i.castSucc ++ entry i) ++ gap (Fin.last n)

/-- The gaps around ranges that follow one another, from the offset `lo` to the offset `hi`. -/
def Range.gap {n : Nat} (r : Fin n → Range) (lo hi : Nat) (j : Fin (n + 1)) : Range where
  start := if h : j.val = 0 then lo else (r ⟨j.val - 1, by omega⟩).stop
  stop := if h : j.val < n then (r ⟨j.val, h⟩).start else hi

/-- The ranges of the entries of frames. -/
def Frame.spans {n : Nat} (f : Fin n → Frame) (i : Fin n) : Range := ⟨(f i).start, (f i).stop⟩

namespace Change

/-! ### Stretches of places -/

/-- The changes with places in a stretch. -/
def between (a b : Nat) (xs : List Change) : List Change :=
  xs.filter fun x => decide (a ≤ x.place) && decide (x.place < b)

lemma mem_between {a b : Nat} {xs : List Change} {x : Change} :
    x ∈ between a b xs ↔ x ∈ xs ∧ a ≤ x.place ∧ x.place < b := by
  simp [between]

lemma between_self (a : Nat) (xs : List Change) : between a a xs = [] := by
  refine List.eq_nil_iff_forall_not_mem.2 ?_
  intro x hx
  obtain ⟨-, hle, hlt⟩ := mem_between.1 hx
  omega

lemma between_eq_self {b : Nat} {xs : List Change} (h : ∀ x ∈ xs, x.place < b) :
    between 0 b xs = xs :=
  List.filter_eq_self.2 fun x hx => by simp [h x hx]

/-- Changes in order of their places fall into stretches. -/
lemma between_append {xs : List Change} (h : xs.Pairwise fun x y => x.place < y.place)
    {a b c : Nat} (hab : a ≤ b) (hbc : b ≤ c) :
    between a c xs = between a b xs ++ between b c xs := by
  refine filter_eq_append (h.imp fun {x y} hxy hx => ?_) (fun x _ => ?_) fun x _ hx => ?_
  · simp only [Bool.and_eq_true, decide_eq_true_eq] at hx
    simp only [Bool.and_eq_false_iff, decide_eq_false_iff_not]
    omega
  · rw [Bool.eq_iff_iff]
    simp only [Bool.or_eq_true, Bool.and_eq_true, decide_eq_true_eq]
    omega
  · simp only [Bool.and_eq_true, decide_eq_true_eq] at hx
    simp only [Bool.and_eq_false_iff, decide_eq_false_iff_not]
    omega

/-- The changes in a gap. -/
def gapPart {n : Nat} (f : Fin n → Frame) (σ : Fin n → Fin n) (j : Fin (n + 1)) : List Change :=
  between (9 * j.val - 3) (9 * j.val + 5) (inOrder f σ)

/-- The changes at an entry. -/
def entryPart {n : Nat} (f : Fin n → Frame) (σ : Fin n → Fin n) (i : Fin n) : List Change :=
  between (9 * i.val + 5) (9 * i.val + 6) (inOrder f σ)

section Parts

variable {n : Nat} {f : Fin n → Frame} {lo hi : Nat} (h : Frame.Sequence f lo hi)
  {σ : Fin n → Fin n} (hσ : Function.Injective σ)

/-- Only the replacement of an entry has the place of the entry. -/
lemma eq_entry_of_place {i : Fin n} {x : Change} (hx : x ∈ inOrder f σ)
    (hplace : x.place = 9 * i.val + 5) : σ i ≠ i ∧ x = entry f i (σ i) := by
  obtain ⟨k, hk, hx⟩ := mem_all.1 ((inOrder_perm f σ).subset hx)
  rcases mem_moved.1 hx with rfl | hx' | hx'
  · obtain rfl : k = i := Fin.ext (by simp only [entry] at hplace; omega)
    exact ⟨hk, rfl⟩
  · have := place_of_mem_leads hx'
    omega
  · rcases place_of_mem_trails hx' with ⟨hx', -⟩ | hx' | ⟨o, -, rfl⟩
    · omega
    · omega
    · have := breakPlace_cases f k o
      simp only [trailBreak] at hplace
      omega

include h hσ

/-- At an entry there is at most its replacement. -/
lemma entryPart_eq (i : Fin n) :
    entryPart f σ i = if σ i = i then [] else [entry f i (σ i)] := by
  have hmem : ∀ x ∈ entryPart f σ i, σ i ≠ i ∧ x = entry f i (σ i) := by
    intro x hx
    obtain ⟨hx, hlo, hhi⟩ := mem_between.1 hx
    exact eq_entry_of_place hx (by omega)
  split
  · rename_i hi'
    exact List.eq_nil_iff_forall_not_mem.2 fun x hx => (hmem x hx).1 hi'
  · rename_i hi'
    have hentry : entry f i (σ i) ∈ entryPart f σ i := by
      refine mem_between.2 ⟨(inOrder_perm f σ).symm.subset (mem_all.2 ⟨i, hi', ?_⟩), ?_⟩
      · exact mem_moved.2 (.inl rfl)
      · simp only [entry]
        omega
    have hplaces : (entryPart f σ i).Pairwise fun x y => x.place < y.place :=
      (pairwise_place_inOrder h hσ).filter _
    obtain ⟨x, rest, hpart⟩ := List.exists_cons_of_ne_nil (List.ne_nil_of_mem hentry)
    rw [hpart] at hmem hplaces
    have hx := (hmem x (List.mem_cons_self ..)).2
    -- a second change would have the same place
    have hrest : rest = [] := by
      refine List.eq_nil_iff_forall_not_mem.2 ?_
      intro y hy
      have hlt := (List.pairwise_cons.1 hplaces).1 y hy
      rw [hx, (hmem y (List.mem_cons_of_mem _ hy)).2] at hlt
      exact absurd hlt (Nat.lt_irrefl _)
    rw [hpart, hx, hrest]

lemma chain_between (src : Source) {a b : Nat} (hab : a ≤ b) :
    Edit.Chain (Frame.cuts f hi a) (Frame.cuts f hi b)
      ((between a b (inOrder f σ)).map (edit src)) := by
  refine chain_of_places h src hab (fun x hx => ?_) ((pairwise_place_inOrder h hσ).filter _)
    (fun x hx => (mem_between.1 hx).2.1) (fun x hx => (mem_between.1 hx).2.2)
  exact fits_of_mem_inOrder h (mem_between.1 hx).1

/-- A slot holds the entry that goes there. -/
lemma rewritten_entryPart (src : Source) (i : Fin n) :
    Edit.rewritten src.text (f i).start (f i).stop ((entryPart f σ i).map (edit src)) =
      src.slice (Frame.spans f (σ i)) := by
  rw [entryPart_eq h hσ i]
  split
  · rename_i hi'
    rw [hi']
    rfl
  · simp only [List.map_cons, List.map_nil, Edit.rewritten, edit, entry, Text.slice_self,
      List.nil_append, List.append_nil]
    rfl

lemma chain_entryPart (src : Source) (i : Fin n) :
    Edit.Chain (f i).start (f i).stop ((entryPart f σ i).map (edit src)) := by
  have hchain := chain_between h hσ src (Nat.le_succ (9 * i.val + 5))
  rwa [Frame.cuts_eq f hi i (by omega), Frame.cuts_eq f hi i (r := 6) (by omega)] at hchain

end Parts

/-! ### The text after a rearrangement -/

section Weave

variable {n : Nat} {f : Fin n → Frame} {lo hi lo' hi' : Nat}

lemma gap_stop_castSucc (i : Fin n) :
    (Range.gap (Frame.spans f) lo' hi' i.castSucc).stop = (f i).start :=
  dif_pos i.isLt

lemma gap_start_succ (i : Fin n) :
    (Range.gap (Frame.spans f) lo' hi' i.succ).start = (f i).stop := by
  simp [Range.gap, Frame.spans]

lemma gap_stop_last : (Range.gap (Frame.spans f) lo' hi' (Fin.last n)).stop = hi' := by
  simp [Range.gap]

variable (h : Frame.Sequence f lo hi) (hn : 0 < n) (hlo : lo' ≤ lo) (hhi : hi ≤ hi')
  {σ : Fin n → Fin n} (hσ : Function.Injective σ)

include h hn hlo in
lemma gap_start_le (j : Fin (n + 1)) :
    (Range.gap (Frame.spans f) lo' hi' j).start ≤ Frame.cuts f hi (9 * j.val - 3) := by
  cases j using Fin.cases with
  | zero => exact Nat.le_trans hlo (h.le_cuts_zero hn)
  | succ i =>
    rw [gap_start_succ, Fin.val_succ, show 9 * (i.val + 1) - 3 = 9 * i.val + 6 by omega,
      Frame.cuts_eq f hi i (by omega)]
    exact Nat.le_refl _

include hhi in
lemma le_gap_stop (j : Fin (n + 1)) :
    Frame.cuts f hi (9 * j.val + 5) ≤ (Range.gap (Frame.spans f) lo' hi' j).stop := by
  cases j using Fin.lastCases with
  | last =>
    rw [gap_stop_last, Fin.val_last, Frame.cuts_of_le f hi (by omega)]
    exact hhi
  | cast i =>
    rw [gap_stop_castSucc, Fin.val_castSucc, Frame.cuts_eq f hi i (by omega)]
    exact Nat.le_refl _

include h hn hlo hhi hσ

lemma chain_gapPart (src : Source) (j : Fin (n + 1)) :
    Edit.Chain (Range.gap (Frame.spans f) lo' hi' j).start
      (Range.gap (Frame.spans f) lo' hi' j).stop ((gapPart f σ j).map (edit src)) :=
  ((chain_between h hσ src (by omega)).mono (gap_start_le h hn hlo j)).mono_right
    (le_gap_stop hhi j)

/-- The text from the first gap up to another one, and that its changes stay there. -/
lemma rewritten_up_to (src : Source) {k : Nat} (hk : k < n + 1) :
    Edit.Chain lo' (Range.gap (Frame.spans f) lo' hi' ⟨k, hk⟩).start
        ((between 0 (9 * k - 3) (inOrder f σ)).map (edit src)) ∧
      Edit.rewritten src.text lo' (Range.gap (Frame.spans f) lo' hi' ⟨k, hk⟩).start
          ((between 0 (9 * k - 3) (inOrder f σ)).map (edit src)) =
        ((List.finRange n).take k).flatMap fun i =>
          Edit.rewritten src.text (Range.gap (Frame.spans f) lo' hi' i.castSucc).start
            (Range.gap (Frame.spans f) lo' hi' i.castSucc).stop
            ((gapPart f σ i.castSucc).map (edit src)) ++
          src.slice (Frame.spans f (σ i)) := by
  induction k with
  | zero =>
    have hstart : (Range.gap (Frame.spans f) lo' hi' ⟨0, hk⟩).start = lo' := by
      simp [Range.gap]
    rw [hstart, between_self]
    exact ⟨Nat.le_refl _, Text.slice_self _ _⟩
  | succ k ih =>
    -- one more gap, and the entry after it
    have hk' : k < n := by omega
    obtain ⟨hchain, htext⟩ := ih (by omega)
    rw [show (⟨k, by omega⟩ : Fin (n + 1)) = (⟨k, hk'⟩ : Fin n).castSucc by rfl] at hchain htext
    have hgap := chain_gapPart h hn hlo hhi hσ src (⟨k, hk'⟩ : Fin n).castSucc
    have hentry := chain_entryPart h hσ src ⟨k, hk'⟩
    rw [gap_stop_castSucc] at hgap
    have hsplit : between 0 (9 * (k + 1) - 3) (inOrder f σ) =
        between 0 (9 * k - 3) (inOrder f σ) ++
          (gapPart f σ (⟨k, hk'⟩ : Fin n).castSucc ++ entryPart f σ ⟨k, hk'⟩) := by
      have hplaces := pairwise_place_inOrder h hσ
      have hhead := between_append hplaces (Nat.zero_le (9 * k - 3)) (c := 9 * k + 6) (by omega)
      have htail := between_append hplaces (a := 9 * k - 3) (b := 9 * k + 5) (c := 9 * k + 6)
        (by omega) (by omega)
      rw [show 9 * (k + 1) - 3 = 9 * k + 6 by omega, hhead, htail]
      rfl
    have hnext : (Range.gap (Frame.spans f) lo' hi' ⟨k + 1, hk⟩).start = (f ⟨k, hk'⟩).stop :=
      gap_start_succ ⟨k, hk'⟩
    rw [hsplit, hnext, List.map_append, List.map_append]
    refine ⟨hchain.append (hgap.append hentry), ?_⟩
    rw [Edit.rewritten_append _ hchain (hgap.append hentry),
      Edit.rewritten_append _ hgap hentry, htext, rewritten_entryPart h hσ src,
      List.take_succ_eq_append_getElem (by simpa using hk'), List.flatMap_append,
      List.getElem_finRange]
    simp only [List.flatMap_cons, List.flatMap_nil, List.append_nil, gap_stop_castSucc]
    rfl

/-- **The text after a rearrangement** is made of gaps, each rewritten by the changes in it, and of
the entries in their new order. -/
lemma rewritten_eq_weave (src : Source) :
    Edit.rewritten src.text lo' hi' ((inOrder f σ).map (edit src)) =
      weave
        (fun j => Edit.rewritten src.text (Range.gap (Frame.spans f) lo' hi' j).start
          (Range.gap (Frame.spans f) lo' hi' j).stop ((gapPart f σ j).map (edit src)))
        (fun i => src.slice (Frame.spans f (σ i))) := by
  have hplaces := pairwise_place_inOrder h hσ
  have hall : between 0 (9 * n + 5) (inOrder f σ) = inOrder f σ := by
    refine between_eq_self ?_
    intro x hx
    obtain ⟨i, -, hx⟩ := mem_all.1 ((inOrder_perm f σ).subset hx)
    have := place_lt h hx
    omega
  -- what is left after the last entry is the last gap
  have hsplit : inOrder f σ =
      between 0 (9 * n - 3) (inOrder f σ) ++ gapPart f σ (Fin.last n) := by
    conv => lhs; rw [← hall]
    exact between_append hplaces (Nat.zero_le _) (by omega)
  obtain ⟨hchain, htext⟩ := rewritten_up_to h hn hlo hhi hσ src (Nat.lt_succ_self n)
  have hlast := chain_gapPart h hn hlo hhi hσ src (Fin.last n)
  rw [gap_stop_last] at hlast
  have hwhole := Edit.rewritten_append src.text hchain hlast
  rw [← List.map_append, ← hsplit, htext, List.take_of_length_le (by simp)] at hwhole
  rw [hwhole, weave, gap_stop_last]
  rfl

end Weave

end Change

end KeyOrder
