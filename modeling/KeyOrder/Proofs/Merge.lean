import KeyOrder.Edit
import KeyOrder.Proofs.Outcome
import KeyOrder.Proofs.Sorting

/-!
# Merging edits

Edits that follow one another without overlapping can be merged.  The merged edit does what the
edits do one by one, and between two offsets that enclose them all it can be described piece by
piece: the text that they leave alone and their own texts, in turn.
-/

namespace KeyOrder

/-! ### Parts of a text -/

namespace Text

variable (text : Text) {a b c : Nat}

lemma slice_append_slice (hab : a ≤ b) (hbc : b ≤ c) :
    text.slice a b ++ text.slice b c = text.slice a c := by
  unfold slice
  rw [show c - a = (b - a) + (c - b) by omega, List.take_add, List.drop_drop,
    show a + (b - a) = b by omega]

lemma take_append_slice (hab : a ≤ b) : text.take a ++ text.slice a b = text.take b := by
  unfold slice
  rw [← List.take_add, show a + (b - a) = b by omega]

lemma slice_append_drop (hab : a ≤ b) : text.slice a b ++ text.drop b = text.drop a := by
  unfold slice
  have hdrop : text.drop b = (text.drop a).drop (b - a) := by
    rw [List.drop_drop, show a + (b - a) = b by omega]
  rw [hdrop, List.take_append_drop]

@[simp] lemma slice_self (a : Nat) : text.slice a a = [] := by simp [slice]

lemma slice_length (a : Nat) : text.slice a text.length = text.drop a :=
  List.take_of_length_le (Nat.le_of_eq List.length_drop)

end Text

/-! ### Ranges in order -/

namespace Range

lemma le_iff {a b : Range} :
    a.le b = true ↔ a.start < b.start ∨ a.start = b.start ∧ a.stop ≤ b.stop := by
  simp [le]

lemma le_trans (a b c : Range) (hab : a.le b = true) (hbc : b.le c = true) : a.le c = true := by
  rw [le_iff] at *
  omega

lemma le_total (a b : Range) : (a.le b || b.le a) = true := by
  rw [Bool.or_eq_true, le_iff, le_iff]
  omega

lemma le_antisymm {a b : Range} (hab : a.le b = true) (hba : b.le a = true) : a = b := by
  rw [le_iff] at *
  obtain ⟨start, stop⟩ := a
  obtain ⟨start', stop'⟩ := b
  simp only [mk.injEq] at *
  omega

end Range

namespace Edit

/-! ### Edits in order -/

lemma inOrder_eq_mergeSort (es : List Edit) :
    inOrder es = es.mergeSort fun a b => a.range.le b.range :=
  sort_eq_mergeSort _ es

lemma inOrder_perm (es : List Edit) : (inOrder es).Perm es := by
  rw [inOrder_eq_mergeSort]
  exact List.mergeSort_perm _ _

lemma pairwise_inOrder (es : List Edit) :
    (inOrder es).Pairwise fun e f => e.range.le f.range = true := by
  rw [inOrder_eq_mergeSort]
  exact List.pairwise_mergeSort (fun a b c => Range.le_trans a.range b.range c.range)
    (fun a b => Range.le_total a.range b.range) es

/-! ### Edits that follow one another -/

/-- Edits between two offsets, none of which starts before the end of the one before it. -/
def Chain (lo hi : Nat) : List Edit → Prop
  | [] => lo ≤ hi
  | e :: es => lo ≤ e.range.start ∧ e.range.start ≤ e.range.stop ∧ Chain e.range.stop hi es

/-- The text between two offsets after edits that follow one another. -/
def rewritten (text : Text) (lo hi : Nat) : List Edit → Text
  | [] => text.slice lo hi
  | e :: es => text.slice lo e.range.start ++ e.text ++ rewritten text e.range.stop hi es

lemma Chain.le {lo hi : Nat} {es : List Edit} (h : Chain lo hi es) : lo ≤ hi := by
  induction es generalizing lo with
  | nil => exact h
  | cons e es ih =>
    obtain ⟨hlo, hrange, hchain⟩ := h
    exact Nat.le_trans hlo (Nat.le_trans hrange (ih hchain))

lemma Chain.mem_le {lo hi : Nat} {es : List Edit} (h : Chain lo hi es) {e : Edit}
    (he : e ∈ es) :
    lo ≤ e.range.start ∧ e.range.start ≤ e.range.stop ∧ e.range.stop ≤ hi := by
  induction es generalizing lo with
  | nil => exact absurd he List.not_mem_nil
  | cons e' es ih =>
    obtain ⟨hlo, hrange, hchain⟩ := h
    rcases List.mem_cons.1 he with rfl | he
    · exact ⟨hlo, hrange, hchain.le⟩
    · obtain ⟨hstart, hrest⟩ := ih hchain he
      exact ⟨by omega, hrest⟩

lemma Chain.mono {lo lo' hi : Nat} {es : List Edit} (hlo : lo ≤ lo') (h : Chain lo' hi es) :
    Chain lo hi es := by
  cases es with
  | nil => exact Nat.le_trans hlo h
  | cons e es => exact ⟨Nat.le_trans hlo h.1, h.2⟩

lemma Chain.mono_right {lo hi hi' : Nat} {es : List Edit} (hhi : hi ≤ hi') (h : Chain lo hi es) :
    Chain lo hi' es := by
  induction es generalizing lo with
  | nil => exact Nat.le_trans h hhi
  | cons e es ih => exact ⟨h.1, h.2.1, ih h.2.2⟩

lemma Chain.append {lo mid hi : Nat} {es es' : List Edit} (h : Chain lo mid es)
    (h' : Chain mid hi es') : Chain lo hi (es ++ es') := by
  induction es generalizing lo with
  | nil => exact h'.mono h
  | cons e es ih => exact ⟨h.1, h.2.1, ih h.2.2⟩

lemma rewritten_of_le (text : Text) {lo mid hi : Nat} {es : List Edit} (hlo : lo ≤ mid)
    (h : Chain mid hi es) :
    rewritten text lo hi es = text.slice lo mid ++ rewritten text mid hi es := by
  cases es with
  | nil => exact (text.slice_append_slice hlo h).symm
  | cons e es =>
    rw [rewritten, rewritten, ← text.slice_append_slice hlo h.1]
    simp only [List.append_assoc]

lemma rewritten_append (text : Text) {lo mid hi : Nat} {es es' : List Edit}
    (h : Chain lo mid es) (h' : Chain mid hi es') :
    rewritten text lo hi (es ++ es') = rewritten text lo mid es ++ rewritten text mid hi es' := by
  induction es generalizing lo with
  | nil => exact rewritten_of_le text h h'
  | cons e es ih =>
    rw [List.cons_append, rewritten, rewritten, ih h.2.2]
    simp only [List.append_assoc]

/-! ### Merging -/

lemma mergeFrom_of_chain (text : Text) {lo hi : Nat} {es : List Edit} (h : Chain lo hi es) :
    ∃ t stop, mergeFrom text lo es = .ok (t, stop) ∧ lo ≤ stop ∧ stop ≤ hi ∧
      t ++ text.slice stop hi = rewritten text lo hi es := by
  induction es generalizing lo with
  | nil => exact ⟨[], lo, rfl, Nat.le_refl _, h, rfl⟩
  | cons e es ih =>
    obtain ⟨hlo, hrange, hchain⟩ := h
    obtain ⟨t, stop, hmerge, hstop, hhi, ht⟩ := ih hchain
    refine ⟨text.slice lo e.range.start ++ e.text ++ t, stop, ?_, by omega, hhi, ?_⟩
    · rw [mergeFrom, if_neg (by omega), hmerge]
      rfl
    · rw [rewritten, ← ht]
      simp only [List.append_assoc]

/-- Edits that follow one another in the order of their ranges can be merged, and the merged edit
rewrites the text between any two offsets around them. -/
lemma merge_of_chain (text : Text) {lo hi : Nat} {es : List Edit} (hne : es ≠ [])
    (h : Chain lo hi (inOrder es)) :
    ∃ m, merge es text = .ok m ∧
      (lo ≤ m.range.start ∧ m.range.start ≤ m.range.stop ∧ m.range.stop ≤ hi) ∧
      m.apply text = text.take lo ++ rewritten text lo hi (inOrder es) ++ text.drop hi := by
  have hlength : (inOrder es).length = es.length := (inOrder_perm es).length_eq
  cases hes : inOrder es with
  | nil =>
    rw [hes] at hlength
    exact absurd (List.length_eq_zero_iff.1 hlength.symm) hne
  | cons e rest =>
    rw [hes] at h
    have hstart : Chain e.range.start hi (e :: rest) := ⟨Nat.le_refl _, h.2⟩
    obtain ⟨t, stop, hmerge, hstop, hhi, ht⟩ := mergeFrom_of_chain text hstart
    refine ⟨⟨⟨e.range.start, stop⟩, t⟩, ?_, ⟨h.1, hstop, hhi⟩, ?_⟩
    · rw [merge, hes]
      dsimp only
      rw [hmerge]
      rfl
    · -- the offsets may lie further out than the edit; there the text is left alone
      rw [rewritten_of_le text h.1 hstart, ← ht, apply, ← text.slice_append_drop hhi,
        ← text.take_append_slice h.1]
      simp only [List.append_assoc]

/-! ### What could be merged -/

/-- Edits that could be merged follow one another, when none ends before it starts. -/
lemma chain_of_mergeFrom {text : Text} {last stop : Nat} {es : List Edit} {t : Text}
    (hes : ∀ e ∈ es, e.range.start ≤ e.range.stop)
    (h : mergeFrom text last es = .ok (t, stop)) :
    Chain last stop es ∧ t = rewritten text last stop es := by
  induction es generalizing last t with
  | nil =>
    cases h
    exact ⟨Nat.le_refl _, (text.slice_self _).symm⟩
  | cons e es ih =>
    rw [mergeFrom] at h
    split at h
    · cases h
    · rename_i hlast
      obtain ⟨⟨rest, stop'⟩, hrest, h⟩ := Outcome.bind_eq_ok.1 h
      cases h
      obtain ⟨hchain, rfl⟩ := ih (fun e' he' => hes e' (List.mem_cons_of_mem _ he')) hrest
      exact ⟨⟨by omega, hes e (List.mem_cons_self ..), hchain⟩, rfl⟩

lemma chain_of_merge {text : Text} {es : List Edit} {m : Edit}
    (hes : ∀ e ∈ es, e.range.start ≤ e.range.stop) (h : merge es text = .ok m) :
    Chain m.range.start m.range.stop (inOrder es) ∧
      m.text = rewritten text m.range.start m.range.stop (inOrder es) := by
  have hmem : ∀ e ∈ inOrder es, e.range.start ≤ e.range.stop := fun e he =>
    hes e ((inOrder_perm es).subset he)
  unfold merge at h
  split at h
  · cases h
  · rename_i e rest hsorted
    obtain ⟨⟨t, stop⟩, hmerge, h⟩ := Outcome.bind_eq_ok.1 h
    cases h
    rw [hsorted] at hmem ⊢
    exact chain_of_mergeFrom hmem hmerge

lemma exists_stop_of_mergeFrom {text rest : Text} {last stop : Nat} {e : Edit} {es : List Edit}
    (h : mergeFrom text last (e :: es) = .ok (rest, stop)) :
    ∃ d ∈ e :: es, d.range.stop = stop := by
  induction es generalizing e last rest with
  | nil =>
    rw [mergeFrom] at h
    split at h
    · cases h
    · cases h
      exact ⟨e, List.mem_cons_self .., rfl⟩
  | cons e' es ih =>
    rw [mergeFrom] at h
    split at h
    · cases h
    · obtain ⟨⟨rest', stop'⟩, hrest, h⟩ := Outcome.bind_eq_ok.1 h
      cases h
      obtain ⟨d, hd, hstop⟩ := ih hrest
      exact ⟨d, List.mem_cons_of_mem _ hd, hstop⟩

/-- A merged edit starts where one of its edits starts and ends where one of them ends. -/
lemma exists_ends_of_merge {text : Text} {es : List Edit} {m : Edit} (h : merge es text = .ok m) :
    (∃ e ∈ es, e.range.start = m.range.start) ∧ ∃ e ∈ es, e.range.stop = m.range.stop := by
  have hperm := inOrder_perm es
  unfold merge at h
  split at h
  · cases h
  · rename_i e rest hes
    obtain ⟨⟨t, stop⟩, hmerge, h⟩ := Outcome.bind_eq_ok.1 h
    cases h
    rw [hes] at hperm
    obtain ⟨d, hd, hstop⟩ := exists_stop_of_mergeFrom hmerge
    exact ⟨⟨e, hperm.subset (List.mem_cons_self ..), rfl⟩, d, hperm.subset hd, hstop⟩

end Edit

end KeyOrder
