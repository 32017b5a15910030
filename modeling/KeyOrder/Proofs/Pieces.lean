import KeyOrder.Proofs.Weaving

/-!
# The pieces of a gap

A gap that a rearrangement has rewritten is made of pieces.  Some are parts of the old gap that are
kept, others are comments brought from another gap or line breaks; parts of the old gap that are
dropped leave nothing.  The kept and the dropped parts together are the old gap, what is dropped is
brought to one other gap, and none of this concerns code, so the new gap holds the code of the old
one.
-/

namespace KeyOrder

/-- What a rewritten gap is made of. -/
inductive Piece where
  | kept (range : Range)
  /-- A part of the old gap that is not in the new one. -/
  | dropped (range : Range)
  | brought (range : Range)
  | lineBreak
deriving Repr, DecidableEq

namespace Piece

/-- The text of a piece. -/
def text (src : Source) : Piece → Text
  | kept r => src.slice r
  | dropped _ => []
  | brought r => src.slice r
  | lineBreak => ['\n']

/-- The code in a piece. -/
def code (src : Source) : Piece → List Token
  | kept r => src.codeBetween r.start r.stop
  | dropped _ => []
  | brought r => src.codeBetween r.start r.stop
  | lineBreak => []

/-- The part of the old gap that a piece stands for. -/
def own? : Piece → Option Range
  | kept r => some r
  | dropped r => some r
  | _ => none

def dropped? : Piece → Option Range
  | dropped r => some r
  | _ => none

def brought? : Piece → Option Range
  | brought r => some r
  | _ => none

end Piece

/-- Ranges that follow one another from an offset to another one, without holes. -/
def Range.Tile (lo hi : Nat) : List Range → Prop
  | [] => lo = hi
  | r :: rs => r.start = lo ∧ r.start ≤ r.stop ∧ Tile r.stop hi rs

/-- The pieces of all gaps around ranges, after comments have moved from gap to gap. -/
structure Rebuilt {n : Nat} (src : Source) (gap : Fin (n + 1) → Range)
    (pieces : Fin (n + 1) → List Piece) : Prop where
  /-- A gap is made of its kept and its dropped parts. -/
  tile : ∀ j, Range.Tile (gap j).start (gap j).stop ((pieces j).filterMap Piece.own?)
  /-- The pieces hold the code of the gap. -/
  code : ∀ j, (pieces j).flatMap (Piece.code src) = src.codeBetween (gap j).start (gap j).stop
  /-- Only comments are dropped. -/
  comments : ∀ j r, .dropped r ∈ pieces j → src.Comments r
  /-- What is brought to a gap comes from another one. -/
  elsewhere : ∀ j r, .brought r ∈ pieces j → ∃ k, k ≠ j ∧ .dropped r ∈ pieces k
  /-- What is dropped is brought to a gap once. -/
  once : ((List.finRange (n + 1)).flatMap fun j => (pieces j).filterMap Piece.brought?).Perm
    ((List.finRange (n + 1)).flatMap fun j => (pieces j).filterMap Piece.dropped?)

namespace Change

/-! ### From changes to pieces -/

/-- The piece that a change makes. -/
def piece (x : Change) : Piece :=
  match x.fill with
  | .nothing => .dropped x.range
  | .lineBreak => .lineBreak
  | .taken r => .brought r

/-- The pieces between two offsets, given the changes there in order. -/
def pieces (lo hi : Nat) : List Change → List Piece
  | [] => [.kept ⟨lo, hi⟩]
  | x :: xs => .kept ⟨lo, x.range.start⟩ :: x.piece :: pieces x.range.stop hi xs

/-- A change that leaves code alone: it takes out only what has no code in it, or puts in something
without code where no code is. -/
structure Harmless (src : Source) (x : Change) : Prop where
  codeFree : src.CodeFree x.range
  empty : x.fill ≠ .nothing → x.range.start = x.range.stop
  taken : ∀ r, x.fill = .taken r → src.CodeFree r

lemma text_piece (src : Source) (x : Change) : x.piece.text src = x.fill.text src := by
  unfold piece
  cases x.fill <;> rfl

lemma text_pieces (src : Source) (lo hi : Nat) (xs : List Change) :
    (pieces lo hi xs).flatMap (Piece.text src) =
      Edit.rewritten src.text lo hi (xs.map (edit src)) := by
  induction xs generalizing lo with
  | nil => exact List.append_nil _
  | cons x xs ih =>
    rw [pieces, List.flatMap_cons, List.flatMap_cons, ih, text_piece, List.map_cons,
      Edit.rewritten, List.append_assoc]
    rfl

lemma mem_pieces {lo hi : Nat} {xs : List Change} {p : Piece} (hp : ∀ r, p ≠ .kept r) :
    p ∈ pieces lo hi xs ↔ ∃ x ∈ xs, x.piece = p := by
  induction xs generalizing lo with
  | nil => simp [pieces, hp]
  | cons x xs ih =>
    simp only [pieces, List.mem_cons, hp, ih, false_or, exists_eq_or_imp]
    exact or_congr_left eq_comm

lemma filterMap_pieces {β : Type} {g : Piece → Option β} (hg : ∀ r, g (.kept r) = none)
    (lo hi : Nat) (xs : List Change) :
    (pieces lo hi xs).filterMap g = xs.filterMap fun x => g x.piece := by
  induction xs generalizing lo with
  | nil => simp [pieces, hg]
  | cons x xs ih =>
    rw [pieces, List.filterMap_cons_none (hg _), List.filterMap_cons, List.filterMap_cons, ih]

lemma tile_pieces {src : Source} {lo hi : Nat} {xs : List Change}
    (h : Edit.Chain lo hi (xs.map (edit src))) (hxs : ∀ x ∈ xs, Harmless src x) :
    Range.Tile lo hi ((pieces lo hi xs).filterMap Piece.own?) := by
  induction xs generalizing lo with
  | nil => exact ⟨rfl, h, rfl⟩
  | cons x xs ih =>
    obtain ⟨hlo, hrange, hchain⟩ := h
    have hrest := ih hchain fun y hy => hxs y (List.mem_cons_of_mem _ hy)
    refine ⟨rfl, hlo, ?_⟩
    have hempty := (hxs x (List.mem_cons_self ..)).empty
    cases hfill : x.fill with
    | nothing =>
      simp only [piece, hfill, Piece.own?, List.filterMap_cons]
      exact ⟨rfl, hrange, hrest⟩
    | lineBreak =>
      -- what is put in takes no room in the old gap
      simp only [piece, hfill, Piece.own?, List.filterMap_cons]
      rw [hempty (by simp [hfill])]
      exact hrest
    | taken r =>
      simp only [piece, hfill, Piece.own?, List.filterMap_cons]
      rw [hempty (by simp [hfill])]
      exact hrest

lemma code_piece {src : Source} (hsrc : src.Ordered) {x : Change} (hx : Harmless src x) :
    x.piece.code src = [] := by
  unfold piece
  cases hfill : x.fill with
  | nothing => rfl
  | lineBreak => rfl
  | taken r => exact hsrc.codeBetween_of_codeFree (hx.taken r hfill)

/-- Harmless changes keep the code. -/
lemma code_pieces {src : Source} (hsrc : src.Ordered) {lo hi : Nat} {xs : List Change}
    (h : Edit.Chain lo hi (xs.map (edit src))) (hxs : ∀ x ∈ xs, Harmless src x) :
    (pieces lo hi xs).flatMap (Piece.code src) = src.codeBetween lo hi := by
  induction xs generalizing lo with
  | nil => exact List.append_nil _
  | cons x xs ih =>
    obtain ⟨hlo, hrange, hchain⟩ : lo ≤ x.range.start ∧ x.range.start ≤ x.range.stop ∧
      Edit.Chain x.range.stop hi (xs.map (edit src)) := h
    have hx := hxs x (List.mem_cons_self ..)
    have hrest := ih hchain fun y hy => hxs y (List.mem_cons_of_mem _ hy)
    have hstart : src.CodeFree ⟨x.range.start, x.range.start⟩ := fun t ht hcode =>
      (hx.codeFree t ht hcode).imp_right (Nat.le_trans hrange)
    have hstop : src.CodeFree ⟨x.range.stop, x.range.stop⟩ := fun t ht hcode =>
      (hx.codeFree t ht hcode).imp_left fun hle => Nat.le_trans hle hrange
    rw [pieces, List.flatMap_cons, List.flatMap_cons, code_piece hsrc hx, hrest,
      hsrc.codeBetween_append hlo (Nat.le_trans hrange hchain.le) hstart,
      hsrc.codeBetween_append hrange hchain.le hstop, hsrc.codeBetween_of_codeFree hx.codeFree]
    rfl

/-! ### The changes in the gaps -/

section Gaps

variable {n : Nat} {f : Fin n → Frame} {σ : Fin n → Fin n}

/-- The changes in a gap move comments. -/
lemma exists_of_mem_gapPart {j : Fin (n + 1)} {x : Change} (hx : x ∈ gapPart f σ j) :
    ∃ i, σ i ≠ i ∧ (x ∈ leads f i (σ i) ∨ x ∈ trails f i (σ i)) := by
  obtain ⟨hx, hlo, hhi⟩ := mem_between.1 hx
  obtain ⟨i, hi, hx⟩ := mem_all.1 ((inOrder_perm f σ).subset hx)
  rcases mem_moved.1 hx with rfl | hx
  · simp only [entry] at hlo hhi
    omega
  · exact ⟨i, hi, hx⟩

lemma mem_gapPart {i : Fin n} (hi : σ i ≠ i) {x : Change} (hx : x ∈ moved f i (σ i))
    {j : Fin (n + 1)} (hlo : 9 * j.val ≤ x.place + 3) (hhi : x.place < 9 * j.val + 5) :
    x ∈ gapPart f σ j :=
  mem_between.2 ⟨(inOrder_perm f σ).symm.subset (mem_all.2 ⟨i, hi, hx⟩), by omega, hhi⟩

/-- Whether the place of a change is in a gap. -/
def inGap (x : Change) : Bool := x.place % 9 != 5

lemma inGap_of_mem {i a : Fin n} {x : Change} (hx : x ∈ leads f i a ∨ x ∈ trails f i a) :
    x.inGap = true := by
  rw [inGap, bne_iff_ne]
  rcases hx with hx | hx
  · have := place_of_mem_leads hx
    omega
  · rcases place_of_mem_trails hx with ⟨hx, -⟩ | hx | ⟨o, -, rfl⟩
    · omega
    · omega
    · have := breakPlace_cases f i o
      simp only [trailBreak]
      omega

lemma filter_inGap_moved (i a : Fin n) :
    (moved f i a).filter inGap = leads f i a ++ trails f i a := by
  have hentry : (entry f i a).inGap = false := by
    simp only [inGap, entry, bne_eq_false_iff_eq]
    omega
  rw [moved, List.cons_append, List.filter_cons_of_neg (by simp [hentry])]
  exact List.filter_eq_self.2 fun x hx => inGap_of_mem (List.mem_append.1 hx)

/-- All changes in gaps. -/
lemma flatMap_gapPart_perm {lo hi : Nat} (h : Frame.Sequence f lo hi)
    (hσ : Function.Injective σ) :
    ((List.finRange (n + 1)).flatMap (gapPart f σ)).Perm ((all f σ).filter inGap) := by
  have hnodup : (inOrder f σ).Nodup :=
    (pairwise_place_inOrder h hσ).imp fun {x y} hlt (heq : x = y) =>
      Nat.ne_of_lt hlt (congrArg place heq)
  refine (List.perm_ext_iff_of_nodup ?_ ?_).2 fun x => ?_
  · -- no place is in two gaps
    refine List.nodup_flatMap.2 ⟨fun j _ => hnodup.filter _, ?_⟩
    refine (List.nodup_finRange _).imp fun {j k} hjk x hj hk => hjk (Fin.ext ?_)
    obtain ⟨-, hjlo, hjhi⟩ := mem_between.1 hj
    obtain ⟨-, hklo, hkhi⟩ := mem_between.1 hk
    omega
  · exact ((inOrder_perm f σ).nodup_iff.1 hnodup).filter _
  · simp only [List.mem_flatMap, List.mem_finRange, true_and, List.mem_filter, mem_all]
    constructor
    · rintro ⟨j, hx⟩
      obtain ⟨i, hi, hx⟩ := exists_of_mem_gapPart hx
      exact ⟨⟨i, hi, mem_moved.2 (.inr hx)⟩, inGap_of_mem hx⟩
    · -- every place but those of the entries is in one
      rintro ⟨⟨i, hi, hx⟩, hgap⟩
      have hlt := place_lt h hx
      rw [inGap, bne_iff_ne] at hgap
      exact ⟨⟨(x.place + 3) / 9, by omega⟩, mem_gapPart hi hx (by simp only; omega)
        (by simp only; omega)⟩

/-- The comments that leave an entry are those that come to a slot. -/
lemma brought_eq_dropped (i a : Fin n) :
    ((leads f i a ++ trails f i a).filterMap fun x => x.piece.brought?) =
      (leads f i a ++ trails f i a).filterMap fun x => x.piece.dropped? := by
  have hleads : ((leads f i a).filterMap fun x => x.piece.brought?) =
      (leads f i a).filterMap fun x => x.piece.dropped? := by
    unfold leads
    split
    · split <;> rfl
    · rfl
  have htrails : ((trails f i a).filterMap fun x => x.piece.brought?) =
      (trails f i a).filterMap fun x => x.piece.dropped? := by
    unfold trails
    split
    · cases (f i).break? <;> rfl
    · rfl
  rw [List.filterMap_append, List.filterMap_append, hleads, htrails]

/-- What leaves the gaps comes to the gaps. -/
lemma brought_perm_dropped {lo hi : Nat} (h : Frame.Sequence f lo hi)
    (hσ : Function.Injective σ) :
    ((List.finRange (n + 1)).flatMap fun j =>
        (gapPart f σ j).filterMap fun x => x.piece.brought?).Perm
      ((List.finRange (n + 1)).flatMap fun j =>
        (gapPart f σ j).filterMap fun x => x.piece.dropped?) := by
  have hslots : (((all f σ).filter inGap).filterMap fun x => x.piece.brought?) =
      ((all f σ).filter inGap).filterMap fun x => x.piece.dropped? := by
    rw [all, List.filter_flatMap, List.filterMap_flatMap, List.filterMap_flatMap]
    refine List.flatMap_congr ?_
    intro i _
    unfold atSlot
    split
    · rfl
    · rw [filter_inGap_moved, brought_eq_dropped]
  have hperm := flatMap_gapPart_perm h hσ
  have hbrought := hperm.filterMap fun x => x.piece.brought?
  rw [hslots] at hbrought
  have hdropped := hperm.filterMap fun x => x.piece.dropped?
  rw [List.filterMap_flatMap] at hbrought hdropped
  exact hbrought.trans hdropped.symm

/-- What comes to a gap leaves another one. -/
lemma exists_dropped_of_brought {j : Fin (n + 1)} {x : Change} (hx : x ∈ gapPart f σ j)
    {r : Range} (hr : x.piece = .brought r) :
    ∃ k, k ≠ j ∧ ∃ y ∈ gapPart f σ k, y.piece = .dropped r := by
  obtain ⟨-, hlo, hhi⟩ := mem_between.1 hx
  obtain ⟨i, hi, hx⟩ := exists_of_mem_gapPart hx
  have hne : (σ i).val ≠ i.val := fun heq => hi (Fin.ext heq)
  rcases hx with hx | hx
  · obtain ⟨hlead, rfl | rfl | ⟨-, rfl⟩⟩ := mem_leads.1 hx
    · cases hr
    · -- comments above an entry come from the gap before it
      refine ⟨(σ i).castSucc, fun heq => hne ?_, leadOut f (σ i), mem_gapPart hi
        (mem_moved.2 (.inr (.inl (mem_leads.2 ⟨hlead, .inl rfl⟩)))) ?_ ?_, ?_⟩
      · have := congrArg Fin.val heq
        simp only [leadIn, Fin.val_castSucc] at this hlo hhi
        omega
      · simp only [leadOut, Fin.val_castSucc]
        omega
      · simp only [leadOut, Fin.val_castSucc]
        omega
      · cases hr
        rfl
    · cases hr
  · obtain ⟨htrail, rfl | rfl | ⟨o, -, rfl⟩⟩ := mem_trails.1 hx
    · cases hr
    · -- comments that trail an entry come from the gap after it
      refine ⟨(σ i).succ, fun heq => hne ?_, trailOut f (σ i), mem_gapPart hi
        (mem_moved.2 (.inr (.inr (mem_trails.2 ⟨htrail, .inl rfl⟩)))) ?_ ?_, ?_⟩
      · have := congrArg Fin.val heq
        simp only [trailIn, Fin.val_succ] at this hlo hhi
        omega
      · simp only [trailOut, Fin.val_succ]
        omega
      · simp only [trailOut, Fin.val_succ]
        omega
      · cases hr
        rfl
    · cases hr

end Gaps

end Change

end KeyOrder
