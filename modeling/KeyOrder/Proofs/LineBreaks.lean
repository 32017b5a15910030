import KeyOrder.Proofs.Stretch

/-!
# No comment swallows code

A comment runs to the end of its line, so in every gap a line break has to stand between a comment
and the code after it.  The guards of a relocation look at the lines of the old text only, while the
comments land in a gap that other changes rewrite as well.  What the changes leave alone of the last
stretch of a gap, and what they bring there, settles it.
-/

namespace KeyOrder

/-! ### What edits leave alone -/

/-- What stands in a range that no edit touches stays. -/
lemma Edit.mem_rewritten {text : Text} {lo hi p q : Nat} {es : List Edit} (h : Chain lo hi es)
    (hp : lo ≤ p) (hpq : p ≤ q) (hq : q ≤ hi)
    (hes : ∀ e ∈ es, e.range.stop ≤ p ∨ q ≤ e.range.start) {ch : Char}
    (hch : ch ∈ text.slice p q) : ch ∈ rewritten text lo hi es := by
  induction es generalizing lo with
  | nil =>
    rw [rewritten, ← text.slice_append_slice hp (Nat.le_trans hpq hq),
      ← text.slice_append_slice hpq hq]
    exact List.mem_append_right _ (List.mem_append_left _ hch)
  | cons e es ih =>
    obtain ⟨hlo, hrange, hchain⟩ := h
    rw [rewritten]
    rcases hes e (List.mem_cons_self ..) with hstop | hstart
    · exact List.mem_append_right _
        (ih hchain hstop fun e' he' => hes e' (List.mem_cons_of_mem _ he'))
    · refine List.mem_append_left _ (List.mem_append_left _ ?_)
      rw [← text.slice_append_slice hp (Nat.le_trans hpq hstart),
        ← text.slice_append_slice hpq hstart]
      exact List.mem_append_right _ (List.mem_append_left _ hch)

lemma Edit.mem_rewritten_of_mem {text : Text} {lo hi : Nat} {es : List Edit} {e : Edit}
    (he : e ∈ es) {ch : Char} (hch : ch ∈ e.text) : ch ∈ rewritten text lo hi es := by
  induction es generalizing lo with
  | nil => exact absurd he List.not_mem_nil
  | cons e' es ih =>
    rw [rewritten]
    rcases List.mem_cons.1 he with rfl | he
    · exact List.mem_append_left _ (List.mem_append_right _ hch)
    · exact List.mem_append_right _ (ih he)

/-- The code from an offset on starts with the first token that is code. -/
lemma Source.Ordered.codeBetween_eq_cons {src : Source} (h : src.Ordered) {lo hi : Nat} {t : Token}
    (ht : t ∈ src.tokens.toList) (hcode : t.isComment = false) (hlo : lo ≤ t.range.start)
    (hhi : t.range.stop ≤ hi) (hfree : src.CodeFree ⟨lo, t.range.start⟩) :
    ∃ ts, src.codeBetween lo hi = t :: ts := by
  refine List.head?_eq_some_iff.1 ((head?_eq_some_iff (h.pairwise_codeBetween lo hi)).2
    ⟨Source.mem_codeBetween.2 ⟨ht, hcode, hlo, hhi⟩, fun u hu => ?_⟩)
  obtain ⟨hu, hucode, hulo, -⟩ := Source.mem_codeBetween.1 hu
  have hnonempty := h.nonempty u hu
  have hafter : t.range.start ≤ u.range.start := by
    have := hfree u hu hucode
    simp only at this
    omega
  rcases h.trichotomy hu ht with rfl | ⟨-, hut, -⟩ | htu
  · exact .inl rfl
  · omega
  · exact .inr htu

/-! ### Comments in pieces -/

namespace Piece

/-- The part of the old text that a piece shows. -/
def shown? : Piece → Option Range
  | kept r => some r
  | brought r => some r
  | _ => none

/-- The text of pieces up to the first code in them, and all of it when there is none. -/
def untilCode (src : Source) : List Piece → Text
  | [] => []
  | p :: ps =>
    match p.shown?, p.code src with
    | some r, t :: _ => src.slice ⟨r.start, t.range.start⟩
    | _, _ => p.text src ++ untilCode src ps

lemma untilCode_of_code_nil {src : Source} {p : Piece} (hp : p.code src = []) (ps : List Piece) :
    untilCode src (p :: ps) = p.text src ++ untilCode src ps := by
  rw [untilCode, hp]
  split <;> simp_all

lemma untilCode_kept_of_code {src : Source} {r : Range} {t : Token} {ts : List Token}
    (h : src.codeBetween r.start r.stop = t :: ts) (ps : List Piece) :
    untilCode src (.kept r :: ps) = src.slice ⟨r.start, t.range.start⟩ := by
  simp only [untilCode, shown?, code, h]

end Piece

/-- In the new gaps no comment is cut or lost, and between a comment and the next code there is a
line break.  An entry follows directly where a gap ends without code. -/
structure Closed {n : Nat} (src : Source) (gap : Fin (n + 1) → Range)
    (pieces : Fin (n + 1) → List Piece) : Prop where
  whole : ∀ j, ∀ t ∈ src.tokens.toList, t.isComment = true → t.Within (gap j) →
    ∃ k, ∃ p ∈ pieces k, ∃ r, p.shown? = some r ∧ t.Within r
  ended : ∀ j before p after, pieces j = before ++ p :: after → ∀ r, p.shown? = some r →
    ∀ t ∈ src.tokens.toList, t.isComment = true → t.Within r →
      '\n' ∈ Piece.untilCode src (.kept ⟨t.range.stop, r.stop⟩ :: after)

namespace Change

/-- A piece of a gap is a kept part between two changes or what a change makes. -/
lemma pieces_eq_append {src : Source} {lo e hi : Nat} {xs : List Change}
    (h : Edit.Chain lo e (xs.map (edit src))) {before after : List Piece} {p : Piece}
    (hp : pieces lo hi xs = before ++ p :: after) :
    (∃ ys zs r, xs = ys ++ zs ∧ p = .kept r ∧ lo ≤ r.start ∧
        (r.stop = hi ∨ ∃ z ∈ zs, r.stop = z.range.start) ∧
        ∀ a, a ≤ r.stop → a ≤ e → Edit.Chain a e (zs.map (edit src)) ∧
          .kept ⟨a, r.stop⟩ :: after = pieces a hi zs) ∨
      ∃ ys x zs, xs = ys ++ x :: zs ∧ p = x.piece ∧ Edit.Chain x.range.stop e (zs.map (edit src)) ∧
        after = pieces x.range.stop hi zs := by
  induction xs generalizing lo before with
  | nil =>
    rw [pieces] at hp
    obtain ⟨rfl, hp⟩ | ⟨_, hp, _⟩ := List.cons_eq_append_iff.1 hp
    · cases hp
      exact .inl ⟨[], [], ⟨lo, hi⟩, rfl, rfl, Nat.le_refl _, .inl rfl, fun a _ ha => ⟨ha, rfl⟩⟩
    · simp_all
  | cons x xs ih =>
    obtain ⟨hlo, hrange, hchain⟩ : lo ≤ x.range.start ∧ x.range.start ≤ x.range.stop ∧
      Edit.Chain x.range.stop e (xs.map (edit src)) := h
    rw [pieces] at hp
    rcases before with _ | ⟨q, _ | ⟨q', before⟩⟩
    · cases hp
      exact .inl ⟨[], x :: xs, _, rfl, rfl, Nat.le_refl _, .inr ⟨x, List.mem_cons_self .., rfl⟩,
        fun a ha _ => ⟨⟨ha, hrange, hchain⟩, rfl⟩⟩
    · cases hp
      exact .inr ⟨[], x, xs, rfl, rfl, hchain, rfl⟩
    · simp only [List.cons_append, List.cons.injEq] at hp
      rcases ih hchain hp.2.2 with ⟨ys, zs, r, rfl, rfl, hr, hstop, hzs⟩ |
        ⟨ys, y, zs, rfl, rfl, hzs, hafter⟩
      · exact .inl ⟨x :: ys, zs, r, rfl, rfl, by omega, hstop, hzs⟩
      · exact .inr ⟨x :: ys, y, zs, rfl, rfl, hzs, hafter⟩

/-- Up to the next code, pieces hold what the changes make of the text. -/
lemma untilCode_pieces {src : Source} (hsrc : src.Ordered) {a e hi : Nat} {xs : List Change}
    (h : Edit.Chain a e (xs.map (edit src))) (hxs : ∀ x ∈ xs, Harmless src x)
    (hfree : src.CodeFree ⟨a, e⟩)
    (hend : hi = e ∨ ∃ t ∈ src.tokens.toList, t.isComment = false ∧ t.range = ⟨e, hi⟩) :
    Piece.untilCode src (pieces a hi xs) = Edit.rewritten src.text a e (xs.map (edit src)) := by
  induction xs generalizing a with
  | nil =>
    rcases hend with rfl | ⟨t, ht, hcode, hrange⟩
    · have hkept : (Piece.kept ⟨a, hi⟩).code src = [] := hsrc.codeBetween_of_codeFree hfree
      rw [pieces, Piece.untilCode_of_code_nil hkept]
      exact List.append_nil _
    · -- the next code is the token at the end
      obtain ⟨rfl, rfl⟩ : t.range.start = e ∧ t.range.stop = hi := by simp [hrange]
      obtain ⟨ts, hts⟩ := hsrc.codeBetween_eq_cons ht hcode h (Nat.le_refl _) hfree
      rw [pieces, Piece.untilCode_kept_of_code hts]
      rfl
  | cons x xs ih =>
    obtain ⟨hlo, hrange, hchain⟩ : a ≤ x.range.start ∧ x.range.start ≤ x.range.stop ∧
      Edit.Chain x.range.stop e (xs.map (edit src)) := h
    have hx := hxs x (List.mem_cons_self ..)
    have hkept : (Piece.kept ⟨a, x.range.start⟩).code src = [] := by
      refine hsrc.codeBetween_of_codeFree fun t ht hcode => ?_
      exact (hfree t ht hcode).imp_right fun he => Nat.le_trans (Nat.le_trans hrange hchain.le) he
    have hlater : src.CodeFree ⟨x.range.stop, e⟩ := fun t ht hcode =>
      (hfree t ht hcode).imp_left fun ha => Nat.le_trans ha (Nat.le_trans hlo hrange)
    rw [pieces, Piece.untilCode_of_code_nil hkept,
      Piece.untilCode_of_code_nil (code_piece hsrc hx), text_piece,
      ih hchain (fun y hy => hxs y (List.mem_cons_of_mem _ hy)) hlater, List.map_cons,
      Edit.rewritten, List.append_assoc]
    rfl

/-- A token that no change cuts stands in a part of the old gap as a whole. -/
lemma exists_own_of_within {src : Source} {lo hi : Nat} {xs : List Change}
    (h : Edit.Chain lo hi (xs.map (edit src))) (hxs : ∀ x ∈ xs, Harmless src x) {t : Token}
    (hnonempty : t.range.start < t.range.stop) (ht : t.Within ⟨lo, hi⟩)
    (hcut : ∀ x ∈ xs, (t.range.stop ≤ x.range.start ∨ x.range.start ≤ t.range.start) ∧
      (t.range.stop ≤ x.range.stop ∨ x.range.stop ≤ t.range.start)) :
    ∃ p ∈ pieces lo hi xs, ∃ r, p.own? = some r ∧ t.Within r := by
  induction xs generalizing lo with
  | nil => exact ⟨.kept ⟨lo, hi⟩, List.mem_singleton_self _, _, rfl, ht⟩
  | cons x xs ih =>
    obtain ⟨hlo, hrange, hchain⟩ : lo ≤ x.range.start ∧ x.range.start ≤ x.range.stop ∧
      Edit.Chain x.range.stop hi (xs.map (edit src)) := h
    obtain ⟨hstart, hstop⟩ := hcut x (List.mem_cons_self ..)
    rw [pieces]
    rcases hstart with hstart | hstart
    · exact ⟨.kept ⟨lo, x.range.start⟩, List.mem_cons_self .., _, rfl, ht.1, hstart⟩
    · rcases hstop with hstop | hstop
      · -- inside what the change takes out
        have hfill : x.fill = .nothing := by
          by_contra hfill
          have := (hxs x (List.mem_cons_self ..)).empty hfill
          omega
        refine ⟨x.piece, List.mem_cons_of_mem _ (List.mem_cons_self ..), x.range, ?_, hstart, hstop⟩
        simp only [piece, hfill, Piece.own?]
      · obtain ⟨p, hp, r, hr, htr⟩ := ih hchain (fun y hy => hxs y (List.mem_cons_of_mem _ hy))
          ⟨hstop, ht.2⟩ fun y hy => hcut y (List.mem_cons_of_mem _ hy)
        exact ⟨p, List.mem_cons_of_mem _ (List.mem_cons_of_mem _ hp), r, hr, htr⟩

end Change

/-- An offset that lies in no token. -/
def Source.Boundary (src : Source) (o : Nat) : Prop :=
  ∀ t ∈ src.tokens.toList, t.range.stop ≤ o ∨ o ≤ t.range.start

namespace Container.WellFormed

variable {src : Source} {c : Container} {opening closing : Token}
  (h : c.WellFormed src opening closing)

include h

/-! ### Line breaks between comments and code -/

section Ended

variable (hbreak : src.BreakFree) {σ : Fin c.entries.length → Fin c.entries.length}
  {j : Fin (c.entries.length + 1)} {s : Range}
  (hat : Frame.StretchAt (frames src c) closing.range.start j s) (hs : src.Stretch s)

include hbreak hat hs

/-- A line break follows a comment that the gap keeps. -/
lemma ended_kept {ys zs : List Change}
    (hsplit : Change.gapPart (frames src c) σ j = ys ++ zs) {t : Token}
    (ht : t ∈ src.tokens.toList) (hcomment : t.isComment = true)
    (hstart : s.start ≤ t.range.start) (hstop : t.range.stop ≤ s.stop)
    (hchain : Edit.Chain t.range.stop s.stop (zs.map (Change.edit src))) :
    '\n' ∈ Edit.rewritten src.text t.range.stop s.stop (zs.map (Change.edit src)) := by
  have hnonempty := h.tokens.nonempty t ht
  rcases h.stretch_cases hbreak hs with ⟨p, hp⟩ | hbare
  · refine Edit.mem_rewritten hchain (hp.comments t ht hcomment hstart (by omega)) hp.le_stop
      (Nat.le_refl _) (fun e he => ?_) hp.lineBreak
    obtain ⟨z, hz, rfl⟩ := List.mem_map.1 he
    have hmem : z ∈ Change.gapPart (frames src c) σ j := by
      rw [hsplit]
      exact List.mem_append_right _ hz
    exact (h.apart_of_endsAt hat hs hmem hp).imp_right And.left
  · have := hbare.comments t ht hcomment hstart
    omega

/-- A line break follows comments that are brought to the gap. -/
lemma ended_brought (hσ : Function.Injective σ) {ys zs : List Change} {x : Change}
    (hsplit : Change.gapPart (frames src c) σ j = ys ++ x :: zs) {r : Range}
    (hr : x.fill = .taken r)
    (hchain : Edit.Chain x.range.stop s.stop (zs.map (Change.edit src))) :
    '\n' ∈ Edit.rewritten src.text x.range.stop s.stop (zs.map (Change.edit src)) := by
  have hmem : ∀ y ∈ x :: zs, y ∈ Change.gapPart (frames src c) σ j := by
    intro y hy
    rw [hsplit]
    exact List.mem_append_right _ hy
  have hx := hmem x (List.mem_cons_self ..)
  rcases h.stretch_cases hbreak hs with ⟨p, hp⟩ | hbare
  · refine Edit.mem_rewritten hchain ?_ hp.le_stop (Nat.le_refl _) (fun e he => ?_) hp.lineBreak
    · refine (h.apart_of_endsAt hat hs hx hp).elim id fun hlater => ?_
      rw [hr] at hlater
      cases hlater.2
    · obtain ⟨z, hz, rfl⟩ := List.mem_map.1 he
      exact (h.apart_of_endsAt hat hs (hmem z (List.mem_cons_of_mem _ hz)) hp).imp_right And.left
  · -- the line break that comes along has a later place
    obtain ⟨y, hy, hlt, hfill⟩ := h.exists_lineBreak_of_bare hat hs hx hbare hr
    have hplaces : (Change.gapPart (frames src c) σ j).Pairwise fun x y => x.place < y.place :=
      (Change.pairwise_place_inOrder h.sequence hσ).filter _
    have hyzs : y ∈ zs := by
      rw [hsplit] at hy hplaces
      rcases List.mem_append.1 hy with hy | hy
      · have := (List.pairwise_append.1 hplaces).2.2 y hy x (List.mem_cons_self ..)
        omega
      · rcases List.mem_cons.1 hy with rfl | hy
        · exact absurd hlt (Nat.lt_irrefl _)
        · exact hy
    refine Edit.mem_rewritten_of_mem (List.mem_map_of_mem hyzs) ?_
    simp only [Change.edit, hfill, Fill.text]
    exact List.mem_cons_self ..

end Ended

/-- In a new gap a line break stands between a comment and the next code. -/
lemma ended (hbreak : src.BreakFree) (hn : 0 < c.entries.length)
    {σ : Fin c.entries.length → Fin c.entries.length} (hσ : Function.Injective σ)
    {j : Fin (c.entries.length + 1)} {before after : List Piece} {p : Piece}
    (hp : pieces src c opening closing σ j = before ++ p :: after) {r : Range}
    (hr : p.shown? = some r) {t : Token} (ht : t ∈ src.tokens.toList)
    (hcomment : t.isComment = true) (hwithin : t.Within r) :
    '\n' ∈ Piece.untilCode src (.kept ⟨t.range.stop, r.stop⟩ :: after) := by
  obtain ⟨s, hat, hs⟩ := h.exists_stretch hn j
  have hchain := h.chain_stretch hat hn hσ
  have hharmless : ∀ x ∈ Change.gapPart (frames src c) σ j, x.Harmless src :=
    fun x => h.harmless_of_mem_gapPart
  have hgapstop := h.gap_stop_cases hat hn
  rcases Change.pieces_eq_append hchain hp with ⟨ys, zs, r', hsplit, rfl, hlo, hstop, hzs⟩ |
    ⟨ys, x, zs, hsplit, rfl, hzs, rfl⟩
  · -- a part of the gap that is kept
    cases hr
    have hzs' : ∀ z ∈ zs, z ∈ Change.gapPart (frames src c) σ j := fun z hz => by
      rw [hsplit]
      exact List.mem_append_right _ hz
    obtain ⟨hsr, hrgap⟩ : s.start ≤ r.stop ∧ r.stop ≤ (c.gap opening closing j).stop := by
      have hle := h.stretch_stop_le hat hn
      have := hs.le
      rcases hstop with hstop | ⟨z, hz, hstop⟩
      · omega
      · obtain ⟨-, hzrange, hzstop⟩ := hchain.mem_le (List.mem_map_of_mem (hzs' z hz))
        have := h.start_le_of_mem_gapPart hat (hzs' z hz)
        simp only [Change.edit] at hzrange hzstop
        omega
    obtain ⟨hrstart, hrstop⟩ := hwithin
    rcases h.comment_cases hat hs hn ht hcomment ⟨by omega, by omega⟩ with
      ⟨htstart, htstop⟩ | ⟨d, hd, hcode, hds, htd, hfree⟩
    · obtain ⟨hzchain, hpieces⟩ := hzs t.range.stop hrstop htstop
      rw [hpieces, Change.untilCode_pieces h.tokens hzchain
        (fun z hz => hharmless z (hzs' z hz)) ?_ hgapstop]
      · exact h.ended_kept hbreak hat hs hsplit ht hcomment htstart htstop hzchain
      · intro u hu hucode
        have hnonempty := h.tokens.nonempty t ht
        exact (hs.codeFree u hu hucode).imp_left fun hle => by simp only; omega
    · -- the next code is the comma
      obtain ⟨ts, hts⟩ : ∃ ts, src.codeBetween t.range.stop r.stop = d :: ts :=
        h.tokens.codeBetween_eq_cons hd hcode htd (by omega) hfree
      rw [Piece.untilCode_kept_of_code hts]
      exact h.lineBreak_after hbreak ht hcomment hd htd
  · -- comments from another gap
    have hx : x ∈ Change.gapPart (frames src c) σ j := by simp [hsplit]
    have hfill : x.fill = .taken r := by
      unfold Change.piece at hr
      cases hfill : x.fill <;> simp_all [Piece.shown?]
    have hnone : (Piece.kept ⟨t.range.stop, r.stop⟩).code src = [] := by
      refine h.tokens.codeBetween_of_codeFree fun u hu hucode => ?_
      have hnonempty := h.tokens.nonempty t ht
      have := hwithin.1
      exact ((hharmless x hx).taken r hfill u hu hucode).imp_left fun hle => by simp only; omega
    have hzs' : ∀ z ∈ zs, z ∈ Change.gapPart (frames src c) σ j := fun z hz => by
      rw [hsplit]
      exact List.mem_append_right _ (List.mem_cons_of_mem _ hz)
    rw [Piece.untilCode_of_code_nil hnone, Change.untilCode_pieces h.tokens hzs
      (fun z hz => hharmless z (hzs' z hz)) ?_ hgapstop]
    · exact List.mem_append_right _ (h.ended_brought hbreak hat hs hσ hsplit hfill hzs)
    · intro u hu hucode
      have := h.start_le_of_mem_gapPart hat hx
      have := (hharmless x hx).empty (by simp [hfill])
      exact (hs.codeFree u hu hucode).imp_left fun hle => by simp only; omega

/-! ### No comment is cut -/

section Boundary

variable {e : Entry}

lemma boundary_stop {t : Token} (ht : t ∈ src.tokens.toList) : src.Boundary t.range.stop :=
  fun _ hu => h.tokens.apart_stop ht hu

lemma boundary_start {t : Token} (ht : t ∈ src.tokens.toList) : src.Boundary t.range.start :=
  fun _ hu => h.tokens.apart_start ht hu

lemma boundary_leading (he : e ∈ c.entries) :
    src.Boundary (Frame.of src e).kept ∧ src.Boundary (Frame.of src e).anchor := by
  obtain ⟨before, anchor, hbefore, hanchor⟩ := h.exists_before he
  rw [Frame.of_eq_around hbefore hanchor]
  refine ⟨?_, h.boundary_stop (h.tokens.tokenBefore_eq_some.1 hanchor).1⟩
  rcases Frame.endOf_cases (Relocation.commentsBefore src e before).kept before.range.stop with
    ⟨-, hend⟩ | ⟨t, ht, -, hend⟩
  · simp only [Frame.around, hend]
    exact h.boundary_stop (h.tokens.tokenBefore_eq_some.1 hbefore).1
  · simp only [Frame.around, hend]
    exact h.boundary_stop (h.tokens.mem_commentsBefore.1 (List.mem_filter.1 ht).1).1

lemma boundary_trailing (he : e ∈ c.entries) :
    src.Boundary (Frame.of src e).comma ∧ src.Boundary (Frame.of src e).trail := by
  obtain ⟨-, -, t, ht, hstop⟩ := h.commaAfter_spec he
  have hcomma := h.boundary_stop ht
  rw [hstop] at hcomma
  refine ⟨hcomma, ?_⟩
  rw [Frame.of_trail]
  rcases h.trailing_cases e with ⟨-, hend⟩ | ⟨last, hlast, -, hend, -⟩
  · rwa [hend]
  · rw [hend]
    exact h.boundary_stop (h.mem_trailing hlast).1

end Boundary

/-- The changes of a gap cut no token. -/
lemma boundary_of_mem_gapPart {σ : Fin c.entries.length → Fin c.entries.length}
    {j : Fin (c.entries.length + 1)} {x : Change}
    (hx : x ∈ Change.gapPart (frames src c) σ j) :
    src.Boundary x.range.start ∧ src.Boundary x.range.stop := by
  have hmem : ∀ k, c.entries.get k ∈ c.entries := fun k => List.get_mem ..
  rcases Change.gapPart_cases hx with ⟨k, -, -, rfl⟩ | ⟨k, -, -, -, rfl | rfl⟩ |
    ⟨k, -, -, rfl⟩ | ⟨k, -, -, -, rfl | ⟨o, ho, rfl⟩⟩
  · exact h.boundary_leading (hmem k)
  · exact ⟨(h.boundary_leading (hmem k)).2, (h.boundary_leading (hmem k)).2⟩
  · obtain ⟨-, ⟨first, hfirst, -, hstart⟩, -⟩ := h.aligned _ (hmem k)
    have hboundary := h.boundary_start hfirst
    rw [hstart] at hboundary
    exact ⟨hboundary, hboundary⟩
  · exact h.boundary_trailing (hmem k)
  · exact ⟨(h.boundary_trailing (hmem k)).1, (h.boundary_trailing (hmem k)).1⟩
  · obtain ⟨t, hnext, -, rfl⟩ := Frame.exists_of_mem_break ho
    have hboundary := h.boundary_start (h.tokens.tokenAfter_eq_some.1 hnext).1
    exact ⟨hboundary, hboundary⟩

/-- Every comment of a gap is in some new gap, as a whole. -/
lemma whole (hn : 0 < c.entries.length) {σ : Fin c.entries.length → Fin c.entries.length}
    (hσ : Function.Injective σ) {j : Fin (c.entries.length + 1)} {t : Token}
    (ht : t ∈ src.tokens.toList) (hwithin : t.Within (c.gap opening closing j)) :
    ∃ k, ∃ p ∈ pieces src c opening closing σ k, ∃ r, p.shown? = some r ∧ t.Within r := by
  obtain ⟨p, hp, r, hr, htr⟩ := Change.exists_own_of_within (h.chain_gap hn hσ j)
    (fun x => h.harmless_of_mem_gapPart) (h.tokens.nonempty t ht) hwithin
    fun x hx => ⟨(h.boundary_of_mem_gapPart hx).1 t ht, (h.boundary_of_mem_gapPart hx).2 t ht⟩
  cases p with
  | kept r' =>
    cases hr
    exact ⟨j, _, hp, r, rfl, htr⟩
  | dropped r' =>
    -- what a gap loses another one gets
    cases hr
    have hdropped : r ∈ (List.finRange (c.entries.length + 1)).flatMap fun j =>
        (pieces src c opening closing σ j).filterMap Piece.dropped? :=
      List.mem_flatMap.2 ⟨j, List.mem_finRange j, List.mem_filterMap.2 ⟨_, hp, rfl⟩⟩
    obtain ⟨k, -, hk⟩ := List.mem_flatMap.1 ((h.rebuilt hn hσ).once.symm.subset hdropped)
    obtain ⟨q, hq, hqr⟩ := List.mem_filterMap.1 hk
    obtain rfl : q = .brought r := by
      cases q <;> simp_all [Piece.brought?]
    exact ⟨k, _, hq, r, rfl, htr⟩
  | brought r' => cases hr
  | lineBreak => cases hr

lemma closed (hbreak : src.BreakFree) (hn : 0 < c.entries.length)
    {σ : Fin c.entries.length → Fin c.entries.length} (hσ : Function.Injective σ) :
    Closed src (c.gap opening closing) (pieces src c opening closing σ) where
  whole _ _ ht _ hwithin := h.whole hn hσ ht hwithin
  ended _ _ _ _ hp _ hr _ ht hcomment hwithin :=
    h.ended hbreak hn hσ hp hr ht hcomment hwithin

/-- The changes of a rearrangement can be merged, and they make the text around the container of
pieces and entries. -/
lemma exists_merge {σ : Fin c.entries.length → Fin c.entries.length} (hσ : Function.Injective σ)
    (hne : (Change.all (frames src c) σ).map (Change.edit src) ≠ []) :
    ∃ m, Edit.merge ((Change.all (frames src c) σ).map (Change.edit src)) src.text = .ok m ∧
      m.apply src.text = src.framed opening closing
        (fun j => (pieces src c opening closing σ j).flatMap (Piece.text src))
        fun i => src.slice (c.ranges (σ i)) := by
  have hn := Change.length_pos_of_ne_nil fun hnil => hne (by rw [hnil]; rfl)
  have hchain := Change.chain_inOrder h.sequence src hn hσ
  obtain ⟨m, hm, -, happly⟩ := Edit.merge_of_chain src.text hne
    ((hchain.mono h.opening_le).mono_right (h.closing_le hn))
  refine ⟨m, hm, ?_⟩
  rw [happly, ← Change.map_edit_inOrder, h.rewritten_eq hn hσ, Source.framed]

end Container.WellFormed

/-- **No comment ever swallows code.**  After a fix of a well-formed container every comment that
stood in a gap stands in a gap as a whole, moved or not, and between the end of a comment and the
next character of an entry, of a comma or of a bracket there is a line break.  Tokens never start
with a line break; in a source that is read from a text this is so by
`Source.breakFree_of_read`. -/
theorem fix_keeps_comments_from_code {src : Source} {c : Container} {opening closing : Token}
    (h : c.WellFormed src opening closing) (hbreak : src.BreakFree) {o : Order} {r : Relocator}
    {es : List Edit} (hfix : (r.fix src o c).1 = .ok es) (hne : es ≠ []) :
    ∃ (m : Edit) (σ : Equiv.Perm (Fin c.entries.length))
      (pieces : Fin (c.entries.length + 1) → List Piece),
      Edit.merge es src.text = .ok m ∧ Sorts o c.entries σ ∧
      Rebuilt src (c.gap opening closing) pieces ∧ Closed src (c.gap opening closing) pieces ∧
      m.apply src.text = src.framed opening closing
        (fun j => (pieces j).flatMap (Piece.text src)) fun i => src.slice (c.ranges (σ i)) := by
  obtain ⟨σ, hσ, rfl⟩ := h.exists_sorts (Relocator.edits_of_fix hfix hne)
  have hn := Change.length_pos_of_ne_nil fun hnil => hne (by rw [hnil]; rfl)
  obtain ⟨m, hm, happly⟩ := h.exists_merge σ.injective hne
  exact ⟨m, σ, _, hm, hσ, h.rebuilt hn σ.injective, h.closed hbreak hn σ.injective, happly⟩

/-- In `dict(⏎#y⏎a=2,⏎b=1#x⏎)`, which the fix of `dict(b=1,#x⏎#y⏎a=2)` gives, a line break follows
each of the two comments. -/
theorem fix_keeps_comments_from_code_sample :
    ∃ (es : List Edit) (m : Edit) (σ : Equiv.Perm (Fin 2)) (pieces : Fin 3 → List Piece),
      (Relocator.fresh.fix Sample.source ⟨.ascending, false, false⟩ Sample.call).1 = .ok es ∧
      es ≠ [] ∧ Edit.merge es Sample.source.text = .ok m ∧
      Sorts ⟨.ascending, false, false⟩ Sample.call.entries σ ∧
      Closed Sample.source
        (Sample.call.gap (.make .operator ['('] 4 1 1) (.make .operator [')'] 18 3 3)) pieces ∧
      m.apply Sample.source.text =
        Sample.source.framed (.make .operator ['('] 4 1 1) (.make .operator [')'] 18 3 3)
          (fun j => (pieces j).flatMap (Piece.text Sample.source))
          (fun i => Sample.source.slice (Sample.call.ranges (σ i))) ∧
      m.apply Sample.source.text = ['d', 'i', 'c', 't', '(', '\n', '#', 'y', '\n', 'a', '=', '2',
        ',', '\n', 'b', '=', '1', '#', 'x', '\n', ')'] := by
  obtain ⟨es, hes, hne, htext⟩ := Sample.exists_fixed
  have hbreak : Sample.source.BreakFree := by
    unfold Source.BreakFree
    decide
  obtain ⟨m, σ, pieces, hm, hσ, -, hclosed, happly⟩ :=
    fix_keeps_comments_from_code Sample.wellFormed_call hbreak hes hne
  rw [hm] at htext
  exact ⟨es, m, σ, pieces, hes, hne, hm, hσ, hclosed, happly, Option.some_inj.1 htext⟩

end KeyOrder
