import KeyOrder.Proofs.Rearrangement
import KeyOrder.Proofs.Scanning

/-!
# The last stretch of a gap

All changes of a gap lie in its last stretch, from its comma or opening bracket to the next entry or
to the closing bracket.  Either a line break of the old text follows the last comment of the
stretch, and no change touches it; or the stretch has neither comments nor line breaks, and then
whatever is brought there brings a line break along.
-/

namespace KeyOrder

/-! ### Line breaks of a text -/

lemma mem_take_of_endsLine {rest : Text} {k : Nat} (h : endsLine rest = true)
    (hk : endsLine (rest.drop k) = false) : '\n' ∈ rest.take k := by
  unfold endsLine at h
  split at h
  · simp [endsLine] at hk
  · cases k with
    | zero => simp [endsLine] at hk
    | succ k => simp
  · match k with
    | 0 => simp [endsLine] at hk
    | 1 => simp [endsLine] at hk
    | k + 2 => simp
  · cases h

lemma mem_slice_of_endsLine {text : Text} {a b : Nat} (hab : a ≤ b)
    (ha : endsLine (text.drop a) = true) (hb : endsLine (text.drop b) = false) :
    '\n' ∈ text.slice a b := by
  refine mem_take_of_endsLine ha ?_
  rwa [List.drop_drop, show a + (b - a) = b by omega]

lemma lineOf_eq_of_not_mem {text : Text} {a b : Nat} (hab : a ≤ b)
    (h : '\n' ∉ text.slice a b) :
    (LineIndex.ofText text).lineOf a = (LineIndex.ofText text).lineOf b := by
  rw [lineOf_ofText, lineOf_ofText, ← text.take_append_slice hab, List.count_append,
    List.count_eq_zero.2 h, Nat.add_zero]

/-- A token stands in a range. -/
def Token.Within (t : Token) (r : Range) : Prop :=
  r.start ≤ t.range.start ∧ t.range.stop ≤ r.stop

namespace Change

/-! ### The changes of one gap -/

section Gap

variable {n : Nat} {f : Fin n → Frame} {σ : Fin n → Fin n}

/-- The changes in a gap: those at the slot after it and those at the slot before it. -/
lemma gapPart_cases {j : Fin (n + 1)} {x : Change} (hx : x ∈ gapPart f σ j) :
    (∃ k : Fin n, k.val = j.val ∧ (f k).kept < (f k).anchor ∧ x = leadOut f k) ∨
      (∃ k : Fin n, k.val = j.val ∧ σ k ≠ k ∧ (f (σ k)).kept < (f (σ k)).anchor ∧
        (x = leadIn f k (σ k) ∨ x = leadBreak f k)) ∨
      (∃ k : Fin n, k.val + 1 = j.val ∧ (f k).comma < (f k).trail ∧ x = trailOut f k) ∨
      ∃ k : Fin n, k.val + 1 = j.val ∧ σ k ≠ k ∧ (f (σ k)).comma < (f (σ k)).trail ∧
        (x = trailIn f k (σ k) ∨ ∃ o ∈ (f k).break?, x = trailBreak f k o) := by
  obtain ⟨-, hlo, hhi⟩ := mem_between.1 hx
  obtain ⟨i, hi, hx | hx⟩ := exists_of_mem_gapPart hx
  · obtain ⟨hlead, rfl | rfl | ⟨-, rfl⟩⟩ := mem_leads.1 hx
    · exact .inl ⟨σ i, by simp only [leadOut] at hlo hhi; omega, hlead, rfl⟩
    · exact .inr (.inl ⟨i, by simp only [leadIn] at hlo hhi; omega, hi, hlead, .inl rfl⟩)
    · exact .inr (.inl ⟨i, by simp only [leadBreak] at hlo hhi; omega, hi, hlead, .inr rfl⟩)
  · obtain ⟨htrail, rfl | rfl | ⟨o, ho, rfl⟩⟩ := mem_trails.1 hx
    · exact .inr (.inr (.inl ⟨σ i, by simp only [trailOut] at hlo hhi; omega, htrail, rfl⟩))
    · exact .inr (.inr (.inr ⟨i, by simp only [trailIn] at hlo hhi; omega, hi, htrail, .inl rfl⟩))
    · have hplace := breakPlace_cases f i o
      exact .inr (.inr (.inr ⟨i, by simp only [trailBreak] at hlo hhi; omega, hi, htrail,
        .inr ⟨o, ho, rfl⟩⟩))

/-- Comments come above an entry together with a line break, where one is needed. -/
lemma leadBreak_mem {j : Fin (n + 1)} {k : Fin n} (hk : k.val = j.val) (hσ : σ k ≠ k)
    (hlead : (f (σ k)).kept < (f (σ k)).anchor) (hjoined : (f k).joined = true) :
    leadBreak f k ∈ gapPart f σ j := by
  refine mem_gapPart hσ (mem_moved.2 (.inr (.inl (mem_leads.2 ⟨hlead, .inr (.inr ⟨hjoined, rfl⟩)⟩))))
    ?_ ?_
  · simp only [leadBreak]
    omega
  · simp only [leadBreak]
    omega

/-- Comments come after an entry together with a line break, where one is needed. -/
lemma trailBreak_mem {j : Fin (n + 1)} {k : Fin n} (hk : k.val + 1 = j.val) (hσ : σ k ≠ k)
    (htrail : (f (σ k)).comma < (f (σ k)).trail) {o : Nat} (ho : o ∈ (f k).break?) :
    trailBreak f k o ∈ gapPart f σ j := by
  have hplace := breakPlace_cases f k o
  refine mem_gapPart hσ
    (mem_moved.2 (.inr (.inr (mem_trails.2 ⟨htrail, .inr (.inr ⟨o, ho, rfl⟩)⟩)))) ?_ ?_
  · simp only [trailBreak]
    omega
  · simp only [trailBreak]
    omega

end Gap

end Change

/-! ### The last stretch of a gap -/

/-- A stretch of a source without code, up to the start of code. -/
structure Source.Stretch (src : Source) (s : Range) : Prop where
  le : s.start ≤ s.stop
  codeFree : src.CodeFree s
  next : ∃ t ∈ src.tokens.toList, t.isComment = false ∧ t.range.start = s.stop

/-- After the offset `p` there is a line break and no comment in a stretch. -/
structure Source.EndsAt (src : Source) (s : Range) (p : Nat) : Prop where
  start_le : s.start ≤ p
  le_stop : p ≤ s.stop
  lineBreak : '\n' ∈ src.text.slice p s.stop
  comments : ∀ t ∈ src.tokens.toList, t.isComment = true → s.start ≤ t.range.start →
    t.range.start < s.stop → t.range.stop ≤ p

/-- A stretch with neither comments nor line breaks. -/
structure Source.Bare (src : Source) (s : Range) : Prop where
  oneLine : '\n' ∉ src.text.slice s.start s.stop
  comments : ∀ t ∈ src.tokens.toList, t.isComment = true → s.start ≤ t.range.start →
    s.stop ≤ t.range.start

/-- Where the last stretch of a gap lies: from the code before it to the entry after it, or to the
offset `hi` after the last entry. -/
structure Frame.StretchAt {n : Nat} (f : Fin n → Frame) (hi : Nat) (j : Fin (n + 1)) (s : Range) :
    Prop where
  comma : ∀ k : Fin n, k.val + 1 = j.val → s.start = (f k).comma
  entry : ∀ k : Fin n, k.val = j.val → s.start = (f k).before ∧ s.stop = (f k).start
  last : j.val = n → s.stop = hi

namespace Container.WellFormed

variable {src : Source} {c : Container} {opening closing : Token}
  (h : c.WellFormed src opening closing)

include h

/-- A line break stands between a comment and any later token. -/
lemma lineBreak_after (hbreak : src.BreakFree) {t u : Token} (ht : t ∈ src.tokens.toList)
    (hcomment : t.isComment = true) (hu : u ∈ src.tokens.toList)
    (htu : t.range.stop ≤ u.range.start) :
    '\n' ∈ src.text.slice t.range.stop u.range.start :=
  mem_slice_of_endsLine htu (h.commentsEnd t ht hcomment) (hbreak u hu)

/-- A stretch without a line break after its last comment has neither. -/
lemma stretch_cases (hbreak : src.BreakFree) {s : Range} (hs : src.Stretch s) :
    (∃ p, src.EndsAt s p) ∨ src.Bare s := by
  obtain ⟨next, hnext, -, hnextstart⟩ := hs.next
  by_cases hex : ∃ t ∈ src.tokens.toList, t.isComment = true ∧ s.start ≤ t.range.start ∧
      t.range.start < s.stop
  · -- the last token of the stretch is its last comment
    obtain ⟨t, ht, -, hstart, hlt⟩ := hex
    have hstop : ∀ u ∈ src.tokens.toList, u.range.start < s.stop → u.range.stop ≤ s.stop :=
      fun u hu hlt => by
        have := h.tokens.apart_start hnext hu
        omega
    obtain ⟨last, hlast⟩ : ∃ last, src.tokenBefore true s.stop = some last :=
      h.tokens.exists_tokenBefore ht rfl (hstop t ht hlt)
    obtain ⟨hmem, -, hle, hall⟩ := h.tokens.tokenBefore_eq_some.1 hlast
    have hupto : ∀ u ∈ src.tokens.toList, u.range.start < s.stop →
        u = last ∨ u.Before last := fun u hu hlt => hall u hu rfl (hstop u hu hlt)
    have hnonempty := h.tokens.nonempty last hmem
    have hlaststart : s.start ≤ last.range.start := by
      rcases hupto t ht hlt with rfl | ⟨htt, htl, -⟩
      · exact hstart
      · omega
    have hcomment : last.isComment = true := by
      by_contra hcode
      have := hs.codeFree last hmem (by simpa using hcode)
      omega
    refine .inl ⟨last.range.stop, by omega, hle, ?_, fun u hu _ _ hlt => ?_⟩
    · rw [← hnextstart]
      exact h.lineBreak_after hbreak hmem hcomment hnext (by omega)
    · rcases hupto u hu hlt with rfl | ⟨-, hul, -⟩
      · exact Nat.le_refl _
      · omega
  · have hnone : ∀ t ∈ src.tokens.toList, t.isComment = true → s.start ≤ t.range.start →
        s.stop ≤ t.range.start := fun t ht hcomment hstart =>
      Nat.not_lt.1 fun hlt => hex ⟨t, ht, hcomment, hstart, hlt⟩
    by_cases hline : '\n' ∈ src.text.slice s.start s.stop
    · refine .inl ⟨s.start, Nat.le_refl _, hs.le, hline, fun t ht hcomment hstart hlt => ?_⟩
      exact absurd (hnone t ht hcomment hstart) (Nat.not_le.2 hlt)
    · exact .inr ⟨hline, hnone⟩

/-- Only comments stand between the code before an entry and the entry. -/
lemma stretch_before {e : Entry} (he : e ∈ c.entries) :
    src.Stretch ⟨(Frame.of src e).before, (Frame.of src e).start⟩ := by
  obtain ⟨before, anchor, hbefore, hanchor⟩ := h.exists_before he
  obtain ⟨-, ⟨first, hfirst, hcode, hstart⟩, -⟩ := h.aligned e he
  have hframe := h.frame_ordered he
  refine ⟨?_, fun u hu hucode => ?_, first, hfirst, hcode, hstart⟩
  · exact Nat.le_trans hframe.before_le (Nat.le_trans hframe.kept_le hframe.anchor_le)
  · rw [Frame.of_eq_around hbefore hanchor]
    rcases h.tokens.apart_start hfirst hu with hstop | hstart'
    · rcases (h.tokens.tokenBefore_eq_some.1 hbefore).2.2.2 u hu (by simp [hucode])
        (by omega) with rfl | ⟨-, hub, hbb⟩
      · exact .inl (Nat.le_refl _)
      · exact .inl (Nat.le_trans hub (Nat.le_of_lt hbb))
    · exact .inr (Nat.le_trans (Nat.le_of_eq hstart.symm) hstart')

/-- Only comments stand between the comma after the last entry and the closing bracket. -/
lemma stretch_last {e : Entry} (he : c.entries.getLast? = some e) :
    src.Stretch ⟨(Frame.of src e).comma, closing.range.start⟩ := by
  obtain ⟨hclosing, hcode, hcomma, -⟩ := h.closing_after he
  refine ⟨hcomma, fun u hu hucode => ?_, closing, hclosing, hcode, rfl⟩
  refine (h.codeFree_comma (List.mem_of_getLast? he) u hu hucode).imp_right fun hstart => ?_
  rcases h.tokens.trichotomy hu hclosing with rfl | ⟨-, huc, huc'⟩ | ⟨-, hcu, -⟩
  · exact Nat.le_refl _
  · -- code before the bracket is the comma
    have hcommaAfter := (h.commaAfter_spec (List.mem_of_getLast? he)).1
    have hmem : u ∈ src.codeBetween e.range.stop closing.range.stop :=
      Source.mem_codeBetween.2 ⟨hu, hucode, Nat.le_trans hcommaAfter hstart, by omega⟩
    rcases h.last e he with hlast | ⟨t, hcomma', hlast⟩
    · rw [hlast, List.mem_singleton] at hmem
      rw [hmem]
    · have ht : t ∈ src.codeBetween e.range.stop closing.range.stop := by simp [hlast]
      obtain ⟨htokens, htcode, hlo, -⟩ := Source.mem_codeBetween.1 ht
      have hafter : Relocation.commaAfter src e = (t.range, t.endLine) := by
        rw [Relocation.commaAfter,
          h.tokens.codeAfter_eq_some htokens htcode hlo (h.tokens.codeBetween_start hlast)]
        exact if_pos hcomma'
      rw [Frame.of_comma, hafter] at hstart
      rw [hlast] at hmem
      rcases List.mem_pair.1 hmem with rfl | rfl
      · exact absurd hstart (Nat.not_le.2 (h.tokens.nonempty u hu))
      · exact Nat.le_refl _
  · exact Nat.le_trans (Nat.le_of_lt (h.tokens.nonempty closing hclosing)) hcu

lemma exists_stretch (hn : 0 < c.entries.length) (j : Fin (c.entries.length + 1)) :
    ∃ s, Frame.StretchAt (frames src c) closing.range.start j s ∧ src.Stretch s := by
  by_cases hj : j.val < c.entries.length
  · -- up to an entry
    refine ⟨_, ⟨fun k hk => ?_, fun k hk => ?_, fun hlast => ?_⟩,
      h.stretch_before (List.get_mem c.entries ⟨j.val, hj⟩)⟩
    · exact h.before_eq_comma (infix_of_succ hk)
    · obtain rfl : k = ⟨j.val, hj⟩ := Fin.ext hk
      exact ⟨rfl, rfl⟩
    · omega
  · -- up to the closing bracket
    have hlast : c.entries.getLast? =
        some (c.entries.get ⟨c.entries.length - 1, by omega⟩) := by
      rw [List.getLast?_eq_getElem?, List.get_eq_getElem, List.getElem?_eq_getElem]
    refine ⟨_, ⟨fun k hk => ?_, fun k hk => ?_, fun _ => rfl⟩, h.stretch_last hlast⟩
    · have hk' : k = ⟨c.entries.length - 1, by omega⟩ := Fin.ext (by simp only; omega)
      rw [hk']
      rfl
    · omega

/-! ### Stretches that end with a line break -/

section EndsAt

variable {e : Entry} {s : Range} {p : Nat} (hp : src.EndsAt s p)

include hp

lemma anchor_le_of_endsAt (he : e ∈ c.entries) (hstart : s.start = (Frame.of src e).before)
    (hstop : s.stop = (Frame.of src e).start) : (Frame.of src e).anchor ≤ p := by
  obtain ⟨before, anchor, hbefore, hanchor⟩ := h.exists_before he
  obtain ⟨hmem, -, hle, -⟩ := h.tokens.tokenBefore_eq_some.1 hanchor
  have hnonempty := h.tokens.nonempty anchor hmem
  have hfirst := hp.start_le
  rw [Frame.of_eq_around hbefore hanchor] at hstart hstop ⊢
  simp only [Frame.around] at hstart hstop ⊢
  cases hcomment : anchor.isComment with
  | true =>
    have hbt := (h.before_comment hbefore (h.anchor_mem_comments hanchor hcomment)).1.2.1
    exact hp.comments anchor hmem hcomment (by omega) (by omega)
  | false =>
    rw [h.anchor_eq_before hbefore hanchor hcomment]
    omega

variable (hs : src.Stretch s) (hstart : s.start = (Frame.of src e).comma)

include hs hstart

lemma trail_le_of_endsAt : (Frame.of src e).trail ≤ p := by
  obtain ⟨next, hnext, hcode, hnextstart⟩ := hs.next
  have hle := hs.le
  have hfirst := hp.start_le
  rw [Frame.of_comma] at hstart
  rw [Frame.of_trail]
  rcases h.trailing_cases e with ⟨-, hend⟩ | ⟨last, hlast, -, hend, -⟩
  · rw [hend]
    omega
  · obtain ⟨hmem, hcomment, -, hlo, hbefore⟩ := h.mem_trailing hlast
    obtain ⟨hlt, hnext', -⟩ := hbefore next hnext hcode (by omega)
    rw [hend]
    exact hp.comments last hmem hcomment (by omega) (by omega)

lemma break_of_endsAt (he : e ∈ c.entries) {o : Nat} (ho : o ∈ (Frame.of src e).break?) :
    o ≤ p ∨ s.stop ≤ o := by
  obtain ⟨t, hnext, -, rfl⟩ := Frame.exists_of_mem_break ho
  obtain ⟨hmem, -, hle, -⟩ := h.tokens.tokenAfter_eq_some.1 hnext
  have hnonempty := h.tokens.nonempty t hmem
  have hcomma := (h.frame_ordered he).comma_le
  by_cases hlt : t.range.start < s.stop
  · cases hcomment : t.isComment with
    | true =>
      have := hp.comments t hmem hcomment (by omega) hlt
      exact .inl (by omega)
    | false =>
      have := hs.codeFree t hmem hcomment
      omega
  · exact .inr (by omega)

end EndsAt

/-! ### Stretches without a line break -/

section Bare

variable {e : Entry} (he : e ∈ c.entries) {s : Range} (hbare : src.Bare s)

include he hbare

lemma joined_of_bare (hs : src.Stretch s) (hstart : s.start = (Frame.of src e).before)
    (hstop : s.stop = (Frame.of src e).start) : (Frame.of src e).joined = true := by
  obtain ⟨before, anchor, hbefore, hanchor⟩ := h.exists_before he
  obtain ⟨hmem, -, hle, -⟩ := h.tokens.tokenBefore_eq_some.1 hanchor
  have hnonempty := h.tokens.nonempty anchor hmem
  rw [Frame.of_eq_around hbefore hanchor] at hstart hstop ⊢
  simp only [Frame.around, beq_iff_eq] at hstart hstop ⊢
  have hcode : anchor.isComment = false := by
    by_contra hcomment
    rw [Bool.not_eq_false] at hcomment
    have hbt := (h.before_comment hbefore (h.anchor_mem_comments hanchor hcomment)).1.2.1
    have := hbare.comments anchor hmem hcomment (by omega)
    omega
  rw [(h.tokenLines anchor hmem).2, (h.entryLines e he).1,
    h.anchor_eq_before hbefore hanchor hcode, ← hstart, ← hstop, h.lines]
  exact lineOf_eq_of_not_mem hs.le hbare.oneLine

lemma break_of_bare (hs : src.Stretch s) (hstart : s.start = (Frame.of src e).comma) :
    (Frame.of src e).break? = some s.stop := by
  obtain ⟨next, hnext, hcode, hnextstart⟩ := hs.next
  have hle := hs.le
  obtain ⟨-, hline, -⟩ := h.commaAfter_spec he
  rw [Frame.of_comma] at hstart
  have htrail : (Frame.of src e).trail = s.start := by
    rcases h.trailing_cases e with ⟨-, hend⟩ | ⟨last, hlast, -, -, -⟩
    · rw [Frame.of_trail, hend, hstart]
    · obtain ⟨hmem, hcomment, -, hlo, hbefore⟩ := h.mem_trailing hlast
      have hnext' := hbefore next hnext hcode (by omega)
      have := hbare.comments last hmem hcomment (by omega)
      have := hnext'.1
      have := hnext'.2.1
      omega
  have hafter : src.tokenAfter true s.start = some next := by
    refine h.tokens.tokenAfter_eq_some.2 ⟨hnext, rfl, by omega, fun u hu _ hlo => ?_⟩
    rcases h.tokens.trichotomy hu hnext with rfl | ⟨hlt, hun, -⟩ | hnu
    · exact .inl rfl
    · -- nothing else stands in the stretch
      cases hcomment : u.isComment with
      | true =>
        have := hbare.comments u hu hcomment hlo
        omega
      | false =>
        have := hs.codeFree u hu hcomment
        omega
    · exact .inr hnu
  have hsame : next.startLine = (Relocation.commaAfter src e).2 := by
    rw [(h.tokenLines next hnext).1, hline, ← hstart, hnextstart, h.lines]
    exact (lineOf_eq_of_not_mem hs.le hbare.oneLine).symm
  rw [Frame.of_break, htrail, hafter]
  simp only [hsame, hnextstart, if_true]

end Bare

/-! ### Line breaks after changes -/

section Gap

variable {σ : Fin c.entries.length → Fin c.entries.length} {j : Fin (c.entries.length + 1)}
  {s : Range} (hat : Frame.StretchAt (frames src c) closing.range.start j s)
  (hs : src.Stretch s) {x : Change} (hx : x ∈ Change.gapPart (frames src c) σ j)

include hat hx

/-- All changes of a gap lie in its last stretch. -/
lemma start_le_of_mem_gapPart : s.start ≤ x.range.start := by
  have hframe : ∀ k, (frames src c k).Ordered := h.sequence.ordered
  rcases Change.gapPart_cases hx with ⟨k, hk, -, rfl⟩ | ⟨k, hk, -, -, rfl | rfl⟩ |
    ⟨k, hk, -, rfl⟩ | ⟨k, hk, -, -, rfl | ⟨o, ho, rfl⟩⟩
  · rw [(hat.entry k hk).1]
    exact (hframe k).before_le
  · rw [(hat.entry k hk).1]
    exact Nat.le_trans (hframe k).before_le (hframe k).kept_le
  · rw [(hat.entry k hk).1]
    exact Nat.le_trans (hframe k).before_le (Nat.le_trans (hframe k).kept_le (hframe k).anchor_le)
  · exact Nat.le_of_eq (hat.comma k hk)
  · exact Nat.le_of_eq (hat.comma k hk)
  · rw [hat.comma k hk]
    refine Nat.le_trans (hframe k).comma_le ?_
    obtain ⟨t, hnext, -, rfl⟩ := Frame.exists_of_mem_break ho
    exact (h.tokens.tokenAfter_eq_some.1 hnext).2.2.1

include hs

/-- The line break at the end of a stretch is not touched: only line breaks are put in after it. -/
lemma apart_of_endsAt {p : Nat} (hp : src.EndsAt s p) :
    x.range.stop ≤ p ∨ s.stop ≤ x.range.start ∧ x.fill = .lineBreak := by
  have hmem : ∀ k, c.entries.get k ∈ c.entries := fun k => List.get_mem ..
  have hfirst := hp.start_le
  rcases Change.gapPart_cases hx with ⟨k, hk, -, rfl⟩ | ⟨k, hk, -, -, rfl | rfl⟩ |
    ⟨k, hk, -, rfl⟩ | ⟨k, hk, -, -, rfl | ⟨o, ho, rfl⟩⟩
  · exact .inl (h.anchor_le_of_endsAt hp (hmem k) (hat.entry k hk).1 (hat.entry k hk).2)
  · exact .inl (h.anchor_le_of_endsAt hp (hmem k) (hat.entry k hk).1 (hat.entry k hk).2)
  · exact .inr ⟨Nat.le_of_eq (hat.entry k hk).2, rfl⟩
  · exact .inl (h.trail_le_of_endsAt hp hs (hat.comma k hk))
  · exact .inl (Nat.le_trans (Nat.le_of_eq (hat.comma k hk).symm) hfirst)
  · exact (h.break_of_endsAt hp hs (hat.comma k hk) (hmem k) ho).imp_right fun hle => ⟨hle, rfl⟩

/-- Comments that come to a stretch without a line break bring one along. -/
lemma exists_lineBreak_of_bare (hbare : src.Bare s) {r : Range} (hr : x.fill = .taken r) :
    ∃ y ∈ Change.gapPart (frames src c) σ j, x.place < y.place ∧ y.fill = .lineBreak := by
  have hmem : ∀ k, c.entries.get k ∈ c.entries := fun k => List.get_mem ..
  rcases Change.gapPart_cases hx with ⟨k, hk, -, rfl⟩ | ⟨k, hk, hσ, hlead, rfl | rfl⟩ |
    ⟨k, hk, -, rfl⟩ | ⟨k, hk, hσ, htrail, rfl | ⟨o, ho, rfl⟩⟩
  · cases hr
  · have hjoined := h.joined_of_bare (hmem k) hbare hs (hat.entry k hk).1 (hat.entry k hk).2
    refine ⟨_, Change.leadBreak_mem hk hσ hlead hjoined, ?_, rfl⟩
    simp only [Change.leadIn, Change.leadBreak]
    omega
  · cases hr
  · cases hr
  · have hbreak := h.break_of_bare (hmem k) hbare hs (hat.comma k hk)
    refine ⟨_, Change.trailBreak_mem hk hσ htrail hbreak, ?_, rfl⟩
    have := Change.breakPlace_cases (frames src c) k s.stop
    simp only [Change.trailIn, Change.trailBreak]
    omega
  · cases hr

end Gap

/-! ### Comments in a gap -/

section Comments

/-- A comment between an entry and the end of its comma stands before the comma. -/
lemma exists_comma_after {k : Fin c.entries.length} {t : Token} (ht : t ∈ src.tokens.toList)
    (hcomment : t.isComment = true) (hlo : (c.entries.get k).range.stop ≤ t.range.start)
    (hlt : t.range.start < (frames src c k).comma) :
    ∃ d ∈ src.tokens.toList, d.isComment = false ∧ d.range.stop = (frames src c k).comma ∧
      t.range.stop ≤ d.range.start ∧ src.CodeFree ⟨t.range.stop, d.range.start⟩ := by
  have hnonempty := h.tokens.nonempty t ht
  have hne : ∀ u : Token, u.isComment = false → t ≠ u := by
    rintro u hu rfl
    rw [hu] at hcomment
    cases hcomment
  rw [frames, Frame.of_comma, Relocation.commaAfter] at hlt ⊢
  cases hafter : src.codeAfter (c.entries.get k).range.stop with
  | none =>
    rw [hafter] at hlt
    simp only at hlt
    omega
  | some d =>
    obtain ⟨hd, hcounts, hlod, hall⟩ := h.tokens.tokenAfter_eq_some.1 hafter
    have hcode : d.isComment = false := by simpa using hcounts
    rw [hafter] at hlt
    simp only at hlt ⊢
    split at hlt
    · rename_i hcomma
      rw [if_pos hcomma]
      have htd : t.range.stop ≤ d.range.start := by
        rcases h.tokens.trichotomy ht hd with rfl | ⟨-, htd, -⟩ | ⟨-, hdt, -⟩
        · exact absurd rfl (hne t hcode)
        · exact htd
        · simp only at hlt
          omega
      refine ⟨d, hd, hcode, rfl, htd, fun u hu hucode => ?_⟩
      rcases h.tokens.trichotomy hu ht with rfl | ⟨-, hut, -⟩ | ⟨-, htu, -⟩
      · exact absurd rfl (hne u hucode)
      · exact .inl (by simp only; omega)
      · rcases hall u hu (by simp [hucode]) (by omega) with rfl | ⟨-, hdu, -⟩
        · exact .inr (Nat.le_refl _)
        · have := h.tokens.nonempty d hd
          exact .inr (by simp only; omega)
    · simp only at hlt
      omega

variable {j : Fin (c.entries.length + 1)} {s : Range}
  (hat : Frame.StretchAt (frames src c) closing.range.start j s)

include hat

/-- The last stretch of a gap ends where the gap ends, or at the closing bracket. -/
lemma gap_stop_cases (hn : 0 < c.entries.length) :
    (c.gap opening closing j).stop = s.stop ∨ ∃ t ∈ src.tokens.toList, t.isComment = false ∧
      t.range = ⟨s.stop, (c.gap opening closing j).stop⟩ := by
  by_cases hj : j.val < c.entries.length
  · refine .inl (Eq.trans (dif_pos hj) ?_)
    exact (hat.entry ⟨j.val, hj⟩ rfl).2.symm
  · obtain ⟨e, he⟩ : ∃ e, c.entries.getLast? = some e :=
      ⟨_, List.getLast?_eq_some_getLast (List.ne_nil_of_length_pos hn)⟩
    obtain ⟨hclosing, hcode, -⟩ := h.closing_after he
    refine .inr ⟨closing, hclosing, hcode, ?_⟩
    rw [hat.last (by omega), Container.gap, Range.gap, dif_neg hj]

lemma stretch_stop_le (hn : 0 < c.entries.length) :
    s.stop ≤ (c.gap opening closing j).stop := by
  rcases h.gap_stop_cases hat hn with heq | ⟨u, hu, -, hrange⟩
  · exact Nat.le_of_eq heq.symm
  · have hnonempty := h.tokens.nonempty u hu
    rw [hrange] at hnonempty
    exact Nat.le_of_lt hnonempty

lemma chain_stretch (hn : 0 < c.entries.length)
    {σ : Fin c.entries.length → Fin c.entries.length} (hσ : Function.Injective σ) :
    Edit.Chain (c.gap opening closing j).start s.stop
      ((Change.gapPart (frames src c) σ j).map (Change.edit src)) := by
  have hchain := Change.chain_between h.sequence hσ src
    (show 9 * j.val - 3 ≤ 9 * j.val + 5 by omega)
  have hstop : Frame.cuts (frames src c) closing.range.start (9 * j.val + 5) = s.stop := by
    by_cases hj : j.val < c.entries.length
    · rw [(hat.entry ⟨j.val, hj⟩ rfl).2]
      exact Frame.cuts_eq _ _ ⟨j.val, hj⟩ (by omega)
    · rw [Frame.cuts_of_le _ _ (by omega), hat.last (by omega)]
  rw [hstop] at hchain
  exact hchain.mono (Change.gap_start_le h.sequence hn h.opening_le j)

/-- A comment of a gap stands in its last stretch, or before the comma of the gap. -/
lemma comment_cases (hs : src.Stretch s) (hn : 0 < c.entries.length) {t : Token}
    (ht : t ∈ src.tokens.toList) (hcomment : t.isComment = true)
    (hwithin : t.Within (c.gap opening closing j)) :
    s.start ≤ t.range.start ∧ t.range.stop ≤ s.stop ∨
      ∃ d ∈ src.tokens.toList, d.isComment = false ∧ d.range.stop = s.start ∧
        t.range.stop ≤ d.range.start ∧ src.CodeFree ⟨t.range.stop, d.range.start⟩ := by
  have hnonempty := h.tokens.nonempty t ht
  have hne : ∀ u : Token, u.isComment = false → t ≠ u := by
    rintro u hu rfl
    rw [hu] at hcomment
    cases hcomment
  obtain ⟨hlo, hhi⟩ := hwithin
  by_cases hstart : s.start ≤ t.range.start
  · obtain ⟨next, hnext, -, hnextstart⟩ := hs.next
    refine .inl ⟨hstart, (h.tokens.apart_start hnext ht).elim (fun hle => by omega) fun hge => ?_⟩
    -- past the stretch there is only the closing bracket
    rcases h.gap_stop_cases hat hn with hstop | ⟨u, hu, hcode, hrange⟩
    · omega
    · rcases h.tokens.trichotomy ht hu with rfl | ⟨-, htu, -⟩ | ⟨-, hut, -⟩
      · exact absurd rfl (hne t hcode)
      · rw [hrange] at htu
        exact htu
      · rw [hrange] at hut
        simp only at hut
        omega
  · cases j using Fin.cases with
    | zero =>
      -- the first gap starts with the opening bracket
      have hfirst : s.start = opening.range.stop := by
        rw [(hat.entry ⟨0, hn⟩ rfl).1]
        refine h.frame_first ?_
        rw [List.head?_eq_getElem?, List.get_eq_getElem, List.getElem?_eq_getElem]
      have hgap : (c.gap opening closing 0).start = opening.range.start := rfl
      rcases h.tokens.trichotomy ht h.opening_mem.1 with rfl | ⟨-, hto, -⟩ | ⟨-, hot, -⟩
      · exact absurd rfl (hne t h.opening_mem.2)
      · omega
      · omega
    | succ k =>
      have hgap : (c.gap opening closing k.succ).start = (c.entries.get k).range.stop := by
        simp [Container.gap, Range.gap, Container.ranges]
      have hcomma := hat.comma k rfl
      rw [hgap] at hlo
      obtain ⟨d, hd, hcode, hds, hrest⟩ := h.exists_comma_after ht hcomment hlo (by omega)
      exact .inr ⟨d, hd, hcode, by omega, hrest⟩

end Comments

end Container.WellFormed

end KeyOrder
