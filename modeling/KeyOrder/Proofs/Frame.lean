import KeyOrder.Proofs.Layout

/-!
# Frames

All that moving an entry looks at is a few offsets around it, its frame: where the code before it
and the comments on its line end, where the entry starts and ends, where its comma and the
comments that trail it end.  The offsets of a frame are in order, the frames of consecutive entries
follow one another, and the comments that an entry owns stand in ranges without code.
-/

namespace KeyOrder

/-- The offsets around an entry that moving it, or moving another entry to its place, looks at. -/
structure Frame where
  /-- The end of the bracket or comma before the entry. -/
  before : Nat
  /-- The end of the comments that belong to what precedes the entry. -/
  kept : Nat
  /-- The end of the last token before the entry. -/
  anchor : Nat
  start : Nat
  stop : Nat
  /-- The end of the comma after the entry, or of the entry when it has none. -/
  comma : Nat
  /-- The end of the comments that trail the entry. -/
  trail : Nat
  /-- Whether a comment put before the entry needs a line break after it. -/
  joined : Bool
  /-- Where a line break is needed when comments are put after the entry. -/
  break? : Option Nat
deriving Repr, DecidableEq

namespace Frame

/-- The comments that the entry owns above it. -/
def leading (f : Frame) : Range := ⟨f.kept, f.anchor⟩

/-- The comments that the entry owns after its comma. -/
def trailing (f : Frame) : Range := ⟨f.comma, f.trail⟩

/-- The end of the last of some comments, or of what precedes them. -/
def endOf (comments : List Token) (start : Nat) : Nat :=
  (comments.getLast?.map (·.range.stop)).getD start

/-- The frame of an entry, given the last code and the last token before it. -/
def around (src : Source) (e : Entry) (before anchor : Token) : Frame :=
  let comma := Relocation.commaAfter src e
  let trail := endOf (Relocation.trailingComments src e) comma.1.stop
  { before := before.range.stop
    kept := endOf (Relocation.commentsBefore src e before).kept before.range.stop
    anchor := anchor.range.stop
    start := e.range.start
    stop := e.range.stop
    comma := comma.1.stop
    trail := trail
    joined := anchor.endLine == e.startLine
    break? := match src.tokenAfter true trail with
      | some t => if t.startLine = comma.2 then some t.range.start else none
      | none => none }

/-- The frame of an entry.  In a container there is always code before it. -/
def of (src : Source) (e : Entry) : Frame :=
  around src e ((src.codeBefore e.range.start).getD default)
    ((src.tokenBefore true e.range.start).getD default)

/-- The offsets of a frame are in order. -/
structure Ordered (f : Frame) : Prop where
  before_le : f.before ≤ f.kept
  kept_le : f.kept ≤ f.anchor
  anchor_le : f.anchor ≤ f.start
  start_lt : f.start < f.stop
  stop_le : f.stop ≤ f.comma
  comma_le : f.comma ≤ f.trail

/-- The frame of the entry after another one. -/
structure Follows (g f : Frame) : Prop where
  before_eq : g.before = f.comma
  trail_le : f.trail ≤ g.kept
  /-- A line break after the first entry goes before a comment on the line of the comma or before
  the second entry. -/
  break_mem : ∀ o ∈ f.break?, f.trail ≤ o ∧ (o ≤ g.kept ∨ o = g.start)

/-- The edits that move the entry of a frame to the place of another one. -/
def moveEdits (src : Source) (f slot : Frame) : List Edit :=
  Edit.replace ⟨slot.start, slot.stop⟩ (src.slice ⟨f.start, f.stop⟩) ::
    (if f.kept < f.anchor then
      [Edit.remove f.leading, ⟨⟨slot.anchor, slot.anchor⟩, src.slice f.leading⟩] ++
        if slot.joined then [⟨⟨slot.start, slot.start⟩, ['\n']⟩] else []
    else []) ++
    (if f.comma < f.trail then
      [Edit.remove f.trailing, ⟨⟨slot.comma, slot.comma⟩, src.slice f.trailing⟩] ++
        (slot.break?.map fun o => (⟨⟨o, o⟩, ['\n']⟩ : Edit)).toList
    else [])

section

variable (src : Source) (e : Entry)

lemma of_start : (of src e).start = e.range.start := rfl

lemma of_comma : (of src e).comma = (Relocation.commaAfter src e).1.stop := rfl

lemma of_trail : (of src e).trail =
    endOf (Relocation.trailingComments src e) (Relocation.commaAfter src e).1.stop := rfl

lemma of_break : (of src e).break? =
    match src.tokenAfter true (of src e).trail with
    | some t =>
      if t.startLine = (Relocation.commaAfter src e).2 then some t.range.start else none
    | none => none := rfl

variable {src e} {before anchor : Token}

lemma exists_of_mem_break {o : Nat} (ho : o ∈ (of src e).break?) :
    ∃ t, src.tokenAfter true (of src e).trail = some t ∧
      t.startLine = (Relocation.commaAfter src e).2 ∧ t.range.start = o := by
  rw [of_break] at ho
  cases hnext : src.tokenAfter true (of src e).trail with
  | none => simp [hnext] at ho
  | some t =>
    simp only [hnext, Option.mem_def, Option.ite_none_right_eq_some, Option.some.injEq] at ho
    exact ⟨t, rfl, ho⟩

lemma of_eq_around (hbefore : src.codeBefore e.range.start = some before)
    (hanchor : src.tokenBefore true e.range.start = some anchor) :
    of src e = around src e before anchor := by
  rw [of, hbefore, hanchor]
  rfl

end

/-! ### The end of a run of comments -/

lemma le_endOf {comments : List Token} (h : comments.Pairwise Token.Before) {c : Token}
    (hc : c ∈ comments) (start : Nat) : c.range.stop ≤ endOf comments start := by
  cases hlast : comments.getLast? with
  | none =>
    rw [List.getLast?_eq_none_iff.1 hlast] at hc
    exact absurd hc List.not_mem_nil
  | some last =>
    rw [endOf, hlast]
    rcases ((getLast?_eq_some_iff h).1 hlast).2 c hc with rfl | ⟨-, hbefore, hlast'⟩
    · exact Nat.le_refl _
    · exact Nat.le_of_lt (Nat.lt_of_le_of_lt hbefore hlast')

lemma start_le_endOf {comments : List Token} {start : Nat}
    (h : ∀ c ∈ comments, start ≤ c.range.stop) : start ≤ endOf comments start := by
  cases hlast : comments.getLast? with
  | none =>
    rw [endOf, hlast]
    exact Nat.le_refl _
  | some last =>
    rw [endOf, hlast]
    exact h last (List.mem_of_getLast? hlast)

lemma endOf_cases (comments : List Token) (start : Nat) :
    comments = [] ∧ endOf comments start = start ∨
      ∃ c ∈ comments, comments.getLast? = some c ∧ endOf comments start = c.range.stop := by
  cases hlast : comments.getLast? with
  | none => exact .inl ⟨List.getLast?_eq_none_iff.1 hlast, by rw [endOf, hlast]; rfl⟩
  | some last => exact .inr ⟨last, List.mem_of_getLast? hlast, rfl, by rw [endOf, hlast]; rfl⟩

end Frame

/-! ### Comments before an entry -/

namespace Container.WellFormed

variable {src : Source} {c : Container} {opening closing : Token}
  (h : c.WellFormed src opening closing)

include h

/-- There is code before every entry. -/
lemma exists_before {e : Entry} (he : e ∈ c.entries) :
    ∃ before anchor, src.codeBefore e.range.start = some before ∧
      src.tokenBefore true e.range.start = some anchor := by
  have hbefore : ∃ before, src.codeBefore e.range.start = some before := by
    rcases head?_or_infix_of_mem he with hfirst | ⟨a, hab⟩
    · exact ⟨opening, h.codeBefore_first hfirst⟩
    · obtain ⟨t, -, -, -, -, ht⟩ := h.comma_between hab
      exact ⟨t, ht⟩
  obtain ⟨before, hbefore⟩ := hbefore
  obtain ⟨hmem, -, hstop, -⟩ := h.tokens.tokenBefore_eq_some.1 hbefore
  have hanchor : ∃ anchor, src.tokenBefore true e.range.start = some anchor :=
    h.tokens.exists_tokenBefore hmem rfl hstop
  obtain ⟨anchor, hanchor⟩ := hanchor
  exact ⟨before, anchor, hbefore, hanchor⟩

section Before

variable {e : Entry} {before anchor : Token}
  (hbefore : src.codeBefore e.range.start = some before)
  (hanchor : src.tokenBefore true e.range.start = some anchor)

section

include hbefore

/-- The comments before an entry follow the code before it. -/
lemma before_comment {t : Token} (ht : t ∈ src.commentsBefore e.range.start) :
    before.Before t ∧ before.endLine ≤ t.startLine := by
  obtain ⟨hbmem, hbcode, hbstop, -⟩ := h.tokens.tokenBefore_eq_some.1 hbefore
  obtain ⟨htmem, -, -, hcode⟩ := h.tokens.mem_commentsBefore.1 ht
  have hbt := hcode before hbmem (by simpa using hbcode) hbstop
  refine ⟨hbt, ?_⟩
  rw [(h.tokenLines before hbmem).2, (h.tokenLines t htmem).1]
  exact h.lineOf_mono hbt.2.1

end

section

include hanchor

lemma anchor_of_token {t : Token} (ht : t ∈ src.tokens.toList)
    (hstop : t.range.stop ≤ e.range.start) : t = anchor ∨ t.Before anchor :=
  (h.tokens.tokenBefore_eq_some.1 hanchor).2.2.2 t ht rfl hstop

/-- The comments before an entry end with the last token before it. -/
lemma comment_anchor {t : Token} (ht : t ∈ src.commentsBefore e.range.start) :
    t = anchor ∨ t.Before anchor ∧ t.startLine ≤ anchor.startLine := by
  obtain ⟨hamem, -, -, -⟩ := h.tokens.tokenBefore_eq_some.1 hanchor
  obtain ⟨htmem, -, htstop, -⟩ := h.tokens.mem_commentsBefore.1 ht
  refine (h.anchor_of_token hanchor htmem htstop).imp_right fun hta => ⟨hta, ?_⟩
  obtain ⟨htt, hta', -⟩ := hta
  rw [(h.tokenLines t htmem).1, (h.tokenLines anchor hamem).1]
  exact h.lineOf_mono (by omega)

lemma comments_eq_nil_of_code (hcode : anchor.isComment = false) :
    src.commentsBefore e.range.start = [] := by
  obtain ⟨hamem, -, hastop, -⟩ := h.tokens.tokenBefore_eq_some.1 hanchor
  refine List.eq_nil_iff_forall_not_mem.2 ?_
  intro t ht
  have hat := (h.tokens.mem_commentsBefore.1 ht).2.2.2 anchor hamem hcode hastop
  rcases h.comment_anchor hanchor ht with rfl | ⟨hta, -⟩
  · exact hat.asymm hat
  · exact hat.asymm hta

lemma anchor_mem_comments (hcomment : anchor.isComment = true) :
    anchor ∈ src.commentsBefore e.range.start := by
  obtain ⟨hamem, -, hastop, -⟩ := h.tokens.tokenBefore_eq_some.1 hanchor
  refine h.tokens.mem_commentsBefore.2 ⟨hamem, hcomment, hastop, fun u hu hcode hstop => ?_⟩
  rcases h.anchor_of_token hanchor hu hstop with rfl | hua
  · rw [hcode] at hcomment
    cases hcomment
  · exact hua

end

include hbefore hanchor

lemma anchor_eq_before (hcode : anchor.isComment = false) : anchor = before := by
  obtain ⟨hbmem, -, hbstop, hblast⟩ := h.tokens.tokenBefore_eq_some.1 hbefore
  obtain ⟨hamem, -, hastop, -⟩ := h.tokens.tokenBefore_eq_some.1 hanchor
  rcases hblast anchor hamem (by simp [hcode]) hastop with rfl | hab
  · rfl
  · rcases h.anchor_of_token hanchor hbmem hbstop with rfl | hba
    · rfl
    · exact absurd hab hba.asymm

/-- The comments that stay with what precedes an entry end by the last token before it. -/
lemma kept_le_anchor :
    Frame.endOf (Relocation.commentsBefore src e before).kept before.range.stop ≤
      anchor.range.stop := by
  rcases Frame.endOf_cases (Relocation.commentsBefore src e before).kept before.range.stop with
    ⟨-, hend⟩ | ⟨t, ht, -, hend⟩
  · obtain ⟨hbmem, -, hbstop, -⟩ := h.tokens.tokenBefore_eq_some.1 hbefore
    rw [hend]
    rcases h.anchor_of_token hanchor hbmem hbstop with rfl | ⟨-, hba, haa⟩
    · exact Nat.le_refl _
    · omega
  · rw [hend]
    rcases h.comment_anchor hanchor (List.mem_filter.1 ht).1 with rfl | ⟨⟨-, hta, haa⟩, -⟩
    · exact Nat.le_refl _
    · omega

/-- The comments that an entry owns above it reach to the last token before it. -/
lemma leading_cases :
    (Relocation.commentsBefore src e before).leading = [] ∧
        Frame.endOf (Relocation.commentsBefore src e before).kept before.range.stop =
          anchor.range.stop ∨
      (Relocation.commentsBefore src e before).leading.getLast? = some anchor ∧
        Frame.endOf (Relocation.commentsBefore src e before).kept before.range.stop <
          anchor.range.stop := by
  have hpair := h.tokens.pairwise_commentsBefore e.range.start
  cases hcomment : anchor.isComment with
  | false =>
    -- the last token is code, so there are no comments
    have hnil := h.comments_eq_nil_of_code hanchor hcomment
    refine .inl ⟨by simp [Relocation.commentsBefore, hnil], ?_⟩
    simp [Relocation.commentsBefore, hnil, Frame.endOf,
      h.anchor_eq_before hbefore hanchor hcomment]
  | true =>
    have hmem := h.anchor_mem_comments hanchor hcomment
    by_cases hsame : anchor.startLine = before.endLine
    · -- all comments stand on the line of the code before them
      refine .inl ⟨List.filter_eq_nil_iff.2 fun t ht => ?_, ?_⟩
      · have hle := (h.before_comment hbefore ht).2
        rcases h.comment_anchor hanchor ht with rfl | ⟨-, hta⟩
        · simp [hsame]
        · simp only [bne_iff_ne, ne_eq, not_not]
          omega
      · have hkept : anchor ∈ (Relocation.commentsBefore src e before).kept :=
          List.mem_filter.2 ⟨hmem, beq_iff_eq.2 hsame⟩
        exact Nat.le_antisymm (h.kept_le_anchor hbefore hanchor)
          (Frame.le_endOf (hpair.filter _) hkept _)
    · -- the last comment stands on a line of its own
      refine .inr ⟨(getLast?_eq_some_iff (hpair.filter _)).2
        ⟨List.mem_filter.2 ⟨hmem, bne_iff_ne.2 hsame⟩, fun t ht => ?_⟩, ?_⟩
      · exact (h.comment_anchor hanchor (List.mem_filter.1 ht).1).imp_right And.left
      · rcases Frame.endOf_cases (Relocation.commentsBefore src e before).kept
          before.range.stop with ⟨-, hend⟩ | ⟨t, ht, -, hend⟩
        · obtain ⟨-, hba, haa⟩ := (h.before_comment hbefore hmem).1
          omega
        · obtain ⟨ht, htline⟩ := List.mem_filter.1 ht
          rcases h.comment_anchor hanchor ht with rfl | ⟨⟨-, hta, haa⟩, -⟩
          · exact absurd (beq_iff_eq.1 htline) hsame
          · omega

end Before

/-! ### Comments after an entry -/

lemma mem_trailing {e : Entry} {t : Token} (ht : t ∈ Relocation.trailingComments src e) :
    t ∈ src.tokens.toList ∧ t.isComment = true ∧ t.startLine = e.endLine ∧
      (Relocation.commaAfter src e).1.stop ≤ t.range.start ∧
      ∀ u ∈ src.tokens.toList, u.isComment = false →
        (Relocation.commaAfter src e).1.stop ≤ u.range.start → t.Before u := by
  obtain ⟨ht, hline⟩ := List.mem_filter.1 ht
  obtain ⟨hmem, hcomment, hstart, hcode⟩ := h.tokens.mem_commentsAfter.1 ht
  exact ⟨hmem, hcomment, beq_iff_eq.1 hline, hstart, hcode⟩

/-- The comments that trail an entry reach past its comma. -/
lemma trailing_cases (e : Entry) :
    (Relocation.trailingComments src e).getLast? = none ∧
        Frame.endOf (Relocation.trailingComments src e) (Relocation.commaAfter src e).1.stop =
          (Relocation.commaAfter src e).1.stop ∨
      ∃ last ∈ Relocation.trailingComments src e,
        (Relocation.trailingComments src e).getLast? = some last ∧
        Frame.endOf (Relocation.trailingComments src e) (Relocation.commaAfter src e).1.stop =
          last.range.stop ∧
        (Relocation.commaAfter src e).1.stop < last.range.stop := by
  rcases Frame.endOf_cases (Relocation.trailingComments src e)
    (Relocation.commaAfter src e).1.stop with ⟨hnil, hend⟩ | ⟨last, hlast, hlast', hend⟩
  · exact .inl ⟨by rw [hnil]; rfl, hend⟩
  · obtain ⟨hmem, -, -, hstart, -⟩ := h.mem_trailing hlast
    have hnonempty := h.tokens.nonempty last hmem
    exact .inr ⟨last, hlast, hlast', hend, by omega⟩

/-! ### Moving an entry, by frames -/

lemma moveLeading_eq {e slot : Entry} (he : e ∈ c.entries) (hslot : slot ∈ c.entries) :
    Relocation.moveLeading src e slot =
      .ok (if (Frame.of src e).kept < (Frame.of src e).anchor then
        [Edit.remove (Frame.of src e).leading,
          ⟨⟨(Frame.of src slot).anchor, (Frame.of src slot).anchor⟩,
            src.slice (Frame.of src e).leading⟩] ++
          if (Frame.of src slot).joined then
            [⟨⟨(Frame.of src slot).start, (Frame.of src slot).start⟩, ['\n']⟩]
          else []
      else []) := by
  obtain ⟨before, anchor, hbefore, hanchor⟩ := h.exists_before he
  obtain ⟨before', anchor', hbefore', hanchor'⟩ := h.exists_before hslot
  simp only [Relocation.moveLeading, Frame.of, hbefore, hanchor, hbefore', hanchor',
    Option.getD_some, Frame.around, Frame.leading]
  rcases h.leading_cases hbefore hanchor with ⟨hnil, hend⟩ | ⟨hlast, hend⟩
  · rw [hnil, hend, if_neg (Nat.lt_irrefl _)]
    rfl
  · rw [hlast, if_pos hend]
    simp only [beq_iff_eq]
    rfl

lemma moveTrailing_eq (e slot : Entry) :
    Relocation.moveTrailing src e slot =
      if (Frame.of src e).comma < (Frame.of src e).trail then
        [Edit.remove (Frame.of src e).trailing,
          ⟨⟨(Frame.of src slot).comma, (Frame.of src slot).comma⟩,
            src.slice (Frame.of src e).trailing⟩] ++
          ((Frame.of src slot).break?.map fun o => (⟨⟨o, o⟩, ['\n']⟩ : Edit)).toList
      else [] := by
  have hbreak : ((Frame.of src slot).break?.map fun o => (⟨⟨o, o⟩, ['\n']⟩ : Edit)).toList =
      match src.tokenAfter true (Frame.of src slot).trail with
      | some t =>
        if t.startLine = (Relocation.commaAfter src slot).2 then
          [Edit.insertBefore t.range ['\n']]
        else []
      | none => [] := by
    rw [Frame.of_break]
    cases src.tokenAfter true (Frame.of src slot).trail with
    | none => rfl
    | some t =>
      dsimp only
      split <;> rfl
  rcases h.trailing_cases e with ⟨hnone, hend⟩ | ⟨last, -, hlast, hend, hlt⟩
  · rw [if_neg (by rw [Frame.of_comma, Frame.of_trail, hend]; exact Nat.lt_irrefl _),
      Relocation.moveTrailing, hnone]
  · rw [if_pos (by rw [Frame.of_comma, Frame.of_trail, hend]; exact hlt), hbreak,
      Relocation.moveTrailing, hlast, Frame.trailing, Frame.of_comma, Frame.of_trail, hend]
    rfl

/-- Moving an entry of a container always succeeds, and its frame and that of the slot say what
it does. -/
lemma move_eq {e slot : Entry} (he : e ∈ c.entries) (hslot : slot ∈ c.entries) :
    Relocation.move src e slot =
      .ok (Frame.moveEdits src (Frame.of src e) (Frame.of src slot)) := by
  rw [Relocation.move, h.moveLeading_eq he hslot, h.moveTrailing_eq e slot]
  rfl

/-! ### Frames in order -/

lemma frame_ordered {e : Entry} (he : e ∈ c.entries) : (Frame.of src e).Ordered := by
  obtain ⟨before, anchor, hbefore, hanchor⟩ := h.exists_before he
  have hanchor_le := (h.tokens.tokenBefore_eq_some.1 hanchor).2.2.1
  refine ⟨?_, ?_, ?_, (h.aligned e he).1, (h.commaAfter_spec he).1, ?_⟩
  · rw [Frame.of_eq_around hbefore hanchor]
    refine Frame.start_le_endOf ?_
    intro t ht
    obtain ⟨-, hbt, htt⟩ := (h.before_comment hbefore (List.mem_filter.1 ht).1).1
    exact Nat.le_trans hbt (Nat.le_of_lt htt)
  · rw [Frame.of_eq_around hbefore hanchor]
    exact h.kept_le_anchor hbefore hanchor
  · rw [Frame.of_eq_around hbefore hanchor]
    exact hanchor_le
  · refine Frame.start_le_endOf ?_
    intro t ht
    obtain ⟨hmem, -, -, hstart, -⟩ := h.mem_trailing ht
    exact Nat.le_trans hstart (Nat.le_of_lt (h.tokens.nonempty t hmem))

lemma frame_first {e : Entry} (he : c.entries.head? = some e) :
    (Frame.of src e).before = opening.range.stop := by
  obtain ⟨before, anchor, hbefore, hanchor⟩ := h.exists_before (List.mem_of_head? he)
  rw [Frame.of_eq_around hbefore hanchor]
  rw [h.codeBefore_first he] at hbefore
  cases hbefore
  rfl

/-- A comment between an entry and the code before it, on the line of that code, stays there. -/
lemma le_kept {e : Entry} {before anchor t : Token}
    (hbefore : src.codeBefore e.range.start = some before)
    (hanchor : src.tokenBefore true e.range.start = some anchor)
    (ht : t ∈ src.tokens.toList) (hcomment : t.isComment = true)
    (hstart : before.range.stop ≤ t.range.start) (hstop : t.range.stop ≤ e.range.start)
    (hline : t.startLine = before.endLine) : t.range.stop ≤ (Frame.of src e).kept := by
  have hnonempty := h.tokens.nonempty t ht
  have hmem : t ∈ src.commentsBefore e.range.start := by
    refine h.tokens.mem_commentsBefore.2 ⟨ht, hcomment, hstop, fun u hu hcode hustop => ?_⟩
    have hu' := h.tokens.nonempty u hu
    rcases (h.tokens.tokenBefore_eq_some.1 hbefore).2.2.2 u hu (by simp [hcode]) hustop with
      rfl | ⟨-, hub, hbb⟩
    · exact ⟨hu', hstart, hnonempty⟩
    · exact ⟨hu', by omega, hnonempty⟩
  rw [Frame.of_eq_around hbefore hanchor]
  exact Frame.le_endOf ((h.tokens.pairwise_commentsBefore _).filter _)
    (List.mem_filter.2 ⟨hmem, by simpa using hline⟩) _

section Consecutive

variable {a b : Entry} (hab : [a, b] <:+: c.entries)

include hab

lemma before_eq_comma : (Frame.of src b).before = (Frame.of src a).comma := by
  obtain ⟨comma, -, -, -, hafter, hbefore⟩ := h.comma_between hab
  obtain ⟨_, anchor, -, hanchor⟩ := h.exists_before (e := b) (hab.subset (by simp))
  rw [Frame.of_eq_around hbefore hanchor, Frame.of_comma, hafter]
  rfl

/-- A comment that trails an entry stands on the line of the comma, too, so it is one of those
that the next entry does not own. -/
lemma trail_le_kept : (Frame.of src a).trail ≤ (Frame.of src b).kept := by
  have ha : a ∈ c.entries := hab.subset (by simp)
  have hb : b ∈ c.entries := hab.subset (by simp)
  rcases h.trailing_cases a with ⟨-, hend⟩ | ⟨last, hlast, -, hend, -⟩
  · rw [Frame.of_trail, hend, ← Frame.of_comma, ← h.before_eq_comma hab]
    exact (h.frame_ordered hb).before_le
  · obtain ⟨comma, hcomma, hlo, hhi, hafter, hbefore⟩ := h.comma_between hab
    obtain ⟨_, anchor, -, hanchor⟩ := h.exists_before hb
    obtain ⟨-, ⟨first, hfirst, hfirstcode, hfirststart⟩, -⟩ := h.aligned b hb
    obtain ⟨hmem, hcomment, hline, hstart, hcode⟩ := h.mem_trailing hlast
    rw [hafter] at hstart hcode
    obtain ⟨-, hlf, -⟩ := hcode first hfirst hfirstcode (by simp only; omega)
    rw [Frame.of_trail, hend]
    refine h.le_kept hbefore hanchor hmem hcomment hstart (by omega) (Nat.le_antisymm ?_ ?_)
    · have hnonempty := h.tokens.nonempty comma hcomma
      rw [hline, (h.entryLines a ha).2, (h.tokenLines comma hcomma).2]
      exact h.lineOf_mono (by omega)
    · rw [(h.tokenLines comma hcomma).2, (h.tokenLines last hmem).1]
      exact h.lineOf_mono hstart

/-- A line break after an entry goes before a comment on the line of the comma or before the first
token of the next entry. -/
lemma break_between {o : Nat} (ho : o ∈ (Frame.of src a).break?) :
    (Frame.of src a).trail ≤ o ∧ (o ≤ (Frame.of src b).kept ∨ o = (Frame.of src b).start) := by
  have ha := h.frame_ordered (e := a) (hab.subset (by simp))
  have hb : b ∈ c.entries := hab.subset (by simp)
  have hb' := h.frame_ordered hb
  have htrail := h.trail_le_kept hab
  obtain ⟨comma, hcomma, hlo, hhi, hafter, hbefore⟩ := h.comma_between hab
  obtain ⟨_, anchor, -, hanchor⟩ := h.exists_before hb
  obtain ⟨-, ⟨first, hfirst, hfirstcode, hfirststart⟩, -⟩ := h.aligned b hb
  obtain ⟨t, hnext, hline, rfl⟩ := Frame.exists_of_mem_break ho
  obtain ⟨hmem, -, hstart, hall⟩ := h.tokens.tokenAfter_eq_some.1 hnext
  have hcommaStop : (Frame.of src a).comma = comma.range.stop := by rw [Frame.of_comma, hafter]
  have hcommat : comma.range.stop ≤ t.range.start := by
    have := ha.comma_le
    omega
  refine ⟨hstart, ?_⟩
  have hfirst' : (Frame.of src a).trail ≤ first.range.start := by
    have := hb'.kept_le
    have := hb'.anchor_le
    rw [hfirststart, ← Frame.of_start src b]
    omega
  rcases hall first hfirst rfl hfirst' with rfl | ⟨htt, htf, -⟩
  · exact .inr hfirststart
  · cases hcomment : t.isComment with
    | true =>
      have hkept := h.le_kept hbefore hanchor hmem hcomment hcommat (by omega)
        (by rw [hline, hafter])
      exact .inl (by omega)
    | false =>
      -- there is no other code between the comma and the next entry
      rcases (h.tokens.tokenBefore_eq_some.1 hbefore).2.2.2 t hmem (by simp [hcomment])
        (by omega) with rfl | ⟨-, htc, -⟩
      · omega
      · have := h.tokens.nonempty comma hcomma
        omega

lemma frame_follows : (Frame.of src b).Follows (Frame.of src a) :=
  ⟨h.before_eq_comma hab, h.trail_le_kept hab, fun _ => h.break_between hab⟩

end Consecutive

/-- The comments after the last entry and a line break there come before the closing bracket. -/
lemma frame_last {e : Entry} (he : c.entries.getLast? = some e) :
    (Frame.of src e).trail ≤ closing.range.start ∧
      ∀ o ∈ (Frame.of src e).break?, (Frame.of src e).trail ≤ o ∧ o ≤ closing.range.start := by
  obtain ⟨hclosing, hcode, hcomma, -⟩ := h.closing_after he
  have htrail : (Frame.of src e).trail ≤ closing.range.start := by
    rw [Frame.of_trail]
    rcases h.trailing_cases e with ⟨-, hend⟩ | ⟨last, hlast, -, hend, -⟩
    · rw [hend]
      exact hcomma
    · rw [hend]
      exact ((h.mem_trailing hlast).2.2.2.2 closing hclosing hcode hcomma).2.1
  refine ⟨htrail, fun o ho => ?_⟩
  obtain ⟨t, hnext, -, rfl⟩ := Frame.exists_of_mem_break ho
  obtain ⟨-, -, hstart, hall⟩ := h.tokens.tokenAfter_eq_some.1 hnext
  refine ⟨hstart, ?_⟩
  rcases hall closing hclosing rfl htrail with rfl | ⟨htt, htc, -⟩
  · exact Nat.le_refl _
  · omega

/-! ### Ranges without code -/

section

variable {e : Entry} (he : e ∈ c.entries)

include he

/-- Only comments stand between the code before an entry and the entry. -/
lemma codeFree_leading : src.CodeFree (Frame.of src e).leading := by
  intro u hu hcode
  obtain ⟨before, anchor, hbefore, hanchor⟩ := h.exists_before he
  obtain ⟨-, ⟨first, hfirst, -, hstart⟩, -⟩ := h.aligned e he
  have hframe := h.frame_ordered he
  rcases h.tokens.apart_start hfirst hu with hstop | hstart'
  · refine .inl (Nat.le_trans ?_ hframe.before_le)
    rw [Frame.of_eq_around hbefore hanchor]
    rcases (h.tokens.tokenBefore_eq_some.1 hbefore).2.2.2 u hu (by simp [hcode])
      (by omega) with rfl | ⟨-, hub, hbb⟩
    · exact Nat.le_refl _
    · exact Nat.le_trans hub (Nat.le_of_lt hbb)
  · exact .inr (Nat.le_trans hframe.anchor_le (by rw [Frame.of_start, ← hstart]; exact hstart'))

/-- The comments above an entry that it owns. -/
lemma comments_leading (hlead : (Frame.of src e).kept < (Frame.of src e).anchor) :
    src.Comments (Frame.of src e).leading := by
  refine ⟨h.codeFree_leading he, ?_⟩
  obtain ⟨before, anchor, hbefore, hanchor⟩ := h.exists_before he
  rw [Frame.of_eq_around hbefore hanchor] at hlead ⊢
  rcases h.leading_cases hbefore hanchor with ⟨-, hend⟩ | ⟨hlast, -⟩
  · exact absurd hlead (Nat.not_lt.2 (Nat.le_of_eq hend.symm))
  · have hmem := (List.mem_filter.1 (List.mem_of_getLast? hlast)).1
    obtain ⟨htokens, hcomment, -, -⟩ := h.tokens.mem_commentsBefore.1 hmem
    refine ⟨anchor, htokens, hcomment, ?_, rfl⟩
    simp only [Frame.around, Frame.leading] at hlead ⊢
    rcases Frame.endOf_cases (Relocation.commentsBefore src e before).kept before.range.stop with
      ⟨-, hend⟩ | ⟨t, ht, -, hend⟩
    · rw [hend]
      exact (h.before_comment hbefore hmem).1.2.1
    · rw [hend] at hlead ⊢
      rcases h.comment_anchor hanchor (List.mem_filter.1 ht).1 with rfl | ⟨⟨-, hta, -⟩, -⟩
      · exact absurd hlead (Nat.lt_irrefl _)
      · exact hta

lemma codeFree_comma : src.CodeFree ⟨(Frame.of src e).comma, (Frame.of src e).comma⟩ := by
  intro u hu _
  obtain ⟨-, -, t, ht, hstop⟩ := h.commaAfter_spec he
  rw [Frame.of_comma, ← hstop]
  exact h.tokens.apart_stop ht hu

lemma codeFree_trailing : src.CodeFree (Frame.of src e).trailing := by
  intro u hu hcode
  refine (h.codeFree_comma he u hu hcode).imp_right ?_
  intro hstart
  rw [Frame.trailing, Frame.of_trail]
  rcases h.trailing_cases e with ⟨-, hend⟩ | ⟨last, hlast, -, hend, -⟩
  · rw [hend]
    exact hstart
  · rw [hend]
    exact ((h.mem_trailing hlast).2.2.2.2 u hu hcode hstart).2.1

/-- The comments that trail an entry. -/
lemma comments_trailing (htrail : (Frame.of src e).comma < (Frame.of src e).trail) :
    src.Comments (Frame.of src e).trailing := by
  refine ⟨h.codeFree_trailing he, ?_⟩
  rcases h.trailing_cases e with ⟨-, hend⟩ | ⟨last, hlast, -, hend, -⟩
  · rw [Frame.of_comma, Frame.of_trail, hend] at htrail
    exact absurd htrail (Nat.lt_irrefl _)
  · obtain ⟨hmem, hcomment, -, hstart, -⟩ := h.mem_trailing hlast
    exact ⟨last, hmem, hcomment, hstart, hend.symm⟩

lemma codeFree_anchor : src.CodeFree ⟨(Frame.of src e).anchor, (Frame.of src e).anchor⟩ := by
  intro u hu _
  obtain ⟨before, anchor, hbefore, hanchor⟩ := h.exists_before he
  rw [Frame.of_eq_around hbefore hanchor]
  exact h.tokens.apart_stop (h.tokens.tokenBefore_eq_some.1 hanchor).1 hu

lemma codeFree_start : src.CodeFree ⟨(Frame.of src e).start, (Frame.of src e).start⟩ := by
  intro u hu _
  obtain ⟨-, ⟨first, hfirst, -, hstart⟩, -⟩ := h.aligned e he
  rw [Frame.of_start, ← hstart]
  exact h.tokens.apart_start hfirst hu

omit he

lemma codeFree_break {o : Nat} (ho : o ∈ (Frame.of src e).break?) : src.CodeFree ⟨o, o⟩ := by
  intro u hu _
  obtain ⟨t, hnext, -, rfl⟩ := Frame.exists_of_mem_break ho
  exact h.tokens.apart_start (h.tokens.tokenAfter_eq_some.1 hnext).1 hu

end

end Container.WellFormed

end KeyOrder
