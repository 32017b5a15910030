import KeyOrder.Proofs.LineBreaks
import KeyOrder.Proofs.Spelling

/-!
# The comments that an entry owns, by the text

Which comments an entry owns is told by tokens and lines.  In a stretch without code the same can be
read off the text: the comments on the first line of the stretch trail the entry before it, and
those on later lines lead the entry after it.
-/

namespace KeyOrder

/-- The comments above an entry that it owns. -/
def Relocation.leadingComments (src : Source) (e : Entry) : List Token :=
  match src.codeBefore e.range.start with
  | some before => (commentsBefore src e before).leading
  | none => []

/-- Tokens in order are determined by which ones they are. -/
lemma Token.eq_of_mem_iff {ts us : List Token} (hts : ts.Pairwise Token.Before)
    (hus : us.Pairwise Token.Before) (h : ∀ t, t ∈ ts ↔ t ∈ us) : ts = us := by
  have hnodup : ∀ {vs : List Token}, vs.Pairwise Token.Before → vs.Nodup := fun hvs =>
    hvs.imp fun {a b} hab (heq : a = b) => hab.asymm (heq ▸ hab)
  refine ((List.perm_ext_iff_of_nodup (hnodup hts) (hnodup hus)).2 h).eq_of_pairwise ?_ hts hus
  exact fun a b _ _ hab hba => absurd hba hab.asymm

lemma Text.slice_eq_append {text x y : Text} {a b : Nat} (h : text.slice a b = x ++ y) :
    text.slice a (a + x.length) = x ∧ text.slice (a + x.length) b = y := by
  have hlength : x.length ≤ b - a := by
    have hle := List.length_take_le (b - a) (text.drop a)
    rw [Text.slice] at h
    rw [h, List.length_append] at hle
    omega
  unfold Text.slice at *
  constructor
  · have htake := congrArg (List.take x.length) h
    rwa [List.take_take, Nat.min_eq_left hlength, List.take_left,
      ← Nat.add_sub_cancel_left a x.length] at htake
  · have hdrop := congrArg (List.drop x.length) h
    rwa [List.drop_take, List.drop_drop, List.drop_left, Nat.sub_sub] at hdrop

namespace Source

variable {src : Source}

/-! ### The comments in a range -/

/-- The comments in a range. -/
def commentsIn (src : Source) (r : Range) : List Token :=
  src.tokens.toList.filter fun t =>
    t.isComment && decide (r.start ≤ t.range.start) && decide (t.range.stop ≤ r.stop)

lemma mem_commentsIn {r : Range} {t : Token} :
    t ∈ src.commentsIn r ↔ t ∈ src.tokens.toList ∧ t.isComment = true ∧ t.Within r := by
  simp [commentsIn, Token.Within, and_assoc]

/-- The comments in a part of a range. -/
lemma commentsIn_eq_filter (r s : Range) (hstart : r.start ≤ s.start) (hstop : s.stop ≤ r.stop) :
    src.commentsIn s = (src.commentsIn r).filter fun t =>
      decide (s.start ≤ t.range.start) && decide (t.range.stop ≤ s.stop) := by
  rw [commentsIn, commentsIn, List.filter_filter]
  refine List.filter_congr fun t _ => ?_
  rw [Bool.eq_iff_iff]
  simp only [Bool.and_eq_true, decide_eq_true_eq]
  constructor
  · rintro ⟨⟨hcomment, h1⟩, h2⟩
    exact ⟨⟨h1, h2⟩, ⟨hcomment, by omega⟩, by omega⟩
  · rintro ⟨⟨h1, h2⟩, ⟨hcomment, -⟩, -⟩
    exact ⟨⟨hcomment, h1⟩, h2⟩

/-- No token meets a range. -/
def TokenFree (src : Source) (r : Range) : Prop :=
  ∀ t ∈ src.tokens.toList, t.range.stop ≤ r.start ∨ r.stop ≤ t.range.start

/-- A backslash in a range belongs to a token: no line is continued there. -/
def Straight (src : Source) (r : Range) : Prop :=
  ∀ o, r.start ≤ o → o < r.stop → src.text[o]? = some '\\' →
    ∃ t ∈ src.tokens.toList, t.range.start ≤ o ∧ o < t.range.stop

lemma Straight.mono {r s : Range} (h : src.Straight r) (hstart : r.start ≤ s.start)
    (hstop : s.stop ≤ r.stop) : src.Straight s :=
  fun o hlo hhi => h o (Nat.le_trans hstart hlo) (Nat.lt_of_lt_of_le hhi hstop)

/-- A range without code and without comments has no tokens. -/
lemma tokenFree_of_commentsIn {r : Range} (hfree : src.CodeFree r) (hstart : src.Boundary r.start)
    (hstop : src.Boundary r.stop) (hcomments : src.commentsIn r = []) : src.TokenFree r := by
  intro t ht
  cases hcomment : t.isComment with
  | false => exact hfree t ht hcomment
  | true =>
    by_contra hmeets
    have h1 := hstart t ht
    have h2 := hstop t ht
    have hmem : t ∈ src.commentsIn r := mem_commentsIn.2
      ⟨ht, hcomment, by omega, by omega⟩
    rw [hcomments] at hmem
    exact List.not_mem_nil hmem

lemma TokenFree.loose {r : Range} (h : src.TokenFree r) (hlegible : src.Legible) :
    (src.slice r).Loose := by
  intro c hc
  obtain ⟨o, hlo, hhi, ho⟩ := Text.mem_slice.1 hc
  refine hlegible.loose o c ho fun t ht => ?_
  have := h t ht
  omega

/-- A range without tokens and without continued lines is white. -/
lemma TokenFree.white {r : Range} (h : src.TokenFree r) (hlegible : src.Legible)
    (hstraight : src.Straight r) : (src.slice r).White := by
  intro c hc
  have hloose := h.loose hlegible c hc
  simp only [Text.isLoose, Bool.or_eq_true, beq_iff_eq] at hloose
  refine hloose.resolve_right ?_
  rintro rfl
  obtain ⟨o, hlo, hhi, ho⟩ := Text.mem_slice.1 hc
  obtain ⟨t, ht, hstart, hstop⟩ := hstraight o hlo hhi ho
  have := h t ht
  omega

/-- A token of a legible source, character by character. -/
lemma Legible.exists_char (h : src.Legible) {t : Token} (ht : t ∈ src.tokens.toList) {o : Nat}
    (hstart : t.range.start ≤ o) (hstop : o < t.range.stop) :
    ∃ c ∈ t.value, src.text[o]? = some c := by
  obtain ⟨hvalue, hlength⟩ := h.value t ht
  have hlt : o - t.range.start < t.value.length := by omega
  refine ⟨t.value[o - t.range.start], List.getElem_mem hlt, ?_⟩
  have hget := List.getElem?_eq_getElem hlt
  rw [← hget, ← hvalue, Source.slice, Text.slice, List.getElem?_take_of_lt (by omega),
    List.getElem?_drop, Nat.add_sub_cancel' hstart]

lemma Legible.isBreak_of_comment (h : src.Legible) {t : Token} (ht : t ∈ src.tokens.toList)
    (hcomment : t.isComment = true) {c : Char} (hc : c ∈ t.value) : Text.isBreak c = false := by
  obtain ⟨body, hbody, hbreak⟩ := h.comment t ht hcomment
  rw [hbody] at hc
  rcases List.mem_cons.1 hc with rfl | hc
  · rfl
  · exact hbreak c hc

/-! ### The first line of a range -/

/-- Where the first line of a range ends. -/
def lineEnd (src : Source) (r : Range) : Nat := r.start + (src.slice r).firstLine.length

lemma slice_lineEnd (src : Source) (r : Range) :
    src.slice ⟨r.start, src.lineEnd r⟩ = (src.slice r).firstLine ∧
      src.slice ⟨src.lineEnd r, r.stop⟩ = (src.slice r).laterLines :=
  Text.slice_eq_append (src.slice r).firstLine_append_laterLines.symm

lemma start_le_lineEnd (src : Source) (r : Range) : r.start ≤ src.lineEnd r :=
  Nat.le_add_right ..

lemma lineEnd_le {r : Range} (hle : r.start ≤ r.stop) : src.lineEnd r ≤ r.stop := by
  have hlength := congrArg List.length (src.slice r).firstLine_append_laterLines
  have htake := List.length_take_le (r.stop - r.start) (src.text.drop r.start)
  rw [List.length_append] at hlength
  rw [lineEnd]
  change (src.slice r).length ≤ _ at htake
  omega

/-- Past the first line of a range there is a line break, if there is anything. -/
lemma break_of_lineEnd_le {r : Range} {o : Nat} {c : Char} (hlo : src.lineEnd r ≤ o)
    (hhi : o < r.stop) (hc : src.text[o]? = some c) :
    src.text[src.lineEnd r]? = some '\n' := by
  have hmem : c ∈ src.slice ⟨src.lineEnd r, r.stop⟩ := Text.mem_slice.2 ⟨o, hlo, hhi, hc⟩
  have hlater := (src.slice_lineEnd r).2
  rcases (src.slice r).laterLines_cases with hnil | ⟨rest, hrest⟩
  · rw [hlater, hnil] at hmem
    exact absurd hmem List.not_mem_nil
  · rw [hrest, Source.slice, Text.slice] at hlater
    have hhead := congrArg List.head? hlater
    rw [List.head?_take, if_neg (by simp only; omega), List.head?_drop] at hhead
    exact hhead

end Source

lemma lineOf_ne_of_mem {text : Text} {a b : Nat} (hab : a ≤ b) (h : '\n' ∈ text.slice a b) :
    (LineIndex.ofText text).lineOf b ≠ (LineIndex.ofText text).lineOf a := by
  have hpos := List.count_pos_iff.2 h
  rw [lineOf_ofText, lineOf_ofText, ← text.take_append_slice hab, List.count_append]
  omega

namespace Container.WellFormed

variable {src : Source} {c : Container} {opening closing : Token}
  (h : c.WellFormed src opening closing) (hlegible : src.Legible)

include h

/-- What follows a comment in a range is a line break or nothing. -/
lemma isBreak_of_head? {t : Token} (ht : t ∈ src.tokens.toList) (hcomment : t.isComment = true)
    {hi : Nat} {ch : Char} (hch : ch ∈ (src.slice ⟨t.range.stop, hi⟩).head?) :
    Text.isBreak ch = true := by
  have hend := h.commentsEnd t ht hcomment
  have hhead : ch ∈ (src.text.drop t.range.stop).head? := by
    simp only [Source.slice, Text.slice, List.head?_take] at hch
    split at hch
    · cases hch
    · exact hch
  unfold endsLine at hend
  split at hend
  · rename_i hdrop
    rw [hdrop] at hhead
    cases hhead
  · rename_i hdrop
    rw [hdrop] at hhead
    cases hhead
    rfl
  · rename_i hdrop
    rw [hdrop] at hhead
    cases hhead
    rfl
  · cases hend

include hlegible

/-- **The comment tokens in a range without code are the comments of its text**, by induction on
them. -/
lemma map_value_commentsIn {r : Range} (hle : r.start ≤ r.stop) (hfree : src.CodeFree r)
    (hstart : src.Boundary r.start) (hstop : src.Boundary r.stop) :
    (src.commentsIn r).map Token.value = (src.slice r).comments := by
  induction hcs : src.commentsIn r generalizing r with
  | nil =>
    have hloose := (Source.tokenFree_of_commentsIn hfree hstart hstop hcs).loose hlegible
    refine (Text.comments_eq_nil_of_hash_not_mem fun hhash => ?_).symm
    exact absurd (hloose '#' hhash) (by decide)
  | cons t ts ih =>
    have hpair : (src.commentsIn r).Pairwise Token.Before := h.tokens.pairwise.filter _
    have ht : t ∈ src.commentsIn r := by simp [hcs]
    obtain ⟨hmem, hcomment, hlo, hhi⟩ := Source.mem_commentsIn.1 ht
    have hnonempty := h.tokens.nonempty t hmem
    rw [hcs] at hpair
    have hts := (List.pairwise_cons.1 hpair).1
    -- nothing stands before the first comment
    have hbefore : src.commentsIn ⟨r.start, t.range.start⟩ = [] := by
      rw [Source.commentsIn_eq_filter r ⟨r.start, t.range.start⟩ (Nat.le_refl _)
        (by simp only; omega), hcs, List.filter_eq_nil_iff]
      intro u hu
      simp only [Bool.and_eq_true, decide_eq_true_eq, not_and, Nat.not_le]
      rcases List.mem_cons.1 hu with rfl | hu
      · omega
      · obtain ⟨-, htu, huu⟩ := hts u hu
        omega
    have hfree' : src.CodeFree ⟨r.start, t.range.start⟩ := fun u hu hcode =>
      (hfree u hu hcode).imp_right fun hu => by simp only; omega
    have hloose := (Source.tokenFree_of_commentsIn hfree' hstart (h.boundary_start hmem)
      hbefore).loose hlegible
    -- and the others stand after it
    have hafter : src.commentsIn ⟨t.range.stop, r.stop⟩ = ts := by
      rw [Source.commentsIn_eq_filter r ⟨t.range.stop, r.stop⟩ (by simp only; omega)
        (Nat.le_refl _), hcs, List.filter_cons_of_neg (by simp; omega), List.filter_eq_self]
      intro u hu
      obtain ⟨-, htu, -⟩ := hts u hu
      have hu : u ∈ src.commentsIn r := by simp [hcs, hu]
      obtain ⟨-, -, -, hur⟩ := Source.mem_commentsIn.1 hu
      simp [htu, hur]
    have hfree'' : src.CodeFree ⟨t.range.stop, r.stop⟩ := fun u hu hcode =>
      (hfree u hu hcode).imp_left fun hu => by simp only; omega
    have hrest := ih hhi hfree'' (h.boundary_stop hmem) hstop hafter
    obtain ⟨body, hbody, hbreak⟩ := hlegible.comment t hmem hcomment
    have hsplit : src.slice r = src.slice ⟨r.start, t.range.start⟩ ++
        (t.value ++ src.slice ⟨t.range.stop, r.stop⟩) := by
      rw [← (hlegible.value t hmem).1]
      simp only [Source.slice]
      rw [src.text.slice_append_slice (Nat.le_of_lt hnonempty) hhi,
        src.text.slice_append_slice hlo (by omega)]
    rw [hsplit, Text.comments_append_of_hash_not_mem, hbody, Text.comments_comment hbreak,
      List.map_cons, hrest, hbody]
    · exact fun ch => h.isBreak_of_head? hmem hcomment
    · exact fun hhash => absurd (hloose '#' hhash) (by decide)

/-! ### The first line of a stretch -/

section Stretch

variable {s : Range} (hs : src.Stretch s) (hstart : src.Boundary s.start)

include hs hstart

omit hlegible hstart in
lemma boundary_stretch_stop : src.Boundary s.stop := by
  obtain ⟨next, hnext, -, hnextstart⟩ := hs.next
  rw [← hnextstart]
  exact h.boundary_start hnext

omit hlegible in
/-- A token stands before a stretch, after it, or is one of its comments. -/
lemma token_cases {t : Token} (ht : t ∈ src.tokens.toList) :
    t.range.stop ≤ s.start ∨ s.stop ≤ t.range.start ∨ t ∈ src.commentsIn s := by
  cases hcomment : t.isComment with
  | false => exact (hs.codeFree t ht hcomment).imp_right .inl
  | true =>
    rcases hstart t ht with hbefore | hbefore
    · exact .inl hbefore
    · rcases h.boundary_stretch_stop hs t ht with hafter | hafter
      · exact .inr (.inr (Source.mem_commentsIn.2 ⟨ht, hcomment, hbefore, hafter⟩))
      · exact .inr (.inl hafter)

omit hs hstart in
/-- A comment of a stretch stands on its first line or on a later one. -/
lemma comment_line_cases {t : Token} (ht : t ∈ src.commentsIn s) :
    t.startLine = src.lines.lineOf s.start ∧ t.range.stop ≤ src.lineEnd s ∨
      t.startLine ≠ src.lines.lineOf s.start ∧ src.lineEnd s ≤ t.range.start := by
  obtain ⟨hmem, hcomment, hlo, hhi⟩ := Source.mem_commentsIn.1 ht
  have hnonempty := h.tokens.nonempty t hmem
  rw [(h.tokenLines t hmem).1, h.lines]
  rcases Nat.lt_or_ge t.range.start (src.lineEnd s) with hlt | hge
  · refine .inl ⟨(lineOf_eq_of_not_mem hlo fun hbreak => ?_).symm, Nat.not_lt.1 fun hend => ?_⟩
    · obtain ⟨o, hso, hot, ho⟩ := Text.mem_slice.1 hbreak
      have hfirst : '\n' ∈ src.slice ⟨s.start, src.lineEnd s⟩ :=
        Text.mem_slice.2 ⟨o, hso, Nat.lt_trans hot hlt, ho⟩
      rw [(src.slice_lineEnd s).1] at hfirst
      exact Text.break_not_mem_firstLine _ hfirst
    · -- the comment would reach over a line break
      obtain ⟨ch, hch, hget⟩ := hlegible.exists_char hmem (Nat.le_of_lt hlt) hend
      have hbreak := Source.break_of_lineEnd_le (Nat.le_refl _) (by omega) hget
      rw [hget] at hbreak
      cases hbreak
      exact absurd (hlegible.isBreak_of_comment hmem hcomment hch) (by decide)
  · refine .inr ⟨lineOf_ne_of_mem hlo ?_, hge⟩
    obtain ⟨ch, hch, hget⟩ := hlegible.exists_char hmem (Nat.le_refl _) hnonempty
    have hbreak := Source.break_of_lineEnd_le hge (by omega) hget
    have hne : src.lineEnd s ≠ t.range.start := by
      intro heq
      rw [heq, hget] at hbreak
      cases hbreak
      exact absurd (hlegible.isBreak_of_comment hmem hcomment hch) (by decide)
    exact Text.mem_slice.2 ⟨_, src.start_le_lineEnd s, by omega, hbreak⟩

omit hs hstart in
lemma filter_startLine (hle : s.start ≤ s.stop) :
    (src.commentsIn s).filter (fun t => t.startLine == src.lines.lineOf s.start) =
        src.commentsIn ⟨s.start, src.lineEnd s⟩ ∧
      (src.commentsIn s).filter (fun t => t.startLine != src.lines.lineOf s.start) =
        src.commentsIn ⟨src.lineEnd s, s.stop⟩ := by
  have hend : src.lineEnd s ≤ s.stop := Source.lineEnd_le hle
  have hfirst := src.start_le_lineEnd s
  rw [Source.commentsIn_eq_filter s ⟨s.start, src.lineEnd s⟩ (Nat.le_refl _) hend,
    Source.commentsIn_eq_filter s ⟨src.lineEnd s, s.stop⟩ hfirst (Nat.le_refl _)]
  refine ⟨List.filter_congr fun t ht => ?_, List.filter_congr fun t ht => ?_⟩
  · obtain ⟨hmem, -, hlo, hhi⟩ := Source.mem_commentsIn.1 ht
    have hnonempty := h.tokens.nonempty t hmem
    rcases h.comment_line_cases hlegible ht with ⟨hline, hstop⟩ | ⟨hline, hstart⟩
    · simp [hline, hlo, hstop]
    · have : ¬t.range.stop ≤ src.lineEnd s := by omega
      simp [hline, this]
  · obtain ⟨hmem, -, hlo, hhi⟩ := Source.mem_commentsIn.1 ht
    have hnonempty := h.tokens.nonempty t hmem
    rcases h.comment_line_cases hlegible ht with ⟨hline, hstop⟩ | ⟨hline, hstart⟩
    · have : ¬src.lineEnd s ≤ t.range.start := by omega
      simp [hline, this]
    · simp [hline, hstart, hhi]

lemma boundary_lineEnd : src.Boundary (src.lineEnd s) := by
  intro t ht
  have hend : src.lineEnd s ≤ s.stop := Source.lineEnd_le hs.le
  have hfirst := src.start_le_lineEnd s
  rcases h.token_cases hs hstart ht with hbefore | hafter | hmem
  · exact .inl (by omega)
  · exact .inr (by omega)
  · rcases h.comment_line_cases hlegible hmem with ⟨-, hstop⟩ | ⟨-, hstart⟩
    · exact .inl hstop
    · exact .inr hstart

/-- The comments on the first line of a stretch and those on later lines, by the text. -/
lemma map_value_lines :
    (src.commentsIn ⟨s.start, src.lineEnd s⟩).map Token.value = (src.slice s).firstLine.comments ∧
      (src.commentsIn ⟨src.lineEnd s, s.stop⟩).map Token.value =
        (src.slice s).laterLines.comments := by
  have hend : src.lineEnd s ≤ s.stop := Source.lineEnd_le hs.le
  have hfirst := src.start_le_lineEnd s
  have hboundary := h.boundary_lineEnd hlegible hs hstart
  have hstop := h.boundary_stretch_stop hs
  have hfree : src.CodeFree ⟨s.start, src.lineEnd s⟩ := fun t ht hcode =>
    (hs.codeFree t ht hcode).imp_right fun hafter => Nat.le_trans hend hafter
  have hfree' : src.CodeFree ⟨src.lineEnd s, s.stop⟩ := fun t ht hcode =>
    (hs.codeFree t ht hcode).imp_left fun hbefore => Nat.le_trans hbefore hfirst
  rw [← (src.slice_lineEnd s).1, ← (src.slice_lineEnd s).2]
  exact ⟨h.map_value_commentsIn hlegible hfirst hfree hstart hboundary,
    h.map_value_commentsIn hlegible hend hfree' hboundary hstop⟩

omit hlegible hstart in
/-- The comments before the end of a stretch that follows code are those in it. -/
lemma commentsBefore_eq {before : Token} (hbefore : before ∈ src.tokens.toList)
    (hcode : before.isComment = false) (hbeforestop : before.range.stop = s.start) :
    src.commentsBefore s.stop = src.commentsIn s := by
  refine Token.eq_of_mem_iff (h.tokens.pairwise_commentsBefore _) (h.tokens.pairwise.filter _)
    fun t => ?_
  rw [h.tokens.mem_commentsBefore, Source.mem_commentsIn]
  refine and_congr_right fun ht => and_congr_right fun _ => ⟨fun ⟨hstop, hall⟩ => ?_,
    fun hwithin => ⟨hwithin.2, fun u hu hucode hustop => ?_⟩⟩
  · have hle := hs.le
    obtain ⟨-, hbt, -⟩ := hall before hbefore hcode (by omega)
    exact ⟨by omega, hstop⟩
  · have hu' := h.tokens.nonempty u hu
    have hfree := hs.codeFree u hu hucode
    have hlo := hwithin.1
    exact ⟨hu', by omega, h.tokens.nonempty t ht⟩

omit hlegible hstart in
/-- The comments after the start of a stretch are those in it. -/
lemma commentsAfter_eq : src.commentsAfter s.start = src.commentsIn s := by
  obtain ⟨next, hnext, hnextcode, hnextstart⟩ := hs.next
  have hle := hs.le
  refine Token.eq_of_mem_iff (h.tokens.pairwise_commentsAfter _) (h.tokens.pairwise.filter _)
    fun t => ?_
  rw [h.tokens.mem_commentsAfter, Source.mem_commentsIn]
  refine and_congr_right fun ht => and_congr_right fun _ => ⟨fun ⟨hlo, hall⟩ => ?_,
    fun hwithin => ⟨hwithin.1, fun u hu hucode hulo => ?_⟩⟩
  · obtain ⟨-, htn, -⟩ := hall next hnext hnextcode (by omega)
    exact ⟨hlo, by omega⟩
  · have hu' := h.tokens.nonempty u hu
    have hfree := hs.codeFree u hu hucode
    have hhi := hwithin.2
    exact ⟨h.tokens.nonempty t ht, by omega, hu'⟩

/-- After the last comment on its first line, the rest of the line of a stretch is white. -/
lemma firstEnd_spec (hstraight : src.Straight s) {p : Nat}
    (hp : p = Frame.endOf (src.commentsIn ⟨s.start, src.lineEnd s⟩) s.start) :
    p ≤ s.stop ∧ '\n' ∉ src.slice ⟨s.start, p⟩ ∧ (src.slice ⟨p, s.stop⟩).OpensWhite := by
  have hend : src.lineEnd s ≤ s.stop := Source.lineEnd_le hs.le
  have hfirst := src.start_le_lineEnd s
  have hpair : (src.commentsIn ⟨s.start, src.lineEnd s⟩).Pairwise Token.Before :=
    h.tokens.pairwise.filter _
  have hlo : s.start ≤ p ∧ p ≤ src.lineEnd s := by
    rcases Frame.endOf_cases (src.commentsIn ⟨s.start, src.lineEnd s⟩) s.start with
      ⟨-, heq⟩ | ⟨t, ht, -, heq⟩
    · omega
    · obtain ⟨hmem, -, hstart', hstop'⟩ := Source.mem_commentsIn.1 ht
      have hnonempty := h.tokens.nonempty t hmem
      simp only at hstart' hstop'
      omega
  have hsplit : src.slice ⟨s.start, p⟩ ++ src.slice ⟨p, src.lineEnd s⟩ =
      (src.slice s).firstLine := by
    rw [← (src.slice_lineEnd s).1]
    exact src.text.slice_append_slice hlo.1 hlo.2
  have hbreak : '\n' ∉ src.slice ⟨s.start, p⟩ ++ src.slice ⟨p, src.lineEnd s⟩ := by
    rw [hsplit]
    exact Text.break_not_mem_firstLine _
  rw [List.mem_append, not_or] at hbreak
  refine ⟨Nat.le_trans hlo.2 hend, hbreak.1, ?_⟩
  -- the rest of the line holds no token
  have hfree : src.TokenFree ⟨p, src.lineEnd s⟩ := by
    intro t ht
    rcases h.token_cases hs hstart ht with hbefore | hafter | hmem
    · exact .inl (by simp only; omega)
    · exact .inr (by simp only; omega)
    · rcases h.comment_line_cases hlegible hmem with ⟨-, hstop⟩ | ⟨-, hlater⟩
      · obtain ⟨ht, hcomment, hlo', -⟩ := Source.mem_commentsIn.1 hmem
        have hle := Frame.le_endOf hpair
          (Source.mem_commentsIn.2 ⟨ht, hcomment, hlo', hstop⟩) s.start
        exact .inl (by simp only; omega)
      · exact .inr hlater
  have hwhite := hfree.white hlegible (hstraight.mono (by simp only; omega) hend)
  have hrest : src.slice ⟨p, s.stop⟩ =
      src.slice ⟨p, src.lineEnd s⟩ ++ src.slice ⟨src.lineEnd s, s.stop⟩ :=
    (src.text.slice_append_slice hlo.2 hend).symm
  have hlater : (src.slice ⟨src.lineEnd s, s.stop⟩).OpensWhite := by
    rw [(src.slice_lineEnd s).2]
    rcases (src.slice s).laterLines_cases with hnil | ⟨rest, hcons⟩
    · rw [hnil]
      exact Text.white_nil.opensWhite
    · rw [hcons]
      exact nofun
  rw [hrest]
  exact hwhite.opensWhite.append hlater

end Stretch

/-! ### Owned comments -/

section Owned

variable {e : Entry} (he : e ∈ c.entries)

include he

omit hlegible in
lemma boundary_before : src.Boundary (Frame.of src e).before := by
  obtain ⟨before, anchor, hbefore, hanchor⟩ := h.exists_before he
  rw [Frame.of_eq_around hbefore hanchor]
  exact h.boundary_stop (h.tokens.tokenBefore_eq_some.1 hbefore).1

omit hlegible in
/-- The comments before an entry, by the stretch before it. -/
lemma exists_commentsBefore :
    ∃ before, src.codeBefore e.range.start = some before ∧
      before.endLine = src.lines.lineOf (Frame.of src e).before ∧
      (Frame.of src e).kept = Frame.endOf (Relocation.commentsBefore src e before).kept
        (Frame.of src e).before ∧
      src.commentsBefore e.range.start =
        src.commentsIn ⟨(Frame.of src e).before, (Frame.of src e).start⟩ := by
  obtain ⟨before, anchor, hbefore, hanchor⟩ := h.exists_before he
  obtain ⟨hmem, hcode, -, -⟩ := h.tokens.tokenBefore_eq_some.1 hbefore
  have hframe : (Frame.of src e).before = before.range.stop := by
    rw [Frame.of_eq_around hbefore hanchor]
    rfl
  refine ⟨before, hbefore, ?_, ?_, ?_⟩
  · rw [hframe]
    exact (h.tokenLines before hmem).2
  · rw [Frame.of_eq_around hbefore hanchor]
    rfl
  · exact h.commentsBefore_eq (h.stretch_before he) hmem (by simpa using hcode) hframe.symm

/-- **The comments that lead an entry** are those on later lines of the stretch before it. -/
lemma map_value_leading :
    (Relocation.leadingComments src e).map Token.value =
      (src.slice ⟨(Frame.of src e).before, (Frame.of src e).start⟩).laterLines.comments := by
  obtain ⟨before, hbefore, hline, -, hcomments⟩ := h.exists_commentsBefore he
  have hs := h.stretch_before he
  rw [← (h.map_value_lines hlegible hs (h.boundary_before he)).2,
    ← (h.filter_startLine hlegible hs.le).2, Relocation.leadingComments, hbefore]
  simp only [Relocation.commentsBefore, hcomments, hline]

/-- The comments that belong to what precedes an entry end on the first line of the stretch. -/
lemma kept_eq : (Frame.of src e).kept =
    Frame.endOf (src.commentsIn ⟨(Frame.of src e).before,
      src.lineEnd ⟨(Frame.of src e).before, (Frame.of src e).start⟩⟩) (Frame.of src e).before := by
  obtain ⟨before, -, hline, hkept, hcomments⟩ := h.exists_commentsBefore he
  rw [hkept, Relocation.commentsBefore, hcomments, hline,
    (h.filter_startLine hlegible (h.stretch_before he).le).1]

omit hlegible in
/-- The last token before an entry is followed by nothing. -/
lemma tokenFree_anchor : src.TokenFree ⟨(Frame.of src e).anchor, (Frame.of src e).start⟩ := by
  intro t ht
  obtain ⟨before, anchor, hbefore, hanchor⟩ := h.exists_before he
  obtain ⟨-, ⟨first, hfirst, -, hstart⟩, -⟩ := h.aligned e he
  rw [Frame.of_eq_around hbefore hanchor]
  rcases h.tokens.apart_start hfirst ht with hstop | hafter
  · rcases h.anchor_of_token hanchor ht (by omega) with rfl | ⟨-, hta, haa⟩
    · exact .inl (Nat.le_refl _)
    · exact .inl (Nat.le_trans hta (Nat.le_of_lt haa))
  · exact .inr (by rw [hstart] at hafter; exact hafter)

section Leading

variable (hstraight : src.Straight ⟨(Frame.of src e).before, (Frame.of src e).start⟩)

include hstraight

/-- The text of the comments that lead an entry: the line before it and the line after it are
white there. -/
lemma leading_text :
    '\n' ∉ src.slice ⟨(Frame.of src e).before, (Frame.of src e).kept⟩ ∧
      (src.slice (Frame.of src e).leading).OpensWhite ∧
      (src.slice ⟨(Frame.of src e).anchor, (Frame.of src e).start⟩).White := by
  have hframe := h.frame_ordered he
  obtain ⟨-, hbreak, hwhite⟩ := h.firstEnd_spec hlegible (h.stretch_before he)
    (h.boundary_before he) hstraight (h.kept_eq hlegible he)
  have hsplit : src.slice ⟨(Frame.of src e).kept, (Frame.of src e).start⟩ =
      src.slice (Frame.of src e).leading ++
        src.slice ⟨(Frame.of src e).anchor, (Frame.of src e).start⟩ :=
    (src.text.slice_append_slice hframe.kept_le hframe.anchor_le).symm
  refine ⟨hbreak, ?_, ?_⟩
  · rw [hsplit] at hwhite
    exact hwhite.left
  · refine (h.tokenFree_anchor he).white hlegible (hstraight.mono ?_ (Nat.le_refl _))
    exact Nat.le_trans hframe.before_le hframe.kept_le

/-- The comments that lead an entry are those of its leading text, up to white space at their
ends. -/
lemma trimmed_leading :
    (Relocation.leadingComments src e).map (fun t => t.value.trimmed) =
      (src.slice (Frame.of src e).leading).comments.map Text.trimmed := by
  have hframe := h.frame_ordered he
  obtain ⟨hbreak, hleading, hwhite⟩ := h.leading_text hlegible he hstraight
  have hsplit : src.slice ⟨(Frame.of src e).before, (Frame.of src e).start⟩ =
      src.slice ⟨(Frame.of src e).before, (Frame.of src e).kept⟩ ++
        (src.slice (Frame.of src e).leading ++
          src.slice ⟨(Frame.of src e).anchor, (Frame.of src e).start⟩) := by
    simp only [Source.slice, Frame.leading]
    rw [src.text.slice_append_slice hframe.kept_le hframe.anchor_le,
      src.text.slice_append_slice hframe.before_le
        (Nat.le_trans hframe.kept_le hframe.anchor_le)]
  have hvalues := congrArg (List.map Text.trimmed) (h.map_value_leading hlegible he)
  rw [List.map_map, hsplit, Text.comments_laterLines hbreak (hleading.append hwhite.opensWhite),
    Text.comments_append_white hwhite] at hvalues
  exact hvalues

end Leading

variable (hcomma : (Relocation.commaAfter src e).2 = e.endLine) {s : Range} (hs : src.Stretch s)
  (hstart : s.start = (Frame.of src e).comma)

include hcomma hs hstart

omit hlegible in
/-- The comments that trail an entry whose comma is on its last line. -/
lemma trailingComments_eq :
    Relocation.trailingComments src e =
      (src.commentsIn s).filter fun t => t.startLine == src.lines.lineOf s.start := by
  have hline := (h.commaAfter_spec he).2.1
  rw [Frame.of_comma] at hstart
  rw [Relocation.trailingComments, ← hcomma, hline, ← hstart, h.commentsAfter_eq hs]

/-- **The comments that trail an entry** are those on the first line of the stretch after it, when
its comma is on its last line. -/
lemma map_value_trailing :
    (Relocation.trailingComments src e).map Token.value =
      (src.slice s).firstLine.comments := by
  have hboundary : src.Boundary s.start := by
    rw [hstart]
    exact (h.boundary_trailing he).1
  rw [← (h.map_value_lines hlegible hs hboundary).1, ← (h.filter_startLine hlegible hs.le).1,
    h.trailingComments_eq he hcomma hs hstart]

lemma trail_eq : (Frame.of src e).trail =
    Frame.endOf (src.commentsIn ⟨s.start, src.lineEnd s⟩) s.start := by
  rw [Frame.of_trail, h.trailingComments_eq he hcomma hs hstart,
    (h.filter_startLine hlegible hs.le).1, hstart, Frame.of_comma]

variable (hstraight : src.Straight s)

include hstraight

/-- The text of the comments that trail an entry stands on one line, and the rest of the line is
white. -/
lemma trailing_text :
    (Frame.of src e).trail ≤ s.stop ∧ '\n' ∉ src.slice (Frame.of src e).trailing ∧
      (src.slice ⟨(Frame.of src e).trail, s.stop⟩).OpensWhite := by
  have hboundary : src.Boundary s.start := by
    rw [hstart]
    exact (h.boundary_trailing he).1
  have hspec := h.firstEnd_spec hlegible hs hboundary hstraight
    (h.trail_eq hlegible he hcomma hs hstart)
  rwa [hstart] at hspec

/-- The comments that trail an entry are those of its trailing text, up to white space at their
ends. -/
lemma trimmed_trailing :
    (Relocation.trailingComments src e).map (fun t => t.value.trimmed) =
      (src.slice (Frame.of src e).trailing).comments.map Text.trimmed := by
  obtain ⟨htrail, hbreak, hwhite⟩ := h.trailing_text hlegible he hcomma hs hstart hstraight
  have hsplit : src.slice s = src.slice (Frame.of src e).trailing ++
      src.slice ⟨(Frame.of src e).trail, s.stop⟩ := by
    simp only [Source.slice, Frame.trailing, hstart]
    exact (src.text.slice_append_slice (h.frame_ordered he).comma_le htrail).symm
  have hvalues := congrArg (List.map Text.trimmed)
    (h.map_value_trailing hlegible he hcomma hs hstart)
  rw [List.map_map, hsplit, Text.comments_firstLine hbreak hwhite] at hvalues
  exact hvalues

end Owned

end Container.WellFormed

end KeyOrder
