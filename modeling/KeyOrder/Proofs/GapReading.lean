import KeyOrder.Proofs.OwnedComments

/-!
# Reading a gap

A gap starts with the opening bracket or with a comma, and the last one ends with the closing
bracket and may have no comma.  Where such a gap has its comma, and so where its last stretch
starts, can be told from its text alone: a comma on the line of the entry before it is code, and a
comma that a `#` precedes on its line is not.
-/

namespace KeyOrder

namespace Text

/-! ### Texts of comments -/

/-- A text in which a `#` precedes everything but white space on its line. -/
def Quiet (text : Text) : Prop :=
  ∀ pre c post, text = pre ++ c :: post →
    isWhite c = true ∨ ∃ a b, pre ++ [c] = a ++ '#' :: b ∧ '\n' ∉ b

lemma White.quiet {a : Text} (ha : White a) : Quiet a := by
  rintro pre c post rfl
  exact .inl (ha c (by simp))

lemma Quiet.append {x y : Text} (hx : Quiet x) (hy : Quiet y) : Quiet (x ++ y) := by
  intro pre c post h
  rcases List.append_eq_append_iff.1 h with ⟨pre', rfl, hy'⟩ | ⟨rest, hx', hrest⟩
  · refine (hy pre' c post hy').imp_right ?_
    rintro ⟨a, b, hab, hb⟩
    exact ⟨x ++ a, b, by rw [List.append_assoc, hab, List.append_assoc], hb⟩
  · cases rest with
    | nil =>
      -- the character opens the second part
      refine (hy [] c post hrest.symm).imp_right ?_
      rintro ⟨a, b, hab, hb⟩
      exact ⟨pre ++ a, b, by rw [← List.nil_append [c], hab, List.append_assoc], hb⟩
    | cons d rest =>
      obtain ⟨rfl, -⟩ := List.cons.inj hrest
      exact hx pre c rest hx'

/-- A comma with blanks before it. -/
def IsComma (text : Text) : Prop := ∃ w, text = w ++ [','] ∧ White w ∧ '\n' ∉ w

lemma IsComma.break_not_mem {a : Text} (ha : IsComma a) : '\n' ∉ a := by
  obtain ⟨w, rfl, -, hbreak⟩ := ha
  simpa using hbreak

lemma IsComma.hash_not_mem {a : Text} (ha : IsComma a) : '#' ∉ a := by
  obtain ⟨w, rfl, hwhite, -⟩ := ha
  simpa using hwhite.hash_not_mem

/-- The parts of one of the gaps around `n` entries: a bracket or a comma, comments, and a bracket
after the last entry. -/
structure GapParts (n j : Nat) (head body tail : Text) : Prop where
  first : j = 0 → head.length = 1
  /-- Only the last gap may have no comma. -/
  comma : 0 < j → IsComma head ∨ head = [] ∧ j = n ∧ Quiet body
  inner : j < n → tail = []
  last : j = n → tail.length = 1

/-! ### Characters of a part of a text -/

lemma getElem?_of_slice_eq_cons {text rest : Text} {a b : Nat} {c : Char}
    (h : text.slice a b = c :: rest) : text[a]? = some c ∧ a < b := by
  have hhead := congrArg List.head? h
  rw [Text.slice, List.head?_take, List.head?_cons] at hhead
  split at hhead
  · cases hhead
  · rw [List.head?_drop] at hhead
    exact ⟨hhead, by omega⟩

lemma slice_eq_cons {text : Text} {a b : Nat} {c : Char} (h : text[a]? = some c) (hab : a < b) :
    text.slice a b = c :: text.slice (a + 1) b := by
  obtain ⟨hlt, hget⟩ := List.getElem?_eq_some_iff.1 h
  rw [slice, slice, List.drop_eq_getElem_cons hlt, hget, show b - a = b - (a + 1) + 1 by omega,
    List.take_succ_cons]

end Text

namespace Source

variable {src : Source} (h : src.Legible)

include h

/-- Every character that cannot stand outside of the tokens is in one of them. -/
lemma Legible.exists_token {o : Nat} {c : Char} (hget : src.text[o]? = some c)
    (hc : Text.isLoose c = false) :
    ∃ t ∈ src.tokens.toList, t.range.start ≤ o ∧ o < t.range.stop := by
  by_contra hnone
  have hloose := h.loose o c hget fun t ht => by
    by_contra hmeets
    exact hnone ⟨t, ht, by omega, by omega⟩
  rw [hc] at hloose
  cases hloose

lemma Legible.hash_of_comment {t : Token} (ht : t ∈ src.tokens.toList)
    (hcomment : t.isComment = true) : src.text[t.range.start]? = some '#' := by
  obtain ⟨body, hbody, -⟩ := h.comment t ht hcomment
  have hvalue := (h.value t ht).1
  rw [hbody] at hvalue
  exact (Text.getElem?_of_slice_eq_cons hvalue).1

/-- A range without code and without continued lines is quiet: what stands there is in comments. -/
lemma quiet_slice {r : Range} (hfree : src.CodeFree r) (hstart : src.Boundary r.start)
    (hstraight : src.Straight r) : (src.slice r).Quiet := by
  intro pre c post heq
  obtain ⟨hpre, hpost⟩ := Text.slice_eq_append heq
  obtain ⟨hget, hstop⟩ := Text.getElem?_of_slice_eq_cons hpost
  by_cases hwhite : Text.isWhite c = true
  · exact .inl hwhite
  · have hcovered : ∃ t ∈ src.tokens.toList, t.range.start ≤ r.start + pre.length ∧
        r.start + pre.length < t.range.stop := by
      by_cases hbackslash : c = '\\'
      · rw [hbackslash] at hget
        exact hstraight _ (Nat.le_add_right ..) hstop hget
      · refine h.exists_token hget ?_
        simpa [Text.isLoose, hbackslash] using hwhite
    obtain ⟨t, ht, hlo, hhi⟩ := hcovered
    have htstart := hstart t ht
    have hcomment : t.isComment = true := by
      by_contra hcode
      have := hfree t ht (by simpa using hcode)
      omega
    -- the comment runs from its `#` up to the character at least
    have hlast := Text.slice_eq_cons hget (Nat.lt_succ_self _)
    rw [Text.slice_self] at hlast
    have hslice := src.text.slice_append_slice (Nat.le_add_right r.start pre.length)
      (Nat.le_succ (r.start + pre.length))
    rw [hpre, Nat.succ_eq_add_one, hlast] at hslice
    refine .inr ⟨src.text.slice r.start t.range.start,
      src.text.slice (t.range.start + 1) (r.start + pre.length + 1), ?_, fun hbreak => ?_⟩
    · rw [hslice, ← src.text.slice_append_slice (b := t.range.start) (by omega) (by omega),
        Text.slice_eq_cons (h.hash_of_comment ht hcomment) (by omega)]
    · obtain ⟨o, hlo', hhi', ho⟩ := Text.mem_slice.1 hbreak
      obtain ⟨ch, hch, hget'⟩ := h.exists_char ht (o := o) (by omega) (by omega)
      rw [ho] at hget'
      cases hget'
      exact absurd (h.isBreak_of_comment ht hcomment hch) (by decide)

end Source

lemma ContainerKind.Brackets.length {k : ContainerKind} {opening closing : Token}
    (h : k.Brackets opening closing) :
    opening.value.length = 1 ∧ closing.value.length = 1 := by
  cases k with
  | display =>
    rw [show opening.value = _ from beq_iff_eq.1 h.1, show closing.value = _ from beq_iff_eq.1 h.2]
    decide
  | call =>
    rw [show opening.value = _ from beq_iff_eq.1 h.1, show closing.value = _ from beq_iff_eq.1 h.2]
    decide
  | pattern => exact h.elim

/-- The code after an entry is a comma, or the entry has none. -/
lemma Relocation.commaAfter_cases (src : Source) (e : Entry) :
    (∃ t, src.codeAfter e.range.stop = some t ∧ t.is "," = true ∧
      commaAfter src e = (t.range, t.endLine)) ∨ commaAfter src e = (e.range, e.endLine) := by
  unfold commaAfter
  split
  · rename_i t hafter
    split
    · rename_i hcomma
      exact .inl ⟨t, hafter, hcomma, rfl⟩
    · exact .inr rfl
  · exact .inr rfl

lemma head?_eq_get {α : Type} {xs : List α} {k : Fin xs.length} (hk : k.val = 0) :
    xs.head? = some (xs.get k) := by
  rw [List.head?_eq_getElem?, ← hk, List.get_eq_getElem, List.getElem?_eq_getElem]

lemma getLast?_eq_get {α : Type} {xs : List α} {k : Fin xs.length} (hk : k.val + 1 = xs.length) :
    xs.getLast? = some (xs.get k) := by
  rw [List.getLast?_eq_getElem?, List.get_eq_getElem, show xs.length - 1 = k.val by omega,
    List.getElem?_eq_getElem]

lemma Container.gap_succ_start (c : Container) (opening closing : Token)
    (k : Fin c.entries.length) :
    (c.gap opening closing k.succ).start = (c.entries.get k).range.stop := by
  simp [Container.gap, Range.gap, Container.ranges]

namespace Container.WellFormed

variable {src : Source} {c : Container} {opening closing : Token}
  (h : c.WellFormed src opening closing) (hlegible : src.Legible)

include h

/-! ### Where a gap has its comma -/

lemma commaAfter_eq {e : Entry} {hi : Nat} {t : Token} {ts : List Token} (hcomma : t.is "," = true)
    (hts : src.codeBetween e.range.stop hi = t :: ts) :
    Relocation.commaAfter src e = (t.range, t.endLine) := by
  have hmem : t ∈ src.codeBetween e.range.stop hi := by simp [hts]
  obtain ⟨ht, hcode, hlo, -⟩ := Source.mem_codeBetween.1 hmem
  rw [Relocation.commaAfter,
    h.tokens.codeAfter_eq_some ht hcode hlo (h.tokens.codeBetween_start hts)]
  exact if_pos hcomma

/-- The code in the gap after an entry is its comma and the closing bracket. -/
lemma code_of_gap (k : Fin c.entries.length) {t : Token} (ht : t ∈ src.tokens.toList)
    (hcode : t.isComment = false) (hlo : (c.entries.get k).range.stop ≤ t.range.start)
    (hhi : t.range.stop ≤ (c.gap opening closing k.succ).stop) :
    t.is "," = true ∧ (Frame.of src (c.entries.get k)).comma = t.range.stop ∨ t = closing := by
  have hmem := Source.mem_codeBetween.2 ⟨ht, hcode, hlo, hhi⟩
  by_cases hk : k.val + 1 < c.entries.length
  · have hstop : (c.gap opening closing k.succ).stop =
        (c.entries.get ⟨k.val + 1, hk⟩).range.start := dif_pos hk
    obtain ⟨u, hcomma, hu⟩ := h.commas _ _ (infix_of_succ (i := k) (j := ⟨k.val + 1, hk⟩) rfl)
    rw [hstop, hu, List.mem_singleton] at hmem
    rw [hmem, Frame.of_comma, h.commaAfter_eq hcomma hu]
    exact .inl ⟨hcomma, rfl⟩
  · have hstop : (c.gap opening closing k.succ).stop = closing.range.stop := dif_neg hk
    rw [hstop] at hmem
    rcases h.last _ (getLast?_eq_get (k := k) (by omega)) with hu | ⟨u, hcomma, hu⟩
    · rw [hu, List.mem_singleton] at hmem
      exact .inr hmem
    · rw [hu] at hmem
      rcases List.mem_pair.1 hmem with rfl | rfl
      · rw [Frame.of_comma, h.commaAfter_eq hcomma hu]
        exact .inl ⟨hcomma, rfl⟩
      · exact .inr rfl

/-- A gap ends where a token starts or ends. -/
lemma boundary_gap_stop (hn : 0 < c.entries.length) (j : Fin (c.entries.length + 1)) :
    src.Boundary (c.gap opening closing j).stop := by
  obtain ⟨s, hat, hs⟩ := h.exists_stretch hn j
  rcases h.gap_stop_cases hat hn with hstop | ⟨t, ht, -, hrange⟩
  · rw [hstop]
    exact h.boundary_stretch_stop hs
  · have hboundary := h.boundary_stop ht
    rwa [hrange] at hboundary

include hlegible

/-- **A comma on the line of the entry before it is the comma of that entry.** -/
lemma comma_of_isComma (k : Fin c.entries.length) {head rest : Text}
    (hgap : src.slice (c.gap opening closing k.succ) = head ++ rest) (hhead : head.IsComma) :
    (Frame.of src (c.entries.get k)).comma = (c.entries.get k).range.stop + head.length ∧
      (Relocation.commaAfter src (c.entries.get k)).2 = (c.entries.get k).endLine := by
  have hn : 0 < c.entries.length := Nat.lt_of_le_of_lt (Nat.zero_le _) k.isLt
  have he : c.entries.get k ∈ c.entries := List.get_mem ..
  obtain ⟨-, -, last, hlast, -, hlaststop⟩ := h.aligned _ he
  obtain ⟨w, hw, -, -⟩ := id hhead
  have hlength : head.length = w.length + 1 := by rw [hw, List.length_append]; rfl
  have hcomma := hgap
  rw [hw, List.append_assoc] at hcomma
  have hslice := (Text.slice_eq_append hgap).1
  obtain ⟨hget, hlt⟩ := Text.getElem?_of_slice_eq_cons (Text.slice_eq_append hcomma).2
  rw [c.gap_succ_start] at hslice hget hlt
  -- the comma is in a token, which is code
  obtain ⟨t, ht, hlo, hhi⟩ := hlegible.exists_token hget (by decide)
  have hstart : (c.entries.get k).range.stop ≤ t.range.start := by
    have := h.boundary_stop hlast t ht
    omega
  have hcode : t.isComment = false := by
    by_contra hcomment
    have hhash := hlegible.hash_of_comment ht (by simpa using hcomment)
    refine hhead.hash_not_mem ?_
    rw [← hslice]
    exact Text.mem_slice.2 ⟨_, hstart, by omega, hhash⟩
  have hstop : t.range.stop ≤ (c.gap opening closing k.succ).stop := by
    have := h.boundary_gap_stop hn k.succ t ht
    omega
  obtain ⟨hvalue, hrange⟩ := hlegible.value t ht
  rcases h.code_of_gap k ht hcode hstart hstop with ⟨his, heq⟩ | rfl
  · have hone : t.value = [','] := beq_iff_eq.1 his
    rw [hone, List.length_singleton] at hrange
    have hend : (Frame.of src (c.entries.get k)).comma =
        (c.entries.get k).range.stop + head.length := by omega
    refine ⟨hend, ?_⟩
    rw [(h.commaAfter_spec he).2.1, (h.entryLines _ he).2, ← Frame.of_comma, hend, h.lines]
    refine (lineOf_eq_of_not_mem (Nat.le_add_right ..) ?_).symm
    rw [hslice]
    exact hhead.break_not_mem
  · -- the closing bracket is no comma
    rw [h.brackets.length.2] at hrange
    have hone := Text.slice_eq_cons hget (Nat.lt_succ_self _)
    rw [Text.slice_self] at hone
    have hstart' : t.range.start = (c.entries.get k).range.stop + w.length := by omega
    rw [Source.slice, hrange, hstart'] at hvalue
    have hclosing := h.brackets.closing_ne_comma
    rw [Token.is, hvalue.symm.trans hone] at hclosing
    exact absurd hclosing (by decide)

/-- The last gap up to the closing bracket. -/
lemma slice_closing (hn : 0 < c.entries.length) {lo : Nat} (hlo : lo ≤ closing.range.start)
    {body tail : Text} (hgap : src.text.slice lo closing.range.stop = body ++ tail)
    (htail : tail.length = 1) : src.text.slice lo closing.range.start = body := by
  obtain ⟨e, he⟩ : ∃ e, c.entries.getLast? = some e :=
    ⟨_, List.getLast?_eq_some_getLast (List.ne_nil_of_length_pos hn)⟩
  have hvalue := (hlegible.value closing (h.closing_after he).1).1
  rw [← src.text.slice_append_slice hlo (h.closing_le hn)] at hgap
  refine (List.append_inj' hgap ?_).1
  rw [htail, ← h.brackets.length.2, ← hvalue]
  rfl

/-- A `#` before the next code is in a comment, and a line break stands between the two. -/
lemma break_of_hash (hbreak : src.BreakFree) {lo q : Nat} {t : Token} (hlo : src.Boundary lo)
    (hafter : src.codeAfter lo = some t) (hloq : lo ≤ q) (hq : q < t.range.start)
    (hhash : src.text[q]? = some '#') : '\n' ∈ src.text.slice (q + 1) t.range.start := by
  obtain ⟨ht, -, -, hall⟩ := h.tokens.tokenAfter_eq_some.1 hafter
  obtain ⟨u, hu, hulo, huhi⟩ := hlegible.exists_token hhash (by decide)
  have hstart : lo ≤ u.range.start := by
    have := hlo u hu
    omega
  have hcomment : u.isComment = true := by
    by_contra hucode
    rcases hall u hu (by simpa using hucode) hstart with rfl | ⟨htt, htu, -⟩
    · omega
    · omega
  have hut : u.range.stop ≤ t.range.start := by
    have := h.tokens.apart_start ht hu
    omega
  obtain ⟨o, hlo', hhi', ho⟩ := Text.mem_slice.1 (h.lineBreak_after hbreak hu hcomment ht hut)
  exact Text.mem_slice.2 ⟨o, by omega, hhi', ho⟩

/-- **A gap of comments only has no comma.** -/
lemma commaAfter_of_quiet (hbreak : src.BreakFree) {e : Entry} (he : c.entries.getLast? = some e)
    (hquiet : (src.slice ⟨e.range.stop, closing.range.start⟩).Quiet) :
    Relocation.commaAfter src e = (e.range, e.endLine) := by
  refine (Relocation.commaAfter_cases src e).resolve_left ?_
  rintro ⟨t, hafter, hcomma, heq⟩
  obtain ⟨ht, -, hlo, -⟩ := h.tokens.tokenAfter_eq_some.1 hafter
  have hstop : t.range.stop ≤ closing.range.start := by
    have hle := (h.closing_after he).2.2.1
    rwa [heq] at hle
  have hvalue := (hlegible.value t ht).1
  have hnonempty := h.tokens.nonempty t ht
  rw [show t.value = [','] from beq_iff_eq.1 hcomma] at hvalue
  have hget := (Text.getElem?_of_slice_eq_cons hvalue).1
  -- a `#` stands before the comma on its line
  have hsplit : src.slice ⟨e.range.stop, closing.range.start⟩ =
      src.text.slice e.range.stop t.range.start ++
        ',' :: src.text.slice (t.range.start + 1) closing.range.start := by
    rw [← Text.slice_eq_cons hget (by omega), src.text.slice_append_slice hlo (by omega)]
    rfl
  obtain ⟨a, b, hab, hb⟩ := (hquiet _ _ _ hsplit).resolve_left (by decide)
  have hhead := src.text.slice_append_slice hlo (Nat.le_succ t.range.start)
  rw [Text.slice_eq_cons hget (Nat.lt_succ_self _), Text.slice_self, hab] at hhead
  have hrest := (Text.slice_eq_append hhead.symm).2
  obtain ⟨hhash, hlt⟩ := Text.getElem?_of_slice_eq_cons hrest
  have hne : e.range.stop + List.length a ≠ t.range.start := by
    intro heq
    rw [heq, hget] at hhash
    cases hhash
  obtain ⟨-, -, last, hlast, -, hlaststop⟩ := h.aligned e (List.mem_of_getLast? he)
  have hboundary := h.boundary_stop hlast
  rw [hlaststop] at hboundary
  obtain ⟨o, hlo', hhi', ho⟩ := Text.mem_slice.1 (h.break_of_hash hlegible hbreak hboundary hafter
    (Nat.le_add_right ..) (by omega) hhash)
  rw [Text.slice_eq_cons hhash hlt] at hrest
  refine hb ?_
  rw [← (List.cons.inj hrest).2]
  exact Text.mem_slice.2 ⟨o, hlo', by omega, ho⟩

section Parts

variable (hbreak : src.BreakFree) (hn : 0 < c.entries.length) {j : Fin (c.entries.length + 1)}
  {s : Range} (hat : Frame.StretchAt (frames src c) closing.range.start j s)
  {head body tail : Text} (hgap : src.slice (c.gap opening closing j) = head ++ (body ++ tail))
  (hparts : Text.GapParts c.entries.length j.val head body tail)

include hbreak hn hat hgap hparts

/-- Where the last stretch of a gap starts, and the line of its comma. -/
lemma start_of_gapParts :
    s.start = (c.gap opening closing j).start + head.length ∧
      ∀ k : Fin c.entries.length, k.val + 1 = j.val →
        (Relocation.commaAfter src (c.entries.get k)).2 = (c.entries.get k).endLine := by
  cases j using Fin.cases with
  | zero =>
    have hfirst := h.frame_first (head?_eq_get (k := ⟨0, hn⟩) rfl)
    refine ⟨?_, fun k hk => absurd hk (Nat.succ_ne_zero _)⟩
    have hrange := (hlegible.value opening h.opening_mem.1).2
    rw [h.brackets.length.1] at hrange
    rw [(hat.entry ⟨0, hn⟩ rfl).1, hparts.first rfl]
    exact hfirst.trans hrange
  | succ k =>
    have hk : ∀ i : Fin c.entries.length, i.val + 1 = k.succ.val → i = k := fun i hi =>
      Fin.ext (by rw [Fin.val_succ] at hi; omega)
    rw [hat.comma k rfl, c.gap_succ_start]
    rcases hparts.comma (Nat.succ_pos _) with hhead | ⟨rfl, hlast, hquiet⟩
    · obtain ⟨hstart, hline⟩ := h.comma_of_isComma hlegible k hgap hhead
      refine ⟨hstart, fun i hi => ?_⟩
      rw [hk i hi]
      exact hline
    · have he := getLast?_eq_get (k := k) hlast
      have hlo := (h.commaAfter_spec (List.mem_of_getLast? he)).1
      have hhi := (h.closing_after he).2.2.1
      have hstop : (c.gap opening closing k.succ).stop = closing.range.stop :=
        dif_neg (Nat.not_lt.2 (Nat.le_of_eq hlast.symm))
      rw [Source.slice, c.gap_succ_start, hstop, List.nil_append] at hgap
      have hbody := h.slice_closing hlegible hn (Nat.le_trans hlo hhi) hgap (hparts.last hlast)
      rw [← hbody] at hquiet
      have hafter := h.commaAfter_of_quiet hlegible hbreak he hquiet
      refine ⟨?_, fun i hi => ?_⟩
      · rw [frames, Frame.of_comma, hafter]
        rfl
      · rw [hk i hi, hafter]

/-- **The last stretch of a gap, by the text of the gap.** -/
lemma slice_of_gapParts (hs : src.Stretch s) : src.slice s = body := by
  have hstart := (h.start_of_gapParts hlegible hbreak hn hat hgap hparts).1
  have hrest := (Text.slice_eq_append hgap).2
  rw [← hstart] at hrest
  by_cases hj : j.val < c.entries.length
  · have hstop : (c.gap opening closing j).stop = s.stop := by
      rw [(hat.entry ⟨j.val, hj⟩ rfl).2]
      exact dif_pos hj
    rw [hstop, hparts.inner hj, List.append_nil] at hrest
    exact hrest
  · have hlast : j.val = c.entries.length := by omega
    have hstop : (c.gap opening closing j).stop = closing.range.stop := dif_neg hj
    have hle := hs.le
    rw [hat.last hlast] at hle
    rw [hstop] at hrest
    have hbody := h.slice_closing hlegible hn hle hrest (hparts.last hlast)
    rwa [← hat.last hlast] at hbody

end Parts

end Container.WellFormed

end KeyOrder
