import KeyOrder.Proofs.Lines
import KeyOrder.Relocation

/-!
# The layout of a container

What is known of the tokens in and around a container whose entries may be moved: it starts with a
bracket, its entries are separated by single commas, and comments and line breaks stand anywhere in
the gaps.
-/

namespace KeyOrder

/-! ### Well-formed containers -/

/-- The tokens between two offsets that are no comments. -/
def Source.codeBetween (src : Source) (lo hi : Nat) : List Token :=
  src.tokens.toList.filter fun t =>
    !t.isComment && decide (lo ≤ t.range.start) && decide (t.range.stop ≤ hi)

lemma Source.mem_codeBetween {src : Source} {lo hi : Nat} {t : Token} :
    t ∈ src.codeBetween lo hi ↔ t ∈ src.tokens.toList ∧ t.isComment = false ∧
      lo ≤ t.range.start ∧ t.range.stop ≤ hi := by
  simp [codeBetween, and_assoc]

/-- No code meets a range. -/
def Source.CodeFree (src : Source) (r : Range) : Prop :=
  ∀ t ∈ src.tokens.toList, t.isComment = false →
    t.range.stop ≤ r.start ∨ r.stop ≤ t.range.start

/-- Comments from one offset to another: no code, and a comment at the end. -/
structure Source.Comments (src : Source) (r : Range) : Prop where
  codeFree : src.CodeFree r
  last : ∃ t ∈ src.tokens.toList, t.isComment = true ∧ r.start ≤ t.range.start ∧
    t.range.stop = r.stop

/-- The rest of a text after a comment: a line break, with or without a carriage return, or
nothing. -/
def endsLine : Text → Bool
  | [] => true
  | '\n' :: _ => true
  | '\r' :: '\n' :: _ => true
  | _ => false

/-- The brackets of a container.  Patterns are not moved about and have none here. -/
def ContainerKind.Brackets : ContainerKind → Token → Token → Prop
  | display, opening, closing => opening.is "\x7b" = true ∧ closing.is "\x7d" = true
  | call, opening, closing => opening.is "(" = true ∧ closing.is ")" = true
  | pattern, _, _ => False

/-- A container stands in its source as the grammar and the tokens of the language have it, with
its brackets given. -/
structure Container.WellFormed (src : Source) (c : Container) (opening closing : Token) : Prop where
  tokens : src.Ordered
  /-- `Source.ofText` makes the lines from the text, and tokens and entries are made with the lines
  of their ends. -/
  lines : src.lines = .ofText src.text
  tokenLines : ∀ t ∈ src.tokens.toList, t.startLine = src.lines.lineOf t.range.start ∧
    t.endLine = src.lines.lineOf t.range.stop
  commentsEnd : ∀ t ∈ src.tokens.toList, t.isComment = true →
    endsLine (src.text.drop t.range.stop) = true
  entryLines : ∀ e ∈ c.entries, e.startLine = src.lines.lineOf e.range.start ∧
    e.endLine = src.lines.lineOf e.range.stop
  /-- An entry runs from the start of a token to the end of a token. -/
  aligned : ∀ e ∈ c.entries, e.range.start < e.range.stop ∧
    (∃ t ∈ src.tokens.toList, t.isComment = false ∧ t.range.start = e.range.start) ∧
    ∃ t ∈ src.tokens.toList, t.isComment = false ∧ t.range.stop = e.range.stop
  brackets : c.kind.Brackets opening closing
  opening_mem : opening ∈ src.tokens.toList ∧ opening.isComment = false
  /-- Nothing but comments stands between the opening bracket and the first entry. -/
  first : ∀ e, c.entries.head? = some e →
    opening.range.stop ≤ e.range.start ∧ src.codeBetween opening.range.stop e.range.start = []
  /-- One comma stands between consecutive entries. -/
  commas : ∀ a b, [a, b] <:+: c.entries →
    ∃ t, t.is "," = true ∧ src.codeBetween a.range.stop b.range.start = [t]
  /-- The closing bracket follows the last entry, after a comma or without one. -/
  last : ∀ e, c.entries.getLast? = some e →
    src.codeBetween e.range.stop closing.range.stop = [closing] ∨
      ∃ t, t.is "," = true ∧ src.codeBetween e.range.stop closing.range.stop = [t, closing]

lemma ContainerKind.Brackets.closing_ne_comma {k : ContainerKind} {opening closing : Token}
    (h : k.Brackets opening closing) : closing.is "," = false := by
  cases k with
  | display =>
    have hvalue : closing.value = "\x7d".toList := beq_iff_eq.1 h.2
    rw [Token.is, hvalue]
    decide
  | call =>
    have hvalue : closing.value = ")".toList := beq_iff_eq.1 h.2
    rw [Token.is, hvalue]
    decide
  | pattern => exact h.elim

/-! ### Code around an offset -/

namespace Source.Ordered

variable {src : Source} (h : src.Ordered)

include h

lemma trichotomy {a b : Token} (ha : a ∈ src.tokens.toList) (hb : b ∈ src.tokens.toList) :
    a = b ∨ a.Before b ∨ b.Before a :=
  eq_or_rel_of_mem h.pairwise ha hb

lemma codeBefore_eq_some {offset : Nat} {t : Token} (ht : t ∈ src.tokens.toList)
    (hcode : t.isComment = false) (hstop : t.range.stop ≤ offset)
    (hbetween : src.codeBetween t.range.stop offset = []) : src.codeBefore offset = some t := by
  refine h.tokenBefore_eq_some.2 ⟨ht, by simp [hcode], hstop, fun u hu hcounts hsu => ?_⟩
  rcases h.trichotomy hu ht with rfl | hut | htu
  · exact .inl rfl
  · exact .inr hut
  · have hmem : u ∈ src.codeBetween t.range.stop offset :=
      mem_codeBetween.2 ⟨hu, by simpa using hcounts, htu.2.1, hsu⟩
    rw [hbetween] at hmem
    exact absurd hmem List.not_mem_nil

lemma codeAfter_eq_some {offset : Nat} {t : Token} (ht : t ∈ src.tokens.toList)
    (hcode : t.isComment = false) (hstart : offset ≤ t.range.start)
    (hbetween : src.codeBetween offset t.range.start = []) : src.codeAfter offset = some t := by
  refine h.tokenAfter_eq_some.2 ⟨ht, by simp [hcode], hstart, fun u hu hcounts hsu => ?_⟩
  rcases h.trichotomy hu ht with rfl | hut | htu
  · exact .inl rfl
  · have hmem : u ∈ src.codeBetween offset t.range.start :=
      mem_codeBetween.2 ⟨hu, by simpa using hcounts, hsu, hut.2.1⟩
    rw [hbetween] at hmem
    exact absurd hmem List.not_mem_nil
  · exact .inr htu

lemma pairwise_codeBetween (lo hi : Nat) : (src.codeBetween lo hi).Pairwise Token.Before :=
  h.pairwise.filter _

/-- Code between two offsets that starts with a token has none before it. -/
lemma codeBetween_start {lo hi : Nat} {t : Token} {ts : List Token}
    (hts : src.codeBetween lo hi = t :: ts) : src.codeBetween lo t.range.start = [] := by
  refine List.eq_nil_iff_forall_not_mem.2 ?_
  intro u hu
  obtain ⟨hmem, hcode, hlo, hhi⟩ := mem_codeBetween.1 hu
  have hpair := h.pairwise_codeBetween lo hi
  have ht : t ∈ src.codeBetween lo hi := by
    rw [hts]
    exact List.mem_cons_self ..
  obtain ⟨-, -, -, hthi⟩ := mem_codeBetween.1 ht
  have htu := h.nonempty t (mem_codeBetween.1 ht).1
  have hu' : u ∈ src.codeBetween lo hi := mem_codeBetween.2 ⟨hmem, hcode, hlo, by omega⟩
  have huu := h.nonempty u hmem
  rw [hts] at hu' hpair
  rcases List.mem_cons.1 hu' with rfl | hu'
  · omega
  · obtain ⟨-, hbefore, -⟩ := (List.pairwise_cons.1 hpair).1 u hu'
    omega

/-- Code between two offsets that is one token has none after it. -/
lemma codeBetween_stop {lo hi : Nat} {t : Token} (hts : src.codeBetween lo hi = [t]) :
    src.codeBetween t.range.stop hi = [] := by
  refine List.eq_nil_iff_forall_not_mem.2 ?_
  intro u hu
  obtain ⟨hmem, hcode, hlo, hhi⟩ := mem_codeBetween.1 hu
  have ht : t ∈ src.codeBetween lo hi := by
    rw [hts]
    exact List.mem_cons_self ..
  obtain ⟨htmem, -, htlo, -⟩ := mem_codeBetween.1 ht
  have htu := h.nonempty t htmem
  have hu' : u ∈ src.codeBetween lo hi := mem_codeBetween.2 ⟨hmem, hcode, by omega, hhi⟩
  rw [hts] at hu'
  obtain rfl := List.mem_singleton.1 hu'
  omega

/-- Code between two offsets falls into that before and that after an offset in no token. -/
lemma codeBetween_append {lo mid hi : Nat} (hlo : lo ≤ mid) (hhi : mid ≤ hi)
    (hmid : src.CodeFree ⟨mid, mid⟩) :
    src.codeBetween lo hi = src.codeBetween lo mid ++ src.codeBetween mid hi := by
  refine filter_eq_append (h.pairwise.imp fun {t u} htu ht => ?_) (fun t ht => ?_)
    fun t ht ht' => ?_
  · obtain ⟨htt, htu, huu⟩ := htu
    simp only [Bool.and_eq_true, decide_eq_true_eq] at ht
    have : ¬u.range.stop ≤ mid := by omega
    simp [this]
  · have hnonempty := h.nonempty t ht
    have hmid := hmid t ht
    cases hcode : t.isComment with
    | true => rfl
    | false =>
      have := hmid hcode
      simp only at this
      rw [Bool.eq_iff_iff]
      simp only [Bool.not_false, Bool.true_and, Bool.or_eq_true, Bool.and_eq_true,
        decide_eq_true_eq]
      omega
  · have hnonempty := h.nonempty t ht
    simp only [Bool.and_eq_true, decide_eq_true_eq] at ht'
    have : ¬t.range.stop ≤ mid := by omega
    simp [this]

lemma codeBetween_of_codeFree {r : Range} (hr : src.CodeFree r) :
    src.codeBetween r.start r.stop = [] := by
  refine List.eq_nil_iff_forall_not_mem.2 ?_
  intro t ht
  obtain ⟨ht, hcode, hlo, hhi⟩ := mem_codeBetween.1 ht
  have hnonempty := h.nonempty t ht
  have := hr t ht hcode
  omega

/-- No token reaches over the start of another one. -/
lemma apart_start {t u : Token} (ht : t ∈ src.tokens.toList) (hu : u ∈ src.tokens.toList) :
    u.range.stop ≤ t.range.start ∨ t.range.start ≤ u.range.start := by
  rcases h.trichotomy hu ht with rfl | ⟨-, hut, -⟩ | ⟨htu, htu', -⟩
  · exact .inr (Nat.le_refl _)
  · exact .inl hut
  · exact .inr (by omega)

/-- No token reaches over the end of another one. -/
lemma apart_stop {t u : Token} (ht : t ∈ src.tokens.toList) (hu : u ∈ src.tokens.toList) :
    u.range.stop ≤ t.range.stop ∨ t.range.stop ≤ u.range.start := by
  rcases h.trichotomy hu ht with rfl | ⟨-, hut, hut'⟩ | ⟨-, htu, -⟩
  · exact .inl (Nat.le_refl _)
  · exact .inl (by omega)
  · exact .inr htu

end Source.Ordered

/-! ### Brackets, commas and entries -/

lemma head?_or_infix_of_mem {α : Type} {xs : List α} {x : α} (hx : x ∈ xs) :
    xs.head? = some x ∨ ∃ a, [a, x] <:+: xs := by
  obtain ⟨pre, post, rfl⟩ := List.append_of_mem hx
  rcases List.eq_nil_or_concat pre with rfl | ⟨init, a, rfl⟩
  · exact .inl rfl
  · exact .inr ⟨a, init, post, by simp⟩

lemma getLast?_or_infix_of_mem {α : Type} {xs : List α} {x : α} (hx : x ∈ xs) :
    xs.getLast? = some x ∨ ∃ b, [x, b] <:+: xs := by
  obtain ⟨pre, post, rfl⟩ := List.append_of_mem hx
  cases post with
  | nil => exact .inl (by simp)
  | cons b rest => exact .inr ⟨b, pre, rest, by simp⟩

namespace Container.WellFormed

variable {src : Source} {c : Container} {opening closing : Token}
  (h : c.WellFormed src opening closing)

include h

lemma lineOf_mono {a b : Nat} (hab : a ≤ b) : src.lines.lineOf a ≤ src.lines.lineOf b := by
  rw [h.lines]
  exact KeyOrder.lineOf_mono _ hab

lemma codeBefore_first {e : Entry} (he : c.entries.head? = some e) :
    src.codeBefore e.range.start = some opening :=
  h.tokens.codeBefore_eq_some h.opening_mem.1 h.opening_mem.2 (h.first e he).1 (h.first e he).2

/-- The comma between two entries is the code after the first one and before the second one. -/
lemma comma_between {a b : Entry} (hab : [a, b] <:+: c.entries) :
    ∃ t ∈ src.tokens.toList, a.range.stop ≤ t.range.start ∧ t.range.stop ≤ b.range.start ∧
      Relocation.commaAfter src a = (t.range, t.endLine) ∧
      src.codeBefore b.range.start = some t := by
  obtain ⟨t, hcomma, ht⟩ := h.commas a b hab
  have hmem : t ∈ src.codeBetween a.range.stop b.range.start := by
    rw [ht]
    exact List.mem_cons_self ..
  obtain ⟨htokens, hcode, hlo, hhi⟩ := Source.mem_codeBetween.1 hmem
  refine ⟨t, htokens, hlo, hhi, ?_, ?_⟩
  · rw [Relocation.commaAfter,
      h.tokens.codeAfter_eq_some htokens hcode hlo (h.tokens.codeBetween_start ht)]
    exact if_pos hcomma
  · exact h.tokens.codeBefore_eq_some htokens hcode hhi (h.tokens.codeBetween_stop ht)

/-- After the last entry and its comma, if it has one, the closing bracket is the next code. -/
lemma closing_after {e : Entry} (he : c.entries.getLast? = some e) :
    closing ∈ src.tokens.toList ∧ closing.isComment = false ∧
      (Relocation.commaAfter src e).1.stop ≤ closing.range.start ∧
      (Relocation.commaAfter src e = (e.range, e.endLine) ∨
        ∃ t ∈ src.tokens.toList, e.range.stop ≤ t.range.start ∧
          Relocation.commaAfter src e = (t.range, t.endLine)) := by
  rcases h.last e he with hclosing | ⟨t, hcomma, hcode⟩
  · -- no comma: the code after the entry is the bracket
    have hmem : closing ∈ src.codeBetween e.range.stop closing.range.stop := by
      rw [hclosing]
      exact List.mem_cons_self ..
    obtain ⟨htokens, hcode, hlo, -⟩ := Source.mem_codeBetween.1 hmem
    have hafter : Relocation.commaAfter src e = (e.range, e.endLine) := by
      rw [Relocation.commaAfter,
        h.tokens.codeAfter_eq_some htokens hcode hlo (h.tokens.codeBetween_start hclosing)]
      exact if_neg (by rw [h.brackets.closing_ne_comma]; decide)
    rw [hafter]
    exact ⟨htokens, hcode, hlo, .inl rfl⟩
  · -- the code after the entry is the comma, and the bracket follows it
    have hpair := h.tokens.pairwise_codeBetween e.range.stop closing.range.stop
    have hmem : ∀ u ∈ [t, closing], u ∈ src.tokens.toList ∧ u.isComment = false ∧
        e.range.stop ≤ u.range.start ∧ u.range.stop ≤ closing.range.stop := by
      intro u hu
      rw [← hcode] at hu
      exact Source.mem_codeBetween.1 hu
    obtain ⟨htokens, htcode, hlo, -⟩ := hmem t (by simp)
    obtain ⟨hctokens, hccode, -, -⟩ := hmem closing (by simp)
    have hafter : Relocation.commaAfter src e = (t.range, t.endLine) := by
      rw [Relocation.commaAfter,
        h.tokens.codeAfter_eq_some htokens htcode hlo (h.tokens.codeBetween_start hcode)]
      exact if_pos hcomma
    rw [hcode] at hpair
    have hbefore := (List.pairwise_cons.1 hpair).1 closing (by simp)
    rw [hafter]
    exact ⟨hctokens, hccode, hbefore.2.1, .inr ⟨t, htokens, hlo, rfl⟩⟩

/-- The end of the comma after an entry, or of the entry, is the end of a token. -/
lemma commaAfter_spec {e : Entry} (he : e ∈ c.entries) :
    e.range.stop ≤ (Relocation.commaAfter src e).1.stop ∧
      (Relocation.commaAfter src e).2 = src.lines.lineOf (Relocation.commaAfter src e).1.stop ∧
      ∃ t ∈ src.tokens.toList, t.range.stop = (Relocation.commaAfter src e).1.stop := by
  have hcomma : Relocation.commaAfter src e = (e.range, e.endLine) ∨
      ∃ t ∈ src.tokens.toList, e.range.stop ≤ t.range.start ∧
        Relocation.commaAfter src e = (t.range, t.endLine) := by
    rcases getLast?_or_infix_of_mem he with hlast | ⟨b, hab⟩
    · exact (h.closing_after hlast).2.2.2
    · obtain ⟨t, ht, hlo, -, hafter, -⟩ := h.comma_between hab
      exact .inr ⟨t, ht, hlo, hafter⟩
  rcases hcomma with hafter | ⟨t, ht, hlo, hafter⟩
  · obtain ⟨-, -, t, ht, -, hstop⟩ := h.aligned e he
    rw [hafter]
    exact ⟨Nat.le_refl _, (h.entryLines e he).2, t, ht, hstop⟩
  · have hnonempty := h.tokens.nonempty t ht
    rw [hafter]
    exact ⟨by simp only; omega, (h.tokenLines t ht).2, t, ht, rfl⟩

end Container.WellFormed

end KeyOrder
