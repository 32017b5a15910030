import KeyOrder.Proofs.Layout

/-!
# Deciding the layout of a container

Whether a container is well-formed between two brackets is found out by looking at its tokens and
entries one by one: the conditions on consecutive entries are conditions on the pairs of a list and
its tail, and the comma between two entries is one of the tokens between them.
-/

namespace KeyOrder

deriving instance DecidableEq for LineIndex

/-- Consecutive items of a list are paired when the list is put beside its tail. -/
lemma pair_infix_iff {α : Type} {xs : List α} {a b : α} :
    [a, b] <:+: xs ↔ (a, b) ∈ xs.zip xs.tail := by
  induction xs with
  | nil => simp
  | cons x xs ih =>
    rw [List.infix_cons_iff, ih, List.tail_cons]
    cases xs with
    | nil => simp
    | cons y ys => simp [List.cons_prefix_cons]

/-- A condition that only members of a list meet is met by one exactly when it is met by a
member. -/
lemma exists_mem_iff {α : Type} {xs : List α} {p : α → Prop} (h : ∀ x, p x → x ∈ xs) :
    (∃ x ∈ xs, p x) ↔ ∃ x, p x :=
  ⟨fun ⟨x, _, hx⟩ => ⟨x, hx⟩, fun ⟨x, hx⟩ => ⟨x, h x hx, hx⟩⟩

instance (src : Source) : Decidable src.Ordered :=
  decidable_of_iff
    ((∀ t ∈ src.tokens.toList, t.range.start < t.range.stop) ∧
      src.tokens.toList.Pairwise fun a b => a.range.stop ≤ b.range.start)
    ⟨fun ⟨a, b⟩ => ⟨a, b⟩, fun h => ⟨h.nonempty, h.disjoint⟩⟩

instance (k : ContainerKind) (opening closing : Token) : Decidable (k.Brackets opening closing) :=
  match k with
  | .display =>
    inferInstanceAs (Decidable (opening.is "\x7b" = true ∧ closing.is "\x7d" = true))
  | .call => inferInstanceAs (Decidable (opening.is "(" = true ∧ closing.is ")" = true))
  | .pattern => inferInstanceAs (Decidable False)

namespace Container

variable (src : Source) (c : Container) (opening closing : Token)

/-- The brackets and commas of a container are where they should be, said of the pairs of
consecutive entries. -/
def Separated : Prop :=
  (∀ e ∈ c.entries.head?, opening.range.stop ≤ e.range.start ∧
      src.codeBetween opening.range.stop e.range.start = []) ∧
    (∀ p ∈ c.entries.zip c.entries.tail,
      ∃ t ∈ src.codeBetween p.1.range.stop p.2.range.start,
        t.is "," = true ∧ src.codeBetween p.1.range.stop p.2.range.start = [t]) ∧
    ∀ e ∈ c.entries.getLast?,
      src.codeBetween e.range.stop closing.range.stop = [closing] ∨
        ∃ t ∈ src.codeBetween e.range.stop closing.range.stop,
          t.is "," = true ∧ src.codeBetween e.range.stop closing.range.stop = [t, closing]

instance : Decidable (c.Separated src opening closing) :=
  inferInstanceAs (Decidable (_ ∧ _ ∧ _))

/-- A container is well-formed when its brackets are, when the tokens, lines and entries fit
together, and when its entries are separated. -/
lemma wellFormed_iff :
    (c.kind.Brackets opening closing ∧ (opening ∈ src.tokens.toList ∧ opening.isComment = false) ∧
      c.Separated src opening closing ∧
      (∀ e ∈ c.entries, e.startLine = src.lines.lineOf e.range.start ∧
        e.endLine = src.lines.lineOf e.range.stop) ∧
      (∀ e ∈ c.entries, e.range.start < e.range.stop ∧
        (∃ t ∈ src.tokens.toList, t.isComment = false ∧ t.range.start = e.range.start) ∧
        ∃ t ∈ src.tokens.toList, t.isComment = false ∧ t.range.stop = e.range.stop) ∧
      src.Ordered ∧ src.lines = .ofText src.text ∧
      (∀ t ∈ src.tokens.toList, t.startLine = src.lines.lineOf t.range.start ∧
        t.endLine = src.lines.lineOf t.range.stop) ∧
      ∀ t ∈ src.tokens.toList, t.isComment = true →
        endsLine (src.text.drop t.range.stop) = true) ↔ c.WellFormed src opening closing := by
  have hcomma : ∀ a b : Entry,
      (∃ t ∈ src.codeBetween a.range.stop b.range.start,
        t.is "," = true ∧ src.codeBetween a.range.stop b.range.start = [t]) ↔
      ∃ t, t.is "," = true ∧ src.codeBetween a.range.stop b.range.start = [t] := fun a b =>
    exists_mem_iff fun t ht => by simp [ht.2]
  have hend : ∀ e : Entry,
      (∃ t ∈ src.codeBetween e.range.stop closing.range.stop,
        t.is "," = true ∧ src.codeBetween e.range.stop closing.range.stop = [t, closing]) ↔
      ∃ t, t.is "," = true ∧ src.codeBetween e.range.stop closing.range.stop = [t, closing] :=
    fun e => exists_mem_iff fun t ht => by simp [ht.2]
  constructor
  · rintro ⟨hbrackets, hopening, ⟨hfirst, hcommas, hlast⟩, hentries, haligned, htokens, hlines,
      htokenLines, hcomments⟩
    refine ⟨htokens, hlines, htokenLines, hcomments, hentries, haligned, hbrackets, hopening,
      fun e he => hfirst e he, fun a b hab => ?_, fun e he => ?_⟩
    · exact (hcomma a b).1 (hcommas (a, b) (pair_infix_iff.1 hab))
    · exact (hlast e he).imp_right (hend e).1
  · intro h
    refine ⟨h.brackets, h.opening_mem, ⟨fun e he => h.first e he, fun p hp => ?_, fun e he => ?_⟩,
      h.entryLines, h.aligned, h.tokens, h.lines, h.tokenLines, h.commentsEnd⟩
    · exact (hcomma p.1 p.2).2 (h.commas p.1 p.2 (pair_infix_iff.2 hp))
    · exact (h.last e he).imp_right (hend e).2

instance : Decidable (c.WellFormed src opening closing) :=
  decidable_of_iff _ (wellFormed_iff src c opening closing)

end Container

end KeyOrder
