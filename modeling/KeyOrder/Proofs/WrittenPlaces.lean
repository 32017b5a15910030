import KeyOrder.Proofs.Columns
import KeyOrder.Proofs.NodePlaces

/-!
# Places in the text as it is written

The grammar reads a text in which each line break is one character.  Where every `\r` of the written
text belongs to a `\r\n`, a piece of the one text is a piece of the other, and the place where it
stands converts to the offset where it is written.

* `LineIndex.offset_mono`: later places convert to later offsets, in every text;
* `Text.exists_append_of_unifyBreaks`: where the unified text is parted, the written one is;
* `Text.Names.exists_written`: a keyword that stands somewhere is written there.
-/

namespace KeyOrder

/-! ### Offsets in the order of places -/

/-- A line starts where an earlier one ends, or later. -/
lemma le_lineStarts {start i j a b : Nat} {ls : List Text} {l : Text} (hij : i < j)
    (hl : ls[i]? = some l) (ha : (lineStarts start ls)[i]? = some a)
    (hb : (lineStarts start ls)[j]? = some b) : a + l.length ≤ b := by
  induction ls generalizing start i j with
  | nil => cases hl
  | cons m ls ih =>
    obtain ⟨j, rfl⟩ := Nat.exists_eq_succ_of_ne_zero (Nat.ne_zero_of_lt hij)
    rw [lineStarts, List.getElem?_cons_succ] at hb
    cases i with
    | zero =>
      cases hl
      cases ha
      exact le_of_mem_lineStarts (List.mem_of_getElem? hb)
    | succ i => exact ih (Nat.lt_of_succ_lt_succ hij) hl ha hb

lemma charactersIn_le_length {l : Text} {b n : Nat} (h : charactersIn l b = .ok n) :
    n ≤ l.length := by
  rcases charactersIn_cases l b with ⟨-, herror⟩ | ⟨m, hreach, hm⟩
  · rw [h] at herror
    cases herror
  · rw [h] at hm
    cases hm
    exact hreach.1

lemma charactersIn_mono {l : Text} {b b' n n' : Nat} (hb : b ≤ b') (h : charactersIn l b = .ok n)
    (h' : charactersIn l b' = .ok n') : n ≤ n' := by
  rcases charactersIn_cases l b with ⟨-, herror⟩ | ⟨m, hreach, hm⟩
  · rw [h] at herror
    cases herror
  · rcases charactersIn_cases l b' with ⟨-, herror⟩ | ⟨m', hreach', hm'⟩
    · rw [h'] at herror
      cases herror
    · rw [h] at hm
      rw [h'] at hm'
      cases hm
      cases hm'
      exact hreach.mono hb hreach'

namespace LineIndex

/-- An offset is a number of characters from the start of the line. -/
lemma offset_eq_ok {text : Text} {p : Place} {o : Nat} (hp : 1 ≤ p.line)
    (h : (ofText text).offset p = .ok o) :
    ∃ l s n, text.lines[p.line - 1]? = some l ∧
      (lineStarts 0 text.lines)[p.line - 1]? = some s ∧ charactersIn l p.column = .ok n ∧
      s + n = o := by
  rw [offset, if_neg (by omega)] at h
  simp only [ofText, List.getElem?_toArray] at h
  split at h
  · rename_i s l hs hl
    cases hn : charactersIn l p.column with
    | error f =>
      rw [hn] at h
      cases h
    | ok n =>
      rw [hn] at h
      cases h
      exact ⟨l, s, n, hl, hs, hn, rfl⟩
  · cases h

/-- **Later places convert to later offsets.** -/
lemma offset_mono {text : Text} {p q : Place} {a b : Nat} (hp : 1 ≤ p.line)
    (hpq : p.le q = true) (ha : (ofText text).offset p = .ok a)
    (hb : (ofText text).offset q = .ok b) : a ≤ b := by
  have hline : p.line < q.line ∨ p.line = q.line ∧ p.column ≤ q.column := Place.le_iff.1 hpq
  obtain ⟨l, s, n, hl, hs, hn, rfl⟩ := offset_eq_ok hp ha
  obtain ⟨l', s', n', hl', hs', hn', rfl⟩ := offset_eq_ok (by omega) hb
  rcases hline with hlt | ⟨heq, hcolumn⟩
  · have hstart : s + l.length ≤ s' := le_lineStarts (by omega) hl hs hs'
    have hlength := charactersIn_le_length hn
    omega
  · rw [← heq, hl] at hl'
    rw [← heq, hs] at hs'
    cases hl'
    cases hs'
    have hle := charactersIn_mono hcolumn hn hn'
    omega

end LineIndex

/-! ### The text before line breaks are unified -/

namespace Text

open Lexeme (unifyBreaks unifyBreaks_cons unifyBreaks_eq_nil)

/-- Where a unified text is parted, so is the text itself. -/
lemma exists_append_of_unifyBreaks {text x y : Text} (hpaired : text.paired = true)
    (h : unifyBreaks text = x ++ y) :
    ∃ a b, text = a ++ b ∧ unifyBreaks a = x ∧ unifyBreaks b = y ∧ a.paired = true ∧
      b.paired = true := by
  induction text, hpaired using paired_induction generalizing x with
  | nil =>
    obtain ⟨rfl, rfl⟩ := List.append_eq_nil_iff.1 h.symm
    exact ⟨[], [], rfl, rfl, rfl, rfl, rfl⟩
  | pair cs hpaired _ ih =>
    -- a line break of two characters
    cases x with
    | nil => exact ⟨[], _, rfl, rfl, h, rfl, hpaired⟩
    | cons d x =>
      obtain ⟨rfl, hrest⟩ := List.cons.inj h
      obtain ⟨a, b, rfl, rfl, hb, hpa, hpb⟩ := ih hrest
      exact ⟨'\r' :: '\n' :: a, b, rfl, rfl, hb, by simpa [paired], hpb⟩
  | cons c cs hpaired _ hc ih =>
    cases x with
    | nil => exact ⟨[], _, rfl, rfl, h, rfl, hpaired⟩
    | cons d x =>
      rw [unifyBreaks_cons hc] at h
      obtain ⟨rfl, hrest⟩ := List.cons.inj h
      obtain ⟨a, b, rfl, rfl, hb, hpa, hpb⟩ := ih hrest
      refine ⟨c :: a, b, rfl, unifyBreaks_cons hc a, hb, ?_, hpb⟩
      simp [paired, hc, hpa]

/-- What is one character in the unified text is written as this character or as `\r\n`. -/
lemma eq_of_unifyBreaks_singleton {t : Text} {c : Char} (hpaired : t.paired = true)
    (h : unifyBreaks t = [c]) : t = [c] ∨ c = '\n' ∧ t = ['\r', '\n'] := by
  cases t, hpaired using paired_induction with
  | nil => cases h
  | pair cs _ _ _ =>
    obtain ⟨rfl, hrest⟩ := List.cons.inj h
    rw [unifyBreaks_eq_nil.1 hrest]
    exact .inr ⟨rfl, rfl⟩
  | cons d cs _ _ hd _ =>
    rw [unifyBreaks_cons hd] at h
    obtain ⟨rfl, hrest⟩ := List.cons.inj h
    rw [unifyBreaks_eq_nil.1 hrest]
    exact .inl rfl

/-- What has no line break in the unified text is written as it is. -/
lemma unifyBreaks_eq_self {t : Text} (hpaired : t.paired = true) (h : '\n' ∉ unifyBreaks t) :
    unifyBreaks t = t := by
  induction t, hpaired using paired_induction with
  | nil => rfl
  | pair cs _ _ ih => simp [unifyBreaks] at h
  | cons c cs _ _ hc ih =>
    rw [unifyBreaks_cons hc, List.mem_cons, not_or] at h
    rw [unifyBreaks_cons hc, ih h.2]

/-- Spacing in the unified text is spacing as it is written. -/
lemma Spacing.of_unifyBreaks {u gap : Text} (h : Spacing u) (hpaired : gap.paired = true)
    (hu : unifyBreaks gap = u) : Spacing gap := by
  induction h generalizing gap with
  | nil =>
    rw [unifyBreaks_eq_self hpaired (by simp [hu])] at hu
    exact hu ▸ .nil
  | @white c cs hc h ih =>
    obtain ⟨a, b, rfl, ha, hb, hpa, hpb⟩ := exists_append_of_unifyBreaks (x := [c]) hpaired hu
    rcases eq_of_unifyBreaks_singleton hpa ha with rfl | ⟨rfl, rfl⟩
    · exact .white hc (ih hpb hb)
    · exact .white rfl (.white rfl (ih hpb hb))
  | @continued cs h ih =>
    obtain ⟨a, b, rfl, ha, hb, hpa, hpb⟩ := exists_append_of_unifyBreaks (x := ['\\']) hpaired hu
    obtain ⟨a', b', rfl, ha', hb', hpa', hpb'⟩ :=
      exists_append_of_unifyBreaks (x := ['\n']) hpb hb
    obtain rfl | ⟨hne, -⟩ := eq_of_unifyBreaks_singleton hpa ha
    · rcases eq_of_unifyBreaks_singleton hpa' ha' with rfl | ⟨-, rfl⟩
      · exact .continued (ih hpb' hb')
      · exact .continuedPair (ih hpb' hb')
    · cases hne
  | @continuedPair cs h ih =>
    obtain ⟨a, b, rfl, ha, hb, hpa, hpb⟩ :=
      exists_append_of_unifyBreaks (x := ['\\', '\r']) hpaired hu
    rw [unifyBreaks_eq_self hpa (by simp [ha])] at ha
    subst ha
    simp [paired] at hpa
  | @comment body cs hbody h ih =>
    obtain ⟨a, b, rfl, ha, hb, hpa, hpb⟩ :=
      exists_append_of_unifyBreaks (x := '#' :: body) hpaired hu
    rw [unifyBreaks_eq_self hpa (by simp [ha, hbody])] at ha
    subst ha
    have hspacing := ih hpb hb
    obtain ⟨a, b, rfl, ha, -, hpa, -⟩ := exists_append_of_unifyBreaks (x := ['\n']) hpb hb
    rcases eq_of_unifyBreaks_singleton hpa ha with rfl | ⟨-, rfl⟩
    · exact .comment hbody hspacing
    · -- the `\r` before the line break is taken for a part of the comment
      cases hspacing with
      | white hc h =>
        have hline : '\n' ∉ body ++ ['\r'] := by simpa using hbody
        simpa using Spacing.comment hline h

/-- What stands in a text as the grammar reads it, with a line break at the end perhaps, stands in
the unified text, unless it ends with a line break itself. -/
lemma stands_of_normalize {text piece : Text} {p : Place} (hpiece : piece ≠ [])
    (hlast : ∀ c ∈ piece.getLast?, c ≠ '\n')
    (h : Stands (Lexeme.normalize text) ⟨1, 0⟩ p piece) :
    Stands (unifyBreaks text) ⟨1, 0⟩ p piece := by
  simp only [Lexeme.normalize] at h
  split at h
  · exact h
  · exact h.of_concat hpiece hlast

/-- **A keyword that stands somewhere is written there**: the word, spacing and the equals sign, at
the offset of its span. -/
lemma Names.exists_written {text : Text} (hpaired : text.paired = true) {span : Span}
    {name : CodePoints} (h : (Lexeme.normalize text).Names span name) :
    ∃ front word gap post, text = front ++ (word ++ (gap ++ '=' :: post)) ∧
      name = Unicode.compatibilityForm (word.map Char.toNat) ∧ word ≠ [] ∧
      (∀ c ∈ word, Lexeme.isIdentifierChar c = true) ∧ Spacing gap ∧
      (LineIndex.ofText text).offset span.start = .ok front.length ∧
      ∀ stop, (LineIndex.ofText text).offset span.stop = .ok stop →
        (front ++ word).length ≤ stop := by
  obtain ⟨word, gap, hname, hne, hchars, hgap, hstands, hend⟩ := h
  obtain ⟨pre, post, hunified, hstart⟩ := stands_of_normalize (by simp) (by simp) hstands
  -- the unified text is parted before the word, after it, and before the equals sign
  obtain ⟨a, b, rfl, ha, hb, hpa, hpb⟩ :=
    exists_append_of_unifyBreaks (x := pre ++ word) (y := gap ++ '=' :: post) hpaired
      (by simpa using hunified)
  obtain ⟨front, w, rfl, hfront, hw, hpfront, hpw⟩ := exists_append_of_unifyBreaks hpa ha
  obtain ⟨g, b, rfl, hg, hb, hpg, hpb⟩ := exists_append_of_unifyBreaks hpb hb
  obtain ⟨e, b, rfl, he, -, hpe, -⟩ := exists_append_of_unifyBreaks (x := ['=']) hpb hb
  obtain rfl | ⟨hbad, -⟩ := eq_of_unifyBreaks_singleton hpe he
  swap
  · cases hbad
  have hword : unifyBreaks w = w := by
    refine unifyBreaks_eq_self hpw fun hmem => ?_
    exact absurd (hchars _ (hw ▸ hmem)) (by decide)
  obtain rfl : w = word := hword.symm.trans hw
  have hplace : (front ++ w).endPlace ⟨1, 0⟩ = w.foldl Cursor.after span.start := by
    rw [endPlace, ha, List.foldl_append, ← hstart]
  refine ⟨front, w, g, b, by simp, hname, hne, hchars, hgap.of_unifyBreaks hpg hg, ?_, ?_⟩
  · rw [hstart, ← hfront, List.append_assoc]
    exact offset_endPlace hpfront _
  · intro stop hstop
    have hoffset := offset_endPlace hpa (g ++ (['='] ++ b))
    rw [hplace] at hoffset
    refine LineIndex.offset_mono ?_ hend hoffset hstop
    rw [← hplace]
    exact Cursor.one_le_line _

end Text

end KeyOrder
