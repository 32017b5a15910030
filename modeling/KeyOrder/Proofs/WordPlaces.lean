import KeyOrder.Proofs.LineRest

/-!
# Where the words of a program stand

A lexeme stands at its place in the program that it is cut from, and between two lexemes there is
nothing but white space, continued lines and comments.

* `Text.Spacing` is what may stand between two words;
* `Text.Stands` says that a piece of a text stands at a place;
* `Lexeme.Fits` is all that the grammar takes from its lexemes, and `Lexeme.fits_of_cut` gives it.
-/

namespace KeyOrder

/-! ### The order of places -/

namespace Place

variable {p q r : Place}

lemma le_iff : p.le q = true ↔ p.line < q.line ∨ p.line = q.line ∧ p.column ≤ q.column := by
  simp [le]

lemma le_refl (p : Place) : p.le p = true := le_iff.2 (.inr ⟨rfl, Nat.le_refl _⟩)

lemma le_trans (hpq : p.le q = true) (hqr : q.le r = true) : p.le r = true := by
  rw [le_iff] at *
  omega

end Place

namespace Cursor

lemma le_after (p : Place) (c : Char) : p.le (after p c) = true := by
  unfold after
  split
  · exact Place.le_iff.2 (.inl (Nat.lt_succ_self _))
  · exact Place.le_iff.2 (.inr ⟨rfl, Nat.le_add_right ..⟩)

/-- Passing over characters leads to a later place. -/
lemma le_foldl_after (p : Place) (t : Text) : p.le (t.foldl after p) = true := by
  induction t generalizing p with
  | nil => exact p.le_refl
  | cons c t ih => exact Place.le_trans (le_after p c) (ih _)

lemma skipWhile_place (q : Char → Bool) (cur : Cursor) :
    (cur.skipWhile q).place = (cur.rest.takeWhile q).foldl after cur.place := by
  rw [skipWhile, skip_place, ← List.prefix_iff_eq_take.1 (List.takeWhile_prefix q)]

lemma one_le_line (t : Text) : 1 ≤ (t.foldl after ⟨1, 0⟩).line := by
  have hle := Place.le_iff.1 (le_foldl_after ⟨1, 0⟩ t)
  simp only at hle
  omega

end Cursor

/-! ### Pieces of a text -/

namespace Text

/-- What may stand between two words: white space, continued lines, and comments up to the end of
their line. -/
inductive Spacing : Text → Prop
  | nil : Spacing []
  | white {c : Char} {cs : Text} (hc : isWhite c = true) (h : Spacing cs) : Spacing (c :: cs)
  | continued {cs : Text} (h : Spacing cs) : Spacing ('\\' :: '\n' :: cs)
  | continuedPair {cs : Text} (h : Spacing cs) : Spacing ('\\' :: '\r' :: '\n' :: cs)
  | comment {body cs : Text} (hbody : '\n' ∉ body) (h : Spacing ('\n' :: cs)) :
      Spacing ('#' :: (body ++ '\n' :: cs))

/-- A piece of a text stands at a place, when the text itself starts at `start`. -/
def Stands (text : Text) (start : Place) (p : Place) (piece : Text) : Prop :=
  ∃ pre post, text = pre ++ piece ++ post ∧ p = pre.foldl Cursor.after start

namespace Stands

variable {text piece : Text} {start p : Place}

/-- A part of a piece stands where the piece does, moved by what comes before it. -/
lemma part {a b : Text} (h : text.Stands start p (a ++ piece ++ b)) :
    text.Stands start (a.foldl Cursor.after p) piece := by
  obtain ⟨pre, post, rfl, rfl⟩ := h
  exact ⟨pre ++ a, b ++ post, by simp, by simp⟩

/-- A character at the end of a text is no part of a piece that ends otherwise. -/
lemma of_concat {c : Char} (hpiece : piece ≠ []) (hlast : ∀ d ∈ piece.getLast?, d ≠ c)
    (h : Stands (text ++ [c]) start p piece) : text.Stands start p piece := by
  obtain ⟨pre, post, htext, rfl⟩ := h
  rcases List.eq_nil_or_concat post with rfl | ⟨post, e, rfl⟩
  · have hend : (pre ++ piece).getLast? = some c := by
      rw [← List.append_nil (pre ++ piece), ← htext, List.getLast?_concat]
    rw [List.getLast?_append_of_ne_nil _ hpiece] at hend
    exact absurd rfl (hlast c hend)
  · simp only [List.concat_eq_append, ← List.append_assoc] at htext
    exact ⟨pre, post, (List.append_inj' htext rfl).1, rfl⟩

end Stands

/-- A comment before other spacing, up to a word. -/
lemma Spacing.of_comment {gap word rest cs : Text} {c : Char} (h : Spacing gap)
    (hrest : ('#' :: cs).dropWhile (· != '\n') = gap ++ word ++ rest) (hc : c ∈ word.head?)
    (hne : c ≠ '\n') : Spacing (('#' :: cs).takeWhile (· != '\n') ++ gap) := by
  have hbody : '\n' ∉ cs.takeWhile (· != '\n') := by
    intro hmem
    simpa using List.mem_takeWhile_imp hmem
  have hhead : ∀ d ∈ (gap ++ word ++ rest).head?, d = '\n' := by
    intro d hd
    rw [← hrest] at hd
    have hnot := List.head?_dropWhile_not (· != '\n') ('#' :: cs)
    rw [Option.mem_def.1 hd] at hnot
    simpa using hnot
  cases gap with
  | nil => exact absurd (hhead c (by simp [Option.mem_def.1 hc])) hne
  | cons d gap =>
    obtain rfl := hhead d rfl
    exact .comment hbody h

end Text

/-! ### From one lexeme to the next -/

namespace Lexeme

open Text (Spacing Stands)

/-- What a lexeme is: nothing, or a word that is read where it stands. -/
def ReadFrom (l : Lexeme) (rest : Text) : Prop :=
  isMark l.kind = true ∧ l.text.toList = [] ∨
    ∃ n, word? (l.text.toList ++ rest) = some (l.kind, n) ∧
      l.text.toList = (l.text.toList ++ rest).take n

namespace Cuts

/-- The first lexeme that is cut, with what is left out before it. -/
lemma next {cur : Cursor} {l : Lexeme} {ls : List Lexeme} (h : Cuts cur (l :: ls)) :
    ∃ gap rest, cur.rest = gap ++ l.text.toList ++ rest ∧
      l.span.1 = gap.foldl Cursor.after cur.place ∧
      l.span.2 = l.text.toList.foldl Cursor.after l.span.1 ∧ l.ReadFrom rest ∧
      Cuts ⟨rest, l.span.2⟩ ls ∧ (∀ c ∈ l.text.toList.head?, c ≠ '\n' → Spacing gap) := by
  generalize hlexemes : l :: ls = lexemes at h
  induction h with
  | done p => cases hlexemes
  | @white c cs p _ hc _ ih =>
    obtain ⟨gap, rest, hrest, hstart, hstop, hread, hcuts, hgap⟩ := ih hlexemes
    exact ⟨c :: gap, rest, by simpa using hrest, hstart, hstop, hread, hcuts,
      fun d hd hne => .white hc (hgap d hd hne)⟩
  | @continued cs p _ _ ih =>
    obtain ⟨gap, rest, hrest, hstart, hstop, hread, hcuts, hgap⟩ := ih hlexemes
    exact ⟨'\\' :: '\n' :: gap, rest, by simpa using hrest, hstart, hstop, hread, hcuts,
      fun d hd hne => .continued (hgap d hd hne)⟩
  | @comment cs p _ _ ih =>
    obtain ⟨gap, rest, hrest, hstart, hstop, hread, hcuts, hgap⟩ := ih hlexemes
    rw [Cursor.skipWhile_rest] at hrest
    rw [Cursor.skipWhile_place] at hstart
    refine ⟨('#' :: cs).takeWhile (· != '\n') ++ gap, rest, ?_, ?_, hstop, hread, hcuts, ?_⟩
    · rw [List.append_assoc, List.append_assoc, ← List.append_assoc gap, ← hrest,
        List.takeWhile_append_dropWhile]
    · rw [hstart, List.foldl_append]
    · intro c hc hne
      exact (hgap c hc hne).of_comment hrest hc hne
  | mark hk hcuts ih =>
    cases hlexemes
    exact ⟨[], _, rfl, rfl, rfl, .inl ⟨hk, rfl⟩, hcuts, by simp⟩
  | @word k n cur _ hword hcuts ih =>
    cases hlexemes
    rw [Cursor.skip_eq] at hcuts
    refine ⟨[], cur.rest.drop n, ?_, rfl, ?_, .inr ⟨n, ?_, ?_⟩, ?_, fun _ _ _ => .nil⟩
    · simp
    · simp
    · simpa using hword
    · simp
    · simpa using hcuts

/-- Any lexeme that is cut, with all that follows it. -/
lemma at_index {cur : Cursor} {ls : List Lexeme} (h : Cuts cur ls) {i : Nat} {l : Lexeme}
    (hl : ls[i]? = some l) :
    ∃ rest, cur.rest.Stands cur.place l.span.1 (l.text.toList ++ rest) ∧
      l.span.2 = l.text.toList.foldl Cursor.after l.span.1 ∧ l.ReadFrom rest ∧
      Cuts ⟨rest, l.span.2⟩ (ls.drop (i + 1)) := by
  induction i generalizing cur ls with
  | zero =>
    cases ls with
    | nil => cases hl
    | cons m ls =>
      cases hl
      obtain ⟨gap, rest, hrest, hstart, hstop, hread, hcuts, -⟩ := h.next
      exact ⟨rest, ⟨gap, [], by simpa using hrest, hstart⟩, hstop, hread, hcuts⟩
  | succ i ih =>
    cases ls with
    | nil => cases hl
    | cons m ls =>
      obtain ⟨gap, rest, hrest, hstart, hstop, -, hcuts, -⟩ := h.next
      obtain ⟨rest', ⟨pre, post, hpre, hplace⟩, hfacts⟩ := ih hcuts hl
      dsimp only at hpre hplace
      refine ⟨rest', ⟨gap ++ m.text.toList ++ pre, post, ?_, ?_⟩, hfacts⟩
      · rw [hrest, hpre]
        simp
      · rw [hplace, hstop, hstart]
        simp

end Cuts

/-! ### Names -/

/-- A name is made of the characters of identifiers, and there is at least one. -/
lemma name_of_word? {cs : Text} {n : Nat} (h : word? cs = some (.name, n)) :
    cs.take n ≠ [] ∧ ∀ c ∈ cs.take n, isIdentifierChar c = true := by
  unfold word? at h
  split at h
  · cases h
  · rename_i a rest
    split at h
    · obtain ⟨n, -, h⟩ := Option.map_eq_some_iff.1 h
      cases h
    · split at h
      · obtain ⟨n, -, h⟩ := Option.map_eq_some_iff.1 h
        cases h
      · split at h
        · rename_i ha
          obtain ⟨m, hm, h⟩ := Option.map_eq_some_iff.1 h
          cases h
          unfold identifier? at hm
          dsimp only at hm
          split at hm
          · cases hm
            rw [← List.prefix_iff_eq_take.1 (List.takeWhile_prefix isIdentifierChar)]
            constructor
            · rw [List.takeWhile_cons_of_pos ha]
              exact List.cons_ne_nil _ _
            · intro c hc
              exact List.mem_takeWhile_imp hc
          · cases hm
        · split at h
          · cases h
          · cases h

/-! ### What the grammar takes from its lexemes -/

/-- What the grammar takes from its lexemes: they follow one another, and a name stands in the text
with the equals sign that is the next word. -/
structure Fits (text : Text) (ls : Array Lexeme) : Prop where
  placed {i : Nat} {l : Lexeme} : ls[i]? = some l → 1 ≤ l.span.1.line ∧ l.span.1.le l.span.2 = true
  ordered {i : Nat} {l m : Lexeme} : ls[i]? = some l → ls[i + 1]? = some m →
    l.span.2.le m.span.1 = true
  keyword {i : Nat} {l m : Lexeme} : ls[i]? = some l → ls[i + 1]? = some m → l.kind = .name →
    m.text = "=" → ∃ gap, Spacing gap ∧
      text.Stands ⟨1, 0⟩ l.span.1 (l.text.toList ++ gap ++ ['=']) ∧
      l.span.2 = l.text.toList.foldl Cursor.after l.span.1 ∧ l.text.toList ≠ [] ∧
      ∀ c ∈ l.text.toList, isIdentifierChar c = true

namespace Cuts

variable {cur : Cursor} {ls : List Lexeme} {i : Nat} {l m : Lexeme}

/-- A name that is cut before an equals sign stands in the text with it. -/
lemma keyword_stands (h : Cuts cur ls) (hl : ls[i]? = some l) (hm : ls[i + 1]? = some m)
    (hkind : l.kind = .name) (htext : m.text = "=") :
    ∃ gap, Spacing gap ∧ cur.rest.Stands cur.place l.span.1 (l.text.toList ++ gap ++ ['=']) ∧
      l.span.2 = l.text.toList.foldl Cursor.after l.span.1 ∧ l.text.toList ≠ [] ∧
      ∀ c ∈ l.text.toList, isIdentifierChar c = true := by
  obtain ⟨rest, hpart, hstop, ⟨hmark, -⟩ | ⟨n, hword, htake⟩, hcuts⟩ := h.at_index hl
  · rw [hkind] at hmark
    cases hmark
  rw [hkind] at hword
  obtain ⟨hne, hchars⟩ := name_of_word? hword
  rw [← htake] at hne hchars
  rw [List.drop_eq_getElem?_toList_append, hm] at hcuts
  obtain ⟨gap, rest', hrest, -, -, -, -, hgap⟩ := hcuts.next
  simp only [htext] at hrest hgap
  refine ⟨gap, hgap '=' rfl (by decide), ?_, hstop, hne, hchars⟩
  rw [hrest] at hpart
  refine Text.Stands.part (a := []) (b := rest') ?_
  simpa using hpart

end Cuts

/-- The lexemes of a program fit it. -/
lemma fits_of_cut {text : Text} {ls : Array Lexeme} (h : cut text ⟨1, 0⟩ = some ls) :
    Fits text ls where
  placed := by
    intro i l hl
    obtain ⟨rest, ⟨pre, post, -, hstart⟩, hstop, -⟩ :=
      (cuts_of_cut h).at_index (by simpa using hl)
    rw [hstop, hstart]
    exact ⟨Cursor.one_le_line pre, Cursor.le_foldl_after ..⟩
  ordered := by
    intro i l m hl hm
    obtain ⟨rest, -, -, -, hcuts⟩ := (cuts_of_cut h).at_index (by simpa using hl)
    obtain ⟨rest', ⟨pre, post, -, hstart⟩, -⟩ := hcuts.at_index (i := 0) (by simpa using hm)
    rw [hstart]
    exact Cursor.le_foldl_after ..
  keyword := by
    intro i l m hl hm hkind htext
    exact (cuts_of_cut h).keyword_stands (by simpa using hl) (by simpa using hm) hkind htext

end Lexeme

end KeyOrder
