import KeyOrder.Proofs.CodeText
import KeyOrder.Proofs.Lexing
import KeyOrder.Proofs.Spelling

/-!
# Strings are closed

A text that can be cut into lexemes closes all of its strings.  The tokens of a text are read line
by line, and where the lines end as the lexemes see them, a string that is open at the end of a line
is closed later in the text: no string is left unfinished.  What is left of the text is compared in
both readings, once with its own line breaks and once with `\n` for each of them.
-/

namespace KeyOrder

open Text (isBreak)

/-! ### Quotes -/

namespace Shape

/-- The delimiter at the start of a text is told by its first character and the two after it. -/
lemma quotes?_cons (a : Char) (cs : Text) :
    quotes? (a :: cs) = if a == '\'' || a == '"' then some ⟨a, [a, a].isPrefixOf cs⟩ else none := by
  match cs with
  | [] => rfl
  | [b] => simp [quotes?, List.isPrefixOf]
  | b :: c :: cs => simp [quotes?, List.isPrefixOf]

/-- What stands at a delimiter. -/
lemma exists_of_quotes? {cs : Text} {d : Delimiter} (h : quotes? cs = some d) :
    ∃ rest, cs = d.quote :: rest ∧ (d.quote = '\'' ∨ d.quote = '"') ∧
      d.triple = [d.quote, d.quote].isPrefixOf rest := by
  cases cs with
  | nil => cases h
  | cons a cs =>
    rw [quotes?_cons] at h
    split at h
    · rename_i ha
      cases h
      simp only [Bool.or_eq_true, beq_iff_eq] at ha
      exact ⟨cs, rfl, ha, rfl⟩
    · cases h

lemma isBreak_quote {cs : Text} {d : Delimiter} (h : quotes? cs = some d) :
    isBreak d.quote = false := by
  obtain ⟨-, -, hquote | hquote, -⟩ := exists_of_quotes? h
  · rw [hquote]
    rfl
  · rw [hquote]
    rfl

lemma length_le_of_quotes? {cs : Text} {d : Delimiter} (h : quotes? cs = some d) :
    d.length ≤ cs.length := by
  obtain ⟨rest, rfl, -, htriple⟩ := exists_of_quotes? h
  unfold Delimiter.length
  split
  · rename_i ht
    rw [ht] at htriple
    have hlength := (List.isPrefixOf_iff_prefix.1 htriple.symm).length_le
    simp only [List.length_cons, List.length_nil] at hlength ⊢
    omega
  · simp

end Shape

/-! ### Texts whose strings are closed -/

/-- Whether a character starts neither a string nor a comment nor a continuation. -/
def Text.isPlain (c : Char) : Bool := c != '\\' && c != '#' && c != '\'' && c != '"'

/-- A text whose strings are closed, as far as comments and strings are told from other code. -/
inductive Text.Quoted : Text → Prop
  | nil : Quoted []
  /-- Any other character. -/
  | plain {c : Char} {cs : Text} (hc : Text.isPlain c = true) (h : Quoted cs) : Quoted (c :: cs)
  /-- A line break after a backslash. -/
  | continued {cs : Text} (h : Quoted cs) : Quoted ('\\' :: '\n' :: cs)
  /-- A comment up to the end of its line. -/
  | comment {cs : Text} (h : Quoted (cs.dropWhile (· != '\n'))) : Quoted ('#' :: cs)
  /-- A string with its quotes. -/
  | string {cs : Text} {d : Shape.Delimiter} {n : Nat} (hd : Shape.quotes? cs = some d)
      (hn : Lexeme.closing d (cs.drop d.length) = some n) (h : Quoted (cs.drop (d.length + n))) :
      Quoted cs

namespace Text

lemma isPlain_of_isCode {c : Char} (h : isCode c = true) : isPlain c = true := by
  simp [isPlain, ne_of_isCode h (show '\\' ∈ marks by decide),
    ne_of_isCode h (show '#' ∈ marks by decide), ne_of_isCode h (show '\'' ∈ marks by decide),
    ne_of_isCode h (show '"' ∈ marks by decide)]

lemma isPlain_of_isWhite {c : Char} (h : isWhite c = true) : isPlain c = true := by
  simp only [isWhite, Scan.isBlank, isBreak, Bool.or_eq_true, beq_iff_eq] at h
  rcases h with ((rfl | rfl) | rfl) | rfl | rfl <;> rfl

/-- A plain character starts no delimiter. -/
lemma quotes?_eq_none {c : Char} (hc : isPlain c = true) (cs : Text) :
    Shape.quotes? (c :: cs) = none := by
  simp only [isPlain, Bool.and_eq_true, bne_iff_ne] at hc
  rw [Shape.quotes?_cons, if_neg (by simp [hc.1.2, hc.2])]

namespace Quoted

variable {a cs : Text}

/-- Code before the rest. -/
lemma of_code (ha : Code a) (h : Quoted cs) : Quoted (a ++ cs) := by
  induction a with
  | nil => exact h
  | cons c a ih =>
    obtain ⟨hc, ha⟩ := code_cons.1 ha
    exact .plain (isPlain_of_isCode hc) (ih ha)

lemma of_cons {c : Char} (hc : isPlain c = true) (h : Quoted (c :: cs)) : Quoted cs := by
  cases h with
  | plain _ h => exact h
  | continued h => exact absurd hc (by decide)
  | comment h => exact absurd hc (by decide)
  | string hd => rw [quotes?_eq_none hc] at hd; cases hd

lemma of_append (ha : ∀ c ∈ a, isPlain c = true) (h : Quoted (a ++ cs)) : Quoted cs := by
  induction a with
  | nil => exact h
  | cons c a ih =>
    obtain ⟨hc, ha⟩ := List.forall_mem_cons.1 ha
    exact ih ha (h.of_cons hc)

lemma of_backslash (h : Quoted ('\\' :: cs)) : ∃ rest, cs = '\n' :: rest ∧ Quoted rest := by
  cases h with
  | plain hc => exact absurd hc (by decide)
  | continued h => exact ⟨_, rfl, h⟩
  | string hd => rw [Shape.quotes?_cons] at hd; cases hd

lemma of_hash (h : Quoted ('#' :: cs)) : Quoted (cs.dropWhile (· != '\n')) := by
  cases h with
  | plain hc => exact absurd hc (by decide)
  | comment h => exact h
  | string hd => rw [Shape.quotes?_cons] at hd; cases hd

lemma of_quotes {d : Shape.Delimiter} (hd : Shape.quotes? cs = some d) (h : Quoted cs) :
    ∃ n, Lexeme.closing d (cs.drop d.length) = some n ∧ Quoted (cs.drop (d.length + n)) := by
  cases h with
  | nil => cases hd
  | plain hc => rw [quotes?_eq_none hc] at hd; cases hd
  | continued => rw [Shape.quotes?_cons] at hd; cases hd
  | comment => rw [Shape.quotes?_cons] at hd; cases hd
  | string hd' hn h =>
    obtain rfl : d = _ := Option.some.inj (hd.symm.trans hd')
    exact ⟨_, hn, h⟩

end Quoted

end Text

namespace Lexeme

open Text (Quoted Code)

/-- The letters before the opening quote of a string. -/
lemma code_letters (cs : Text) : Code (cs.take (cs.takeWhile Char.isAlpha).length) :=
  Text.code_take_takeWhile (Text.forall_mem_marks.2 (by decide)) cs

/-- A word is code, or a string with its letters. -/
lemma quoted_of_word? {cs : Text} {k : LexemeKind} {n : Nat} (hword : word? cs = some (k, n))
    (h : Quoted (cs.drop n)) : Quoted cs := by
  have hcode : Code (cs.take n) → Quoted cs := fun hcode => by
    have hquoted := h.of_code hcode
    rwa [List.take_append_drop] at hquoted
  unfold word? at hword
  split at hword
  · cases hword
  · rename_i c rest
    split at hword
    · -- a string
      obtain ⟨n, hn, hword⟩ := Option.map_eq_some_iff.1 hword
      cases hword
      obtain ⟨⟨m, d⟩, hstart, hn⟩ := Option.bind_eq_some_iff.1 hn
      obtain ⟨k, hk, rfl⟩ := Option.map_eq_some_iff.1 hn
      unfold Shape.stringStart? at hstart
      extract_lets letters at hstart
      split at hstart
      · obtain ⟨d', hd, hstart⟩ := Option.map_eq_some_iff.1 hstart
        cases hstart
        have hstring : Quoted ((c :: rest).drop letters.length) := by
          refine .string (n := k) hd ?_ ?_
          · rw [List.drop_drop]
            exact hk
          · rwa [List.drop_drop, ← Nat.add_assoc]
        have hquoted := hstring.of_code (code_letters (c :: rest))
        rwa [List.take_append_drop] at hquoted
      · cases hstart
    · split at hword
      · obtain ⟨n, hn, hword⟩ := Option.map_eq_some_iff.1 hword
        cases hword
        exact hcode (code_number hn)
      · split at hword
        · obtain ⟨n, hn, hword⟩ := Option.map_eq_some_iff.1 hword
          cases hword
          exact hcode (code_identifier hn)
        · split at hword
          · cases hword
          · cases hword
            exact hcode (Shape.code_operator _)

/-- **What is cut into lexemes closes its strings.** -/
lemma Cuts.quoted {cur : Cursor} {ls : List Lexeme} (h : Cuts cur ls) : Quoted cur.rest := by
  induction h with
  | done => exact .nil
  | white hc _ ih => exact .plain (Text.isPlain_of_isWhite hc) ih
  | continued _ ih => exact .continued (by simpa using ih)
  | @comment cs p _ _ ih =>
    rw [Cursor.skipWhile_rest, List.dropWhile_cons_of_pos rfl] at ih
    exact .comment ih
  | mark _ _ ih => exact ih
  | word hword _ ih => exact quoted_of_word? hword (by simpa using ih)

end Lexeme

end KeyOrder
