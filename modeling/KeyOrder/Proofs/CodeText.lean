import KeyOrder.Syntax.Lexeme
import Mathlib.Data.List.TakeDrop
import Mathlib.Data.List.TakeWhile

/-!
# Plain code

Names, numbers and operators hold no character that starts or ends a comment, a string or a line.
So a reader that only looks for comments and strings can pass over them one character at a time,
whatever they are taken for.
-/

namespace KeyOrder

namespace Text

/-- The characters that start a comment, a string or a continuation, or end a line. -/
def marks : List Char := ['\\', '#', '\'', '"', '\n', '\r']

/-- Whether a character has no part in comments, quotes and line ends. -/
def isCode (c : Char) : Bool := !marks.contains c

/-- A text of such characters. -/
def Code (text : Text) : Prop := ∀ c ∈ text, isCode c = true

lemma forall_mem_marks {p : Char → Prop} :
    (∀ c ∈ marks, p c) ↔ p '\\' ∧ p '#' ∧ p '\'' ∧ p '"' ∧ p '\n' ∧ p '\r' := by
  simp [marks]

/-- A class of characters that has no mark in it. -/
lemma isCode_of {p : Char → Bool} (hp : ∀ c ∈ marks, p c = false) {c : Char} (hc : p c = true) :
    isCode c = true := by
  rw [isCode, Bool.not_eq_true', List.contains_eq_mem, decide_eq_false_iff_not]
  intro hmem
  rw [hp c hmem] at hc
  exact Bool.false_ne_true hc

lemma ne_of_isCode {c d : Char} (hc : isCode c = true) (hd : d ∈ marks) : c ≠ d := by
  rintro rfl
  rw [isCode, Bool.not_eq_true', List.contains_eq_mem, decide_eq_false_iff_not] at hc
  exact hc hd

@[simp] lemma code_nil : Code [] := fun _ hc => absurd hc List.not_mem_nil

@[simp] lemma code_cons {c : Char} {cs : Text} : Code (c :: cs) ↔ isCode c = true ∧ Code cs :=
  List.forall_mem_cons

@[simp] lemma code_append {a b : Text} : Code (a ++ b) ↔ Code a ∧ Code b :=
  List.forall_mem_append

lemma code_takeWhile {p : Char → Bool} (hp : ∀ c ∈ marks, p c = false) (cs : Text) :
    Code (cs.takeWhile p) :=
  fun _ hc => isCode_of hp (List.mem_takeWhile_imp hc)

/-- The first characters of a class, as a part of the text. -/
lemma code_take_takeWhile {p : Char → Bool} (hp : ∀ c ∈ marks, p c = false) (cs : Text) :
    Code (cs.take (cs.takeWhile p).length) := by
  rw [← List.prefix_iff_eq_take.1 (List.takeWhile_prefix p)]
  exact code_takeWhile hp cs

/-- One part of a text after another. -/
lemma code_take_add {cs : Text} {m n : Nat} (hm : Code (cs.take m))
    (hn : Code ((cs.drop m).take n)) : Code (cs.take (m + n)) := by
  rw [List.take_add]
  exact code_append.2 ⟨hm, hn⟩

/-- One more character. -/
lemma code_take_succ {cs : Text} {n : Nat} {p : Char → Bool} (hp : ∀ c ∈ marks, p c = false)
    (hn : Code (cs.take n)) (hc : ∀ c, cs[n]? = some c → p c = true) :
    Code (cs.take (n + 1)) := by
  rw [List.take_add_one]
  refine code_append.2 ⟨hn, ?_⟩
  cases h : cs[n]? with
  | none => exact code_nil
  | some c => exact code_cons.2 ⟨isCode_of hp (hc c h), code_nil⟩

end Text

/-! ### Numbers, operators and words -/

namespace Shape

open Text (Code code_nil code_cons code_take_add code_take_succ isCode_of)

lemma code_underscored {p : Char → Bool} (hp : ∀ c ∈ Text.marks, p c = false) (cs : Text) :
    Code (cs.take (underscored p cs)) := by
  fun_induction underscored p cs with
  | case1 c cs hc ih =>
    rw [Nat.add_comm, List.take_succ_cons, List.take_succ_cons]
    exact code_cons.2 ⟨by decide, code_cons.2 ⟨isCode_of hp hc, ih⟩⟩
  | case2 c cs hc => exact code_nil
  | case3 c cs _ hc ih =>
    rw [Nat.add_comm, List.take_succ_cons]
    exact code_cons.2 ⟨isCode_of hp hc, ih⟩
  | case4 c cs _ hc => exact code_nil
  | case5 => exact code_nil

lemma code_digitPart (cs : Text) : Code (cs.take (digitPart cs)) := by
  have hdigit : ∀ c ∈ Text.marks, c.isDigit = false :=
    Text.forall_mem_marks.2 (by decide)
  unfold digitPart
  split
  · split
    · rename_i c cs hc
      rw [Nat.add_comm, List.take_succ_cons]
      exact code_cons.2 ⟨isCode_of hdigit hc, code_underscored hdigit cs⟩
    · exact code_nil
  · exact code_nil

lemma code_exponent (cs : Text) : Code (cs.take (exponent cs)) := by
  have hmark : ∀ c ∈ Text.marks, (c == 'e' || c == 'E') = false :=
    Text.forall_mem_marks.2 (by decide)
  have hsigns : ∀ c ∈ Text.marks, (c == '+' || c == '-') = false :=
    Text.forall_mem_marks.2 (by decide)
  unfold exponent
  split
  · rename_i e cs
    split
    · rename_i he
      extract_lets sign digits
      have hsign : Code (cs.take sign) := by
        unfold sign
        split
        · split
          · rename_i hs
            exact code_cons.2 ⟨isCode_of hsigns hs, code_nil⟩
          · exact code_nil
        · exact code_nil
      split
      · exact code_nil
      · rw [Nat.add_assoc, Nat.add_comm 1, List.take_succ_cons]
        exact code_cons.2 ⟨isCode_of hmark he, code_take_add hsign (code_digitPart _)⟩
    · exact code_nil
  · exact code_nil

lemma code_float (cs : Text) : Code (cs.take (float cs)) := by
  unfold float
  dsimp only
  split
  · rename_i rest hrest
    split
    · exact code_nil
    · -- the digits before the point, the point, the digits after it and the exponent
      rw [Nat.add_assoc, Nat.add_assoc]
      refine code_take_add (code_digitPart cs) ?_
      rw [hrest, Nat.add_comm 1, List.take_succ_cons]
      exact code_cons.2 ⟨by decide, code_take_add (code_digitPart rest) (code_exponent _)⟩
  · split
    · exact code_nil
    · exact code_take_add (code_digitPart cs) (code_exponent _)

/-- The letter that tells the base of a number, and its digits. -/
lemma code_based {p q x : Char} {isDigit : Char → Bool} (hx : (x == p || x == q) = true)
    (hp : p ∉ Text.marks) (hq : q ∉ Text.marks) (hdigit : ∀ c ∈ Text.marks, isDigit c = false)
    (rest : Text) : Code ('0' :: x :: rest.take (underscored isDigit rest)) := by
  have hletter : Text.isCode x = true := by
    refine isCode_of (p := fun c => c == p || c == q) (fun c hc => ?_) hx
    simp only [Bool.or_eq_false_iff, beq_eq_false_iff_ne]
    exact ⟨fun h => hp (h ▸ hc), fun h => hq (h ▸ hc)⟩
  exact code_cons.2 ⟨by decide, code_cons.2 ⟨hletter, code_underscored hdigit rest⟩⟩

lemma code_integer (cs : Text) : Code (cs.take (integer cs)) := by
  have hhex : ∀ c ∈ Text.marks, isHexDigit c = false :=
    Text.forall_mem_marks.2 (by decide)
  have hbinary : ∀ c ∈ Text.marks, (c == '0' || c == '1') = false :=
    Text.forall_mem_marks.2 (by decide)
  have hoctal : ∀ c ∈ Text.marks, (decide ('0' ≤ c) && decide (c ≤ '7')) = false :=
    Text.forall_mem_marks.2 (by decide)
  have hzero : ∀ c ∈ Text.marks, (c == '0') = false :=
    Text.forall_mem_marks.2 (by decide)
  unfold integer
  extract_lets based
  split
  · rename_i hbased
    unfold based at hbased ⊢
    split at hbased
    · rename_i x rest
      rw [Nat.add_comm, List.take_succ_cons, List.take_succ_cons]
      split at hbased
      · rename_i hx
        rw [if_pos hx]
        exact code_based hx (by decide) (by decide) hhex rest
      · rename_i hx
        rw [if_neg hx]
        split at hbased
        · rename_i hb
          rw [if_pos hb]
          exact code_based hb (by decide) (by decide) hbinary rest
        · rename_i hb
          rw [if_neg hb]
          split at hbased
          · rename_i ho
            rw [if_pos ho]
            exact code_based ho (by decide) (by decide) hoctal rest
          · exact absurd rfl hbased
    · exact absurd rfl hbased
  · split
    · rename_i rest _
      rw [Nat.add_comm, List.take_succ_cons]
      exact code_cons.2 ⟨by decide, code_underscored hzero rest⟩
    · exact code_digitPart _

/-- The mark of an imaginary number after a part of a text. -/
lemma code_imaginary {cs : Text} {n : Nat} (hn : Code (cs.take n))
    (hmark : isImaginaryMark cs[n]? = true) : Code (cs.take (n + 1)) := by
  have hmarks : ∀ c ∈ Text.marks, isImaginaryMark (some c) = false :=
    Text.forall_mem_marks.2 (by decide)
  refine code_take_succ (p := fun c => isImaginaryMark (some c)) hmarks hn fun c hc => ?_
  rwa [hc] at hmark

lemma code_number (cs : Text) : Code (cs.take (number cs)) := by
  unfold number
  dsimp only
  split
  · rename_i h
    exact code_imaginary (code_digitPart cs) h.2
  · split
    · split
      · rename_i h
        exact code_imaginary (code_float cs) h
      · exact code_float cs
    · exact code_integer cs

lemma code_operator (cs : Text) : Code (cs.take (operator cs)) := by
  have hcode : ∀ op ∈ operators, op.all Text.isCode = true :=
    List.all_eq_true.1 (by decide)
  unfold operator
  cases hfind : operators.find? (·.isPrefixOf cs) with
  | none => exact code_nil
  | some op =>
    have hop : op.isPrefixOf cs = true :=
      List.find?_some (p := fun op : Text => op.isPrefixOf cs) hfind
    have hprefix : op <+: cs := List.isPrefixOf_iff_prefix.1 hop
    change Code (cs.take op.length)
    rw [← List.prefix_iff_eq_take.1 hprefix]
    exact List.all_eq_true.1 (hcode op (List.mem_of_find?_eq_some hfind))

lemma code_word (cs : Text) : Code (cs.take (cs.takeWhile Unicode.isWord).length) :=
  Text.code_take_takeWhile (Text.forall_mem_marks.2 (by decide +kernel)) cs

end Shape

namespace Lexeme

open Text (Code code_nil)

lemma code_identifier {cs : Text} {n : Nat} (h : identifier? cs = some n) : Code (cs.take n) := by
  unfold identifier? at h
  dsimp only at h
  split at h
  · cases h
    exact Text.code_take_takeWhile (Text.forall_mem_marks.2 (by decide)) cs
  · cases h

lemma code_number {cs : Text} {n : Nat} (h : number? cs = some n) : Code (cs.take n) := by
  unfold number? at h
  extract_lets based whole real length at h
  have hlength : Code (cs.take length) := by
    unfold length
    split
    · split
      · exact code_nil
      · exact Shape.code_integer cs
    · split
      · split
        · rename_i hmark
          exact Shape.code_imaginary (Shape.code_float cs) hmark
        · exact Shape.code_float cs
      · split
        · rename_i hmark
          exact Shape.code_imaginary (Shape.code_digitPart cs) hmark
        · split
          · exact code_nil
          · exact Shape.code_digitPart cs
  split at h
  · rw [← Option.some.inj h]
    exact hlength
  · cases h

end Lexeme

end KeyOrder
