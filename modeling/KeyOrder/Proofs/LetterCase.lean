import KeyOrder.Proofs.DigitRuns
import KeyOrder.Unicode.Lowercase

/-!
# Letter case and digits

Lower case keeps every digit, and what it makes of another character is neither empty nor a digit.
So a name and its lower-case form have the same runs of digits, and one is within the limit when the
other is.
-/

namespace KeyOrder

namespace Unicode

open Natural

/-! ### The table of lower-case forms -/

/-- A run of a table with an image, all of which lies past the digits. -/
def Run.PastDigits (r : Run) : Prop := r.image ≠ [] ∧ ∀ d ∈ r.image, '9'.toNat < d

instance (r : Run) : Decidable r.PastDigits :=
  inferInstanceAs (Decidable (r.image ≠ [] ∧ ∀ d ∈ r.image, '9'.toNat < d))

lemma pastDigits_of_mem_lowercaseForms : ∀ r ∈ lowercaseForms, r.PastDigits := by
  simp only [lowercaseForms, Table.ofLines, List.mem_toArray, List.flatMap_cons, List.flatMap_nil,
    List.append_nil, List.forall_mem_append]
  -- each line of the table is read and looked through on its own
  repeat' apply And.intro
  all_goals
    rw [Table.readLine, String.toList_ofList]
    decide +kernel

lemma Table.mem_of_find? {t : Table} {c : CodePoint} {r : Run} (h : t.find? c = some r) :
    r ∈ t := by
  unfold Table.find? at h
  dsimp only at h
  split at h
  · cases h
  · obtain ⟨hr, -⟩ := Option.filter_eq_some_iff.1 h
    exact Array.mem_of_getElem? hr

lemma Run.PastDigits.imageAt {r : Run} (h : r.PastDigits) (c : CodePoint) :
    r.imageAt c ≠ [] ∧ ∀ d ∈ r.imageAt c, '9'.toNat < d := by
  obtain ⟨hne, hpast⟩ := h
  unfold Run.imageAt
  split
  · rename_i t ht
    have hlt : '9'.toNat < t := hpast t (by simp [ht])
    refine ⟨by simp, fun d hd => ?_⟩
    rw [List.mem_singleton.1 hd]
    omega
  · exact ⟨hne, hpast⟩

/-! ### One character -/

lemma isDigit_iff {c : Nat} : isDigit c = true ↔ 48 ≤ c ∧ c ≤ 57 := by
  simp [isDigit]

lemma isDigit_of_past {c : Nat} (h : 57 < c) : isDigit c = false := by
  rw [← Bool.not_eq_true, isDigit_iff]
  omega

variable {before after : CodePoints} {c : CodePoint}

lemma lowerPoint_of_isDigit (hc : isDigit c = true) : lowerPoint before c after = [c] := by
  obtain ⟨-, hle⟩ := isDigit_iff.1 hc
  have hascii : c < 0x80 := Nat.lt_of_le_of_lt hle (by decide)
  have hsmall : ¬('A'.toNat ≤ c ∧ c ≤ 'Z'.toNat) := fun hcapital =>
    absurd (Nat.le_trans hcapital.1 hle) (by decide)
  rw [lowerPoint, if_pos hascii, if_neg hsmall]

lemma lowerPoint_ne_nil_and_digitFree (hc : isDigit c = false) :
    lowerPoint before c after ≠ [] ∧ DigitFree (lowerPoint before c after) := by
  unfold lowerPoint
  split
  · -- an ASCII character
    refine ⟨by simp, fun d hd => ?_⟩
    rw [List.mem_singleton.1 hd]
    split
    · rename_i hcapital
      exact isDigit_of_past (Nat.lt_of_lt_of_le (by decide) (Nat.add_le_add_right hcapital.1 32))
    · exact hc
  · split
    · -- the capital sigma
      split
      · exact ⟨by simp, by simp [DigitFree, isDigit]⟩
      · exact ⟨by simp, by simp [DigitFree, isDigit]⟩
    · split
      · rename_i r hr
        have hpast := pastDigits_of_mem_lowercaseForms r (Table.mem_of_find? hr)
        obtain ⟨hne, himage⟩ := hpast.imageAt c
        exact ⟨hne, fun d hd => isDigit_of_past (himage d hd)⟩
      · exact ⟨by simp, by simpa [DigitFree] using hc⟩

/-! ### Names -/

/-- A name in lower case is cut at the same runs, and one begins with a run when the other does. -/
lemma cut_lowerFrom (before : CodePoints) (name : Name) :
    (cut (lowerFrom before name)).runs.map Prod.fst = (cut name).runs.map Prod.fst ∧
      ((cut (lowerFrom before name)).text = [] ↔ (cut name).text = []) := by
  induction name generalizing before with
  | nil => exact ⟨rfl, Iff.rfl⟩
  | cons c name ih =>
    obtain ⟨hruns, htext⟩ := ih (c :: before)
    rw [lowerFrom, cut_cons]
    cases hc : isDigit c with
    | true =>
      rw [lowerPoint_of_isDigit hc, List.singleton_append, cut_cons]
      generalize cut (lowerFrom (c :: before) name) = l at hruns htext
      generalize cut name = k at hruns htext
      obtain ⟨t, rs⟩ := l
      obtain ⟨u, ss⟩ := k
      cases t with
      | nil =>
        obtain rfl : u = [] := htext.1 rfl
        cases rs <;> cases ss <;> simp_all [Cut.cons]
      | cons d t =>
        have hu : u ≠ [] := fun hu => by simpa using htext.2 hu
        cases u with
        | nil => exact absurd rfl hu
        | cons e u => simp_all [Cut.cons]
    | false =>
      obtain ⟨hne, hfree⟩ : lowerPoint before c name ≠ [] ∧ DigitFree (lowerPoint before c name) :=
        lowerPoint_ne_nil_and_digitFree hc
      rw [cut_text_append hfree, Cut.cons]
      simp [hc, hne, hruns]

lemma digitRuns_lower (name : Name) : digitRuns (lower name) = digitRuns name := by
  rw [digitRuns_eq, digitRuns_eq, lower, (cut_lowerFrom [] name).1]

end Unicode

lemma withinLimit_lower {name : Name} : WithinLimit (Unicode.lower name) ↔ WithinLimit name := by
  rw [WithinLimit, Unicode.digitRuns_lower, WithinLimit]

end KeyOrder
