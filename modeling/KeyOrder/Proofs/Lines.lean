import KeyOrder.Proofs.Lookup

/-!
# The line of an offset

The line that holds an offset is one more than the number of line breaks before it, so lines grow
with offsets.
-/

namespace KeyOrder

lemma lines_ne_nil (text : Text) : text.lines ≠ [] := by
  cases text with
  | nil => simp [Text.lines]
  | cons c cs =>
    rw [Text.lines]
    split
    · simp
    · split <;> simp

lemma le_of_mem_lineStarts {offset s : Nat} {ls : List Text} (h : s ∈ lineStarts offset ls) :
    offset ≤ s := by
  induction ls generalizing offset with
  | nil => exact absurd h List.not_mem_nil
  | cons l ls ih =>
    rcases List.mem_cons.1 h with rfl | h
    · exact Nat.le_refl _
    · exact Nat.le_of_add_right_le (ih h)

lemma pairwise_lineStarts (offset : Nat) (ls : List Text) :
    (lineStarts offset ls).Pairwise (· ≤ ·) := by
  induction ls generalizing offset with
  | nil => exact .nil
  | cons l ls ih =>
    refine .cons (fun s hs => ?_) (ih _)
    exact Nat.le_of_add_right_le (le_of_mem_lineStarts hs)

/-- A line break ends the first line. -/
lemma lineStarts_lines_break (offset : Nat) (cs : Text) :
    lineStarts offset (Text.lines ('\n' :: cs)) =
      offset :: lineStarts (offset + 1) (Text.lines cs) := by
  rw [Text.lines, if_pos rfl]
  rfl

/-- Any other character makes the first line longer. -/
lemma lineStarts_lines_cons (offset : Nat) {c : Char} (hc : c ≠ '\n') (cs : Text) :
    ∃ rest, lineStarts offset (Text.lines (c :: cs)) = offset :: rest ∧
      lineStarts (offset + 1) (Text.lines cs) = (offset + 1) :: rest := by
  rw [Text.lines, if_neg hc]
  cases hls : Text.lines cs with
  | nil => exact absurd hls (lines_ne_nil cs)
  | cons l ls =>
    refine ⟨lineStarts (offset + 1 + l.length) ls, ?_, rfl⟩
    simp only [lineStarts, List.length_cons]
    congr 2
    omega

/-- The lines that start by an offset are as many as the line breaks before it, and one more. -/
lemma countP_lineStarts (start offset : Nat) (text : Text) :
    (lineStarts start text.lines).countP (fun s => decide (s ≤ start + offset)) =
      (text.take offset).count '\n' + 1 := by
  induction text generalizing start offset with
  | nil => simp [Text.lines, lineStarts]
  | cons c cs ih =>
    by_cases hc : c = '\n'
    · -- the rest of the text starts with a line of its own
      subst hc
      rw [lineStarts_lines_break, List.countP_cons_of_pos (by simp)]
      cases offset with
      | zero =>
        rw [List.countP_eq_zero.2, List.take_zero, List.count_nil]
        intro s hs
        have := le_of_mem_lineStarts hs
        simp only [decide_eq_true_eq]
        omega
      | succ offset =>
        have hih := ih (start + 1) offset
        rw [Nat.add_assoc, Nat.add_comm 1 offset] at hih
        rw [hih, List.take_succ_cons, List.count_cons_self]
    · -- the first line is longer by the character, and it starts where it did
      obtain ⟨rest, hhere, hlater⟩ := lineStarts_lines_cons start hc cs
      rw [hhere, List.countP_cons_of_pos (by simp)]
      cases offset with
      | zero =>
        rw [List.countP_eq_zero.2, List.take_zero, List.count_nil]
        intro s hs
        have hmem : s ∈ lineStarts (start + 1) (Text.lines cs) := by
          rw [hlater]
          exact List.mem_cons_of_mem _ hs
        have := le_of_mem_lineStarts hmem
        simp only [decide_eq_true_eq]
        omega
      | succ offset =>
        have hih := ih (start + 1) offset
        rw [hlater, List.countP_cons_of_pos (by simp), Nat.add_assoc, Nat.add_comm 1 offset] at hih
        rw [List.take_succ_cons, List.count_cons_of_ne hc, hih]

/-- **The line of an offset counts the line breaks before it.** -/
lemma lineOf_ofText (text : Text) (offset : Nat) :
    (LineIndex.ofText text).lineOf offset = (text.take offset).count '\n' + 1 := by
  have hmono : (LineIndex.ofText text).starts.toList.Pairwise
      fun a b => decide (offset < a) = true → decide (offset < b) = true := by
    refine (pairwise_lineStarts 0 text.lines).imp ?_
    intro hab
    simp only [decide_eq_true_eq]
    omega
  have hlength := congrArg List.length (bisectArray_split hmono).1
  rw [List.length_take, ← List.countP_eq_length_filter, Nat.min_eq_left] at hlength
  · have hcount := countP_lineStarts 0 offset text
    rw [Nat.zero_add] at hcount
    refine hlength.trans (Eq.trans (List.countP_congr fun s _ => ?_) hcount)
    simp
  · simpa using bisectArray_le (fun s => decide (offset < s)) (LineIndex.ofText text).starts

lemma lineOf_mono (text : Text) {a b : Nat} (h : a ≤ b) :
    (LineIndex.ofText text).lineOf a ≤ (LineIndex.ofText text).lineOf b := by
  rw [lineOf_ofText, lineOf_ofText]
  exact Nat.succ_le_succ ((List.take_sublist_take_left h).count_le _)

end KeyOrder
