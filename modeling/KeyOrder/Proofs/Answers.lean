import KeyOrder.Proofs.Passes

/-!
# A run follows the answers of its applier

What a run does is settled by the answers that its applier gives, whatever these are.  The run takes
one answer after another until one applies nothing or the passes are used up, and checks the text of
each.  When all of them can be checked the last one is the output, with the problems of its own
check; else the first one that cannot be checked ends the run.

* `Applier.taken` counts the answers that a run takes;
* `fixFrom_reached` and `fixFrom_failed` follow the loop from any answer on;
* `verifyAndFix_follows_answers` is the result for whole runs.
-/

namespace KeyOrder

namespace Applier

variable (apply : Applier) (options : Json.Value) (text : Text)

/-- The problems that a pass over a text goes by; there are none where the text cannot be checked,
and then there is no pass. -/
def problemsOf (text : Text) : List Problem :=
  match verify options text with
  | .ok report => report.problems
  | .error _ => []

/-- The text after `i` answers.  Each answer is asked for with the text before it and its
problems. -/
def textAfter : Nat → Text
  | 0 => text
  | i + 1 => (apply i (textAfter i) (problemsOf options (textAfter i))).output

/-- The answer after `i` others. -/
def answer (i : Nat) : Edit.Applied :=
  apply i (apply.textAfter options text i) (problemsOf options (apply.textAfter options text i))

lemma textAfter_succ (i : Nat) :
    apply.textAfter options text (i + 1) = (apply.answer options text i).output := rfl

/-- Whether an answer applies something. -/
def applies (i : Nat) : Bool := (apply.answer options text i).count != 0

/-- The number of answers before the first one that applies nothing, at most `maxPasses`. -/
def taken (maxPasses : Nat) : Nat :=
  ((List.range maxPasses).takeWhile (apply.applies options text)).length

/-- The text after `i` answers can be checked. -/
def Checkable (i : Nat) : Prop :=
  ∃ report, verify options (apply.textAfter options text i) = .ok report

/-- A result that stands for the text after `i` answers. -/
structure Reached (i : Nat) (r : FixResult) : Prop where
  output : r.output = apply.textAfter options text i
  passes : r.passes = i
  checked : ∃ report, verify options r.output = .ok report ∧ r.problems = report.problems

variable {apply options text}

/-- A result that stands for a text is what the next answer is asked for with. -/
lemma Reached.answer_eq {i : Nat} {r : FixResult} (h : apply.Reached options text i r) :
    apply r.passes r.output r.problems = apply.answer options text i := by
  obtain ⟨report, hreport, hproblems⟩ := h.checked
  have hsame : problemsOf options r.output = r.problems := by
    rw [problemsOf, hreport, hproblems]
  rw [answer, ← h.output, hsame, h.passes]

/-- The text of the next answer, once it has been checked. -/
lemma Reached.next {i : Nat} {r : FixResult} {report : Report} (h : apply.Reached options text i r)
    (hreport : verify options (apply.textAfter options text (i + 1)) = .ok report)
    (log : List Record) :
    apply.Reached options text (i + 1)
      ⟨(apply r.passes r.output r.problems).output, report.problems, r.passes + 1, log⟩ := by
  have houtput : (apply r.passes r.output r.problems).output =
      apply.textAfter options text (i + 1) := by
    rw [textAfter_succ, h.answer_eq]
  exact
    { output := houtput
      passes := congrArg (· + 1) h.passes
      checked := ⟨report, by rw [houtput, hreport], rfl⟩ }

end Applier

open Applier

section Loop

variable {apply : Applier} {options : Json.Value} {values : List Json.Value} {text : Text}
  (hvalues : Options.validate options = .ok values)

include hvalues

/-- From the text after `i` answers on, the loop takes the answers that apply something, as long as
their texts can be checked. -/
lemma fixFrom_reached {n i : Nat} {r : FixResult} (hr : apply.Reached options text i r)
    (hcheck : ∀ j ≤ ((List.range' i n).takeWhile (apply.applies options text)).length,
      apply.Checkable options text (i + j)) :
    ∃ r', fixFrom apply (Options.configuration values) n r = .ok r' ∧ apply.Reached options text
      (i + ((List.range' i n).takeWhile (apply.applies options text)).length) r' := by
  induction n generalizing i r with
  | zero => exact ⟨r, rfl, hr⟩
  | succ n ih =>
    rw [List.range'_succ] at hcheck ⊢
    by_cases hcount : (apply r.passes r.output r.problems).count = 0
    · have hstop : ¬apply.applies options text i = true := by
        rw [applies, ← hr.answer_eq, hcount]
        decide
      obtain ⟨log, hend⟩ := fixFrom_succ_of_zero (c := Options.configuration values) hcount
      rw [List.takeWhile_cons_of_neg hstop]
      exact ⟨_, hend n, hr.output, hr.passes, hr.checked⟩
    · have hgo : apply.applies options text i = true := by
        rw [applies, ← hr.answer_eq]
        exact bne_iff_ne.2 hcount
      rw [List.takeWhile_cons_of_pos hgo, List.length_cons] at hcheck ⊢
      obtain ⟨report, hreport⟩ := hcheck 1 (Nat.le_add_left 1 _)
      have hlint := (verify_eq_lint hvalues _).symm.trans hreport
      rw [textAfter_succ, ← hr.answer_eq] at hlint
      obtain ⟨log, hnext⟩ := fixFrom_succ_of_ok hcount hlint
      rw [hnext, ← Nat.add_assoc, Nat.add_right_comm]
      refine ih (hr.next hreport log) fun j hj => ?_
      rw [Nat.add_assoc, Nat.add_comm 1 j]
      exact hcheck (j + 1) (Nat.succ_le_succ hj)

/-- The first text that cannot be checked ends the loop. -/
lemma fixFrom_failed {n i k : Nat} {r : FixResult} {f : Fault}
    (hr : apply.Reached options text i r)
    (hk : k ≤ ((List.range' i n).takeWhile (apply.applies options text)).length)
    (hcheck : ∀ j < k, apply.Checkable options text (i + j))
    (hf : verify options (apply.textAfter options text (i + k)) = .error f) :
    fixFrom apply (Options.configuration values) n r = .error (f.inPass (i + k)) := by
  induction n generalizing i k r with
  | zero =>
    -- there is no answer left, and the text at hand has been checked
    obtain ⟨report, hreport, -⟩ := hr.checked
    obtain rfl : k = 0 := Nat.le_zero.1 hk
    rw [Nat.add_zero, ← hr.output, hreport] at hf
    cases hf
  | succ n ih =>
    rw [List.range'_succ] at hk
    cases k with
    | zero =>
      obtain ⟨report, hreport, -⟩ := hr.checked
      rw [Nat.add_zero, ← hr.output, hreport] at hf
      cases hf
    | succ k =>
      have hgo : apply.applies options text i = true := by
        by_contra hstop
        rw [List.takeWhile_cons_of_neg hstop] at hk
        exact Nat.not_succ_le_zero k hk
      have hcount : (apply r.passes r.output r.problems).count ≠ 0 := by
        rw [hr.answer_eq]
        exact bne_iff_ne.1 hgo
      rw [List.takeWhile_cons_of_pos hgo, List.length_cons] at hk
      have hshift : i + (k + 1) = i + 1 + k := by omega
      rw [hshift] at hf ⊢
      cases k with
      | zero =>
        -- the next text fails
        have hlint := (verify_eq_lint hvalues _).symm.trans hf
        rw [Nat.add_zero, textAfter_succ, ← hr.answer_eq] at hlint
        rw [fixFrom_succ_of_error hcount hlint, hr.passes, Nat.add_zero]
      | succ k =>
        obtain ⟨report, hreport⟩ := hcheck 1 (by omega)
        have hlint := (verify_eq_lint hvalues _).symm.trans hreport
        rw [textAfter_succ, ← hr.answer_eq] at hlint
        obtain ⟨log, hnext⟩ := fixFrom_succ_of_ok hcount hlint
        rw [hnext]
        refine ih (hr.next hreport log) (Nat.le_of_succ_le_succ hk) (fun j hj => ?_) hf
        have hlater := hcheck (j + 1) (by omega)
        rwa [Nat.add_comm j 1, ← Nat.add_assoc] at hlater

end Loop

/-! ### Whole runs -/

section Run

variable {apply : Applier} {options : Json.Value} {text : Text} {report : Report}
  (h : verify options text = .ok report) {maxPasses : Nat}

include h

/-- A run whose first text can be checked is the loop from the start. -/
lemma exists_start : ∃ values, Options.validate options = .ok values ∧
    apply.Reached options text 0 ⟨text, report.problems, 0, report.log⟩ ∧
    verifyAndFix apply options maxPasses text = fixFrom apply (Options.configuration values)
      maxPasses ⟨text, report.problems, 0, report.log⟩ := by
  obtain ⟨values, hvalues, -⟩ := Outcome.bind_eq_ok.1 h
  have hvalues := Outcome.ofOptions_eq_ok.1 hvalues
  exact ⟨values, hvalues, ⟨rfl, rfl, report, h, rfl⟩,
    verifyAndFix_eq_fixFrom hvalues h apply maxPasses⟩

/-- A run takes all answers that apply something when their texts can be checked. -/
lemma verifyAndFix_reached
    (hcheck : ∀ i ≤ apply.taken options text maxPasses, apply.Checkable options text i) :
    ∃ r, verifyAndFix apply options maxPasses text = .ok r ∧
      apply.Reached options text (apply.taken options text maxPasses) r := by
  obtain ⟨values, hvalues, hstart, hrun⟩ := exists_start h
  rw [taken, List.range_eq_range'] at hcheck ⊢
  rw [hrun, ← Nat.zero_add (List.length _)]
  exact fixFrom_reached hvalues hstart fun j hj => (Nat.zero_add j).symm ▸ hcheck j hj

/-- A run ends with the first text that cannot be checked. -/
lemma verifyAndFix_failed {k : Nat} {f : Fault} (hk : k ≤ apply.taken options text maxPasses)
    (hcheck : ∀ i < k, apply.Checkable options text i)
    (hf : verify options (apply.textAfter options text k) = .error f) :
    verifyAndFix apply options maxPasses text = .error (f.inPass k) := by
  obtain ⟨values, hvalues, hstart, hrun⟩ := exists_start h
  rw [taken, List.range_eq_range'] at hk
  rw [hrun, ← Nat.zero_add k]
  exact fixFrom_failed hvalues hstart hk (fun j hj => (Nat.zero_add j).symm ▸ hcheck j hj)
    ((Nat.zero_add k).symm ▸ hf)

/-- A run that gives a result has met no text that cannot be checked. -/
lemma checkable_of_verifyAndFix {r : FixResult}
    (hr : verifyAndFix apply options maxPasses text = .ok r) :
    ∀ i ≤ apply.taken options text maxPasses, apply.Checkable options text i := by
  by_contra hall
  push Not at hall
  classical
  obtain ⟨k, ⟨hk, hbad⟩, hfirst⟩ := Nat.findX hall
  have hbefore : ∀ i < k, apply.Checkable options text i := by
    intro i hi
    by_contra hnot
    exact hfirst i hi ⟨by omega, hnot⟩
  cases hf : verify options (apply.textAfter options text k) with
  | error f =>
    rw [verifyAndFix_failed h hk hbefore hf] at hr
    cases hr
  | ok last => exact hbad ⟨last, hf⟩

end Run

/-- **A run is faithful to whatever applies the fixes.**  Let `n` be the number of answers before
the first that applies nothing, at most `maxPasses`.  When the texts of all of them can be checked,
the run gives the last one, with its own problems and `n` passes.  Else it ends in the fault of the
first text that cannot be checked: as the fault of its pass when that text is no program, and as it
is otherwise.  A run never gives a text that cannot be checked. -/
theorem verifyAndFix_follows_answers (apply : Applier) {options : Json.Value} {text : Text}
    {report : Report} (h : verify options text = .ok report) (maxPasses : Nat) :
    ((∀ i ≤ apply.taken options text maxPasses, apply.Checkable options text i) →
      ∃ r last, verifyAndFix apply options maxPasses text = .ok r ∧
        r.output = apply.textAfter options text (apply.taken options text maxPasses) ∧
        verify options r.output = .ok last ∧ r.problems = last.problems ∧
        r.passes = apply.taken options text maxPasses ∧
        (r.fixed = true ↔ 0 < apply.taken options text maxPasses)) ∧
    (∀ k ≤ apply.taken options text maxPasses, ∀ f,
      (∀ i < k, apply.Checkable options text i) →
      verify options (apply.textAfter options text k) = .error f →
      (f = .invalidSyntax → verifyAndFix apply options maxPasses text = .error (.brokenFix k) ∧
        (Fault.brokenFix k).message? =
          some (codePoints ("fix in pass " ++ toString k ++ " produced invalid source"))) ∧
      (f ≠ .invalidSyntax → verifyAndFix apply options maxPasses text = .error f)) ∧
    ∀ r, verifyAndFix apply options maxPasses text = .ok r →
      ∃ last, verify options r.output = .ok last := by
  refine ⟨fun hcheck => ?_, fun k hk f hcheck hf => ⟨?_, fun hne => ?_⟩, fun r hr => ?_⟩
  · obtain ⟨r, hr, houtput, hpasses, last, hlast, hproblems⟩ := verifyAndFix_reached h hcheck
    refine ⟨r, last, hr, houtput, hlast, hproblems, hpasses, ?_⟩
    rw [FixResult.fixed, hpasses, bne_iff_ne, Nat.pos_iff_ne_zero]
  · rintro rfl
    exact ⟨verifyAndFix_failed h hk hcheck hf, rfl⟩
  · rw [verifyAndFix_failed h hk hcheck hf]
    cases f with
    | invalidSyntax => exact absurd rfl hne
    | _ => rfl
  · obtain ⟨r', hr', -, -, last, hlast, -⟩ :=
      verifyAndFix_reached h (checkable_of_verifyAndFix h hr)
    obtain rfl := Except.ok.inj (hr.symm.trans hr')
    exact ⟨last, hlast⟩

/-- An applier that answers `y` and then `(` breaks the text in the second pass. -/
theorem verifyAndFix_follows_answers_broken :
    ∃ report, verify .null ['x'] = .ok report ∧
      verifyAndFix (.scripted [(['y'], 1), (['('], 1)]) .null 5 ['x'] = .error (.brokenFix 2) := by
  have hcheck : ∀ t : Text, ((verify .null t).toOption.map fun _ => ()) = some () →
      ∃ report, verify .null t = .ok report := by
    intro t ht
    obtain ⟨report, hreport, -⟩ := Outcome.exists_of_toOption_map ht
    exact ⟨report, hreport⟩
  obtain ⟨report, hreport⟩ := hcheck ['x'] (by decide +kernel)
  obtain ⟨-, hfault, -⟩ :=
    verifyAndFix_follows_answers (.scripted [(['y'], 1), (['('], 1)]) hreport 5
  have hbroken : verify .null ['('] = .error .invalidSyntax := by
    have hparse : (Node.ofText? ['(']).isNone = true := by decide +kernel
    have hread : Source.read ['('] = .error .invalidSyntax := by
      simp [Source.read, Option.isNone_iff_eq_none.1 hparse]
    have hsource : Source.ofText ['('] = .error .invalidSyntax := by
      rw [Source.ofText, hread]
      rfl
    simp only [verify, lint, hsource]
    rfl
  refine ⟨report, hreport, ((hfault 2 (by decide) _ (fun i hi => ?_) hbroken).1 rfl).1⟩
  obtain rfl | rfl : i = 0 ∨ i = 1 := by omega
  · exact ⟨report, hreport⟩
  · exact hcheck ['y'] (by decide +kernel)

end KeyOrder
