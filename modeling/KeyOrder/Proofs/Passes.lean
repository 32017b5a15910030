import KeyOrder.Proofs.Convergence
import KeyOrder.Proofs.Faults

/-!
# Passes compose

A run of `m + n` passes is a run of `m` passes, and then one of `n` passes on what the first one
leaves.  Nothing else is handed on from one pass to the next: the problems that a pass goes by are
those of the text before it, so a second run, which checks that text anew, goes by the same ones.
The second run counts its passes from the start, which shows in the number of passes and in the
fault of a pass that breaks the text.

* `Continues` compares a run with one that starts `k` passes later;
* `fixFrom_add` splits the loop, for every applier;
* `verifyAndFix_add` is the result for whole runs.
-/

namespace KeyOrder

/-- A fault as it is told by a run that had `k` passes before. -/
def Fault.after (k : Nat) : Fault → Fault
  | .brokenFix pass => .brokenFix (k + pass)
  | f => f

lemma Fault.after_zero (f : Fault) : f.after 0 = f := by
  cases f with
  | brokenFix pass => rw [after, Nat.zero_add]
  | _ => rfl

lemma Fault.after_after (j k : Nat) (f : Fault) : (f.after k).after j = f.after (j + k) := by
  cases f with
  | brokenFix pass => rw [after, after, after, Nat.add_assoc]
  | _ => rfl

/-- Two runs that end in the same way, where the first one counts `k` passes more: both give the
same output and the same problems, or both end in the same fault. -/
inductive Continues (k : Nat) : Outcome FixResult → Outcome FixResult → Prop
  | result {r s : FixResult} : r.output = s.output → r.problems = s.problems →
      r.passes = k + s.passes → Continues k (.ok r) (.ok s)
  | fault (f : Fault) : Continues k (.error (f.after k)) (.error f)

namespace Continues

lemma refl (x : Outcome FixResult) : Continues 0 x x := by
  cases x with
  | ok r => exact .result rfl rfl (Nat.zero_add _).symm
  | error f =>
    have hfault := Continues.fault (k := 0) f
    rwa [f.after_zero] at hfault

lemma trans {j k : Nat} {x y z : Outcome FixResult} (h : Continues j x y) (h' : Continues k y z) :
    Continues (j + k) x z := by
  cases h' with
  | result houtput' hproblems' hpasses' =>
    cases h with
    | result houtput hproblems hpasses =>
      exact .result (houtput.trans houtput') (hproblems.trans hproblems') (by omega)
  | fault f =>
    generalize hg : f.after k = g at h
    cases h with
    | fault g =>
      rw [← hg, f.after_after]
      exact .fault f

end Continues

/-! ### The loop -/

/-- The fault that a run ends in when the text after a pass cannot be checked. -/
def Fault.inPass (pass : Nat) : Fault → Fault
  | .invalidSyntax => .brokenFix pass
  | f => f

/-- Only the fault of a pass tells of its number. -/
lemma Fault.OfText.after_inPass {f : Fault} (h : f.OfText) (k pass : Nat) :
    (f.inPass pass).after k = f.inPass (k + pass) := by
  cases f with
  | brokenFix _ => exact h.elim
  | _ => rfl

section Step

variable {apply : Applier} {c : Configuration} {r : FixResult}

/-- The run ends when a pass applies nothing. -/
lemma fixFrom_succ_of_zero (h : (apply r.passes r.output r.problems).count = 0) :
    ∃ log, ∀ n, fixFrom apply c (n + 1) r = .ok { r with log := log } := by
  refine ⟨r.log ++ (apply r.passes r.output r.problems).deferred.map .deferring, fun n => ?_⟩
  rw [fixFrom, if_pos h]

/-- The run ends in a fault when the text after a pass cannot be checked. -/
lemma fixFrom_succ_of_error {f : Fault} (h : (apply r.passes r.output r.problems).count ≠ 0)
    (hlint : lint c (apply r.passes r.output r.problems).output = .error f) (n : Nat) :
    fixFrom apply c (n + 1) r = .error (f.inPass (r.passes + 1)) := by
  rw [fixFrom, if_neg h, hlint]
  cases f <;> rfl

/-- Else the run goes on with the text after the pass, and its problems. -/
lemma fixFrom_succ_of_ok {report : Report} (h : (apply r.passes r.output r.problems).count ≠ 0)
    (hlint : lint c (apply r.passes r.output r.problems).output = .ok report) :
    ∃ log, ∀ n, fixFrom apply c (n + 1) r = fixFrom apply c n
      ⟨(apply r.passes r.output r.problems).output, report.problems, r.passes + 1, log⟩ := by
  refine ⟨r.log ++ (apply r.passes r.output r.problems).deferred.map .deferring ++
    .pass (r.passes + 1) (apply r.passes r.output r.problems).count r.problems.length :: report.log,
    fun n => ?_⟩
  rw [fixFrom, if_neg h, hlint]

end Step

/-- What a run does depends on the text and its problems, and not on the passes before, as long as
the applier does not count them. -/
lemma fixFrom_continues {apply : Applier} (happly : ∀ i j, apply i = apply j) {c : Configuration}
    {k : Nat} {r s : FixResult} (houtput : r.output = s.output)
    (hproblems : r.problems = s.problems) (hpasses : r.passes = k + s.passes) (n : Nat) :
    Continues k (fixFrom apply c n r) (fixFrom apply c n s) := by
  induction n generalizing r s with
  | zero => exact .result houtput hproblems hpasses
  | succ n ih =>
    have hsame : apply r.passes r.output r.problems = apply s.passes s.output s.problems := by
      rw [houtput, hproblems, happly]
    by_cases hcount : (apply s.passes s.output s.problems).count = 0
    · obtain ⟨log, hr⟩ := fixFrom_succ_of_zero (c := c) (hsame ▸ hcount)
      obtain ⟨log', hs⟩ := fixFrom_succ_of_zero (c := c) hcount
      rw [hr, hs]
      exact .result houtput hproblems hpasses
    · have hcount' : (apply r.passes r.output r.problems).count ≠ 0 := by rwa [hsame]
      cases hlint : lint c (apply s.passes s.output s.problems).output with
      | error f =>
        have hf : f.OfText := faultsIn_lint_ofText c _ f hlint
        rw [fixFrom_succ_of_error hcount' (by rwa [hsame]), fixFrom_succ_of_error hcount hlint,
          hpasses, Nat.add_assoc, ← hf.after_inPass]
        exact .fault _
      | ok report =>
        obtain ⟨log, hr⟩ := fixFrom_succ_of_ok hcount' (by rwa [hsame])
        obtain ⟨log', hs⟩ := fixFrom_succ_of_ok hcount hlint
        rw [hr, hs]
        refine ih (congrArg Edit.Applied.output hsame) rfl ?_
        change r.passes + 1 = k + (s.passes + 1)
        omega

/-- The loop may be left after `m` passes and taken up again, whatever applies the fixes. -/
lemma fixFrom_add {apply : Applier} {c : Configuration} {m : Nat} {r r' : FixResult}
    (h : fixFrom apply c m r = .ok r') (n : Nat) :
    Continues 0 (fixFrom apply c (m + n) r) (fixFrom apply c n r') := by
  induction m generalizing r with
  | zero =>
    cases h
    rw [Nat.zero_add]
    exact .refl _
  | succ m ih =>
    rw [Nat.add_right_comm]
    by_cases hcount : (apply r.passes r.output r.problems).count = 0
    · -- nothing is applied any more, neither here nor when the loop is taken up again
      obtain ⟨log, hr⟩ := fixFrom_succ_of_zero (c := c) hcount
      rw [hr] at h ⊢
      cases h
      cases n with
      | zero => exact .refl _
      | succ n =>
        obtain ⟨log', hstop⟩ := fixFrom_succ_of_zero (c := c) (r := { r with log := log }) hcount
        rw [hstop]
        exact .result rfl rfl (Nat.zero_add _).symm
    · cases hlint : lint c (apply r.passes r.output r.problems).output with
      | error f =>
        rw [fixFrom_succ_of_error hcount hlint] at h
        cases h
      | ok report =>
        obtain ⟨log, hr⟩ := fixFrom_succ_of_ok hcount hlint
        rw [hr] at h ⊢
        exact ih h

/-! ### Whole runs -/

lemma verify_eq_lint {options : Json.Value} {values : List Json.Value}
    (hvalues : Options.validate options = .ok values) (text : Text) :
    verify options text = lint (Options.configuration values) text := by
  rw [verify, hvalues]
  rfl

/-- A run starts with a check, and then goes through the loop. -/
lemma verifyAndFix_eq_fixFrom {options : Json.Value} {values : List Json.Value} {text : Text}
    {report : Report} (hvalues : Options.validate options = .ok values)
    (hreport : verify options text = .ok report) (apply : Applier) (n : Nat) :
    verifyAndFix apply options n text = fixFrom apply (Options.configuration values) n
      ⟨text, report.problems, 0, report.log⟩ := by
  have htext : verifyAndFix apply options n text =
      fixText apply (Options.configuration values) n text := by
    rw [verifyAndFix, hvalues]
    rfl
  rw [verify_eq_lint hvalues] at hreport
  rw [htext, fixText, hreport]
  rfl

/-- A run that gives a result has read its options and checked its text. -/
lemma exists_report_of_verifyAndFix {apply : Applier} {options : Json.Value} {n : Nat} {text : Text}
    {r : FixResult} (h : verifyAndFix apply options n text = .ok r) :
    ∃ values report, Options.validate options = .ok values ∧ verify options text = .ok report := by
  obtain ⟨values, hvalues, h⟩ := Outcome.bind_eq_ok.1 h
  obtain ⟨report, hreport, -⟩ := Outcome.bind_eq_ok.1 h
  have hvalues := Outcome.ofOptions_eq_ok.1 hvalues
  exact ⟨values, report, hvalues, (verify_eq_lint hvalues text).trans hreport⟩

/-- **Passes compose.**  When a run of `m` passes gives a result, a run of `m + n` passes on the
same text ends as one of `n` passes on the output of the first: with the same output and problems,
and as many passes more as the first run took, or in the same fault, where the number of a broken
pass is as much greater. -/
theorem verifyAndFix_add {options : Json.Value} {m : Nat} {text : Text} {r : FixResult}
    (h : verifyAndFix .standard options m text = .ok r) (n : Nat) :
    Continues r.passes (verifyAndFix .standard options (m + n) text)
      (verifyAndFix .standard options n r.output) := by
  obtain ⟨values, report, hvalues, hreport⟩ := exists_report_of_verifyAndFix h
  have hrun := verifyAndFix_eq_fixFrom hvalues hreport .standard
  rw [hrun] at h
  -- the second run starts from the problems that the first one ends with
  have hreport' := (verify_eq_lint hvalues text).symm.trans hreport
  obtain ⟨⟨last, hlast, hproblems⟩, -⟩ := fixFrom_checked ⟨report, hreport', rfl⟩ h
  have hreport'' := (verify_eq_lint hvalues _).trans hlast
  have hagain := verifyAndFix_eq_fixFrom hvalues hreport'' .standard n
  rw [hrun, hagain]
  have hsplit := fixFrom_add h n
  have hrestart : Continues r.passes (fixFrom .standard (Options.configuration values) n r)
      (fixFrom .standard (Options.configuration values) n
        ⟨r.output, last.problems, 0, last.log⟩) := by
    refine fixFrom_continues (fun _ _ => rfl) ?_ hproblems ?_ n
    · rfl
    · rfl
  have hboth := hsplit.trans hrestart
  rwa [Nat.zero_add] at hboth

/-- The text `dict(b=dict(d=1,c=2),a=0)`. -/
def Sample.nestedCalls : Text :=
  ['d', 'i', 'c', 't', '(', 'b', '=', 'd', 'i', 'c', 't', '(', 'd', '=', '1', ',', 'c', '=', '2',
    ')', ',', 'a', '=', '0', ')']

/-- The second pass over `dict(b=dict(d=1,c=2),a=0)` is the first one over what the first left. -/
theorem verifyAndFix_add_nested :
    ∃ r, verifyAndFix .standard .null 1 Sample.nestedCalls = .ok r ∧ r.passes = 1 ∧
      Continues r.passes (verifyAndFix .standard .null (1 + 3) Sample.nestedCalls)
        (verifyAndFix .standard .null 3 r.output) := by
  have hrun : (verifyAndFix .standard .null 1 Sample.nestedCalls).toOption.map (·.passes) =
      some 1 := by
    decide +kernel
  obtain ⟨r, hr, hpasses⟩ := Outcome.exists_of_toOption_map hrun
  exact ⟨r, hr, hpasses, verifyAndFix_add hr 3⟩

end KeyOrder
