import KeyOrder.Fix
import KeyOrder.Proofs.Detection
import KeyOrder.Proofs.Merge
import KeyOrder.Proofs.Slots

/-!
# The fix loop converges

A run stops before its passes are used up only when a pass had nothing to apply.  Then the text
has no problems at all: the first violation that a check reports belongs to a container that was
not relocated before, a violation means that its entries have to move, so the first problem
carries a fix, and of several fixes one is always applied.

* `problems_eq_nil_of_unfixed`: a text whose problems carry no fix has no problems;
* `verifyAndFix_converges`: a run that stops early has fixed everything, for good.
-/

namespace KeyOrder

/-! ### The first problem carries a fix -/

namespace Checker

variable {src : Source} {c : Configuration}

/-- Problems are only ever added. -/
lemma foldlM_tell_subset {vs : List Rule.Violation} {known known' : Relocator × List Problem}
    (h : vs.foldlM (tell src c) known = .ok known') {p : Problem} (hp : p ∈ known.2) :
    p ∈ known'.2 := by
  induction vs generalizing known with
  | nil =>
    obtain rfl := Outcome.pure_eq_ok.1 h
    exact hp
  | cons v vs ih =>
    rw [List.foldlM_cons] at h
    obtain ⟨mid, hv, h⟩ := Outcome.bind_eq_ok.1 h
    obtain ⟨fix, hmid, -⟩ := tell_once hv
    refine ih h ?_
    rw [hmid]
    exact List.mem_append_left _ hp

/-- When anything is reported at all, some problem carries a fix. -/
lemma exists_fix_of_told {st : State} {ks : List Container} {vs : List Rule.Violation}
    {vss : List (List Rule.Violation)} (htold : Told src c (.initial c) vs st)
    (hvss : ks.mapM (Rule.violations c) = .ok vss) (hperm : vs.Perm vss.flatten)
    (hne : vs ≠ []) : ∃ p ∈ st.problems, p.fix.isSome := by
  cases vs with
  | nil => exact absurd rfl hne
  | cons v vs =>
    unfold Told at htold
    rw [List.foldlM_cons] at htold
    obtain ⟨mid, hv, htold⟩ := Outcome.bind_eq_ok.1 htold
    -- the first violation is the first request, so the relocator gives what it finds
    obtain ⟨fix, hmid, ⟨hdone, -⟩ | ⟨-, -, edits, hedits, hfix⟩⟩ := tell_once hv
    · exact absurd hdone List.not_mem_nil
    have hmoves : edits ≠ [] := by
      rintro rfl
      obtain ⟨ws, hws, hvws⟩ := List.mem_flatten.1 (hperm.subset (List.mem_cons_self ..))
      obtain ⟨k, -, hk⟩ := Outcome.exists_of_mem_mapM hvss hws
      obtain rfl := Rule.container_of_mem_violations hk hvws
      rw [Relocation.violations_eq_nil_of_edits hedits hk] at hvws
      exact absurd hvws List.not_mem_nil
    obtain ⟨m, -, rfl⟩ := exists_merge_of_fixOf hmoves hfix
    refine ⟨v.problem src c (some m), ?_, rfl⟩
    refine foldlM_tell_subset htold ?_
    rw [hmid]
    exact List.mem_append_right _ (List.mem_singleton_self _)

end Checker

/-- A text whose problems carry no fix has no problems. -/
lemma problems_eq_nil_of_unfixed {c : Configuration} {text : Text} {report : Report}
    (h : lint c text = .ok report) (hfix : ∀ p ∈ report.problems, p.fix = none) :
    report.problems = [] := by
  obtain ⟨src, st, -, hst, hreport⟩ := lint_eq_ok h
  obtain ⟨ks, vs, vss, -, htold, hvss, hperm⟩ := Checker.run_told hst
  cases vs with
  | nil =>
    have hproblems : [] = st.problems := congrArg Prod.snd (Outcome.pure_eq_ok.1 htold)
    rw [hreport, ← hproblems, List.mergeSort_nil]
  | cons v vs =>
    obtain ⟨p, hp, hsome⟩ := Checker.exists_fix_of_told htold hvss hperm (List.cons_ne_nil v vs)
    rw [hfix p (by rw [hreport]; exact List.mem_mergeSort.2 hp)] at hsome
    exact absurd hsome (by simp)

/-! ### A pass applies something when there is something to apply -/

lemma Edit.applyAll_count_ne_zero {text : Text} {fixes : List Edit} (h : fixes ≠ []) :
    (Edit.applyAll text fixes).count ≠ 0 := by
  have hlen : (Edit.inOrder fixes).length ≠ 0 := by
    rw [(Edit.inOrder_perm fixes).length_eq]
    simpa using h
  unfold Edit.applyAll
  cases hsorted : Edit.inOrder fixes with
  | nil => exact absurd (congrArg List.length hsorted) hlen
  | cons e es => simp [Edit.applyFrom]

lemma fix_eq_none_of_count {text : Text} {problems : List Problem}
    (h : (applyFixes text problems).count = 0) : ∀ p ∈ problems, p.fix = none := by
  intro p hp
  by_contra hfix
  obtain ⟨e, he⟩ := Option.ne_none_iff_exists'.1 hfix
  have hmem : e ∈ problems.filterMap Problem.fix := List.mem_filterMap.2 ⟨p, hp, he⟩
  exact Edit.applyAll_count_ne_zero (List.ne_nil_of_mem hmem) h

/-! ### The loop -/

/-- The problems of a result are those of its output. -/
def FixResult.Checked (c : Configuration) (r : FixResult) : Prop :=
  ∃ report, lint c r.output = .ok report ∧ r.problems = report.problems

/-- One more pass, or the end of the run. -/
lemma fixFrom_succ_eq_ok {apply : Applier} {c : Configuration} {n : Nat} {r r' : FixResult}
    (h : fixFrom apply c (n + 1) r = .ok r') :
    ((apply r.passes r.output r.problems).count = 0 ∧ r'.output = r.output ∧
        r'.problems = r.problems ∧ r'.passes = r.passes) ∨
      ∃ s, s.Checked c ∧ s.passes = r.passes + 1 ∧ fixFrom apply c n s = .ok r' := by
  rw [fixFrom] at h
  split at h
  · rename_i hcount
    cases h
    exact .inl ⟨hcount, rfl, rfl, rfl⟩
  · split at h
    · cases h
    · cases h
    · rename_i report hreport
      exact .inr ⟨_, ⟨report, hreport, rfl⟩, rfl, h⟩

/-- Every result of a run has been checked, and when it stops early the last check had no fix to
apply. -/
lemma fixFrom_checked {c : Configuration} {n : Nat} {r r' : FixResult} (hr : r.Checked c)
    (h : fixFrom .standard c n r = .ok r') :
    r'.Checked c ∧ (r'.passes < r.passes + n → ∀ p ∈ r'.problems, p.fix = none) := by
  induction n generalizing r with
  | zero =>
    cases h
    exact ⟨hr, fun hlt => absurd hlt (Nat.lt_irrefl _)⟩
  | succ n ih =>
    rcases fixFrom_succ_eq_ok h with ⟨hcount, houtput, hproblems, hpasses⟩ | ⟨s, hs, hpasses, hn⟩
    · refine ⟨?_, fun _ => ?_⟩
      · obtain ⟨report, hlint, hp⟩ := hr
        exact ⟨report, by rw [houtput, hlint], by rw [hproblems, hp]⟩
      · rw [hproblems]
        exact fix_eq_none_of_count hcount
    · obtain ⟨hchecked, hstop⟩ := ih hs hn
      refine ⟨hchecked, fun hlt => hstop ?_⟩
      rw [hpasses]
      omega

/-- A result without problems is left alone, however many passes are allowed. -/
lemma fixFrom_of_problems_nil (c : Configuration) (n : Nat) {r : FixResult}
    (h : r.problems = []) : fixFrom .standard c n r = .ok r := by
  cases n with
  | zero => rfl
  | succ n =>
    have happly : applyFixes r.output r.problems = ⟨r.output, 0, []⟩ := by
      rw [h, applyFixes, List.filterMap_nil, Edit.applyAll, Edit.inOrder_eq_mergeSort,
        List.mergeSort_nil]
      rfl
    rw [fixFrom, Applier.standard, happly]
    simp

/-- **A run that stops before its passes are used up has fixed everything.**  Its output has no
problems, not even ones without a fix, and a second run under the same options changes nothing,
however many passes it is given. -/
theorem verifyAndFix_converges {options : Json.Value} {maxPasses : Nat} {text : Text}
    {r : FixResult} (h : verifyAndFix .standard options maxPasses text = .ok r)
    (hstop : r.passes < maxPasses) :
    r.problems = [] ∧ ∀ n, ∃ s, verifyAndFix .standard options n r.output = .ok s ∧
      s.output = r.output ∧ s.problems = [] ∧ s.passes = 0 ∧ s.fixed = false := by
  obtain ⟨values, hvalues, h⟩ := Outcome.bind_eq_ok.1 h
  obtain ⟨report, hreport, h⟩ := Outcome.bind_eq_ok.1 h
  obtain ⟨⟨last, hlast, hproblems⟩, hfix⟩ := fixFrom_checked ⟨report, hreport, rfl⟩ h
  have hunfixed : ∀ p ∈ last.problems, p.fix = none := by
    rw [← hproblems]
    exact hfix (by simpa using hstop)
  have hnil := problems_eq_nil_of_unfixed hlast hunfixed
  refine ⟨by rw [hproblems, hnil], fun n => ?_⟩
  refine ⟨⟨r.output, last.problems, 0, last.log⟩, ?_, rfl, hnil, rfl, rfl⟩
  refine Outcome.bind_eq_ok.2 ⟨values, hvalues, ?_⟩
  refine Outcome.bind_eq_ok.2 ⟨last, hlast, ?_⟩
  exact fixFrom_of_problems_nil _ n hnil

/-- The text `dict(b=dict(d=1,c=2),a=0)` takes two passes, one for each container. -/
theorem verifyAndFix_converges_nested :
    ∃ r, verifyAndFix .standard .null 3
        ['d', 'i', 'c', 't', '(', 'b', '=', 'd', 'i', 'c', 't', '(', 'd', '=', '1', ',', 'c', '=',
          '2', ')', ',', 'a', '=', '0', ')'] = .ok r ∧
      r.passes = 2 ∧ r.problems = [] ∧
      ∀ n, ∃ s, verifyAndFix .standard .null n r.output = .ok s ∧
        s.output = r.output ∧ s.problems = [] ∧ s.passes = 0 ∧ s.fixed = false := by
  have hrun : (verifyAndFix .standard .null 3
      ['d', 'i', 'c', 't', '(', 'b', '=', 'd', 'i', 'c', 't', '(', 'd', '=', '1', ',', 'c', '=',
        '2', ')', ',', 'a', '=', '0', ')']).toOption.map (·.passes) = some 2 := by
    decide +kernel
  obtain ⟨r, hr, hpasses⟩ := Outcome.exists_of_toOption_map hrun
  obtain ⟨hnil, hagain⟩ := verifyAndFix_converges hr (by omega)
  exact ⟨r, hr, hpasses, hnil, hagain⟩

end KeyOrder
