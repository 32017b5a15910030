import KeyOrder.Proofs.Detection

/-!
# The fixes of a check

Every fix that a check hands out puts one container in order, one that breaks the rule, and is made
of all the edits of that container.  A container is relocated at most once, so different fixes
belong to different containers.
-/

namespace KeyOrder

/-- The fix of a container: its edits, of which there are some, in one. -/
def Container.FixedBy (src : Source) (o : Order) (k : Container) (m : Edit) : Prop :=
  ∃ es, Relocation.edits src o k = .ok es ∧ es ≠ [] ∧ Edit.merge es src.text = .ok m

/-- A container has entries that the rule finds out of order. -/
def Rule.Broken (c : Configuration) (k : Container) : Prop :=
  ∃ vs, Rule.violations c k = .ok vs ∧ vs ≠ []

namespace Checker

variable {src : Source} {c : Configuration}

/-- A violation is told without a fix, or with that of its container, which then was not relocated
before. -/
lemma tell_cases {known known' : Relocator × List Problem} {v : Rule.Violation}
    (h : tell src c known v = .ok known') :
    (∀ path ∈ known.1.done, path ∈ known'.1.done) ∧
      (known'.2.filterMap Problem.fix = known.2.filterMap Problem.fix ∨
        ∃ m, v.container.FixedBy src c.order m ∧ v.container.path ∉ known.1.done ∧
          v.container.path ∈ known'.1.done ∧
          known'.2.filterMap Problem.fix = known.2.filterMap Problem.fix ++ [m]) := by
  obtain ⟨fix, hproblems, ⟨-, hrelocator, rfl⟩ | ⟨hnew, hdone, es, hes, hfix⟩⟩ := tell_once h
  · refine ⟨fun path hpath => by rwa [hrelocator], .inl ?_⟩
    simp [hproblems, Rule.Violation.problem]
  · refine ⟨fun path hpath => by rw [hdone]; exact List.mem_cons_of_mem _ hpath, ?_⟩
    by_cases hempty : es = []
    · subst hempty
      cases hfix
      exact .inl (by simp [hproblems, Rule.Violation.problem])
    · obtain ⟨m, hm, rfl⟩ := exists_merge_of_fixOf hempty hfix
      refine .inr ⟨m, ⟨es, hes, hempty, hm⟩, hnew, by simp [hdone], ?_⟩
      simp [hproblems, Rule.Violation.problem]

/-- The fixes that are told belong to different containers, none of which was relocated before. -/
lemma exists_fixed_of_foldlM {vs : List Rule.Violation} {known known' : Relocator × List Problem}
    (h : vs.foldlM (tell src c) known = .ok known') :
    ∃ fixed : List (Container × Edit),
      known'.2.filterMap Problem.fix = known.2.filterMap Problem.fix ++ fixed.map Prod.snd ∧
      (∀ p ∈ fixed, (∃ v ∈ vs, v.container = p.1) ∧ p.1.FixedBy src c.order p.2 ∧
        p.1.path ∉ known.1.done) ∧
      fixed.Pairwise fun p q => p.1.path ≠ q.1.path := by
  induction vs generalizing known with
  | nil =>
    obtain rfl := Outcome.pure_eq_ok.1 h
    exact ⟨[], by simp, by simp, .nil⟩
  | cons v vs ih =>
    rw [List.foldlM_cons] at h
    obtain ⟨mid, hv, h⟩ := Outcome.bind_eq_ok.1 h
    obtain ⟨hkept, hcases⟩ := tell_cases hv
    obtain ⟨fixed, hfixes, hfixed, hpaths⟩ := ih h
    have hlater : ∀ p ∈ fixed, (∃ w ∈ v :: vs, w.container = p.1) ∧ p.1.FixedBy src c.order p.2 ∧
        p.1.path ∉ known.1.done := by
      intro p hp
      obtain ⟨⟨w, hw, hwp⟩, hfix, hnew⟩ := hfixed p hp
      exact ⟨⟨w, List.mem_cons_of_mem _ hw, hwp⟩, hfix, fun hdone => hnew (hkept _ hdone)⟩
    rcases hcases with hnone | ⟨m, hm, hnew, hdone, hsome⟩
    · exact ⟨fixed, by rw [hfixes, hnone], hlater, hpaths⟩
    · refine ⟨(v.container, m) :: fixed, by rw [hfixes, hsome]; simp, fun p hp => ?_,
        .cons (fun p hp heq => ?_) hpaths⟩
      · rcases List.mem_cons.1 hp with rfl | hp
        · exact ⟨⟨v, List.mem_cons_self .., rfl⟩, hm, hnew⟩
        · exact hlater p hp
      · exact (hfixed p hp).2.2 (heq ▸ hdone)

end Checker

/-- **The fixes of a check** belong to different containers of the source, each of which breaks the
rule. -/
lemma exists_fixed_of_lint {c : Configuration} {text : Text} {report : Report}
    (h : lint c text = .ok report) :
    ∃ (src : Source) (ks : List Container) (fixed : List (Container × Edit)),
      Source.ofText text = .ok src ∧ src.containers = .ok ks ∧
      (report.problems.filterMap Problem.fix).Perm (fixed.map Prod.snd) ∧
      (∀ p ∈ fixed, p.1 ∈ ks ∧ Rule.Broken c p.1 ∧ p.1.FixedBy src c.order p.2) ∧
      fixed.Pairwise fun p q => p.1.path ≠ q.1.path := by
  obtain ⟨src, st, hsrc, hst, hreport⟩ := lint_eq_ok h
  obtain ⟨ks, vs, vss, hks, htold, hvss, hperm⟩ := Checker.run_told hst
  obtain ⟨fixed, hfixes, hfixed, hpaths⟩ := Checker.exists_fixed_of_foldlM htold
  refine ⟨src, ks, fixed, hsrc, hks, ?_, fun p hp => ?_, hpaths⟩
  · rw [hreport]
    refine ((List.mergeSort_perm _ _).filterMap _).trans ?_
    simp only [Checker.State.initial, List.filterMap_nil, List.nil_append] at hfixes
    rw [hfixes]
  · obtain ⟨⟨v, hv, hvp⟩, hfix, -⟩ := hfixed p hp
    obtain ⟨ws, hws, hvws⟩ := List.mem_flatten.1 (hperm.subset hv)
    obtain ⟨k, hk, hkws⟩ := Outcome.exists_of_mem_mapM hvss hws
    have hkv := Rule.container_of_mem_violations hkws hvws
    rw [← hvp, hkv]
    rw [← hvp, hkv] at hfix
    exact ⟨hk, ⟨ws, hkws, List.ne_nil_of_mem hvws⟩, hfix⟩

end KeyOrder
