import KeyOrder.Proofs.Rule
import KeyOrder.Proofs.Sorting
import KeyOrder.Proofs.Walk

/-!
# The checker finds the violations of the rule

The checker listens to the events of all containers at once: between two entries of a container it
hears of everything that the first one holds.  What carries it through is that a bracketed stretch
of events leaves the open scopes as they were, so that an entry is always compared with the last
named entry of its own segment.

* `Checker.property_covered`, with a lemma for each of its cases, and `Checker.report_eq` say what
  the checker does with one entry;
* `Checker.Told` says which violations were reported between two states;
* `Checker.balanced_told` is the invariant: a bracketed stretch reports the violations of the
  containers entered in it, and changes no open scope;
* `verify_problems_perm` is the result for a whole text.
-/

namespace KeyOrder

/-! ### Asking for edits -/

namespace Relocator

variable {src : Source} {o : Order} {r : Relocator} {k : Container}

/-- A second request gets no edits. -/
lemma fix_of_mem (h : k.path ∈ r.done) : r.fix src o k = (.ok [], r) := by
  simp [fix, h]

lemma fix_of_not_mem (h : k.path ∉ r.done) :
    r.fix src o k = (Relocation.edits src o k, ⟨k.path :: r.done⟩) := by
  simp [fix, h]

end Relocator

namespace Checker

open Rule (Item Violation)

variable {src : Source} {c : Configuration}

/-! ### Reporting -/

/-- The fix that edits amount to: none when there are no edits, and else all of them in one. -/
def fixOf (src : Source) (edits : List Edit) : Outcome (Option Edit) :=
  if edits.isEmpty then .ok none else (Outcome.ofMerge (Edit.merge edits src.text)).map some

lemma exists_merge_of_fixOf {edits : List Edit} {fix : Option Edit} (hne : edits ≠ [])
    (h : fixOf src edits = .ok fix) : ∃ m, Edit.merge edits src.text = .ok m ∧ fix = some m := by
  rw [fixOf, if_neg (by simpa using hne)] at h
  obtain ⟨m, hm, rfl⟩ := Outcome.map_eq_ok.1 h
  exact ⟨m, Outcome.ofMerge_eq_ok.1 hm, rfl⟩

/-- Reports a violation.  Only the relocated containers and the problems play a part. -/
def tell (src : Source) (c : Configuration) (known : Relocator × List Problem) (v : Violation) :
    Outcome (Relocator × List Problem) := do
  let edits ← (known.1.fix src c.order v.container).1
  let fix ← fixOf src edits
  return ((known.1.fix src c.order v.container).2, known.2 ++ [v.problem src c fix])

/-- The relocator answers a container once, and what it answers is the fix of the report. -/
lemma tell_once {known known' : Relocator × List Problem} {v : Violation}
    (h : tell src c known v = .ok known') :
    ∃ fix, known'.2 = known.2 ++ [v.problem src c fix] ∧
      (v.container.path ∈ known.1.done ∧ known'.1 = known.1 ∧ fix = none ∨
        v.container.path ∉ known.1.done ∧ known'.1.done = v.container.path :: known.1.done ∧
          ∃ es, Relocation.edits src c.order v.container = .ok es ∧ fixOf src es = .ok fix) := by
  simp only [tell, Outcome.bind_eq_ok, Outcome.pure_eq_ok] at h
  obtain ⟨edits, hedits, fix, hfix, rfl⟩ := h
  refine ⟨fix, rfl, ?_⟩
  by_cases hdone : v.container.path ∈ known.1.done
  · rw [Relocator.fix_of_mem hdone] at hedits ⊢
    cases hedits
    cases hfix
    exact .inl ⟨hdone, rfl, rfl⟩
  · rw [Relocator.fix_of_not_mem hdone] at hedits ⊢
    exact .inr ⟨hdone, rfl, edits, hedits, hfix⟩

/-- The violations that are reported, one after another, on the way from one state to another. -/
def Told (src : Source) (c : Configuration) (st : State) (vs : List Violation) (st' : State) :
    Prop :=
  vs.foldlM (tell src c) (st.relocator, st.problems) = .ok (st'.relocator, st'.problems)

lemma Told.nil {st st' : State} (hr : st'.relocator = st.relocator)
    (hp : st'.problems = st.problems) : Told src c st [] st' := by
  rw [Told, hr, hp]
  rfl

lemma Told.append {st₁ st₂ st₃ : State} {vs ws : List Violation} (h : Told src c st₁ vs st₂)
    (k : Told src c st₂ ws st₃) : Told src c st₁ (vs ++ ws) st₃ := by
  rw [Told, List.foldlM_append]
  exact Outcome.bind_eq_ok.2 ⟨_, h, k⟩

/-- A report asks the relocator for edits, makes a fix of them and adds one problem, whether there
are edits or not. -/
lemma report_eq (st : State) (k : Container) (e : Entry) (n : Name) (p : Item) :
    report src c st k e n p = (st.relocator.fix src c.order k).1 >>= fun edits =>
      fixOf src edits >>= fun fix => pure { st with
        relocator := (st.relocator.fix src c.order k).2
        problems := st.problems ++ [Violation.problem src c ⟨k, p, (n, e)⟩ fix]
        log := st.log ++ .outOfOrder e p.2 ::
          if st.relocator.done.contains k.path then [] else [.relocating k edits.length] } := by
  unfold report fixOf
  refine bind_congr fun edits => ?_
  cases edits <;> rfl

lemma report_eq_ok {st st' : State} {k : Container} {e : Entry} {n : Name} {p : Item}
    (h : report src c st k e n p = .ok st') :
    st'.scopes = st.scopes ∧ Told src c st [⟨k, p, (n, e)⟩] st' := by
  simp only [report_eq, Outcome.bind_eq_ok, Outcome.pure_eq_ok] at h
  obtain ⟨edits, hedits, fix, hfix, rfl⟩ := h
  refine ⟨rfl, ?_⟩
  rw [Told, List.foldlM_cons]
  refine Outcome.bind_eq_ok.2 ⟨_, ?_, rfl⟩
  exact Outcome.bind_eq_ok.2 ⟨edits, hedits, Outcome.bind_eq_ok.2 ⟨fix, hfix, rfl⟩⟩

/-! ### One event -/

/-- The containers that are passed over are those that the rule does not cover. -/
lemma covers_eq_false_iff {k : Container} :
    Rule.covers c k = false ↔ k.kind = .pattern ∨ c.tooSmall k.entries.length = true := by
  unfold Rule.covers Configuration.tooSmall
  cases c.minKeys.toInt? with
  | none => simp
  | some least => simp [imp_iff_not_or]

section Equations

variable {st : State} {k : Container} {e : Entry} {scope : Scope} {outer : List Scope} {n : Name}
  {p : Item}

lemma property_uncovered (hcovers : Rule.covers c k = false) :
    property src c st k e scope outer = .ok st := by
  rw [property, if_pos (covers_eq_false_iff.1 hcovers)]
  rfl

/-- In a container that the rule covers, a property is looked at under its name. -/
lemma property_covered (hcovers : Rule.covers c k = true) :
    property src c st k e scope outer = e.name >>= fun name =>
      match name, scope.previous with
      | none, _ => .ok st
      | some n, none => .ok { st with scopes := { scope with previous := some (n, e) } :: outer }
      | some n, some p =>
        Outcome.ofDigits (c.order.check p.1 n) >>= fun inOrder =>
          if inOrder then .ok { st with scopes := { scope with previous := some (n, e) } :: outer }
          else
            report src c { st with scopes := { scope with previous := some (n, e) } :: outer } k e n
              p := by
  have hlook : ¬(k.kind = .pattern ∨ c.tooSmall k.entries.length = true) := by
    rw [← covers_eq_false_iff, hcovers]
    exact nofun
  rw [property, if_neg hlook]
  refine bind_congr fun name => ?_
  cases name <;> cases scope.previous <;> rfl

lemma property_unnamed (hcovers : Rule.covers c k = true) (hname : e.name = .ok none) :
    property src c st k e scope outer = .ok st := by
  rw [property_covered hcovers, hname]
  rfl

/-- The first named property of a segment is compared with nothing. -/
lemma property_first (hcovers : Rule.covers c k = true) (hname : e.name = .ok (some n))
    (hprevious : scope.previous = none) :
    property src c st k e scope outer =
      .ok { st with scopes := ⟨scope.container, some (n, e)⟩ :: outer } := by
  rw [property_covered hcovers, hname, hprevious]
  rfl

/-- A named property after another one is compared with it. -/
lemma property_next (hcovers : Rule.covers c k = true) (hname : e.name = .ok (some n))
    (hprevious : scope.previous = some p) :
    property src c st k e scope outer =
      Outcome.ofDigits (c.order.check p.1 n) >>= fun inOrder =>
        if inOrder then .ok { st with scopes := ⟨scope.container, some (n, e)⟩ :: outer }
        else
          report src c { st with scopes := ⟨scope.container, some (n, e)⟩ :: outer } k e n p := by
  rw [property_covered hcovers, hname, hprevious]
  rfl

/-- A spread makes the innermost scope forget. -/
lemma step_spread (hscopes : st.scopes = scope :: outer) (hkind : e.kind = .spread) :
    step src c st (.entry k e) = .ok { st with scopes := ⟨scope.container, none⟩ :: outer } := by
  rw [step, hscopes, hkind]

lemma step_property (hscopes : st.scopes = scope :: outer) (hkind : e.kind ≠ .spread) :
    step src c st (.entry k e) =
      if scope.container.path = k.path then property src c st k e scope outer
      else .error .misplaced := by
  rw [step, hscopes]
  cases h : e.kind with
  | spread => exact absurd h hkind
  | property => rfl

end Equations

/-- A property of the innermost container changes the scope of this container only, and what is
reported is the next step of the sweep over the container. -/
lemma property_eq_ok {st st' : State} {k : Container} {e : Entry} {scope : Scope}
    {outer : List Scope} (hscopes : st.scopes = scope :: outer) (hkind : e.kind ≠ .spread)
    (h : property src c st k e scope outer = .ok st') :
    ∃ previous found, st'.scopes = ⟨scope.container, previous⟩ :: outer ∧
      Told src c st (found.map fun p => ⟨k, p.1, p.2⟩) st' ∧
      ∀ es later, Rule.Swept c k previous es later →
        Rule.Swept c k scope.previous (e :: es) (found ++ later) := by
  cases hcovers : Rule.covers c k with
  | false =>
    rw [property_uncovered hcovers] at h
    cases h
    refine ⟨scope.previous, [], hscopes, .nil rfl rfl, fun es later hlater => ?_⟩
    simpa [Rule.Swept, hcovers] using hlater
  | true =>
    simp only [Rule.Swept, hcovers, if_true]
    rw [property_covered hcovers] at h
    obtain ⟨name, hname, h⟩ := Outcome.bind_eq_ok.1 h
    cases name with
    | none =>
      cases h
      refine ⟨scope.previous, [], hscopes, .nil rfl rfl, fun es later hlater => ?_⟩
      rw [Rule.scan_unnamed hkind hname]
      exact hlater
    | some n =>
      cases hprevious : scope.previous with
      | none =>
        rw [hprevious] at h
        cases h
        refine ⟨some (n, e), [], rfl, .nil rfl rfl, fun es later hlater => ?_⟩
        rw [Rule.scan_first hkind hname]
        exact hlater
      | some p =>
        rw [hprevious] at h
        obtain ⟨inOrder, hcheck, h⟩ := Outcome.bind_eq_ok.1 h
        have hcheck := Outcome.ofDigits_eq_ok.1 hcheck
        cases inOrder with
        | true =>
          cases h
          refine ⟨some (n, e), [], rfl, .nil rfl rfl, fun es later hlater => ?_⟩
          exact Rule.scan_next hkind hname hcheck hlater
        | false =>
          obtain ⟨hscopes', htold⟩ := report_eq_ok h
          refine ⟨some (n, e), [(p, (n, e))], hscopes', htold, fun es later hlater => ?_⟩
          exact Rule.scan_next hkind hname hcheck hlater

/-- An entry that is told while its container has the innermost scope changes this scope only,
and what is reported is the next step of the sweep over the container. -/
lemma step_entry_eq_ok {st st' : State} {k : Container} {e : Entry} {scope : Scope}
    {outer : List Scope} (hscopes : st.scopes = scope :: outer)
    (h : step src c st (.entry k e) = .ok st') :
    ∃ previous found, st'.scopes = ⟨scope.container, previous⟩ :: outer ∧
      Told src c st (found.map fun p => ⟨k, p.1, p.2⟩) st' ∧
      ∀ es later, Rule.Swept c k previous es later →
        Rule.Swept c k scope.previous (e :: es) (found ++ later) := by
  by_cases hkind : e.kind = .spread
  · rw [step_spread hscopes hkind] at h
    cases h
    refine ⟨none, [], rfl, .nil rfl rfl, fun es later hlater => ?_⟩
    unfold Rule.Swept at *
    rw [Rule.scan_spread hkind]
    exact hlater
  · rw [step_property hscopes hkind] at h
    split at h
    · exact property_eq_ok hscopes hkind h
    · cases h

lemma step_enter_eq_ok {st st' : State} {k : Container}
    (h : step src c st (.enter k) = .ok st') :
    st'.scopes = ⟨k, none⟩ :: st.scopes ∧ Told src c st [] st' := by
  cases h
  exact ⟨rfl, .nil rfl rfl⟩

lemma step_leave_eq_ok {st st' : State} {k : Container} {scope : Scope} {outer : List Scope}
    (hscopes : st.scopes = scope :: outer) (h : step src c st (.leave k) = .ok st') :
    st'.scopes = outer ∧ Told src c st [] st' := by
  simp only [step, hscopes] at h
  split at h
  · cases h
    exact ⟨rfl, .nil rfl rfl⟩
  · cases h

/-! ### Violations put together -/

/-- The violations of the container with a path. -/
def violationsAt (path : List Nat) (vs : List Violation) : List Violation :=
  vs.filter fun v => v.container.path = path

@[simp] lemma violationsAt_append (path : List Nat) (vs ws : List Violation) :
    violationsAt path (vs ++ ws) = violationsAt path vs ++ violationsAt path ws :=
  List.filter_append ..

/-- Violations in two orders that agree on each of some containers, when these have different
paths. -/
structure SameByContainer (ks : List Container) (vs ws : List Violation) : Prop where
  perm : vs.Perm ws
  at_path : (ks.map Container.path).Nodup → ∀ path, violationsAt path vs = violationsAt path ws

lemma SameByContainer.append {ks ls : List Container} {vs ws vs' ws' : List Violation}
    (h : SameByContainer ks vs ws) (h' : SameByContainer ls vs' ws') :
    SameByContainer (ks ++ ls) (vs ++ vs') (ws ++ ws') where
  perm := h.perm.append h'.perm
  at_path hnodup path := by
    rw [List.map_append, List.nodup_append] at hnodup
    rw [violationsAt_append, violationsAt_append, h.at_path hnodup.1, h'.at_path hnodup.2.1]

lemma SameByContainer.refl (ks : List Container) (vs : List Violation) : SameByContainer ks vs vs :=
  ⟨.refl _, fun _ _ => rfl⟩

/-- Containers whose paths are different from a given one have no violations there. -/
lemma violationsAt_flatten_eq_nil {ks : List Container} {vss : List (List Violation)}
    (hvss : ks.mapM (Rule.violations c) = .ok vss) {path : List Nat}
    (hpath : path ∉ ks.map Container.path) : violationsAt path vss.flatten = [] := by
  refine List.filter_eq_nil_iff.2 fun v hv => ?_
  obtain ⟨ws, hws, hv⟩ := List.mem_flatten.1 hv
  obtain ⟨k, hk, hkws⟩ := Outcome.exists_of_mem_mapM hvss hws
  rw [Rule.container_of_mem_violations hkws hv]
  simp only [decide_eq_true_eq]
  rintro rfl
  exact hpath (List.mem_map_of_mem hk)

/-- What other containers report before a container goes on may be counted after it. -/
lemma SameByContainer.insert {k : Container} {ks ls : List Container}
    {vs ws : List Violation} {found : List (Item × Item)} {vss wss : List (List Violation)}
    (hvss : ks.mapM (Rule.violations c) = .ok vss) (h : SameByContainer ks vs vss.flatten)
    (h' : SameByContainer (k :: ls) ws ((found.map fun p => ⟨k, p.1, p.2⟩) ++ wss.flatten)) :
    SameByContainer (k :: (ks ++ ls)) (vs ++ ws)
      ((found.map fun p => ⟨k, p.1, p.2⟩) ++ (vss ++ wss).flatten) where
  perm := by
    rw [List.flatten_append]
    exact (h.perm.append h'.perm).trans (List.perm_append_comm_assoc _ _ _)
  at_path hnodup path := by
    obtain ⟨hk, hrest⟩ := List.nodup_cons.1 hnodup
    rw [List.map_append] at hk hrest
    rw [List.nodup_append] at hrest
    have hls : ((k :: ls).map Container.path).Nodup :=
      List.nodup_cons.2 ⟨fun hmem => hk (List.mem_append_right _ hmem), hrest.2.1⟩
    rw [violationsAt_append, h.at_path hrest.1, h'.at_path hls, List.flatten_append]
    simp only [violationsAt_append]
    by_cases hpath : k.path = path
    · rw [violationsAt_flatten_eq_nil hvss
        (hpath ▸ fun hmem => hk (List.mem_append_left _ hmem)), List.nil_append, List.nil_append]
    · have hnil : violationsAt path (found.map fun p => ⟨k, p.1, p.2⟩) = [] := by
        refine List.filter_eq_nil_iff.2 fun v hv => ?_
        obtain ⟨p, -, rfl⟩ := List.mem_map.1 hv
        simpa using hpath
      rw [hnil, List.nil_append, List.nil_append]

/-! ### Bracketed stretches of events -/

mutual

/-- A bracketed stretch of events changes no open scope, and the violations reported in it are
those of the containers entered in it. -/
lemma balanced_told {ks : List Container} {events : List Event} :
    Walk.Balanced ks events → ∀ {st st' : State}, events.foldlM (step src c) st = .ok st' →
      st'.scopes = st.scopes ∧ ∃ vs vss, Told src c st vs st' ∧
        ks.mapM (Rule.violations c) = .ok vss ∧ SameByContainer ks vs vss.flatten
  | .nil, st, st', h => by
    obtain rfl := Outcome.pure_eq_ok.1 h
    exact ⟨rfl, [], [], .nil rfl rfl, rfl, .refl _ _⟩
  | .append hes hfs, st, st', h => by
    rw [List.foldlM_append] at h
    obtain ⟨mid, h₁, h₂⟩ := Outcome.bind_eq_ok.1 h
    obtain ⟨hs₁, vs, vss, htold₁, hvss, hsame₁⟩ := balanced_told hes h₁
    obtain ⟨hs₂, ws, wss, htold₂, hwss, hsame₂⟩ := balanced_told hfs h₂
    refine ⟨hs₂.trans hs₁, vs ++ ws, vss ++ wss, htold₁.append htold₂,
      Outcome.mapM_append_eq_ok hvss hwss, ?_⟩
    rw [List.flatten_append]
    exact hsame₁.append hsame₂
  | .container (c := k) hes hfs, st, st', h => by
    -- enter, what the function holds, the entries, leave
    rw [List.foldlM_cons] at h
    obtain ⟨st₁, henter, h⟩ := Outcome.bind_eq_ok.1 h
    rw [List.foldlM_append] at h
    obtain ⟨st₂, hfunction, h⟩ := Outcome.bind_eq_ok.1 h
    rw [List.foldlM_append] at h
    obtain ⟨st₃, hentries, h⟩ := Outcome.bind_eq_ok.1 h
    rw [List.foldlM_cons] at h
    obtain ⟨st₄, hleave, h⟩ := Outcome.bind_eq_ok.1 h
    obtain rfl := Outcome.pure_eq_ok.1 h
    obtain ⟨hs₁, htold₁⟩ := step_enter_eq_ok henter
    obtain ⟨hs₂, vs, vss, htold₂, hvss, hsame₂⟩ := balanced_told hes hfunction
    obtain ⟨previous, hs₃, ws, found, wss, htold₃, hfound, hwss, hsame₃⟩ :=
      inside_told hfs (hs₂.trans hs₁) hentries
    obtain ⟨hs₄, htold₄⟩ := step_leave_eq_ok hs₃ hleave
    refine ⟨hs₄, vs ++ ws, (found.map fun p => ⟨k, p.1, p.2⟩) :: (vss ++ wss), ?_, ?_, ?_⟩
    · simpa using htold₁.append (htold₂.append (htold₃.append htold₄))
    · exact Outcome.mapM_cons_eq_ok (Rule.violations_eq_ok_of_swept hfound)
        (Outcome.mapM_append_eq_ok hvss hwss)
    · -- the violations of the container itself come late, those of the function before them
      exact .insert hvss hsame₂ hsame₃

/-- The entries of a container are swept through while the container has the innermost scope;
what is reported besides are the violations of the containers between them. -/
lemma inside_told {k : Container} {rest : List Entry} {ks : List Container}
    {events : List Event} :
    Walk.Inside k rest ks events → ∀ {st st' : State} {scope : Scope} {outer : List Scope},
      st.scopes = scope :: outer → events.foldlM (step src c) st = .ok st' →
      ∃ previous, st'.scopes = ⟨scope.container, previous⟩ :: outer ∧
        ∃ vs found vss, Told src c st vs st' ∧ Rule.Swept c k scope.previous rest found ∧
          ks.mapM (Rule.violations c) = .ok vss ∧
          SameByContainer (k :: ks) vs ((found.map fun p => ⟨k, p.1, p.2⟩) ++ vss.flatten)
  | .nil, st, st', scope, outer, hscopes, h => by
    obtain rfl := Outcome.pure_eq_ok.1 h
    exact ⟨scope.previous, hscopes, [], [], [], .nil rfl rfl, Rule.swept_nil c k _, rfl, .refl _ _⟩
  | .cons (e := e) hes hfs, st, st', scope, outer, hscopes, h => by
    rw [List.foldlM_cons] at h
    obtain ⟨st₁, hentry, h⟩ := Outcome.bind_eq_ok.1 h
    rw [List.foldlM_append] at h
    obtain ⟨st₂, hheld, h⟩ := Outcome.bind_eq_ok.1 h
    obtain ⟨previous, here, hs₁, htold₁, hstep⟩ := step_entry_eq_ok hscopes hentry
    -- what the entry holds leaves the scope of its container as it was
    obtain ⟨hs₂, vs, vss, htold₂, hvss, hsame₂⟩ := balanced_told hes hheld
    obtain ⟨last, hs₃, ws, found, wss, htold₃, hfound, hwss, hsame₃⟩ :=
      inside_told hfs (hs₂.trans hs₁) h
    refine ⟨last, hs₃, _, here ++ found, vss ++ wss, htold₁.append (htold₂.append htold₃),
      hstep _ _ hfound, Outcome.mapM_append_eq_ok hvss hwss, ?_⟩
    rw [List.map_append, List.append_assoc]
    exact (SameByContainer.refl [] _).append (.insert hvss hsame₂ hsame₃)

end

/-! ### A whole walk -/

/-- The problems are those of the violations that were reported, in their order. -/
lemma Told.map_unfixed {st st' : State} {vs : List Violation} (h : Told src c st vs st') :
    st'.problems.map Rule.unfixed =
      st.problems.map Rule.unfixed ++ vs.map fun v => v.problem src c none := by
  have hfold : ∀ (vs : List Violation) {known known' : Relocator × List Problem},
      vs.foldlM (tell src c) known = .ok known' →
      known'.2.map Rule.unfixed =
        known.2.map Rule.unfixed ++ vs.map fun v => v.problem src c none := by
    intro vs
    induction vs with
    | nil =>
      intro known known' h
      obtain rfl := Outcome.pure_eq_ok.1 h
      simp
    | cons v vs ih =>
      intro known known' h
      rw [List.foldlM_cons] at h
      obtain ⟨mid, hv, h⟩ := Outcome.bind_eq_ok.1 h
      obtain ⟨fix, hmid, -⟩ := tell_once hv
      rw [ih h, hmid]
      simp
  exact hfold vs h

/-- A run reports the violations of all containers of the walk, those of each one in order. -/
lemma run_told_by_container {st : State} (h : run src c src.walk = .ok st) :
    ∃ ks vs vss, src.containers = .ok ks ∧ Told src c (.initial c) vs st ∧
      ks.mapM (Rule.violations c) = .ok vss ∧ SameByContainer ks vs vss.flatten := by
  obtain ⟨st', hrun, h⟩ := Outcome.bind_eq_ok.1 h
  cases hfault : src.walk.fault with
  | some f => simp [hfault] at h
  | none =>
    rw [hfault] at h
    obtain rfl := Outcome.pure_eq_ok.1 h
    obtain ⟨ks, hks⟩ := Walk.visit_balanced hfault
    obtain ⟨-, vs, vss, htold, hvss, hsame⟩ := balanced_told hks hrun
    refine ⟨ks, vs, vss, ?_, htold, hvss, hsame⟩
    rw [Source.containers, hfault, ← hks.entered]
    rfl

lemma run_told {st : State} (h : run src c src.walk = .ok st) :
    ∃ ks vs vss, src.containers = .ok ks ∧ Told src c (.initial c) vs st ∧
      ks.mapM (Rule.violations c) = .ok vss ∧ vs.Perm vss.flatten := by
  obtain ⟨ks, vs, vss, hks, htold, hvss, hsame⟩ := run_told_by_container h
  exact ⟨ks, vs, vss, hks, htold, hvss, hsame.perm⟩

end Checker

/-! ### The problems of a text -/

namespace Problem

lemma le_trans (a b c : Problem) (hab : a.le b) (hbc : b.le c) : a.le c := by
  simp only [le, Bool.or_eq_true, Bool.and_eq_true, decide_eq_true_eq, beq_iff_eq] at *
  omega

lemma le_total (a b : Problem) : a.le b || b.le a := by
  simp only [le, Bool.or_eq_true, Bool.and_eq_true, decide_eq_true_eq, beq_iff_eq]
  omega

end Problem

lemma lint_eq_ok {c : Configuration} {text : Text} {report : Report}
    (h : lint c text = .ok report) :
    ∃ src st, Source.ofText text = .ok src ∧ Checker.run src c src.walk = .ok st ∧
      report.problems = st.problems.mergeSort Problem.le := by
  simp only [lint, Outcome.bind_eq_ok, Outcome.pure_eq_ok] at h
  obtain ⟨src, hsrc, st, hst, rfl⟩ := h
  exact ⟨src, st, hsrc, hst, sort_eq_mergeSort ..⟩

/-- **The checker finds exactly the violations of the rule.**  When a text can be checked, its
problems are those of the violations in the containers of the walk, one for each violation, in the
order of lines and columns. -/
theorem verify_problems_perm {options : Json.Value} {text : Text} {report : Report}
    (h : verify options text = .ok report) :
    ∃ values src containers violations,
      Options.validate options = .ok values ∧ Source.ofText text = .ok src ∧
      src.containers = .ok containers ∧
      containers.mapM (Rule.violations (Options.configuration values)) = .ok violations ∧
      (report.problems.map Rule.unfixed).Perm
        (violations.flatten.map fun v => v.problem src (Options.configuration values) none) ∧
      report.problems.Pairwise fun a b => a.le b = true := by
  obtain ⟨values, hvalues, h⟩ := Outcome.bind_eq_ok.1 h
  obtain ⟨src, st, hsrc, hst, hreport⟩ := lint_eq_ok h
  obtain ⟨ks, vs, vss, hks, htold, hvss, hperm⟩ := Checker.run_told hst
  refine ⟨values, src, ks, vss, Outcome.ofOptions_eq_ok.1 hvalues, hsrc, hks, hvss, ?_, ?_⟩
  · rw [hreport]
    have hproblems := htold.map_unfixed
    simp only [Checker.State.initial, List.map_nil, List.nil_append] at hproblems
    have hsorted : ((st.problems.mergeSort Problem.le).map Rule.unfixed).Perm
        (st.problems.map Rule.unfixed) := (List.mergeSort_perm _ _).map _
    rw [hproblems] at hsorted
    exact hsorted.trans (hperm.map _)
  · rw [hreport]
    exact List.pairwise_mergeSort Problem.le_trans Problem.le_total _

/-- The text `dict(b=dict(d=1,c=2),a=0)` has two problems, one in each container. -/
theorem verify_problems_perm_nested :
    ∃ report, verify .null
        ['d', 'i', 'c', 't', '(', 'b', '=', 'd', 'i', 'c', 't', '(', 'd', '=', '1', ',', 'c', '=',
          '2', ')', ',', 'a', '=', '0', ')'] = .ok report ∧
      report.problems.length = 2 ∧
      ∃ values src containers violations,
        Options.validate .null = .ok values ∧
        Source.ofText ['d', 'i', 'c', 't', '(', 'b', '=', 'd', 'i', 'c', 't', '(', 'd', '=', '1',
          ',', 'c', '=', '2', ')', ',', 'a', '=', '0', ')'] = .ok src ∧
        src.containers = .ok containers ∧
        containers.mapM (Rule.violations (Options.configuration values)) = .ok violations ∧
        (report.problems.map Rule.unfixed).Perm
          (violations.flatten.map fun v => v.problem src (Options.configuration values) none) ∧
        report.problems.Pairwise fun a b => a.le b = true := by
  have hrun : (verify .null ['d', 'i', 'c', 't', '(', 'b', '=', 'd', 'i', 'c', 't', '(', 'd', '=',
      '1', ',', 'c', '=', '2', ')', ',', 'a', '=', '0', ')']).toOption.map
        (·.problems.length) = some 2 := by
    decide +kernel
  obtain ⟨report, hreport, hlength⟩ := Outcome.exists_of_toOption_map hrun
  exact ⟨report, hreport, hlength, verify_problems_perm hreport⟩

end KeyOrder
