import KeyOrder.Proofs.Detection
import KeyOrder.Proofs.Slots
import Mathlib.Algebra.GroupWithZero.Nat

/-!
# The first report of a container carries its fix

All reports of a walk go through one relocator, which answers once for each path.  Containers of a
walk have different paths, so the answer goes to the first report of each container, however the
reports of nested containers come between.

A container has a report exactly when it has edits.  Where something moves, some name may not follow
its neighbour; and where every name may follow its neighbour it may follow all names before it, and
a stable sort leaves everything where it is.

* `Source.nodup_paths`: the containers of a walk have different paths;
* `Relocation.edits_eq_nil_of_violations`: a container without violations has no edits;
* `verify_first_fixes`: which reports of a text carry a fix, and which fix it is.
-/

namespace KeyOrder

/-! ### Paths -/

namespace Walk

/-- How often a walk enters the container with a path. -/
def visits (path : List Nat) (w : Walk) : Nat :=
  ((w.events.filterMap entered?).map Container.path).count path

variable {path p : List Nat}

@[simp] lemma visits_empty : visits p empty = 0 := rfl

lemma visits_append (p : List Nat) (a b : Walk) : visits p (a ++ b) ≤ visits p a + visits p b := by
  change visits p (append a b) ≤ _
  unfold append
  split
  · exact Nat.le_add_right ..
  · simp [visits, List.filterMap_append, List.count_append]

lemma visits_concat (p : List Nat) (ws : List Walk) :
    visits p (concat ws) ≤ (ws.map (visits p)).sum := by
  induction ws with
  | nil => exact Nat.le_refl _
  | cons w ws ih =>
    have happend := visits_append p w (concat ws)
    rw [List.map_cons, List.sum_cons]
    exact Nat.le_trans happend (Nat.add_le_add_left ih _)

lemma visits_entries (p : List Nat) (c : Container) (es : List Entry) (inner : List Walk) :
    visits p (entries c es inner) ≤ (inner.map (visits p)).sum := by
  induction es generalizing inner with
  | nil => exact Nat.zero_le _
  | cons e es ih =>
    cases inner with
    | nil => exact Nat.zero_le _
    | cons w inner =>
      have hhere := visits_append p (single (.entry c e)) w
      have hall := visits_append p (single (.entry c e) ++ w) (entries c es inner)
      have hnone : visits p (single (.entry c e)) = 0 := rfl
      rw [List.map_cons, List.sum_cons]
      have hrest := ih inner
      change visits p (single (.entry c e) ++ w ++ entries c es inner) ≤ _
      omega

lemma visits_ofContainer (p : List Nat) (c : Container) (inner : List Walk) :
    visits p (ofContainer c inner) ≤
      (if c.path = p then 1 else 0) + (inner.map (visits p)).sum := by
  obtain ⟨function, rest, hparts, hsum⟩ : ∃ function rest, ofContainer c inner =
      single (.enter c) ++ function ++ entries c c.entries rest ++ single (.leave c) ∧
      visits p function + (rest.map (visits p)).sum = (inner.map (visits p)).sum := by
    by_cases hkind : c.kind = .call
    · cases inner with
      | nil => exact ⟨empty, [], by simp [ofContainer, hkind], rfl⟩
      | cons f ws => exact ⟨f, ws, by simp [ofContainer, hkind], rfl⟩
    · exact ⟨empty, inner, by simp [ofContainer, hkind], Nat.zero_add _⟩
  have h₁ := visits_append p (single (.enter c)) function
  have h₂ := visits_append p (single (.enter c) ++ function) (entries c c.entries rest)
  have h₃ := visits_append p (single (.enter c) ++ function ++ entries c c.entries rest)
    (single (.leave c))
  have henter : visits p (single (.enter c)) = if c.path = p then 1 else 0 := by
    by_cases hpath : c.path = p <;> simp [visits, single, entered?, hpath]
  have hleave : visits p (single (.leave c)) = 0 := rfl
  have hentries := visits_entries p c c.entries rest
  rw [hparts]
  omega

lemma visits_ofCall (p : List Nat) {children : List Node} {inner : List Walk}
    (hlen : inner.length = children.length) :
    visits p (ofCall children inner) ≤ (inner.map (visits p)).sum := by
  obtain ⟨ws, hof, hperm⟩ := exists_ofCall hlen
  rw [hof, ← (hperm.map (visits p)).sum_nat]
  exact visits_concat p ws

/-- Paths with a different last step do not go on to the same place. -/
lemma not_suffix_of_ne {i j : Nat} (hij : i ≠ j) (hi : (i :: path) <:+ p) : ¬(j :: path) <:+ p := by
  intro hj
  have hsuffix := List.suffix_of_suffix_length_le hi hj (Nat.le_refl _)
  exact hij (List.cons.inj (hsuffix.eq_of_length rfl)).1

/-- Something happens at most once, and only under a condition. -/
def AtMostOnce (n : Nat) (q : Prop) : Prop := n ≤ 1 ∧ (n ≠ 0 → q)

lemma atMostOnce_zero (q : Prop) : AtMostOnce 0 q := ⟨Nat.zero_le _, fun h => absurd rfl h⟩

lemma AtMostOnce.of_le {m n : Nat} {q : Prop} (h : AtMostOnce n q) (hmn : m ≤ n) :
    AtMostOnce m q := by
  obtain ⟨hn, hq⟩ := h
  exact ⟨by omega, fun hm => hq (by omega)⟩

lemma AtMostOnce.add {m n : Nat} {q r t : Prop} (hm : AtMostOnce m q) (hn : AtMostOnce n r)
    (hqr : q → ¬r) (hqt : q → t) (hrt : r → t) : AtMostOnce (m + n) t := by
  obtain ⟨hm, hq⟩ := hm
  obtain ⟨hn, hr⟩ := hn
  by_cases hm0 : m = 0
  · exact ⟨by omega, fun h => hrt (hr (by omega))⟩
  · have hn0 : n = 0 := by
      by_contra hn0
      exact hqr (hq hm0) (hr hn0)
    exact ⟨by omega, fun _ => hqt (hq hm0)⟩

/-- A child and those after it. -/
lemma AtMostOnce.child {m n i : Nat} (hm : AtMostOnce m ((i :: path) <:+ p))
    (hn : AtMostOnce n (∃ j ≥ i + 1, (j :: path) <:+ p)) :
    AtMostOnce (m + n) (∃ j ≥ i, (j :: path) <:+ p) := by
  refine hm.add hn ?_ (fun hi => ⟨i, Nat.le_refl _, hi⟩) ?_
  · rintro hi ⟨j, hj, hsuffix⟩
    exact not_suffix_of_ne (by omega) hi hsuffix
  · rintro ⟨j, hj, hsuffix⟩
    exact ⟨j, by omega, hsuffix⟩

lemma path_of_build {src : Source} {kind : ContainerKind} {n : Node} {c : Container}
    (h : Container.build src path kind n = .ok c) : c.path = path := by
  unfold Container.build at h
  obtain ⟨range, -, h⟩ := Outcome.bind_eq_ok.1 h
  cases kind with
  | display =>
    obtain ⟨es, -, h⟩ := Outcome.bind_eq_ok.1 h
    exact (Outcome.pure_eq_ok.1 h) ▸ rfl
  | pattern =>
    obtain ⟨es, -, h⟩ := Outcome.bind_eq_ok.1 h
    exact (Outcome.pure_eq_ok.1 h) ▸ rfl
  | call =>
    cases hn : n.children with
    | nil =>
      rw [hn] at h
      cases h
    | cons function arguments =>
      rw [hn] at h
      obtain ⟨floor, -, h⟩ := Outcome.bind_eq_ok.1 h
      obtain ⟨es, -, h⟩ := Outcome.bind_eq_ok.1 h
      exact (Outcome.pure_eq_ok.1 h) ▸ rfl

lemma path_of_ofNode? {src : Source} {n : Node} {c : Container}
    (h : Container.ofNode? src path n = .ok (some c)) : c.path = path := by
  unfold Container.ofNode? at h
  split at h
  · obtain ⟨range, -, h⟩ := Outcome.bind_eq_ok.1 h
    split at h
    · cases h
    · split at h
      · obtain ⟨d, hd, h⟩ := Outcome.bind_eq_ok.1 h
        cases h
        exact path_of_build hd
      · cases h
  · cases h

mutual

/-- A walk over a tree enters a container with a given path at most once, and only below the node
that it starts from. -/
theorem atMostOnce_visit (src : Source) (p path : List Nat) :
    (n : Node) → AtMostOnce (visits p (visit src path n)) (path <:+ p)
  | .mk kind span children => by
    have hchildren := atMostOnce_visitAll src p path 0 children
    have hlen := length_visitAll src path 0 children
    have hpairs := atMostOnce_visitPairs src p path 0 children
    have hbelow : (∃ j ≥ 0, (j :: path) <:+ p) → path <:+ p := by
      rintro ⟨j, -, hj⟩
      exact (List.suffix_cons j path).trans hj
    have hinside : ∀ {m : Nat}, AtMostOnce m (∃ j ≥ 0, (j :: path) <:+ p) →
        AtMostOnce m (path <:+ p) := fun h => ⟨h.1, fun hm => hbelow (h.2 hm)⟩
    unfold visit
    split
    · exact atMostOnce_zero _
    · rename_i c hc
      have hpath := path_of_ofNode? hc
      have hself : AtMostOnce (if c.path = p then 1 else 0) (p = path) := by
        split
        · rename_i hcp
          exact ⟨Nat.le_refl _, fun _ => hcp.symm.trans hpath⟩
        · exact atMostOnce_zero _
      refine (hself.add hchildren ?_ ?_ hbelow).of_le (visits_ofContainer p c _)
      · -- a child has a longer path
        rintro rfl ⟨j, -, hj⟩
        have hlength := hj.length_le
        rw [List.length_cons] at hlength
        omega
      · rintro rfl
        exact List.suffix_rfl
    · split
      · exact (hinside hpairs).of_le (visits_concat p _)
      · exact (hinside hpairs).of_le (visits_concat p _)
      · exact (hinside hchildren).of_le (visits_ofCall p hlen)
      · exact (hinside hchildren).of_le (visits_concat p _)

theorem atMostOnce_visitAll (src : Source) (p path : List Nat) (i : Nat) :
    (ns : List Node) → AtMostOnce ((visitAll src path i ns).map (visits p)).sum
      (∃ j ≥ i, (j :: path) <:+ p)
  | [] => by
    rw [visitAll]
    exact atMostOnce_zero _
  | n :: ns => by
    rw [visitAll, List.map_cons, List.sum_cons]
    exact (atMostOnce_visit src p (i :: path) n).child (atMostOnce_visitAll src p path (i + 1) ns)

theorem atMostOnce_visitPairs (src : Source) (p path : List Nat) (i : Nat) :
    (ns : List Node) → AtMostOnce
      (((visitPairs src path i ns).map Prod.fst ++ (visitPairs src path i ns).map Prod.snd).map
        (visits p)).sum (∃ j ≥ i, (j :: path) <:+ p)
  | [] => by
    rw [visitPairs]
    exact atMostOnce_zero _
  | .mk kind span children :: ns => by
    have hnode := atMostOnce_visit src p (i :: path) (.mk kind span children)
    have hchildren := atMostOnce_visitAll src p (i :: path) 0 children
    have hrest := atMostOnce_visitPairs src p path (i + 1) ns
    unfold visitPairs
    split
    · exact atMostOnce_zero _
    · -- a key and a value
      rename_i k v _ heq
      cases heq
      have hboth : AtMostOnce (visits p (visit src (0 :: i :: path) k) +
          visits p (visit src (1 :: i :: path) v)) ((i :: path) <:+ p) := by
        rw [visitAll, visitAll, visitAll] at hchildren
        refine ⟨?_, fun hne => ?_⟩
        · simpa using hchildren.1
        · obtain ⟨j, -, hj⟩ := hchildren.2 (by simpa using hne)
          exact (List.suffix_cons j _).trans hj
      refine (hboth.child hrest).of_le (Nat.le_of_eq ?_)
      simp only [List.map_cons, List.map_append, List.sum_append, List.sum_cons, List.cons_append]
      omega
    · -- a spread
      rename_i heq
      cases heq
      refine (hnode.child hrest).of_le (Nat.le_of_eq ?_)
      simp only [List.map_cons, List.map_append, List.sum_append, List.sum_cons, List.cons_append,
        visits_empty]
      omega

end

end Walk

/-- **The containers of a walk have different paths.** -/
lemma Source.nodup_paths {src : Source} {ks : List Container} (h : src.containers = .ok ks) :
    (ks.map Container.path).Nodup := by
  unfold containers at h
  split at h
  · cases h
  · cases h
    refine List.nodup_iff_count.2 fun p => ?_
    exact (Walk.atMostOnce_visit src p [] src.tree).1

/-! ### Who gets the fix -/

namespace Checker

open Rule (Violation)

variable {src : Source} {c : Configuration}

/-- A violation and the fix that it is reported with. -/
structure Notice where
  violation : Violation
  fix : Option Edit

/-- The problem that a notice becomes. -/
def Notice.problem (src : Source) (c : Configuration) (n : Notice) : Problem :=
  n.violation.problem src c n.fix

/-- The notices of the container with a path. -/
def noticesAt (path : List Nat) (ns : List Notice) : List Notice :=
  ns.filter fun n => n.violation.container.path = path

lemma map_violation_noticesAt (path : List Nat) (ns : List Notice) :
    (noticesAt path ns).map Notice.violation = violationsAt path (ns.map Notice.violation) := by
  rw [violationsAt, List.filter_map]
  rfl

/-- Notices of one container: only the first may have a fix, the one that the edits of the container
amount to, and none has one when the container was relocated before. -/
def Answered (src : Source) (o : Order) (before : Prop) : List Notice → Prop
  | [] => True
  | n :: ns => (∀ m ∈ ns, m.fix = none) ∧ (before → n.fix = none) ∧
      (¬before → ∃ es, Relocation.edits src o n.violation.container = .ok es ∧
        fixOf src es = .ok n.fix)

lemma answered_of_done {o : Order} {before : Prop} (hbefore : before) {ns : List Notice} :
    Answered src o before ns ↔ ∀ n ∈ ns, n.fix = none := by
  cases ns with
  | nil => simp [Answered]
  | cons n ns => simp [Answered, hbefore, and_comm]

/-- Reports one after another: what a run of reports adds, and which of them have a fix. -/
lemma exists_notices_of_foldlM {vs : List Violation} {known known' : Relocator × List Problem}
    (h : vs.foldlM (tell src c) known = .ok known') :
    ∃ ns : List Notice, ns.map Notice.violation = vs ∧
      known'.2 = known.2 ++ ns.map (Notice.problem src c) ∧
      ∀ path, Answered src c.order (path ∈ known.1.done) (noticesAt path ns) := by
  induction vs generalizing known with
  | nil =>
    obtain rfl := Outcome.pure_eq_ok.1 h
    exact ⟨[], rfl, by simp, fun path => trivial⟩
  | cons v vs ih =>
    rw [List.foldlM_cons] at h
    obtain ⟨mid, hv, h⟩ := Outcome.bind_eq_ok.1 h
    obtain ⟨fix, hmid, hcases⟩ := tell_once hv
    obtain ⟨ns, hns, hproblems, hanswered⟩ := ih h
    refine ⟨⟨v, fix⟩ :: ns, by rw [List.map_cons, hns], ?_, fun path => ?_⟩
    · rw [hproblems, hmid, List.map_cons, List.append_assoc]
      rfl
    · have hrest := hanswered path
      by_cases hpath : v.container.path = path
      · subst hpath
        rw [noticesAt, List.filter_cons_of_pos (by simp)]
        rcases hcases with ⟨hdone, hsame, rfl⟩ | ⟨hnew, hdone, hedits⟩
        · rw [hsame, answered_of_done hdone] at hrest
          exact ⟨hrest, fun _ => rfl, fun hnot => absurd hdone hnot⟩
        · rw [hdone, answered_of_done (List.mem_cons_self ..)] at hrest
          exact ⟨hrest, fun hold => absurd hold hnew, fun _ => hedits⟩
      · -- another container is not touched
        rw [noticesAt, List.filter_cons_of_neg (by simpa using hpath)]
        have hdone : (path ∈ mid.1.done) = (path ∈ known.1.done) := by
          rcases hcases with ⟨-, hsame, -⟩ | ⟨-, hdone, -⟩
          · rw [hsame]
          · rw [hdone, List.mem_cons, propext_iff, or_iff_right (Ne.symm hpath)]
        rwa [hdone] at hrest

end Checker

/-! ### Where nothing is out of order nothing moves -/

namespace Order

variable {o : Order}

/-- A list whose names are in order has keys for all of them. -/
lemma exists_keys_of_pairwise {α : Type} {name : α → Name} {xs : List α}
    (h : xs.Pairwise fun a b => o.check (name a) (name b) = .ok true) :
    ∃ ps, o.keys name xs = .ok ps := by
  refine exists_keys fun hlen => ?_
  match xs, hlen, h with
  | x :: y :: rest, _, h =>
    -- each item but the first follows it
    obtain ⟨hx, -⟩ := List.pairwise_cons.1 h
    intro z hz
    rcases List.mem_cons.1 hz with rfl | hz
    · obtain ⟨kz, -, hkz, -⟩ := check_eq_ok.1 (hx y (List.mem_cons_self ..))
      exact ⟨kz, hkz⟩
    · obtain ⟨-, kz, -, hkz, -⟩ := check_eq_ok.1 (hx z hz)
      exact ⟨kz, hkz⟩

/-- A list whose names are in order is sorted already. -/
lemma sortOn_eq_self {α : Type} {name : α → Name} {xs : List α}
    (h : xs.Pairwise fun a b => o.check (name a) (name b) = .ok true) :
    o.sortOn name xs = .ok xs := by
  obtain ⟨ps, hps⟩ := exists_keys_of_pairwise h
  have hsnd := keys_map_snd hps
  have hsorted : ps.Pairwise fun a b => o.allows a.1 b.1 = true := by
    by_cases hlen : 2 ≤ xs.length
    · rw [← hsnd, List.pairwise_map] at h
      refine h.imp_of_mem fun {p q} hp hq hcheck => ?_
      obtain ⟨kp, kq, hkp, hkq, hallows⟩ := check_eq_ok.1 hcheck
      rw [key_of_mem_keys hps hlen hp] at hkp
      rw [key_of_mem_keys hps hlen hq] at hkq
      cases hkp
      cases hkq
      exact hallows
    · have hlength : ps.length ≤ 1 := by
        rw [← List.length_map Prod.snd, hsnd]
        omega
      match ps, hlength with
      | [], _ => exact .nil
      | [p], _ => exact List.pairwise_singleton _ p
  refine Outcome.bind_eq_ok.2 ⟨ps, hps, ?_⟩
  rw [sort_eq_mergeSort, List.mergeSort_of_pairwise hsorted, hsnd]
  rfl

end Order

namespace Relocation

variable {src : Source} {o : Order}

/-- Where each name may follow its neighbour, it may follow all names before it. -/
lemma pairwise_of_breaks {items : List Rule.Item} (h : Rule.breaks o items = .ok []) :
    items.Pairwise fun p q => o.check p.1 q.1 = .ok true := by
  induction items with
  | nil => exact .nil
  | cons p items ih =>
    cases items with
    | nil => exact List.pairwise_singleton _ p
    | cons q items =>
      obtain ⟨inOrder, rest, hcheck, hrest, hnil⟩ := Rule.breaks_cons_cons_eq_ok.1 h
      cases inOrder with
      | false => cases hnil
      | true =>
        have hrest := ih (hrest.trans (congrArg _ hnil))
        refine List.pairwise_cons.2 ⟨fun r hr => ?_, hrest⟩
        rcases List.mem_cons.1 hr with rfl | hr
        · exact hcheck
        · exact Order.check_trans hcheck ((List.pairwise_cons.1 hrest).1 r hr)

/-- The named entries of a segment have slots. -/
lemma exists_namedFrom {es : List Entry} {items : List Rule.Item} (i : Nat)
    (h : Rule.named es = .ok items) : ∃ slots, namedFrom i es = .ok slots := by
  induction es generalizing i items with
  | nil => exact ⟨[], rfl⟩
  | cons e es ih =>
    obtain ⟨name, rest, hname, hrest, -⟩ := Rule.named_cons_eq_ok.1 h
    cases name with
    | none =>
      obtain ⟨slots, hslots⟩ := ih i hrest
      exact ⟨slots, Outcome.bind_eq_ok.2 ⟨none, hname, hslots⟩⟩
    | some n =>
      obtain ⟨slots, hslots⟩ := ih (i + 1) hrest
      exact ⟨⟨i, e, n⟩ :: slots, Outcome.bind_eq_ok.2
        ⟨some n, hname, Outcome.bind_eq_ok.2 ⟨slots, hslots, rfl⟩⟩⟩

lemma moveAll_self (slots : List Named) : moveAll src slots slots = .ok [] := by
  induction slots with
  | nil => rfl
  | cons s slots ih => exact moveAll_cons_eq_ok.2 ⟨[], [], if_pos rfl, ih, rfl⟩

lemma sortSegment_eq_nil {segment : List Entry} (h : Rule.outOfOrder o segment = .ok []) :
    sortSegment src o segment = .ok [] := by
  obtain ⟨items, hitems, hbreaks⟩ := Outcome.bind_eq_ok.1 h
  obtain ⟨slots, hslots⟩ := exists_namedFrom 0 hitems
  have hsame := named_of_namedFrom hslots
  rw [hitems] at hsame
  cases hsame
  have hsorted := pairwise_of_breaks hbreaks
  rw [List.pairwise_map] at hsorted
  exact sortSegment_eq_ok.2 ⟨slots, slots, hslots, Order.sortOn_eq_self hsorted, moveAll_self slots⟩

/-- Segments in which nothing is out of order give no edits. -/
lemma exists_sortSegments {ss : List (List Entry)} {found : List (List (Rule.Item × Rule.Item))}
    (hfound : List.Forall₂ (fun s f => Rule.outOfOrder o s = .ok f) ss found)
    (hnil : found.flatten = []) :
    ∃ ess, ss.mapM (sortSegment src o) = .ok ess ∧ ess.flatten = [] := by
  induction hfound with
  | nil => exact ⟨[], rfl, rfl⟩
  | cons hhere _ ih =>
    obtain ⟨rfl, hnil⟩ := List.append_eq_nil_iff.1 hnil
    obtain ⟨ess, hess, hflat⟩ := ih hnil
    exact ⟨[] :: ess, Outcome.mapM_cons_eq_ok (sortSegment_eq_nil hhere) hess, hflat⟩

/-- **A container without violations has no edits**, when the rule covers it. -/
lemma edits_eq_nil_of_violations {c : Configuration} {k : Container}
    (hcovers : Rule.covers c k = true) (h : Rule.violations c k = .ok []) :
    edits src c.order k = .ok [] := by
  rw [Rule.violations, if_pos hcovers] at h
  obtain ⟨found, hfound, h⟩ := Outcome.bind_eq_ok.1 h
  have hflat : found.flatten = [] := List.map_eq_nil_iff.1 (Outcome.pure_eq_ok.1 h)
  obtain ⟨ess, hess, hnil⟩ := exists_sortSegments (Outcome.mapM_eq_ok.1 hfound) hflat
  exact Outcome.bind_eq_ok.2 ⟨ess, hess, by rw [hnil]; rfl⟩

end Relocation

/-! ### The reports of a text -/

namespace Checker

open Rule (Violation)

variable {src : Source} {c : Configuration}

/-- The violations at the path of a container are its own, in their order. -/
lemma violationsAt_flatten {ks : List Container} {vss : List (List Violation)}
    (hvss : ks.mapM (Rule.violations c) = .ok vss) (hnodup : (ks.map Container.path).Nodup)
    {k : Container} (hk : k ∈ ks) :
    Rule.violations c k = .ok (violationsAt k.path vss.flatten) := by
  induction ks generalizing vss with
  | nil => exact absurd hk List.not_mem_nil
  | cons l ks ih =>
    obtain ⟨ws, hws, h⟩ := Outcome.bind_eq_ok.1 (List.mapM_cons.symm.trans hvss)
    obtain ⟨wss, hwss, h⟩ := Outcome.bind_eq_ok.1 h
    obtain rfl := Outcome.pure_eq_ok.1 h
    obtain ⟨hl, hnodup⟩ := List.nodup_cons.1 hnodup
    rw [List.flatten_cons, violationsAt_append]
    rcases List.mem_cons.1 hk with rfl | hk
    · have hall : violationsAt k.path ws = ws := by
        refine List.filter_eq_self.2 fun v hv => ?_
        simp [Rule.container_of_mem_violations hws hv]
      rw [hall, violationsAt_flatten_eq_nil hwss hl, List.append_nil, hws]
    · have hnil : violationsAt k.path ws = [] := by
        refine List.filter_eq_nil_iff.2 fun v hv => ?_
        rw [Rule.container_of_mem_violations hws hv]
        simp only [decide_eq_true_eq]
        exact fun hpath => hl (hpath ▸ List.mem_map_of_mem hk)
      rw [hnil, List.nil_append]
      exact ih hwss hnodup hk

/-- The notices of a container that has some violations: one for each violation, the first with what
a fresh relocator answers, merged, and the others without a fix. -/
def FirstFixed (src : Source) (o : Order) (k : Container) : List Violation → List Notice → Prop
  | [], ns => ns = []
  | v :: vs, ns => ∃ es m, (Relocator.fresh.fix src o k).1 = .ok es ∧
      Edit.merge es src.text = .ok m ∧ ns = ⟨v, some m⟩ :: vs.map (⟨·, none⟩)

lemma eq_map_of_unfixed {ns : List Notice} (h : ∀ n ∈ ns, n.fix = none) :
    ns = (ns.map Notice.violation).map (⟨·, none⟩) := by
  rw [List.map_map]
  refine (List.map_id ns).symm.trans (List.map_congr_left fun n hn => ?_)
  rw [Function.comp_apply, ← h n hn]
  rfl

/-- Where only the first notice is answered, the first has the fix: a violation means that there is
something to move. -/
lemma firstFixed_of_answered {k : Container} {vs : List Violation} {ns : List Notice}
    (hvs : Rule.violations c k = .ok vs) (hns : ns.map Notice.violation = vs) {before : Prop}
    (hbefore : ¬before) (h : Answered src c.order before ns) : FirstFixed src c.order k vs ns := by
  subst hns
  cases ns with
  | nil => rfl
  | cons n ns =>
    obtain ⟨hrest, -, hfirst⟩ := h
    obtain ⟨es, hes, hfix⟩ := hfirst hbefore
    have hcontainer : n.violation.container = k :=
      Rule.container_of_mem_violations hvs (List.mem_cons_self ..)
    rw [hcontainer] at hes
    have hne : es ≠ [] := by
      rintro rfl
      exact List.cons_ne_nil _ _ (Relocation.violations_eq_nil_of_edits hes hvs)
    obtain ⟨m, hm, hsome⟩ := exists_merge_of_fixOf hne hfix
    refine ⟨es, m, hes, hm, ?_⟩
    rw [← hsome, ← eq_map_of_unfixed hrest]

/-- A covered container has violations exactly when a fresh relocator has edits for it. -/
lemma violations_ne_nil_iff {k : Container} {vs : List Violation}
    (hcovers : Rule.covers c k = true) (hvs : Rule.violations c k = .ok vs) {ns : List Notice}
    (h : FirstFixed src c.order k vs ns) :
    ns ≠ [] ↔ ∃ es, (Relocator.fresh.fix src c.order k).1 = .ok es ∧ es ≠ [] := by
  cases vs with
  | nil =>
    have hnone : (Relocator.fresh.fix src c.order k).1 = .ok [] :=
      Relocation.edits_eq_nil_of_violations hcovers hvs
    refine ⟨fun hne => absurd h hne, ?_⟩
    rintro ⟨es, hes, hne⟩
    rw [hnone] at hes
    cases hes
    exact absurd rfl hne
  | cons v vs =>
    obtain ⟨es, m, hes, -, rfl⟩ := h
    refine ⟨fun _ => ⟨es, hes, ?_⟩, fun _ => List.cons_ne_nil _ _⟩
    rintro rfl
    exact List.cons_ne_nil _ _ (Relocation.violations_eq_nil_of_edits hes hvs)

end Checker

/-- **The first report of each container carries its fix.**  When a text can be checked, the
problems in the order of the walk are those of some notices.  The notices of a container are one for
each of its violations, in order; the first has the merged edits that a fresh relocator gives for
the container, and the others have no fix.  A container that the rule covers has a notice if and
only if a fresh relocator gives edits for it. -/
theorem verify_first_fixes {options : Json.Value} {text : Text} {report : Report}
    (h : verify options text = .ok report) :
    ∃ (values : List Json.Value) (src : Source) (ks : List Container) (st : Checker.State)
      (ns : List Checker.Notice),
      Options.validate options = .ok values ∧ Source.ofText text = .ok src ∧
      src.containers = .ok ks ∧ (ks.map Container.path).Nodup ∧
      Checker.run src (Options.configuration values) src.walk = .ok st ∧
      report.problems = st.problems.mergeSort Problem.le ∧
      st.problems = ns.map (Checker.Notice.problem src (Options.configuration values)) ∧
      (∀ n ∈ ns, n.violation.container ∈ ks) ∧
      ∀ k ∈ ks, ∃ vs, Rule.violations (Options.configuration values) k = .ok vs ∧
        Checker.FirstFixed src (Options.configuration values).order k vs
          (Checker.noticesAt k.path ns) ∧
        (Rule.covers (Options.configuration values) k = true →
          (Checker.noticesAt k.path ns ≠ [] ↔ ∃ es,
            (Relocator.fresh.fix src (Options.configuration values).order k).1 = .ok es ∧
              es ≠ [])) := by
  obtain ⟨values, hvalues, h⟩ := Outcome.bind_eq_ok.1 h
  obtain ⟨src, st, hsrc, hst, hreport⟩ := lint_eq_ok h
  obtain ⟨ks, vs, vss, hks, htold, hvss, hsame⟩ := Checker.run_told_by_container hst
  have hnodup := Source.nodup_paths hks
  obtain ⟨ns, hns, hproblems, hanswered⟩ := Checker.exists_notices_of_foldlM htold
  refine ⟨values, src, ks, st, ns, Outcome.ofOptions_eq_ok.1 hvalues, hsrc, hks, hnodup, hst,
    hreport, hproblems, fun n hn => ?_, fun k hk => ?_⟩
  · have hmem : n.violation ∈ vss.flatten :=
      hsame.perm.subset (hns ▸ List.mem_map_of_mem hn)
    obtain ⟨ws, hws, hmem⟩ := List.mem_flatten.1 hmem
    obtain ⟨k, hk, hkws⟩ := Outcome.exists_of_mem_mapM hvss hws
    rwa [Rule.container_of_mem_violations hkws hmem]
  · have hviolations := Checker.violationsAt_flatten hvss hnodup hk
    have hhere : (Checker.noticesAt k.path ns).map Checker.Notice.violation =
        Checker.violationsAt k.path vss.flatten := by
      rw [Checker.map_violation_noticesAt, hns, hsame.at_path hnodup]
    have hfirst := Checker.firstFixed_of_answered hviolations hhere List.not_mem_nil
      (hanswered k.path)
    exact ⟨_, hviolations, hfirst, fun hcovers =>
      Checker.violations_ne_nil_iff hcovers hviolations hfirst⟩

/-- In `dict(c=0,b=dict(d=1,c=2),a=0)` the outer call has two problems, with that of the inner one
between them; only the last problem has no fix. -/
theorem verify_first_fixes_nested :
    ∃ report, verify .null
        ['d', 'i', 'c', 't', '(', 'c', '=', '0', ',', 'b', '=', 'd', 'i', 'c', 't', '(', 'd', '=',
          '1', ',', 'c', '=', '2', ')', ',', 'a', '=', '0', ')'] = .ok report ∧
      report.problems.map (·.fix.isSome) = [true, true, false] ∧
      ∃ values src ks ns, Options.validate .null = .ok values ∧ src.containers = .ok ks ∧
        ∀ k ∈ ks, ∃ vs, Rule.violations (Options.configuration values) k = .ok vs ∧
          Checker.FirstFixed src (Options.configuration values).order k vs
            (Checker.noticesAt k.path ns) := by
  have hrun : (verify .null ['d', 'i', 'c', 't', '(', 'c', '=', '0', ',', 'b', '=', 'd', 'i', 'c',
      't', '(', 'd', '=', '1', ',', 'c', '=', '2', ')', ',', 'a', '=', '0', ')']).toOption.map
        (·.problems.map (·.fix.isSome)) = some [true, true, false] := by
    decide +kernel
  obtain ⟨report, hreport, hfixes⟩ := Outcome.exists_of_toOption_map hrun
  obtain ⟨values, src, ks, st, ns, hvalues, -, hks, -, -, -, -, -, hall⟩ :=
    verify_first_fixes hreport
  refine ⟨report, hreport, hfixes, values, src, ks, ns, hvalues, hks, fun k hk => ?_⟩
  obtain ⟨vs, hvs, hfirst, -⟩ := hall k hk
  exact ⟨vs, hvs, hfirst⟩

end KeyOrder
