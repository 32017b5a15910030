import KeyOrder.Proofs.Positions
import KeyOrder.Proofs.Scanning

/-!
# The walk is complete and well bracketed

The events of a walk open and close containers.  Two readings of them are put together here.  Read
by container, the events are one stretch for each container of the tree: it is entered, its entries
are told in order, and it is left.  Read in the order of the walk, each event finds open exactly the
containers around its node: a container is entered below those that stand above it in the tree, and
an entry is told while its own container is the innermost open one.

* `Event.opened` are the containers that are open after some events, and `Event.Fits` is what holds
  of an event and the containers that are open when it is told;
* `Walk.visit_leads` is the invariant of the walk, for every tree, with or without a fault;
* `Source.Account` is all that is said of a walk without a fault;
* `walk_complete_and_bracketed` adds what the checker makes of it.
-/

namespace KeyOrder

/-! ### Open containers -/

namespace Source

/-- The paths of the containers around the node at a path, the innermost first. -/
def around (src : Source) : List Nat → List (List Nat)
  | [] => []
  | _ :: path => if src.HoldsContainer path then path :: src.around path else src.around path

variable {src : Source} {path : List Nat}

lemma around_cons_of_container (h : src.HoldsContainer path) (i : Nat) :
    src.around (i :: path) = path :: src.around path := by
  rw [around, if_pos h]

lemma around_cons_of_other (h : ¬src.HoldsContainer path) (i : Nat) :
    src.around (i :: path) = src.around path := by
  rw [around, if_neg h]

end Source

/-- A container that the walk makes of a node of the tree. -/
def Container.StandsIn (src : Source) (k : Container) : Prop :=
  ∃ n, src.tree.at? k.path = some n ∧ Container.ofNode? src k.path n = .ok (some k)

lemma Container.StandsIn.holdsContainer {src : Source} {k : Container} (h : k.StandsIn src) :
    src.HoldsContainer k.path := by
  obtain ⟨n, hn, hk⟩ := h
  rw [Source.holdsContainer_iff hn, Container.isContainer_iff hk]
  rfl

namespace Event

/-- The container that an event is about. -/
def container : Event → Container
  | enter k => k
  | entry k _ => k
  | leave k => k

@[simp] lemma container_enter (k : Container) : (enter k).container = k := rfl

@[simp] lemma container_entry (k : Container) (e : Entry) : (entry k e).container = k := rfl

@[simp] lemma container_leave (k : Container) : (leave k).container = k := rfl

/-- The containers that are open after an event, the innermost first. -/
def after (ks : List Container) : Event → List Container
  | enter k => k :: ks
  | entry _ _ => ks
  | leave _ => ks.tail

/-- The containers that are open after some events, the innermost first. -/
def opened (ks : List Container) (es : List Event) : List Container := es.foldl after ks

/-- What holds of an event and the containers that are open when it is told.  A container that is
entered is that of a node, and those around the node are open; an entry is told, and a container is
left, while the container is the innermost open one and those around it are open. -/
def Fits (src : Source) (ks : List Container) : Event → Prop
  | enter k => k.StandsIn src ∧ ks.map Container.path = src.around k.path
  | entry k _ => ∃ outer, ks = k :: outer ∧ outer.map Container.path = src.around k.path
  | leave k => ∃ outer, ks = k :: outer ∧ outer.map Container.path = src.around k.path

/-- Events that fit, one after another. -/
def AllFit (src : Source) : List Container → List Event → Prop
  | _, [] => True
  | ks, e :: es => e.Fits src ks ∧ AllFit src (e.after ks) es

variable {src : Source}

lemma allFit_append {ks : List Container} {es fs : List Event} :
    AllFit src ks (es ++ fs) ↔ AllFit src ks es ∧ AllFit src (opened ks es) fs := by
  induction es generalizing ks with
  | nil => simp [AllFit, opened]
  | cons e es ih => simp only [List.cons_append, AllFit, ih, opened, List.foldl_cons, and_assoc]

lemma AllFit.fits {ks : List Container} {pre post : List Event} {e : Event}
    (h : AllFit src ks (pre ++ e :: post)) : e.Fits src (opened ks pre) :=
  (allFit_append.1 h).2.1

end Event

/-! ### The invariant of the walk -/

namespace Walk

/-- A walk leads from some open containers to others: all its events fit, and unless it ends with a
fault, the latter are open after it. -/
structure Leads (src : Source) (ks : List Container) (w : Walk) (ls : List Container) : Prop where
  fit : Event.AllFit src ks w.events
  opened : w.fault = none → Event.opened ks w.events = ls

namespace Leads

variable {src : Source} {ks ls ms : List Container}

lemma empty : Leads src ks .empty ks := ⟨trivial, fun _ => rfl⟩

lemma fault (f : Fault) : Leads src ks ⟨[], some f⟩ ls := ⟨trivial, fun h => nomatch h⟩

lemma single {e : Event} (h : e.Fits src ks) : Leads src ks (.single e) (e.after ks) :=
  ⟨⟨h, trivial⟩, fun _ => rfl⟩

lemma append {v w : Walk} (hv : Leads src ks v ls) (hw : Leads src ls w ms) :
    Leads src ks (v ++ w) ms := by
  change Leads src ks (Walk.append v w) ms
  unfold Walk.append
  cases hfault : v.fault with
  | some f => exact ⟨hv.fit, fun h => by simp [hfault] at h⟩
  | none =>
    have hopened := hv.opened hfault
    refine ⟨Event.allFit_append.2 ⟨hv.fit, hopened ▸ hw.fit⟩, fun h => ?_⟩
    have hlast := hw.opened h
    rw [← hopened] at hlast
    exact (List.foldl_append ..).trans hlast

lemma concat {ws : List Walk} (h : ∀ w ∈ ws, Leads src ks w ks) :
    Leads src ks (Walk.concat ws) ks := by
  induction ws with
  | nil => exact .empty
  | cons w ws ih =>
    exact (h w (List.mem_cons_self ..)).append (ih fun v hv => h v (List.mem_cons_of_mem _ hv))

/-- Inside a container, what its entries hold leaves the container open. -/
lemma entries {k : Container} {es : List Entry} {ws : List Walk}
    (hk : ks.map Container.path = src.around k.path)
    (h : ∀ w ∈ ws, Leads src (k :: ks) w (k :: ks)) :
    Leads src (k :: ks) (Walk.entries k es ws) (k :: ks) := by
  refine concat fun w hw => ?_
  obtain ⟨⟨e, v⟩, hp, rfl⟩ := List.mem_map.1 hw
  exact (single (e := .entry k e) ⟨ks, rfl, hk⟩).append (h v (List.of_mem_zip hp).2)

/-- The walk over a container leaves open what was open before it. -/
lemma ofContainer {path : List Nat} {n : Node} {k : Container} {inner : List Walk}
    (hn : src.tree.at? path = some n) (hof : Container.ofNode? src path n = .ok (some k))
    (hks : ks.map Container.path = src.around path) (hlen : inner.length = n.children.length)
    (h : ∀ w ∈ inner, Leads src (k :: ks) w (k :: ks)) :
    Leads src ks (Walk.ofContainer k inner) ks := by
  obtain ⟨function, rest, hparts, hfunction, hrest, -⟩ :=
    ofContainer_parts .empty (length_entries_of_ofNode? hof) hlen h
  obtain rfl := path_of_ofNode? hof
  have hin : (Event.enter k).Fits src ks := ⟨⟨n, hn, hof⟩, hks⟩
  have hout : (Event.leave k).Fits src (k :: ks) := ⟨ks, rfl, hks⟩
  rw [hparts]
  exact (((single hin).append hfunction).append (entries hks hrest)).append (single hout)

lemma ofCall {children : List Node} {inner : List Walk} (hlen : inner.length = children.length)
    (h : ∀ w ∈ inner, Leads src ks w ks) : Leads src ks (Walk.ofCall children inner) ks := by
  obtain ⟨ws, hof, hperm⟩ := exists_ofCall hlen
  rw [hof]
  exact concat fun w hw => h w (hperm.mem_iff.1 hw)

lemma apart {ps : List (Walk × Walk)} (h : ∀ p ∈ ps, Leads src ks p.1 ks ∧ Leads src ks p.2 ks) :
    Leads src ks (Walk.concat (ps.map Prod.fst ++ ps.map Prod.snd)) ks := by
  refine concat fun w hw => ?_
  obtain ⟨p, hp, rfl | rfl⟩ := exists_pair_of_mem hw
  · exact (h p hp).1
  · exact (h p hp).2

end Leads

/-- Nodes that are the children of the node at a path, from the one with index `i` on. -/
def Below (src : Source) (path : List Nat) (i : Nat) (ns : List Node) : Prop :=
  ∀ j m, ns[j]? = some m → src.tree.at? ((i + j) :: path) = some m

lemma below_children {src : Source} {path : List Nat} {n : Node}
    (hn : src.tree.at? path = some n) : Below src path 0 n.children := by
  intro j m hm
  rw [Nat.zero_add]
  exact Node.at?_cons_eq_some.2 ⟨n, hn, hm⟩

lemma Below.tail {src : Source} {path : List Nat} {i : Nat} {n : Node} {ns : List Node}
    (h : Below src path i (n :: ns)) : Below src path (i + 1) ns := by
  intro j m hm
  have hat := h (j + 1) m hm
  rwa [← Nat.add_assoc, Nat.add_right_comm] at hat

mutual

/-- The walk over a node of the tree fits, and leaves the containers around the node open. -/
theorem visit_leads {src : Source} {path : List Nat} : {ks : List Container} → (n : Node) →
    src.tree.at? path = some n → ks.map Container.path = src.around path →
      Leads src ks (visit src path n) ks
  | ks, .mk kind span children, hn, hks => by
    have hbelow : Below src path 0 children := below_children hn
    have hlen := length_visitAll src path 0 children
    unfold visit
    split
    · exact .fault _
    · rename_i k hk
      have hcontainer := (Source.holdsContainer_iff hn).2 ((Container.isContainer_iff hk).2 rfl)
      have hpath := path_of_ofNode? hk
      refine .ofContainer hn hk hks hlen ?_
      refine visitAll_leads children hbelow fun j => ?_
      rw [Source.around_cons_of_container hcontainer, List.map_cons, hpath, hks]
    · rename_i hnone
      have hother : ¬src.HoldsContainer path := by
        rw [Source.holdsContainer_iff hn, Container.isContainer_iff hnone]
        simp
      have hinside : ∀ j, ks.map Container.path = src.around (j :: path) := by
        intro j
        rw [Source.around_cons_of_other hother, hks]
      have hchildren := visitAll_leads children hbelow hinside
      have happart := Leads.apart (visitPairs_leads children hbelow hinside)
      split
      · exact happart
      · exact happart
      · exact .ofCall hlen hchildren
      · exact .concat hchildren

theorem visitAll_leads {src : Source} {path : List Nat} {i : Nat} {ks : List Container} :
    (ns : List Node) → Below src path i ns →
      (∀ j, ks.map Container.path = src.around (j :: path)) →
        ∀ w ∈ visitAll src path i ns, Leads src ks w ks
  | [], _, _ => by
    intro w hw
    rw [visitAll] at hw
    exact absurd hw List.not_mem_nil
  | n :: ns, hns, hks => by
    intro w hw
    rw [visitAll] at hw
    rcases List.mem_cons.1 hw with rfl | hw
    · exact visit_leads n (hns 0 n rfl) (hks i)
    · exact visitAll_leads ns hns.tail hks w hw

theorem visitPairs_leads {src : Source} {path : List Nat} {i : Nat} {ks : List Container} :
    (ns : List Node) → Below src path i ns →
      (∀ j, ks.map Container.path = src.around (j :: path)) →
        ∀ p ∈ visitPairs src path i ns, Leads src ks p.1 ks ∧ Leads src ks p.2 ks
  | [], _, _ => by
    intro p hp
    rw [visitPairs] at hp
    exact absurd hp List.not_mem_nil
  | .mk kind span children :: ns, hns, hks => by
    have hn : src.tree.at? (i :: path) = some (.mk kind span children) := hns 0 _ rfl
    have hnode := visit_leads (.mk kind span children) hn (hks i)
    have hinner : ¬src.HoldsContainer (i :: path) →
        ∀ w ∈ visitAll src (i :: path) 0 children, Leads src ks w ks := by
      intro hother
      refine visitAll_leads children (below_children hn) fun j => ?_
      rw [Source.around_cons_of_other hother]
      exact hks i
    have hrest := visitPairs_leads ns hns.tail hks
    intro p hp
    rcases visitPairs_cons src path i (.mk kind span children) ns with
      ⟨_, k, v, heq, hpairs⟩ | hpairs
    · -- a key and a value: the pair itself is no container
      cases heq
      have hother : ¬src.HoldsContainer (i :: path) := by
        rw [Source.holdsContainer_iff hn]
        simp [Source.IsContainer, Node.Keyed, Node.kind]
      rw [hpairs] at hp
      rcases List.mem_cons.1 hp with rfl | hp
      · exact ⟨hinner hother _ (by simp [visitAll]), hinner hother _ (by simp [visitAll])⟩
      · exact hrest p hp
    · rw [hpairs] at hp
      rcases List.mem_cons.1 hp with rfl | hp
      · exact ⟨.empty, hnode⟩
      · exact hrest p hp

end

end Walk

/-! ### The events of one container -/

/-- The events about the container with a path. -/
def Event.eventsAt (path : List Nat) (es : List Event) : List Event :=
  es.filter fun e => e.container.path = path

namespace Container

/-- What a walk tells of a container itself: that it is entered, its entries in order, and that it
is left. -/
def told (k : Container) : List Event := .enter k :: (k.entries.map (.entry k) ++ [.leave k])

/-- What is told of those of some containers that have a path. -/
def toldAt (path : List Nat) (ks : List Container) : List Event :=
  (ks.filter fun k => k.path = path).flatMap told

variable {path : List Nat} {ks : List Container}

@[simp] lemma toldAt_append (path : List Nat) (ks ls : List Container) :
    toldAt path (ks ++ ls) = toldAt path ks ++ toldAt path ls := by
  rw [toldAt, List.filter_append, List.flatMap_append]
  rfl

lemma toldAt_cons (path : List Nat) (k : Container) (ks : List Container) :
    toldAt path (k :: ks) = if k.path = path then k.told ++ toldAt path ks else toldAt path ks := by
  by_cases hpath : k.path = path <;> simp [toldAt, hpath]

lemma toldAt_eq_nil (h : path ∉ ks.map Container.path) : toldAt path ks = [] := by
  have hnone : (ks.filter fun k => k.path = path) = [] := by
    rw [List.filter_eq_nil_iff]
    intro k hk hpath
    exact h (List.mem_map.2 ⟨k, hk, of_decide_eq_true hpath⟩)
  rw [toldAt, hnone]
  rfl

/-- Of containers with different paths, only one is told of at each path. -/
lemma toldAt_of_mem {k : Container} (hnodup : (ks.map Container.path).Nodup) (hk : k ∈ ks) :
    toldAt k.path ks = k.told := by
  induction ks with
  | nil => exact absurd hk List.not_mem_nil
  | cons l ks ih =>
    obtain ⟨hl, hnodup⟩ := List.nodup_cons.1 hnodup
    rw [toldAt_cons]
    rcases List.mem_cons.1 hk with rfl | hk
    · rw [if_pos rfl, toldAt_eq_nil hl, List.append_nil]
    · have hpath : l.path ≠ k.path := fun h => hl (h ▸ List.mem_map_of_mem hk)
      rw [if_neg hpath]
      exact ih hnodup hk

end Container

namespace Walk

open Event (eventsAt)
open Container (told toldAt)

@[simp] lemma eventsAt_nil (p : List Nat) : eventsAt p [] = [] := rfl

lemma eventsAt_cons (p : List Nat) (e : Event) (es : List Event) :
    eventsAt p (e :: es) = if e.container.path = p then e :: eventsAt p es else eventsAt p es := by
  simp [eventsAt, List.filter_cons]

@[simp] lemma eventsAt_append (p : List Nat) (es fs : List Event) :
    eventsAt p (es ++ fs) = eventsAt p es ++ eventsAt p fs := List.filter_append ..

mutual

/-- When the containers entered in a bracketed stretch have different paths, all that it tells at
a path is what is told of the container there. -/
lemma Balanced.eventsAt_eq {cs : List Container} {es : List Event} (p : List Nat) :
    Balanced cs es → (cs.map Container.path).Nodup → eventsAt p es = toldAt p cs
  | .nil, _ => rfl
  | .append h k, hnodup => by
    rw [List.map_append, List.nodup_append] at hnodup
    rw [eventsAt_append, h.eventsAt_eq p hnodup.1, k.eventsAt_eq p hnodup.2.1,
      Container.toldAt_append]
  | @Balanced.container c cs ds es fs h k, hnodup => by
    rw [List.map_cons, List.map_append] at hnodup
    obtain ⟨hc, hboth⟩ := List.nodup_cons.1 hnodup
    obtain ⟨hcs, hds, -⟩ := List.nodup_append.1 hboth
    rw [List.mem_append, not_or] at hc
    have hes := h.eventsAt_eq p hcs
    have hfs := k.eventsAt_eq p (List.nodup_cons.2 ⟨hc.2, hds⟩)
    by_cases hp : c.path = p
    · subst hp
      have hcs := Container.toldAt_eq_nil hc.1
      have hds := Container.toldAt_eq_nil hc.2
      simp [eventsAt_cons, Container.toldAt_cons, told, hes, hfs, hcs, hds]
    · simp [eventsAt_cons, Container.toldAt_cons, hes, hfs, hp]

lemma Inside.eventsAt_eq {c : Container} {rest : List Entry} {cs : List Container}
    {es : List Event} (p : List Nat) : Inside c rest cs es →
      (c.path :: cs.map Container.path).Nodup →
        eventsAt p es = (if c.path = p then rest.map (.entry c) else []) ++ toldAt p cs
  | .nil, _ => by simp [toldAt]
  | @Inside.cons c e rest cs ds es fs h k, hnodup => by
    rw [List.map_append] at hnodup
    obtain ⟨hc, hboth⟩ := List.nodup_cons.1 hnodup
    obtain ⟨hcs, hds, -⟩ := List.nodup_append.1 hboth
    rw [List.mem_append, not_or] at hc
    have hes := h.eventsAt_eq p hcs
    have hfs := k.eventsAt_eq p (List.nodup_cons.2 ⟨hc.2, hds⟩)
    by_cases hp : c.path = p
    · subst hp
      have hcs := Container.toldAt_eq_nil hc.1
      simp [eventsAt_cons, hes, hfs, hcs]
    · simp [eventsAt_cons, hes, hfs, hp]

end

end Walk

/-! ### Walks without a fault -/

/-- A complete and well-bracketed account of the containers of a source. -/
structure Source.Account (src : Source) (events : List Event) : Prop where
  /-- At the path of a container, all that is told is the stretch of that container. -/
  container {path : List Nat} : src.HoldsContainer path →
    ∃ n k, src.tree.at? path = some n ∧ Container.ofNode? src path n = .ok (some k) ∧
      Event.eventsAt path events = k.told
  /-- At any other path nothing is told. -/
  other {path : List Nat} : ¬src.HoldsContainer path → Event.eventsAt path events = []
  /-- Each event is told while just the containers around it are open. -/
  nested {pre post : List Event} {e : Event} : events = pre ++ e :: post →
    e.Fits src (Event.opened [] pre)
  closed : Event.opened [] events = []

lemma Walk.mem_entered {k : Container} {es : List Event} :
    k ∈ es.filterMap entered? ↔ .enter k ∈ es := by
  rw [List.mem_filterMap]
  constructor
  · rintro ⟨e, he, hk⟩
    cases e with
    | enter l =>
      cases hk
      exact he
    | entry l e => cases hk
    | leave l => cases hk
  · intro hk
    exact ⟨.enter k, hk, rfl⟩

namespace Source

variable {src : Source}

lemma leads_walk (src : Source) : Walk.Leads src [] src.walk [] :=
  Walk.visit_leads src.tree rfl rfl

/-- What a walk without a fault tells is a complete and well-bracketed account. -/
lemma account_of_fault_none (h : src.walk.fault = none) : src.Account src.walk.events := by
  obtain ⟨ks, hbalanced⟩ : ∃ ks, Walk.Balanced ks src.walk.events := Walk.visit_balanced h
  have hentered := hbalanced.entered
  have hnodup : (ks.map Container.path).Nodup := by
    rw [← hentered]
    exact List.nodup_iff_count.2 fun p => (Walk.atMostOnce_visit src p [] src.tree).1
  have hat : ∀ path, Event.eventsAt path src.walk.events = Container.toldAt path ks :=
    fun path => hbalanced.eventsAt_eq path hnodup
  have hmem : ∀ k, .enter k ∈ src.walk.events ↔ k ∈ ks := by
    intro k
    rw [← hentered, Walk.mem_entered]
  refine ⟨fun hpath => ?_, fun {path} hpath => ?_, fun hevents => ?_, (leads_walk src).opened h⟩
  · obtain ⟨n, k, hn, hk, henter⟩ := exists_enter h hpath
    refine ⟨n, k, hn, hk, ?_⟩
    obtain rfl := Walk.path_of_ofNode? hk
    rw [hat, Container.toldAt_of_mem hnodup ((hmem k).1 henter)]
  · rw [hat]
    refine Container.toldAt_eq_nil fun hin => ?_
    obtain ⟨k, hk, rfl⟩ := List.mem_map.1 hin
    obtain ⟨pre, post, hevents⟩ := List.append_of_mem ((hmem k).2 hk)
    have hfits := (leads_walk src).fit
    rw [hevents] at hfits
    exact hpath hfits.fits.1.holdsContainer
  · have hfits := (leads_walk src).fit
    rw [hevents] at hfits
    exact hfits.fits

end Source

/-! ### The scopes of the checker -/

namespace Checker

variable {src : Source} {c : Configuration}

/-- What the checker takes for granted when it is told of an event: a scope for every entry, and the
scope of the container of a property, or of a container that is left, as the innermost one. -/
def Expects (st : State) : Event → Prop
  | .enter _ => True
  | .entry k e => match e.kind with
    | .spread => st.scopes ≠ []
    | .property => (st.scopes.map Scope.container).head? = some k
  | .leave k => (st.scopes.map Scope.container).head? = some k

lemma expects_of_fits {st : State} {e : Event}
    (h : e.Fits src (st.scopes.map Scope.container)) : Expects st e := by
  cases e with
  | enter k => trivial
  | entry k e =>
    obtain ⟨outer, hopen, -⟩ := h
    show match e.kind with
      | .spread => st.scopes ≠ []
      | .property => (st.scopes.map Scope.container).head? = some k
    cases e.kind with
    | spread =>
      intro hnil
      simp [hnil] at hopen
    | property => simp [hopen]
  | leave k =>
    obtain ⟨outer, hopen, -⟩ := h
    simp [Expects, hopen]

/-- A step fails in the comparison of a property, with the scope of its container, and nowhere
else. -/
def FailsInProperty (src : Source) (c : Configuration) (st : State) (e : Event) : Prop :=
  ∀ f, step src c st e = .error f → ∃ k entry scope outer, e = .entry k entry ∧
    st.scopes = scope :: outer ∧ scope.container = k ∧
      property src c st k entry scope outer = .error f

lemma failsInProperty_of_fits {st : State} {e : Event}
    (h : e.Fits src (st.scopes.map Scope.container)) : FailsInProperty src c st e := by
  intro f hf
  cases e with
  | enter k => cases hf
  | entry k e =>
    obtain ⟨ks, hopen, -⟩ := h
    obtain ⟨scope, outer, hscopes, rfl, -⟩ := List.map_eq_cons_iff.1 hopen
    refine ⟨_, e, scope, outer, rfl, hscopes, rfl, ?_⟩
    rw [step, hscopes] at hf
    cases hkind : e.kind with
    | spread => simp [hkind] at hf
    | property => simpa [hkind] using hf
  | leave k =>
    obtain ⟨ks, hopen, -⟩ := h
    obtain ⟨scope, outer, hscopes, rfl, -⟩ := List.map_eq_cons_iff.1 hopen
    simp [step, hscopes] at hf

/-- The scopes after an event are those of the containers that are open after it. -/
lemma scopes_of_step {st st' : State} {e : Event}
    (hfits : e.Fits src (st.scopes.map Scope.container)) (h : step src c st e = .ok st') :
    st'.scopes.map Scope.container = e.after (st.scopes.map Scope.container) := by
  cases e with
  | enter k =>
    obtain ⟨hscopes, -⟩ := step_enter_eq_ok h
    simp [hscopes, Event.after]
  | entry k e =>
    obtain ⟨outer, hopen, -⟩ := hfits
    obtain ⟨scope, rest, hscopes, -, -⟩ := List.map_eq_cons_iff.1 hopen
    obtain ⟨previous, found, hscopes', -⟩ := step_entry_eq_ok hscopes h
    simp [hscopes, hscopes', Event.after]
  | leave k =>
    obtain ⟨outer, hopen, -⟩ := hfits
    obtain ⟨scope, rest, hscopes, -, -⟩ := List.map_eq_cons_iff.1 hopen
    obtain ⟨hscopes', -⟩ := step_leave_eq_ok hscopes h
    simp [hscopes, hscopes', Event.after]

lemma scopes_of_foldlM {st st' : State} {es : List Event}
    (hfit : Event.AllFit src (st.scopes.map Scope.container) es)
    (h : es.foldlM (step src c) st = .ok st') :
    st'.scopes.map Scope.container = Event.opened (st.scopes.map Scope.container) es := by
  induction es generalizing st with
  | nil =>
    cases h
    rfl
  | cons e es ih =>
    obtain ⟨mid, hmid, h⟩ := Outcome.bind_eq_ok.1 (List.foldlM_cons.symm.trans h)
    obtain ⟨hfits, hrest⟩ := hfit
    have hscopes := scopes_of_step hfits hmid
    rw [ih (hscopes ▸ hrest) h, hscopes]
    rfl

/-- Before each event of a walk, the scopes are those of the containers that it fits. -/
lemma fits_of_walk {pre post : List Event} {e : Event} {st : State}
    (hevents : src.walk.events = pre ++ e :: post)
    (h : pre.foldlM (step src c) (.initial c) = .ok st) :
    e.Fits src (st.scopes.map Scope.container) := by
  have hfit := src.leads_walk.fit
  rw [hevents] at hfit
  have hscopes := scopes_of_foldlM (Event.allFit_append.1 hfit).1 h
  rw [hscopes]
  exact hfit.fits

/-- No scope is left when the checker is done. -/
lemma scopes_of_run {st : State} (h : run src c src.walk = .ok st) : st.scopes = [] := by
  obtain ⟨st', hst, h⟩ := Outcome.bind_eq_ok.1 h
  cases hfault : src.walk.fault with
  | some f =>
    rw [hfault] at h
    cases h
  | none =>
    rw [hfault] at h
    obtain rfl := Outcome.pure_eq_ok.1 h
    have hscopes := scopes_of_foldlM src.leads_walk.fit hst
    have hclosed := src.leads_walk.opened hfault
    exact List.map_eq_nil_iff.1 (hscopes.trans hclosed)

end Checker

/-- **The walk is complete and well bracketed.**  A walk without a fault tells of each container of
the tree, and of no other node, one stretch: that it is entered, its entries in order, and that it
is left.  Each event finds open exactly the containers around its node, with its own container as
the innermost one from when it is entered until it is left, and none is open at the end.  The
containers are the displays, the calls of the plain name `dict` and the mapping patterns that do not
start strictly inside a string, and in the source of a text that means inside a string token.

Hence what the checker takes for granted holds before each event of any walk, so that it can fail in
the comparison of a property only, and no scope is left when it is done. -/
theorem walk_complete_and_bracketed (src : Source) :
    (src.walk.fault = none → src.Account src.walk.events) ∧
    (∀ text, Source.read text = .ok src → ∀ offset, src.inString offset = true ↔
      ∃ t ∈ src.tokens.toList, t.kind = .string ∧ t.range.start < offset ∧ offset < t.range.stop) ∧
    (∀ c pre e post st, src.walk.events = pre ++ e :: post →
      pre.foldlM (Checker.step src c) (.initial c) = .ok st →
        Checker.Expects st e ∧ Checker.FailsInProperty src c st e) ∧
    ∀ c st, Checker.run src c src.walk = .ok st → st.scopes = [] := by
  refine ⟨Source.account_of_fault_none, fun text htext => ?_, ?_, ?_⟩
  · exact (Source.ordered_of_read htext).inString_iff
  · intro c pre e post st hevents hrun
    have hfits := Checker.fits_of_walk hevents hrun
    exact ⟨Checker.expects_of_fits hfits, Checker.failsInProperty_of_fits hfits⟩
  · intro c st hrun
    exact Checker.scopes_of_run hrun

/-- The text `{1: dict(a={}), **f"{ {2: 3} }"}`: a display with a call, which has a display of its
own, and with a display that starts inside a string. -/
def Sample.template : Text :=
  ['\x7b', '1', ':', ' ', 'd', 'i', 'c', 't', '(', 'a', '=', '\x7b', '\x7d', ')', ',', ' ', '*',
    '*', 'f', '\x22', '\x7b', ' ', '\x7b', '2', ':', ' ', '3', '\x7d', ' ', '\x7d', '\x22', '\x7d']

/-- In `{1: dict(a={}), **f"{ {2: 3} }"}` there are three containers, one inside the other, and the
display in the string is none. -/
theorem walk_complete_and_bracketed_template :
    ∃ src, Source.ofText Sample.template = .ok src ∧ src.walk.fault = none ∧
      src.HoldsContainer [0, 1, 1, 0, 0, 0] ∧
      src.around [0, 1, 1, 0, 0, 0] = [[1, 0, 0, 0], [0, 0]] ∧
      (∃ n ∈ src.tree.at? [0, 0, 0, 1, 0, 0], n.Keyed) ∧ ¬src.HoldsContainer [0, 0, 0, 1, 0, 0] ∧
      src.Account src.walk.events := by
  have hsource : (Source.ofText Sample.template).toOption.map (fun src => decide
      (src.walk.fault.isNone = true ∧ src.HoldsContainer [0, 1, 1, 0, 0, 0] ∧
      src.around [0, 1, 1, 0, 0, 0] = [[1, 0, 0, 0], [0, 0]] ∧
      (∃ n ∈ src.tree.at? [0, 0, 0, 1, 0, 0], n.Keyed) ∧
      ¬src.HoldsContainer [0, 0, 0, 1, 0, 0])) = some true := by
    decide +kernel
  obtain ⟨src, hsrc, hfacts⟩ := Outcome.exists_of_toOption_map hsource
  obtain ⟨hfault, hinner, haround, hkeyed, hother⟩ := of_decide_eq_true hfacts
  have hfault := Option.isNone_iff_eq_none.1 hfault
  exact ⟨src, hsrc, hfault, hinner, haround, hkeyed, hother,
    (walk_complete_and_bracketed src).1 hfault⟩

end KeyOrder
