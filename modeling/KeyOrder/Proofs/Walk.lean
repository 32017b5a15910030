import KeyOrder.Container.Walk
import KeyOrder.Proofs.Outcome

/-!
# Walks are well bracketed

What a walk without a fault tells is a sequence of bracketed stretches: a container is entered,
its function and each of its entries are told, each entry followed by a bracketed stretch for
what it holds, and the container is left.  Every entry is told, in order, while its own container
is the innermost open one.

The main statement is `Walk.visit_balanced`, for every tree.
-/

namespace KeyOrder

namespace Walk

mutual

/-- A bracketed stretch of events, with the containers entered in it. -/
inductive Balanced : List Container → List Event → Prop
  | nil : Balanced [] []
  | append {cs ds : List Container} {es fs : List Event} :
      Balanced cs es → Balanced ds fs → Balanced (cs ++ ds) (es ++ fs)
  | container {c : Container} {cs ds : List Container} {es fs : List Event} :
      Balanced cs es → Inside c c.entries ds fs →
        Balanced (c :: (cs ++ ds)) (.enter c :: (es ++ (fs ++ [.leave c])))

/-- The events that tell some entries of a container, each followed by a bracketed stretch. -/
inductive Inside : Container → List Entry → List Container → List Event → Prop
  | nil {c : Container} : Inside c [] [] []
  | cons {c : Container} {e : Entry} {rest : List Entry} {cs ds : List Container}
      {es fs : List Event} :
      Balanced cs es → Inside c rest ds fs →
        Inside c (e :: rest) (cs ++ ds) (.entry c e :: (es ++ fs))

end

/-- The container that an event enters. -/
def entered? : Event → Option Container
  | .enter c => some c
  | _ => none

mutual

lemma Balanced.entered {cs : List Container} {es : List Event} :
    Balanced cs es → es.filterMap entered? = cs
  | .nil => rfl
  | .append h k => by rw [List.filterMap_append, h.entered, k.entered]
  | .container h k => by
    simp only [List.filterMap_cons, List.filterMap_append, h.entered, k.entered, entered?,
      List.filterMap_nil, List.append_nil]

lemma Inside.entered {c : Container} {rest : List Entry} {cs : List Container}
    {es : List Event} : Inside c rest cs es → es.filterMap entered? = cs
  | .nil => rfl
  | .cons h k => by
    simp only [List.filterMap_cons, List.filterMap_append, h.entered, k.entered, entered?]

end

/-! ### Putting walks together -/

/-- A walk is sound when it ends with a fault or tells a bracketed stretch. -/
def Sound (w : Walk) : Prop := w.fault = none → ∃ cs, Balanced cs w.events

lemma append_of_fault_none {a b : Walk} (h : (a ++ b).fault = none) :
    a.fault = none ∧ b.fault = none ∧ (a ++ b).events = a.events ++ b.events := by
  change (append a b).fault = none at h
  change _ ∧ _ ∧ (append a b).events = _
  unfold append at *
  cases ha : a.fault with
  | some f => simp [ha] at h
  | none =>
    rw [ha] at h
    exact ⟨rfl, h, rfl⟩

lemma sound_empty : Sound empty := fun _ => ⟨[], .nil⟩

lemma Sound.append {a b : Walk} (ha : Sound a) (hb : Sound b) : Sound (a ++ b) := by
  intro h
  obtain ⟨hfa, hfb, hevents⟩ := append_of_fault_none h
  obtain ⟨cs, hcs⟩ := ha hfa
  obtain ⟨ds, hds⟩ := hb hfb
  exact ⟨cs ++ ds, hevents ▸ .append hcs hds⟩

/-- The walk over the inside of a container tells all of its entries, when there is a walk for
each of them. -/
lemma inside_entries {c : Container} :
    ∀ {es : List Entry} {ws : List Walk}, es.length = ws.length → (∀ w ∈ ws, Sound w) →
      (entries c es ws).fault = none → ∃ ds, Inside c es ds (entries c es ws).events
  | [], [], _, _, _ => ⟨[], .nil⟩
  | e :: es, w :: ws, hlen, hsound, h => by
    obtain ⟨hhead, htail, hevents⟩ := append_of_fault_none h
    obtain ⟨-, hw, hhere⟩ := append_of_fault_none hhead
    obtain ⟨cs, hcs⟩ := hsound w (List.mem_cons_self ..) hw
    obtain ⟨ds, hds⟩ := inside_entries (Nat.succ.inj hlen)
      (fun v hv => hsound v (List.mem_cons_of_mem _ hv)) htail
    refine ⟨cs ++ ds, ?_⟩
    change Inside c (e :: es) (cs ++ ds) (_ ++ _ : Walk).events
    rw [hevents, hhere]
    exact .cons hcs hds

/-! ### Containers of nodes -/

/-- A container has an entry for each child of its node; the function of a call is none. -/
lemma length_entries_of_build {src : Source} {path : List Nat} {kind : ContainerKind} {n : Node}
    {c : Container} (h : Container.build src path kind n = .ok c) :
    c.kind = kind ∧
      c.entries.length = if kind = .call then n.children.length - 1 else n.children.length := by
  unfold Container.build at h
  cases kind with
  | display =>
    simp only [Outcome.bind_eq_ok, Outcome.pure_eq_ok] at h
    obtain ⟨range, -, es, hes, rfl⟩ := h
    exact ⟨rfl, (Outcome.mapM_eq_ok.1 hes).length_eq.symm⟩
  | pattern =>
    simp only [Outcome.bind_eq_ok, Outcome.pure_eq_ok] at h
    obtain ⟨range, -, es, hes, rfl⟩ := h
    exact ⟨rfl, (Outcome.mapM_eq_ok.1 hes).length_eq.symm⟩
  | call =>
    cases hn : n.children with
    | nil => simp [hn, Outcome.bind_eq_ok] at h
    | cons function arguments =>
      simp only [hn, Outcome.bind_eq_ok, Outcome.pure_eq_ok] at h
      obtain ⟨range, -, floor, -, es, hes, rfl⟩ := h
      exact ⟨rfl, (Outcome.mapM_eq_ok.1 hes).length_eq.symm⟩

lemma length_entries_of_ofNode? {src : Source} {path : List Nat} {n : Node} {c : Container}
    (h : Container.ofNode? src path n = .ok (some c)) :
    c.entries.length = if c.kind = .call then n.children.length - 1 else n.children.length := by
  unfold Container.ofNode? at h
  split at h
  · simp only [Outcome.bind_eq_ok] at h
    obtain ⟨range, -, h⟩ := h
    split at h
    · simp [Outcome.pure_eq_ok] at h
    · split at h
      · simp only [Outcome.bind_eq_ok, Outcome.pure_eq_ok, Option.some.injEq] at h
        obtain ⟨d, hd, rfl⟩ := h
        obtain ⟨hkind, hlen⟩ := length_entries_of_build hd
        rw [hlen, hkind]
      · simp [Outcome.pure_eq_ok] at h
  · simp [Outcome.pure_eq_ok] at h

/-- The parts of the walk over a container: the function of a call stands before the entries and
has a walk of its own. -/
lemma ofContainer_parts {P : Walk → Prop} (hempty : P empty) {c : Container} {inner : List Walk}
    {n : Nat} (hentries : c.entries.length = if c.kind = .call then n - 1 else n)
    (hlen : inner.length = n) (hinner : ∀ w ∈ inner, P w) :
    ∃ function rest, ofContainer c inner =
        single (.enter c) ++ function ++ entries c c.entries rest ++ single (.leave c) ∧
      P function ∧ (∀ w ∈ rest, P w) ∧ c.entries.length = rest.length := by
  subst hlen
  by_cases hkind : c.kind = .call
  · rw [if_pos hkind] at hentries
    cases inner with
    | nil => exact ⟨empty, [], by simp [ofContainer, hkind], hempty, by simp, hentries⟩
    | cons f ws =>
      refine ⟨f, ws, by simp [ofContainer, hkind], hinner f (List.mem_cons_self ..), ?_, hentries⟩
      exact fun w hw => hinner w (List.mem_cons_of_mem _ hw)
  · rw [if_neg hkind] at hentries
    exact ⟨empty, inner, by simp [ofContainer, hkind], hempty, hinner, hentries⟩

/-- The walk over a container is sound when those over the children of its node are. -/
lemma sound_ofContainer {src : Source} {path : List Nat} {n : Node} {c : Container}
    {inner : List Walk} (hc : Container.ofNode? src path n = .ok (some c))
    (hlen : inner.length = n.children.length) (hinner : ∀ w ∈ inner, Sound w) :
    Sound (ofContainer c inner) := by
  obtain ⟨function, rest, hof, hfunction, hrest, hlength⟩ :=
    ofContainer_parts sound_empty (length_entries_of_ofNode? hc) hlen hinner
  intro h
  rw [hof] at h ⊢
  obtain ⟨h, -, hevents⟩ := append_of_fault_none h
  obtain ⟨h, hin, hevents'⟩ := append_of_fault_none h
  obtain ⟨-, hf, hevents''⟩ := append_of_fault_none h
  obtain ⟨cs, hcs⟩ := hfunction hf
  obtain ⟨ds, hds⟩ := inside_entries hlength hrest hin
  refine ⟨c :: (cs ++ ds), ?_⟩
  rw [hevents, hevents', hevents'']
  simpa [single] using Balanced.container hcs hds

/-! ### Walks over trees -/

lemma length_visitAll (src : Source) (path : List Nat) (i : Nat) (ns : List Node) :
    (visitAll src path i ns).length = ns.length := by
  induction ns generalizing i with
  | nil => rfl
  | cons n ns ih => rw [visitAll, List.length_cons, List.length_cons, ih]

/-- The walk over a call that is no container is made of the walks over its children, in some
order. -/
lemma exists_ofCall {children : List Node} {inner : List Walk}
    (hlen : inner.length = children.length) :
    ∃ ws, ofCall children inner = concat ws ∧ ws.Perm inner := by
  have hperm : ((children.zip inner).filter (fun q => !q.1.isKeyword) ++
      (children.zip inner).filter fun q => q.1.isKeyword).Perm (children.zip inner) :=
    List.perm_append_comm.trans (List.filter_append_perm _ _)
  have hinner := hperm.map Prod.snd
  rw [List.map_snd_zip (Nat.le_of_eq hlen), List.map_append] at hinner
  refine ⟨_, ?_, hinner⟩
  rw [ofCall, List.partition_eq_filter_filter]
  rfl

lemma exists_pair_of_mem {ps : List (Walk × Walk)} {w : Walk}
    (h : w ∈ ps.map Prod.fst ++ ps.map Prod.snd) : ∃ p ∈ ps, w = p.1 ∨ w = p.2 := by
  rcases List.mem_append.1 h with h | h
  · obtain ⟨p, hp, rfl⟩ := List.mem_map.1 h
    exact ⟨p, hp, .inl rfl⟩
  · obtain ⟨p, hp, rfl⟩ := List.mem_map.1 h
    exact ⟨p, hp, .inr rfl⟩

end Walk

mutual

/-- Whether a test succeeds at every node of a tree. -/
def Node.all (q : Node → Bool) : Node → Bool
  | .mk kind span children => q (.mk kind span children) && Node.allOf q children

/-- Whether a test succeeds at every node of some trees. -/
def Node.allOf (q : Node → Bool) : List Node → Bool
  | [] => true
  | n :: ns => n.all q && Node.allOf q ns

end

mutual

lemma Node.all_true : (n : Node) → n.all (fun _ => true) = true
  | .mk kind span children => by rw [Node.all, Node.allOf_true children, Bool.and_true]

lemma Node.allOf_true : (ns : List Node) → Node.allOf (fun _ => true) ns = true
  | [] => rfl
  | n :: ns => by rw [Node.allOf, n.all_true, Node.allOf_true ns, Bool.and_true]

end

namespace Walk

/-- A property of walks that goes over from walks to those put together of them, and that the walk
over a container has when those over the children of its node have it.  The nodes are those of which
a test succeeds. -/
structure Closed (src : Source) (q : Node → Bool) (P : Walk → Prop) : Prop where
  empty : P .empty
  append {a b : Walk} : P a → P b → P (a ++ b)
  fault {path : List Nat} {n : Node} {f : Fault} : q n = true →
    Container.ofNode? src path n = .error f → P ⟨[], some f⟩
  container {path : List Nat} {n : Node} {c : Container} {inner : List Walk} : q n = true →
    Container.ofNode? src path n = .ok (some c) → inner.length = n.children.length →
    (∀ w ∈ inner, P w) → P (ofContainer c inner)

namespace Closed

variable {src : Source} {q : Node → Bool} {P : Walk → Prop} (hP : Closed src q P)

include hP

lemma concat {ws : List Walk} (h : ∀ w ∈ ws, P w) : P (Walk.concat ws) := by
  induction ws with
  | nil => exact hP.empty
  | cons w ws ih =>
    exact hP.append (h w (List.mem_cons_self ..)) (ih fun v hv => h v (List.mem_cons_of_mem _ hv))

lemma ofCall {children : List Node} {inner : List Walk} (hlen : inner.length = children.length)
    (hinner : ∀ w ∈ inner, P w) : P (Walk.ofCall children inner) := by
  obtain ⟨ws, hof, hperm⟩ := exists_ofCall hlen
  rw [hof]
  exact hP.concat fun w hw => hinner w (hperm.mem_iff.1 hw)

/-- Keys and values that are visited apart, all keys first. -/
lemma apart {ps : List (Walk × Walk)} (h : ∀ p ∈ ps, P p.1 ∧ P p.2) :
    P (Walk.concat (ps.map Prod.fst ++ ps.map Prod.snd)) := by
  refine hP.concat fun w hw => ?_
  obtain ⟨p, hp, rfl | rfl⟩ := exists_pair_of_mem hw
  · exact (h p hp).1
  · exact (h p hp).2

end Closed

mutual

/-- A walk over a tree has every closed property, by recursion on the tree. -/
theorem visit_closed {src : Source} {q : Node → Bool} {P : Walk → Prop} (hP : Closed src q P)
    (path : List Nat) : (n : Node) → n.all q = true → P (visit src path n)
  | .mk kind span children, hall => by
    rw [Node.all, Bool.and_eq_true] at hall
    have hchildren := visitAll_closed hP path 0 children hall.2
    have hlen := length_visitAll src path 0 children
    unfold visit
    split
    · -- the container has a fault
      rename_i f hf
      exact hP.fault hall.1 hf
    · rename_i c hc
      exact hP.container hall.1 hc hlen hchildren
    · -- no container, or one inside a string
      split
      · exact hP.apart (visitPairs_closed hP path 0 children hall.2)
      · exact hP.apart (visitPairs_closed hP path 0 children hall.2)
      · exact hP.ofCall hlen hchildren
      · exact hP.concat hchildren

theorem visitAll_closed {src : Source} {q : Node → Bool} {P : Walk → Prop} (hP : Closed src q P)
    (path : List Nat) (i : Nat) :
    (ns : List Node) → Node.allOf q ns = true → ∀ w ∈ visitAll src path i ns, P w
  | [], _ => by
    intro w hw
    rw [visitAll] at hw
    exact absurd hw List.not_mem_nil
  | n :: ns, hall => by
    rw [Node.allOf, Bool.and_eq_true] at hall
    intro w hw
    rw [visitAll] at hw
    rcases List.mem_cons.1 hw with rfl | hw
    · exact visit_closed hP (i :: path) n hall.1
    · exact visitAll_closed hP path (i + 1) ns hall.2 w hw

theorem visitPairs_closed {src : Source} {q : Node → Bool} {P : Walk → Prop} (hP : Closed src q P)
    (path : List Nat) (i : Nat) :
    (ns : List Node) → Node.allOf q ns = true → ∀ p ∈ visitPairs src path i ns, P p.1 ∧ P p.2
  | [], _ => by
    intro p hp
    rw [visitPairs] at hp
    exact absurd hp List.not_mem_nil
  | .mk kind span children :: ns, hall => by
    rw [Node.allOf, Bool.and_eq_true] at hall
    have hnode := visit_closed hP (i :: path) (.mk kind span children) hall.1
    rw [Node.all, Bool.and_eq_true] at hall
    have hchildren := visitAll_closed hP (i :: path) 0 children hall.1.2
    have hrest := visitPairs_closed hP path (i + 1) ns hall.2
    intro p hp
    unfold visitPairs at hp
    split at hp
    · exact absurd hp List.not_mem_nil
    · -- a key and a value
      rename_i heq
      cases heq
      rcases List.mem_cons.1 hp with rfl | hp
      · exact ⟨hchildren _ (by simp [visitAll]), hchildren _ (by simp [visitAll])⟩
      · exact hrest p hp
    · -- a spread
      rename_i heq
      cases heq
      rcases List.mem_cons.1 hp with rfl | hp
      · exact ⟨hP.empty, hnode⟩
      · exact hrest p hp

end

/-- A walk over a tree that has no fault is well bracketed. -/
theorem visit_balanced {src : Source} {path : List Nat} {n : Node}
    (h : (visit src path n).fault = none) :
    ∃ cs, Balanced cs (visit src path n).events := by
  have hsound : Closed src (fun _ => true) Sound :=
    { empty := sound_empty
      append := Sound.append
      fault := fun _ _ hfault => nomatch hfault
      container := fun _ => sound_ofContainer }
  exact visit_closed hsound path n n.all_true h

end Walk

end KeyOrder
