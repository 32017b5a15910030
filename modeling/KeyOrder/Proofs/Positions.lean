import KeyOrder.Proofs.Places
import KeyOrder.Proofs.Reports

/-!
# Every container of a tree is entered

A node of a tree is told apart from all others by its path.  A walk that has no fault comes to the
node at every path, whatever stands above it: the function and the entries of a container with their
keys and values, the arguments of any other call, the parts of any other construct.  The one
exception is a pair of a display inside a string, of which only the key and the value are visited; a
pair is no container.

* `Node.at?` is the node at a path, and `Source.HoldsContainer` says that it is a container, apart
  from how the walk finds out;
* `Walk.Visited` is what the walk does with each node, kept from a node to its children;
* `Source.exists_enter` is the result.
-/

namespace KeyOrder

namespace Node

/-- The node at a path, the last step of which comes first. -/
def at? (n : Node) : List Nat → Option Node
  | [] => some n
  | i :: path => (n.at? path).bind (·.children[i]?)

lemma at?_cons_eq_some {n m : Node} {i : Nat} {path : List Nat} :
    n.at? (i :: path) = some m ↔ ∃ parent, n.at? path = some parent ∧
      parent.children[i]? = some m := by
  rw [at?, Option.bind_eq_some_iff]

/-- A node with keyed entries: a dict display, a mapping pattern, or a call whose function is the
plain name `dict`. -/
def Keyed (n : Node) : Prop :=
  n.kind = .display ∨ n.kind = .mapping ∨
    n.kind = .call ∧ ∃ f ∈ n.children.head?, f.kind = .name (codePoints "dict")

instance (n : Node) : Decidable n.Keyed :=
  inferInstanceAs (Decidable (_ ∨ _ ∨ _ ∧ ∃ f ∈ n.children.head?, _))

end Node

namespace Source

/-- A node that is a container of a source: one with keyed entries that does not start strictly
inside a string. -/
def IsContainer (src : Source) (n : Node) : Prop :=
  n.Keyed ∧ ∀ range ∈ (src.rangeOf n.span).toOption, src.inString range.start = false

/-- The node at a path of the tree is a container. -/
def HoldsContainer (src : Source) (path : List Nat) : Prop :=
  ∃ n ∈ src.tree.at? path, src.IsContainer n

instance (src : Source) (n : Node) : Decidable (src.IsContainer n) :=
  inferInstanceAs (Decidable (_ ∧ ∀ range ∈ (src.rangeOf n.span).toOption, _))

instance (src : Source) (path : List Nat) : Decidable (src.HoldsContainer path) :=
  inferInstanceAs (Decidable (∃ n ∈ src.tree.at? path, _))

lemma holdsContainer_iff {src : Source} {path : List Nat} {n : Node}
    (hn : src.tree.at? path = some n) : src.HoldsContainer path ↔ src.IsContainer n := by
  simp [HoldsContainer, hn]

end Source

namespace Container

lemma isDict_iff {n : Node} : isDict n = true ↔ n.kind = .name (codePoints "dict") := by
  unfold isDict
  cases hkind : n.kind <;> simp

lemma isSome_kindOf?_iff {n : Node} : (kindOf? n).isSome = true ↔ n.Keyed := by
  unfold kindOf? Node.Keyed
  cases hkind : n.kind with
  | call =>
    cases n.children with
    | nil => simp
    | cons f arguments =>
      by_cases hdict : isDict f = true
      · simp [hdict, isDict_iff.1 hdict]
      · have hname : f.kind ≠ .name (codePoints "dict") := fun h => hdict (isDict_iff.2 h)
        simp [hdict, hname]
  | _ => simp

/-- The walk makes containers of the nodes that are containers, and of no others. -/
lemma isContainer_iff {src : Source} {path : List Nat} {n : Node} {k : Option Container}
    (h : ofNode? src path n = .ok k) : src.IsContainer n ↔ k.isSome = true := by
  unfold ofNode? at h
  split at h
  · obtain ⟨range, hrange, h⟩ := Outcome.bind_eq_ok.1 h
    have hstart : src.IsContainer n ↔ n.Keyed ∧ src.inString range.start = false := by
      simp [Source.IsContainer, hrange, Except.toOption]
    rw [hstart, ← isSome_kindOf?_iff]
    split at h
    · rename_i hin
      cases h
      simp [hin]
    · rename_i hin
      split at h
      · rename_i kind hkind
        obtain ⟨c, -, h⟩ := Outcome.bind_eq_ok.1 h
        cases h
        simp [hkind, hin]
      · rename_i hkind
        cases h
        simp [hkind]
  · -- neither a display nor a call nor a mapping
    rename_i hcandidate
    cases h
    have hkeyed : ¬n.Keyed := by
      rw [← isSome_kindOf?_iff, Option.isSome_iff_exists]
      rintro ⟨kind, hkind⟩
      exact hcandidate (isCandidate_of_kindOf? hkind)
    simp [Source.IsContainer, hkeyed]

end Container

namespace Walk

/-! ### Parts of a walk -/

/-- A walk that a longer one goes through: unless the longer one has a fault, this one has none, and
the longer one tells all that this one tells. -/
def Part (v w : Walk) : Prop := w.fault = none → v.fault = none ∧ v.events ⊆ w.events

lemma Part.refl (w : Walk) : Part w w := fun h => ⟨h, List.Subset.refl _⟩

lemma Part.trans {u v w : Walk} (huv : Part u v) (hvw : Part v w) : Part u w := by
  intro hw
  obtain ⟨hv, hevents⟩ := hvw hw
  obtain ⟨hu, hevents'⟩ := huv hv
  exact ⟨hu, List.Subset.trans hevents' hevents⟩

lemma part_append_left (v w : Walk) : Part v (v ++ w) := by
  intro h
  obtain ⟨hv, -, hevents⟩ := append_of_fault_none h
  exact ⟨hv, hevents ▸ List.subset_append_left _ _⟩

lemma part_append_right (v w : Walk) : Part w (v ++ w) := by
  intro h
  obtain ⟨-, hw, hevents⟩ := append_of_fault_none h
  exact ⟨hw, hevents ▸ List.subset_append_right _ _⟩

lemma part_concat {v : Walk} {ws : List Walk} (h : v ∈ ws) : Part v (concat ws) := by
  induction ws with
  | nil => exact absurd h List.not_mem_nil
  | cons w ws ih =>
    rcases List.mem_cons.1 h with rfl | h
    · exact part_append_left v (concat ws)
    · exact (ih h).trans (part_append_right w (concat ws))

lemma part_entries {c : Container} {es : List Entry} {v : Walk} {ws : List Walk}
    (hlen : es.length = ws.length) (h : v ∈ ws) : Part v (entries c es ws) := by
  rw [← List.map_snd_zip (Nat.le_of_eq hlen.symm)] at h
  obtain ⟨p, hp, rfl⟩ := List.mem_map.1 h
  exact (part_append_right _ p.2).trans (part_concat (List.mem_map_of_mem hp))

/-- The walk over a container goes over all children of its node. -/
lemma part_ofContainer {src : Source} {path : List Nat} {n : Node} {c : Container} {v : Walk}
    {inner : List Walk} (hc : Container.ofNode? src path n = .ok (some c))
    (hlen : inner.length = n.children.length) (h : v ∈ inner) : Part v (ofContainer c inner) := by
  have hentries := length_entries_of_ofNode? hc
  by_cases hkind : c.kind = .call
  · cases inner with
    | nil => exact absurd h List.not_mem_nil
    | cons f ws =>
      have hof : ofContainer c (f :: ws) =
          single (.enter c) ++ f ++ entries c c.entries ws ++ single (.leave c) := by
        simp [ofContainer, hkind]
      rw [hof]
      refine Part.trans ?_ (part_append_left _ _)
      rcases List.mem_cons.1 h with rfl | h
      · exact (part_append_right _ v).trans (part_append_left _ _)
      · rw [if_pos hkind, ← hlen] at hentries
        exact (part_entries hentries h).trans (part_append_right _ _)
  · have hof : ofContainer c inner =
        single (.enter c) ++ empty ++ entries c c.entries inner ++ single (.leave c) := by
      simp [ofContainer, hkind]
    rw [hof]
    rw [if_neg hkind, ← hlen] at hentries
    exact ((part_entries hentries h).trans (part_append_right _ _)).trans (part_append_left _ _)

/-- The walk over a container enters it. -/
lemma part_enter {src : Source} {path : List Nat} {n : Node} {c : Container} {inner : List Walk}
    (hc : Container.ofNode? src path n = .ok (some c)) (hlen : inner.length = n.children.length) :
    Part (single (.enter c)) (ofContainer c inner) := by
  obtain ⟨function, rest, hof, -⟩ := ofContainer_parts (P := fun _ => True) trivial
    (length_entries_of_ofNode? hc) hlen fun _ _ => trivial
  rw [hof]
  exact ((part_append_left _ _).trans (part_append_left _ _)).trans (part_append_left _ _)

lemma part_ofCall {children : List Node} {v : Walk} {inner : List Walk}
    (hlen : inner.length = children.length) (h : v ∈ inner) : Part v (ofCall children inner) := by
  obtain ⟨ws, hof, hperm⟩ := exists_ofCall hlen
  rw [hof]
  exact part_concat (hperm.mem_iff.2 h)

/-! ### From a node to its children -/

lemma mem_visitAll (src : Source) (path : List Nat) {i j : Nat} {ns : List Node} {n : Node}
    (h : ns[j]? = some n) : visit src ((i + j) :: path) n ∈ visitAll src path i ns := by
  induction ns generalizing i j with
  | nil => simp at h
  | cons m ns ih =>
    rw [visitAll]
    cases j with
    | zero =>
      cases h
      exact List.mem_cons_self ..
    | succ j =>
      have hrest := ih (i := i + 1) h
      rw [Nat.add_right_comm] at hrest
      exact List.mem_cons_of_mem _ hrest

lemma visitPairs_cons (src : Source) (path : List Nat) (i : Nat) (n : Node) (ns : List Node) :
    (∃ span k v, n = .mk .pair span [k, v] ∧ visitPairs src path i (n :: ns) =
      (visit src (0 :: i :: path) k, visit src (1 :: i :: path) v) ::
        visitPairs src path (i + 1) ns) ∨
    visitPairs src path i (n :: ns) =
      (empty, visit src (i :: path) n) :: visitPairs src path (i + 1) ns := by
  rw [visitPairs.eq_def]
  split
  · rename_i heq
    cases heq
  · rename_i span k v _ heq
    cases heq
    exact .inl ⟨span, k, v, rfl, rfl⟩
  · rename_i heq
    cases heq
    exact .inr rfl

/-- A walk visits a node, or, where it is a pair, its key and its value. -/
def Visited (src : Source) (path : List Nat) (n : Node) (w : Walk) : Prop :=
  Part (visit src path n) w ∨
    n.kind = .pair ∧ ∀ j m, n.children[j]? = some m → Part (visit src (j :: path) m) w

/-- A walk that goes over keys and values apart visits all the pairs. -/
lemma visited_of_visitPairs {src : Source} {path : List Nat} {i j : Nat} {ns : List Node} {n : Node}
    {w : Walk} (hw : ∀ p ∈ visitPairs src path i ns, Part p.1 w ∧ Part p.2 w)
    (h : ns[j]? = some n) : Visited src ((i + j) :: path) n w := by
  induction ns generalizing i j with
  | nil => simp at h
  | cons m ns ih =>
    cases j with
    | zero =>
      cases h
      rcases visitPairs_cons src path i n ns with ⟨span, k, v, rfl, hpairs⟩ | hpairs
      · have hparts := hw _ (hpairs ▸ List.mem_cons_self ..)
        refine .inr ⟨rfl, fun j m hm => ?_⟩
        match j, hm with
        | 0, rfl => exact hparts.1
        | 1, rfl => exact hparts.2
      · exact .inl (hw _ (hpairs ▸ List.mem_cons_self ..)).2
    | succ j =>
      have hrest := ih (i := i + 1) (fun p hp => hw p ?_) h
      · rwa [Nat.add_right_comm] at hrest
      · rcases visitPairs_cons src path i m ns with ⟨span, k, v, rfl, hpairs⟩ | hpairs
        · exact hpairs ▸ List.mem_cons_of_mem _ hp
        · exact hpairs ▸ List.mem_cons_of_mem _ hp

/-- The walk over a node visits all of its children. -/
lemma visited_child (src : Source) (path : List Nat) {j : Nat} {n m : Node}
    (hm : n.children[j]? = some m) : Visited src (j :: path) m (visit src path n) := by
  obtain ⟨kind, span, children⟩ := n
  have hchild := mem_visitAll src path (i := 0) hm
  rw [Nat.zero_add] at hchild
  have hlen := length_visitAll src path 0 children
  have happart : Visited src ((0 + j) :: path) m
      (concat ((visitPairs src path 0 children).map Prod.fst ++
        (visitPairs src path 0 children).map Prod.snd)) := by
    refine visited_of_visitPairs (fun p hp => ⟨part_concat ?_, part_concat ?_⟩) hm
    · exact List.mem_append_left _ (List.mem_map_of_mem hp)
    · exact List.mem_append_right _ (List.mem_map_of_mem hp)
  rw [Nat.zero_add] at happart
  unfold visit
  split
  · -- a walk that ends at once
    refine .inl fun h => ?_
    cases h
  · rename_i c hc
    exact .inl (part_ofContainer hc hlen hchild)
  · split
    · exact happart
    · exact happart
    · exact .inl (part_ofCall hlen hchild)
    · exact .inl (part_concat hchild)

/-- A container is entered where its node is visited. -/
lemma exists_enter_visit {src : Source} {path : List Nat} {n : Node} (hn : src.IsContainer n)
    (h : (visit src path n).fault = none) :
    ∃ k, Container.ofNode? src path n = .ok (some k) ∧ .enter k ∈ (visit src path n).events := by
  obtain ⟨kind, span, children⟩ := n
  have hlen := length_visitAll src path 0 children
  cases hof : Container.ofNode? src path (.mk kind span children) with
  | error f =>
    unfold visit at h
    rw [hof] at h
    cases h
  | ok k =>
    obtain ⟨c, rfl⟩ := Option.isSome_iff_exists.1 ((Container.isContainer_iff hof).1 hn)
    have hvisit : visit src path (.mk kind span children) =
        ofContainer c (visitAll src path 0 children) := by
      unfold visit
      rw [hof]
    rw [hvisit] at h ⊢
    exact ⟨c, rfl, (part_enter hof hlen h).2 (List.mem_cons_self ..)⟩

lemma Visited.child {src : Source} {path : List Nat} {j : Nat} {n m : Node} {w : Walk}
    (h : Visited src path n w) (hm : n.children[j]? = some m) : Visited src (j :: path) m w := by
  rcases h with hpart | ⟨-, hparts⟩
  · rcases visited_child src path hm with hchild | ⟨hkind, hchildren⟩
    · exact .inl (hchild.trans hpart)
    · exact .inr ⟨hkind, fun i k hk => (hchildren i k hk).trans hpart⟩
  · exact .inl (hparts j m hm)

end Walk

namespace Source

/-- The walk over a source comes to every node of its tree. -/
lemma visited_at {src : Source} {path : List Nat} {n : Node} (h : src.tree.at? path = some n) :
    Walk.Visited src path n src.walk := by
  induction path generalizing n with
  | nil =>
    cases h
    exact .inl (.refl _)
  | cons i path ih =>
    obtain ⟨parent, hparent, hn⟩ := Node.at?_cons_eq_some.1 h
    exact (ih hparent).child hn

/-- **Every container of a tree is entered** by a walk without a fault, whatever stands above it. -/
lemma exists_enter {src : Source} {path : List Nat} (h : src.walk.fault = none)
    (hpath : src.HoldsContainer path) :
    ∃ n k, src.tree.at? path = some n ∧ Container.ofNode? src path n = .ok (some k) ∧
      .enter k ∈ src.walk.events := by
  obtain ⟨n, hn, hcontainer⟩ := hpath
  have hpair : n.kind ≠ .pair := by
    rcases hcontainer.1 with hkind | hkind | ⟨hkind, -⟩ <;> simp [hkind]
  obtain hpart | ⟨hkind, -⟩ := visited_at hn
  · obtain ⟨hfault, hevents⟩ := hpart h
    obtain ⟨k, hk, henter⟩ := Walk.exists_enter_visit hcontainer hfault
    exact ⟨n, k, hn, hk, hevents henter⟩
  · exact absurd hkind hpair

end Source

end KeyOrder
