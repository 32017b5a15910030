import KeyOrder.Proofs.Order
import KeyOrder.Proofs.Rule

/-!
# The slots of a segment

The named entries of a segment are sorted onto the slots that they occupy.  No edit comes out of
this exactly when nothing moves, and then every name may follow all names before it.  So where the
rule sees a violation there is something to move: `Relocation.violations_eq_nil_of_edits`.
-/

namespace KeyOrder

namespace Relocation

variable {src : Source} {o : Order}

/-! ### Named entries -/

/-- The slots of a segment hold its named entries. -/
lemma named_of_namedFrom {i : Nat} {es : List Entry} {slots : List Named}
    (h : namedFrom i es = .ok slots) :
    Rule.named es = .ok (slots.map fun x => (x.name, x.entry)) := by
  induction es generalizing i slots with
  | nil =>
    cases h
    rfl
  | cons e es ih =>
    rw [namedFrom] at h
    obtain ⟨name, hname, h⟩ := Outcome.bind_eq_ok.1 h
    cases name with
    | none => exact Rule.named_cons_eq_ok.2 ⟨none, _, hname, ih h, rfl⟩
    | some n =>
      obtain ⟨rest, hrest, h⟩ := Outcome.bind_eq_ok.1 h
      obtain rfl := Outcome.pure_eq_ok.1 h
      exact Rule.named_cons_eq_ok.2 ⟨some n, _, hname, ih hrest, rfl⟩

/-- The slots of a segment are numbered one after the other. -/
lemma map_index_of_namedFrom {i : Nat} {es : List Entry} {slots : List Named}
    (h : namedFrom i es = .ok slots) : slots.map Named.index = List.range' i slots.length := by
  induction es generalizing i slots with
  | nil =>
    cases h
    rfl
  | cons e es ih =>
    rw [namedFrom] at h
    obtain ⟨name, hname, h⟩ := Outcome.bind_eq_ok.1 h
    cases name with
    | none => exact ih h
    | some n =>
      obtain ⟨rest, hrest, h⟩ := Outcome.bind_eq_ok.1 h
      obtain rfl := Outcome.pure_eq_ok.1 h
      rw [List.map_cons, ih hrest, List.length_cons, List.range'_succ]

lemma pairwise_index_of_namedFrom {i : Nat} {es : List Entry} {slots : List Named}
    (h : namedFrom i es = .ok slots) : slots.Pairwise fun x y => x.index < y.index := by
  have hrange : (slots.map Named.index).Pairwise (· < ·) := by
    rw [map_index_of_namedFrom h]
    exact List.pairwise_lt_range' ..
  rwa [List.pairwise_map] at hrange

/-! ### Moving the entries of a segment -/

lemma sortSegment_eq_ok {segment : List Entry} {edits : List Edit} :
    sortSegment src o segment = .ok edits ↔
      ∃ slots ordered, namedFrom 0 segment = .ok slots ∧
        o.sortOn Named.name slots = .ok ordered ∧ moveAll src ordered slots = .ok edits := by
  simp only [sortSegment, Outcome.bind_eq_ok, Outcome.ofDigits_eq_ok]
  constructor
  · rintro ⟨slots, hslots, ordered, hordered, h⟩
    exact ⟨slots, ordered, hslots, hordered, h⟩
  · rintro ⟨slots, ordered, hslots, hordered, h⟩
    exact ⟨slots, hslots, ordered, hordered, h⟩

lemma move_ne_nil {e slot : Entry} {edits : List Edit} (h : move src e slot = .ok edits) :
    edits ≠ [] := by
  simp only [move, Outcome.bind_eq_ok, Outcome.pure_eq_ok] at h
  obtain ⟨leading, -, rfl⟩ := h
  simp

lemma moveAll_cons_eq_ok {x s : Named} {xs ss : List Named} {edits : List Edit} :
    moveAll src (x :: xs) (s :: ss) = .ok edits ↔
      ∃ here rest, (if x.index = s.index then .ok [] else move src x.entry s.entry) = .ok here ∧
        moveAll src xs ss = .ok rest ∧ here ++ rest = edits := by
  rw [moveAll]
  split
  · simp only [Outcome.bind_eq_ok, Outcome.pure_eq_ok]
    constructor
    · rintro ⟨here, hhere, rest, hrest, h⟩
      exact ⟨here, rest, hhere, hrest, h⟩
    · rintro ⟨here, rest, hhere, hrest, h⟩
      exact ⟨here, hhere, rest, hrest, h⟩
  · simp only [Outcome.bind_eq_ok, Outcome.pure_eq_ok]
    constructor
    · rintro ⟨here, hhere, rest, hrest, h⟩
      exact ⟨here, rest, hhere, hrest, h⟩
    · rintro ⟨here, rest, hhere, hrest, h⟩
      exact ⟨here, hhere, rest, hrest, h⟩

/-- No edits come out when every entry is at its slot already. -/
lemma map_index_of_moveAll {ordered slots : List Named} (hlen : ordered.length = slots.length)
    (h : moveAll src ordered slots = .ok []) :
    ordered.map Named.index = slots.map Named.index := by
  induction ordered generalizing slots with
  | nil => rw [List.eq_nil_of_length_eq_zero hlen.symm]
  | cons x ordered ih =>
    match slots, hlen with
    | s :: slots, hlen =>
      obtain ⟨here, rest, hhere, hrest, hnil⟩ := moveAll_cons_eq_ok.1 h
      obtain ⟨rfl, rfl⟩ := List.append_eq_nil_iff.1 hnil
      split at hhere
      · rename_i hindex
        rw [List.map_cons, List.map_cons, hindex, ih (Nat.succ.inj hlen) hrest]
      · exact absurd rfl (move_ne_nil hhere)

/-- A segment that gives no edits is in order: every name may follow all those before it. -/
lemma pairwise_of_sortSegment {segment : List Entry} (h : sortSegment src o segment = .ok []) :
    ∃ items, Rule.named segment = .ok items ∧
      items.Pairwise fun p q => o.check p.1 q.1 = .ok true := by
  obtain ⟨slots, ordered, hslots, hordered, hmove⟩ := sortSegment_eq_ok.1 h
  have hperm := Order.sortOn_perm hordered
  have hsorted := Order.sortOn_pairwise hordered
  have hindex := map_index_of_moveAll hperm.length_eq hmove
  have hlt := pairwise_index_of_namedFrom hslots
  have hlt' : ordered.Pairwise fun x y => x.index < y.index := by
    rw [← List.pairwise_map, hindex, List.pairwise_map]
    exact hlt
  -- Both lists go through the same slots in the order of their numbers.
  obtain rfl : ordered = slots := by
    refine hperm.eq_of_pairwise ?_ hlt' hlt
    intro x y _ _ hxy hyx
    omega
  refine ⟨_, named_of_namedFrom hslots, ?_⟩
  rw [List.pairwise_map]
  exact hsorted

/-! ### Edits and violations -/

/-- Names that may follow one another make no violation. -/
lemma breaks_eq_nil {items : List Rule.Item} {found : List (Rule.Item × Rule.Item)}
    (h : items.Pairwise fun p q => o.check p.1 q.1 = .ok true)
    (hfound : Rule.breaks o items = .ok found) : found = [] := by
  induction items generalizing found with
  | nil =>
    cases hfound
    rfl
  | cons p items ih =>
    cases items with
    | nil =>
      cases hfound
      rfl
    | cons q items =>
      obtain ⟨inOrder, rest, hcheck, hrest, rfl⟩ := Rule.breaks_cons_cons_eq_ok.1 hfound
      rw [List.rel_of_pairwise_cons h (List.mem_cons_self ..)] at hcheck
      cases hcheck
      exact ih h.tail hrest

lemma outOfOrder_eq_nil {segment : List Entry} {found : List (Rule.Item × Rule.Item)}
    (h : sortSegment src o segment = .ok []) (hfound : Rule.outOfOrder o segment = .ok found) :
    found = [] := by
  obtain ⟨items, hitems, hpairwise⟩ := pairwise_of_sortSegment h
  obtain ⟨items', hitems', hfound⟩ := Outcome.bind_eq_ok.1 hfound
  rw [hitems] at hitems'
  cases hitems'
  exact breaks_eq_nil hpairwise hfound

/-- Segments that give no edits have nothing out of order. -/
lemma flatten_outOfOrder_eq_nil {ss : List (List Entry)} {ess : List (List Edit)}
    {found : List (List (Rule.Item × Rule.Item))}
    (hess : List.Forall₂ (fun s es => sortSegment src o s = .ok es) ss ess)
    (hfound : List.Forall₂ (fun s f => Rule.outOfOrder o s = .ok f) ss found)
    (hnil : ess.flatten = []) : found.flatten = [] := by
  induction hfound generalizing ess with
  | nil => rfl
  | cons hhere _ ih =>
    cases hess with
    | cons hsort hrest =>
      obtain ⟨rfl, hnil⟩ := List.append_eq_nil_iff.1 hnil
      rw [List.flatten_cons, outOfOrder_eq_nil hsort hhere, ih hrest hnil, List.append_nil]

/-- A container that gives no edits has no violations. -/
lemma violations_eq_nil_of_edits {c : Configuration} {k : Container}
    {vs : List Rule.Violation} (hedits : edits src c.order k = .ok [])
    (hvs : Rule.violations c k = .ok vs) : vs = [] := by
  unfold Rule.violations at hvs
  split at hvs
  · obtain ⟨found, hfound, hvs⟩ := Outcome.bind_eq_ok.1 hvs
    obtain rfl := Outcome.pure_eq_ok.1 hvs
    obtain ⟨ess, hess, hnil⟩ := Outcome.bind_eq_ok.1 hedits
    have hnil := Outcome.pure_eq_ok.1 hnil
    rw [flatten_outOfOrder_eq_nil (Outcome.mapM_eq_ok.1 hess) (Outcome.mapM_eq_ok.1 hfound) hnil,
      List.map_nil]
  · cases hvs
    rfl

end Relocation

end KeyOrder
