import KeyOrder.Lint
import KeyOrder.Proofs.Outcome

/-!
# The rule, container by container

The rule as it is meant, without a walk: in each container that it covers, the entries fall into
segments, the entries of a segment that have a name follow one another, and wherever a name may
not follow its neighbour there is a violation.

A container can be gone through in one sweep that remembers the last named entry, forgets it at
spreads and passes over entries without a name.  `Rule.scan_eq_ok` says that the sweep finds the
violations of all segments, one segment after the other.
-/

namespace KeyOrder

namespace Rule

/-- A name and the entry that has it. -/
abbrev Item := Name × Entry

/-- Whether a container is looked at: mapping patterns are not, nor are containers with fewer
entries than asked for. -/
def covers (c : Configuration) (k : Container) : Bool :=
  k.kind != .pattern && c.minKeys.toInt?.all fun least => decide (least ≤ (k.entries.length : Int))

/-- The entries of a list that have a name. -/
def named (es : List Entry) : Outcome (List Item) := do
  let names ← es.mapM Entry.name
  return (names.zip es).filterMap fun p => p.1.map (·, p.2)

/-- Each item of a list with the one after it. -/
def neighbours (items : List Item) : List (Item × Item) := items.zip items.tail

/-- The neighbours of which the second may not follow the first. -/
def breaks (o : Order) (items : List Item) : Outcome (List (Item × Item)) := do
  let verdicts ← (neighbours items).mapM fun p => Outcome.ofDigits (o.check p.1.1 p.2.1)
  return ((neighbours items).zip verdicts).filterMap fun p => if p.2 then none else some p.1

/-- The neighbours among the named entries of a segment that are out of order. -/
def outOfOrder (o : Order) (segment : List Entry) : Outcome (List (Item × Item)) := do
  breaks o (← named segment)

/-- A named entry of a container that may not follow the named entry before it. -/
structure Violation where
  container : Container
  previous : Item
  item : Item

/-- The violations in a container. -/
def violations (c : Configuration) (k : Container) : Outcome (List Violation) :=
  if covers c k then do
    let found ← (segments k.entries).mapM (outOfOrder c.order)
    return found.flatten.map fun p => ⟨k, p.1, p.2⟩
  else .ok []

lemma container_of_mem_violations {c : Configuration} {k : Container} {vs : List Violation}
    {v : Violation} (h : violations c k = .ok vs) (hv : v ∈ vs) : v.container = k := by
  unfold violations at h
  split at h
  · obtain ⟨found, -, h⟩ := Outcome.bind_eq_ok.1 h
    obtain rfl := Outcome.pure_eq_ok.1 h
    obtain ⟨p, -, rfl⟩ := List.mem_map.1 hv
    rfl
  · cases h
    exact absurd hv List.not_mem_nil

/-- The problem that tells of a violation: it stands at the key of the entry. -/
def Violation.problem (src : Source) (c : Configuration) (v : Violation) (fix : Option Edit) :
    Problem :=
  { ruleId := ruleId
    message := Checker.message c v.item.1 v.previous.1
    line := (src.lines.position v.item.2.keyRange.start).1
    column := (src.lines.position v.item.2.keyRange.start).2
    endLine := (src.lines.position v.item.2.keyRange.stop).1
    endColumn := (src.lines.position v.item.2.keyRange.stop).2
    fix := fix }

/-- A problem without its fix. -/
def unfixed (p : Problem) : Problem := { p with fix := none }

@[simp] lemma unfixed_problem (src : Source) (c : Configuration) (v : Violation)
    (fix : Option Edit) : unfixed (v.problem src c fix) = v.problem src c none := rfl

/-! ### Named entries and neighbours, one by one -/

lemma named_cons_eq_ok {e : Entry} {es : List Entry} {items : List Item} :
    named (e :: es) = .ok items ↔
      ∃ name rest, e.name = .ok name ∧ named es = .ok rest ∧
        (name.map (·, e)).toList ++ rest = items := by
  simp only [named, List.mapM_cons, Outcome.bind_eq_ok, Outcome.pure_eq_ok]
  constructor
  · rintro ⟨names, ⟨n, hn, ns, hns, rfl⟩, rfl⟩
    refine ⟨n, _, hn, ⟨ns, hns, rfl⟩, ?_⟩
    cases n <;> rfl
  · rintro ⟨n, rest, hn, ⟨ns, hns, rfl⟩, rfl⟩
    refine ⟨n :: ns, ⟨n, hn, ns, hns, rfl⟩, ?_⟩
    cases n <;> rfl

lemma breaks_toList (o : Order) (p : Option Item) : breaks o p.toList = .ok [] := by
  cases p <;> rfl

lemma breaks_cons_cons_eq_ok {o : Order} {p q : Item} {items : List Item}
    {found : List (Item × Item)} :
    breaks o (p :: q :: items) = .ok found ↔
      ∃ inOrder rest, o.check p.1 q.1 = .ok inOrder ∧ breaks o (q :: items) = .ok rest ∧
        (if inOrder then rest else (p, q) :: rest) = found := by
  have hcons : neighbours (p :: q :: items) = (p, q) :: neighbours (q :: items) := rfl
  simp only [breaks, hcons, List.mapM_cons, Outcome.bind_eq_ok, Outcome.pure_eq_ok,
    Outcome.ofDigits_eq_ok]
  constructor
  · rintro ⟨verdicts, ⟨b, hb, bs, hbs, rfl⟩, rfl⟩
    refine ⟨b, _, hb, ⟨bs, hbs, rfl⟩, ?_⟩
    cases b <;> rfl
  · rintro ⟨b, rest, hb, ⟨bs, hbs, rfl⟩, rfl⟩
    refine ⟨b :: bs, ⟨b, hb, bs, hbs, rfl⟩, ?_⟩
    cases b <;> rfl

/-! ### Segments, one entry at a time -/

lemma segments_cons_spread {e : Entry} (he : e.kind = .spread) (es : List Entry) :
    segments (e :: es) = [] :: segments es := by
  simp [segments, splitAt, he]

lemma segments_cons_property {e : Entry} (he : e.kind ≠ .spread) {es s : List Entry}
    {ss : List (List Entry)} (h : segments es = s :: ss) :
    segments (e :: es) = (e :: s) :: ss := by
  unfold segments at *
  simp [splitAt, he, h]

/-! ### Going through a container in one sweep -/

/-- The violations among the entries of a container, found in one sweep.  `previous` is the last
named entry since the last spread. -/
def scan (o : Order) (previous : Option Item) : List Entry → Outcome (List (Item × Item))
  | [] => .ok []
  | e :: es =>
    if e.kind = .spread then scan o none es
    else do
      match ← e.name, previous with
      | none, _ => scan o previous es
      | some n, none => scan o (some (n, e)) es
      | some n, some p =>
        let inOrder ← Outcome.ofDigits (o.check p.1 n)
        let rest ← scan o (some (n, e)) es
        return if inOrder then rest else (p, (n, e)) :: rest

section Steps

variable {o : Order} {e : Entry} {es : List Entry} {n : Name}

lemma scan_spread {previous : Option Item} (he : e.kind = .spread) :
    scan o previous (e :: es) = scan o none es := by
  rw [scan, if_pos he]

lemma scan_unnamed {previous : Option Item} (he : e.kind ≠ .spread) (hn : e.name = .ok none) :
    scan o previous (e :: es) = scan o previous es := by
  rw [scan, if_neg he, hn]
  rfl

lemma scan_first (he : e.kind ≠ .spread) (hn : e.name = .ok (some n)) :
    scan o none (e :: es) = scan o (some (n, e)) es := by
  rw [scan, if_neg he, hn]
  rfl

lemma scan_next {p : Item} {inOrder : Bool} {later : List (Item × Item)} (he : e.kind ≠ .spread)
    (hn : e.name = .ok (some n)) (hcheck : o.check p.1 n = .ok inOrder)
    (hlater : scan o (some (n, e)) es = .ok later) :
    scan o (some p) (e :: es) = .ok (if inOrder then later else (p, (n, e)) :: later) := by
  rw [scan, if_neg he]
  refine Outcome.bind_eq_ok.2 ⟨some n, hn, ?_⟩
  refine Outcome.bind_eq_ok.2 ⟨inOrder, Outcome.ofDigits_eq_ok.2 hcheck, ?_⟩
  exact Outcome.bind_eq_ok.2 ⟨later, hlater, rfl⟩

end Steps

/-- The sweep finds what is out of order in the first segment, counted from the named entry that
it remembers, and then what is out of order in the other segments. -/
lemma scan_eq_ok {o : Order} {previous : Option Item} {es : List Entry}
    {found : List (Item × Item)} (h : scan o previous es = .ok found) :
    ∃ s ss items here rest, segments es = s :: ss ∧ named s = .ok items ∧
      breaks o (previous.toList ++ items) = .ok here ∧
      ss.mapM (outOfOrder o) = .ok rest ∧ here ++ rest.flatten = found := by
  induction es generalizing previous found with
  | nil =>
    cases h
    refine ⟨[], [], [], [], [], rfl, rfl, ?_, rfl, rfl⟩
    rw [List.append_nil, breaks_toList]
  | cons e es ih =>
    rw [scan] at h
    split at h
    · -- a spread: the segment ends here
      rename_i hspread
      obtain ⟨s, ss, items, here, rest, hss, hitems, hhere, hrest, rfl⟩ := ih h
      refine ⟨[], s :: ss, [], [], here :: rest, ?_, rfl, ?_, ?_, rfl⟩
      · rw [segments_cons_spread hspread, hss]
      · rw [List.append_nil, breaks_toList]
      · exact Outcome.mapM_cons_eq_ok (Outcome.bind_eq_ok.2 ⟨items, hitems, hhere⟩) hrest
    · rename_i hproperty
      obtain ⟨name, hname, h⟩ := Outcome.bind_eq_ok.1 h
      cases name with
      | none =>
        -- an entry without a name is passed over
        obtain ⟨s, ss, items, here, rest, hss, hitems, hhere, hrest, rfl⟩ := ih h
        refine ⟨e :: s, ss, items, here, rest, segments_cons_property hproperty hss, ?_, hhere,
          hrest, rfl⟩
        exact named_cons_eq_ok.2 ⟨none, items, hname, hitems, rfl⟩
      | some n =>
        cases previous with
        | none =>
          -- the first named entry of a segment
          obtain ⟨s, ss, items, here, rest, hss, hitems, hhere, hrest, rfl⟩ := ih h
          refine ⟨e :: s, ss, (n, e) :: items, here, rest, segments_cons_property hproperty hss,
            ?_, hhere, hrest, rfl⟩
          exact named_cons_eq_ok.2 ⟨some n, items, hname, hitems, rfl⟩
        | some p =>
          -- a named entry after another one
          simp only [Outcome.bind_eq_ok, Outcome.pure_eq_ok, Outcome.ofDigits_eq_ok] at h
          obtain ⟨inOrder, hcheck, later, hlater, rfl⟩ := h
          obtain ⟨s, ss, items, here, rest, hss, hitems, hhere, hrest, rfl⟩ := ih hlater
          refine ⟨e :: s, ss, (n, e) :: items, _, rest, segments_cons_property hproperty hss, ?_,
            breaks_cons_cons_eq_ok.2 ⟨inOrder, here, hcheck, hhere, rfl⟩, hrest, ?_⟩
          · exact named_cons_eq_ok.2 ⟨some n, items, hname, hitems, rfl⟩
          · cases inOrder <;> rfl

/-- What a sweep over some entries of a container finds: nothing in a container that the rule
does not cover. -/
def Swept (c : Configuration) (k : Container) (previous : Option Item) (es : List Entry)
    (found : List (Item × Item)) : Prop :=
  if covers c k then scan c.order previous es = .ok found else found = []

lemma swept_nil (c : Configuration) (k : Container) (previous : Option Item) :
    Swept c k previous [] [] := by
  unfold Swept
  split <;> rfl

/-- A sweep over all entries of a container finds its violations. -/
lemma violations_eq_ok_of_swept {c : Configuration} {k : Container}
    {found : List (Item × Item)} (h : Swept c k none k.entries found) :
    violations c k = .ok (found.map fun p => ⟨k, p.1, p.2⟩) := by
  unfold Swept at h
  unfold violations
  split at h
  · rename_i hk
    obtain ⟨s, ss, items, here, rest, hss, hitems, hhere, hrest, rfl⟩ := scan_eq_ok h
    have hall : (segments k.entries).mapM (outOfOrder c.order) = .ok (here :: rest) := by
      rw [hss]
      exact Outcome.mapM_cons_eq_ok (Outcome.bind_eq_ok.2 ⟨items, hitems, hhere⟩) hrest
    rw [if_pos hk, hall]
    rfl
  · rename_i hk
    rw [if_neg hk, h]
    rfl

end Rule

end KeyOrder
