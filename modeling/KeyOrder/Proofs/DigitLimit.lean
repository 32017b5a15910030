import KeyOrder.Proofs.ComparisonSort
import KeyOrder.Proofs.Faults
import KeyOrder.Proofs.Numerals
import KeyOrder.Proofs.Reports

/-!
# Where the limit on digits is hit

A run of digits that is too long is no fault of a name as such, only of its comparison with another
one.  So a container hits the limit where some segment has two named entries and one of them has
such a run.  The relocator sorts whole segments, and a sort of two items or more looks at each of
them.  The checker compares neighbours, and each of two named entries or more has a neighbour; where
it asks for a fix on its way, the limit is hit earlier if at all.  Neither can go through where the
other hits the limit.

* `Order.Exceeds` and `OverLimit`, of names, segments and containers, say where the limit is hit;
* `Outcome.LimitedBy` is what an operation makes of it, and `Relocation.limitedBy_edits` is that for
  relocating;
* `Checker.limitedBy_tellEntries` is the invariant of the checker over the entries of a container;
* `limit_hit_by_check_and_fix` puts this together.
-/

namespace KeyOrder

open Outcome (FaultsIn faultsIn_ok faultsIn_pure faultsIn_error faultsIn_mapM)

/-! ### What is over the limit -/

namespace Order

/-- A name that an order cannot compare: in the form in which it is compared it has a run of digits
that is too long to be read as a number. -/
def Exceeds (o : Order) (name : Name) : Prop :=
  o.natural = true ∧ ∃ ds ∈ Natural.digitRuns (o.fold name), digitLimit < ds.length

lemma not_exceeds_iff {o : Order} {name : Name} :
    ¬o.Exceeds name ↔ ∃ k, o.key name = .ok k := by
  unfold Exceeds key
  cases o.natural with
  | false => simp
  | true =>
    have hwithin : WithinLimit (o.fold name) ↔
        ¬∃ ds ∈ Natural.digitRuns (o.fold name), digitLimit < ds.length := by
      simp [WithinLimit]
    simp only [if_true, true_and, ← hwithin, Outcome.map_eq_ok, NaturalKey.of_eq_ok]
    constructor
    · intro h
      exact ⟨_, _, ⟨h, rfl⟩, rfl⟩
    · rintro ⟨_, _, ⟨h, -⟩, -⟩
      exact h

/-- Two names are compared where neither exceeds the limit. -/
lemma exists_check_iff {o : Order} {a b : Name} :
    (∃ v, o.check a b = .ok v) ↔ ¬o.Exceeds a ∧ ¬o.Exceeds b := by
  rw [not_exceeds_iff, not_exceeds_iff]
  constructor
  · rintro ⟨v, hv⟩
    obtain ⟨ka, kb, ha, hb, -⟩ := check_eq_ok.1 hv
    exact ⟨⟨ka, ha⟩, kb, hb⟩
  · rintro ⟨⟨ka, ha⟩, kb, hb⟩
    exact ⟨_, check_eq_ok.2 ⟨ka, kb, ha, hb, rfl⟩⟩

/-- There is something to compare, and one of the names cannot be compared. -/
def OverLimit (o : Order) (names : List Name) : Prop :=
  2 ≤ names.length ∧ ∃ name ∈ names, o.Exceeds name

/-- Names that can be compared add nothing. -/
lemma overLimit_cons_cons {o : Order} {a b : Name} {names : List Name} (ha : ¬o.Exceeds a)
    (hb : ¬o.Exceeds b) : o.OverLimit (a :: b :: names) ↔ o.OverLimit (b :: names) := by
  have hnames : 2 ≤ (b :: names).length ↔ names ≠ [] := by
    cases names <;> simp
  unfold OverLimit
  rw [hnames]
  constructor
  · rintro ⟨-, name, hmem, hname⟩
    rcases List.mem_cons.1 hmem with rfl | hmem
    · exact absurd hname ha
    · rcases List.mem_cons.1 hmem with rfl | hmem'
      · exact absurd hname hb
      · exact ⟨List.ne_nil_of_mem hmem', name, hmem, hname⟩
  · rintro ⟨-, name, hmem, hname⟩
    exact ⟨Nat.le_add_left .., name, List.mem_cons_of_mem _ hmem, hname⟩

/-- A list is sorted unless it is over the limit. -/
lemma exists_sortOn_iff_not_overLimit {α : Type} {o : Order} {name : α → Name} {xs : List α} :
    (∃ ys, o.sortOn name xs = .ok ys) ↔ ¬o.OverLimit (xs.map name) := by
  rw [exists_sortOn_iff, OverLimit, List.length_map]
  simp only [← not_exceeds_iff, List.mem_map, not_and, not_exists]
  constructor
  · rintro h hlength _ ⟨x, hx, rfl⟩
    exact h hlength x hx
  · exact fun h hlength x hx => h hlength _ ⟨x, hx, rfl⟩

end Order

/-- The named entries of a segment are over the limit. -/
def Rule.OverLimit (o : Order) (segment : List Entry) : Prop :=
  ∃ items, Rule.named segment = .ok items ∧ o.OverLimit (items.map Prod.fst)

/-- A segment of a container is over the limit. -/
def Container.OverLimit (o : Order) (k : Container) : Prop :=
  ∃ segment ∈ segments k.entries, Rule.OverLimit o segment

/-! ### What an operation makes of the limit -/

/-- The faults that arise when edits are made or merged. -/
def Fault.OfEdits : Fault → Prop
  | .misplaced | .unmergeable _ => True
  | _ => False

namespace Outcome

variable {α β : Type} {s : Fault → Prop} {tooLong : Prop}

/-- A fault of some kind, or a number with too many digits where something is over the limit. -/
abbrev AtLimit (s : Fault → Prop) (tooLong : Prop) (f : Fault) : Prop :=
  s f ∨ tooLong ∧ ∃ n, f = .tooManyDigits n

/-- Apart from faults of some kind, an operation hits the limit on digits where something is over
it, and otherwise gives a result. -/
structure LimitedBy (s : Fault → Prop) (tooLong : Prop) (x : Outcome α) : Prop where
  faults : FaultsIn (AtLimit s tooLong) x
  result : ∀ a, x = .ok a → ¬tooLong

lemma LimitedBy.of_not {x : Outcome α} (hx : FaultsIn s x) (hover : ¬tooLong) :
    LimitedBy s tooLong x :=
  ⟨hx.imp fun _ => .inl, fun _ _ => hover⟩

/-- An operation that nothing but the limit stops hits it exactly where something is over it. -/
lemma LimitedBy.iff {x : Outcome α} (hx : LimitedBy s tooLong x) (hs : ∀ n, ¬s (.tooManyDigits n))
    (hnone : ∀ f, x = .error f → ¬s f) : (∃ n, x = .error (.tooManyDigits n)) ↔ tooLong := by
  constructor
  · rintro ⟨n, hn⟩
    exact ((hx.faults _ hn).resolve_left (hs n)).1
  · intro hover
    cases x with
    | ok a => exact absurd hover (hx.result a rfl)
    | error f =>
      obtain ⟨-, n, rfl⟩ := (hx.faults f rfl).resolve_left (hnone f rfl)
      exact ⟨n, rfl⟩

lemma LimitedBy.bind {x : Outcome α} {f : α → Outcome β} (hx : LimitedBy s tooLong x)
    (hf : ∀ a, x = .ok a → FaultsIn s (f a)) : LimitedBy s tooLong (x >>= f) where
  faults := hx.faults.bind fun a ha => (hf a ha).imp fun _ => .inl
  result b hb := by
    obtain ⟨a, ha, -⟩ := Outcome.bind_eq_ok.1 hb
    exact hx.result a ha

/-- A list hits the limit where one of its items does. -/
lemma limitedBy_mapM {f : α → Outcome β} {p : α → Prop} {xs : List α}
    (h : ∀ x ∈ xs, LimitedBy s (p x) (f x)) : LimitedBy s (∃ x ∈ xs, p x) (xs.mapM f) where
  faults := faultsIn_mapM fun x hx =>
    (h x hx).faults.imp fun _ hfault => hfault.imp_right fun ⟨hp, hn⟩ => ⟨⟨x, hx, hp⟩, hn⟩
  result ys hys := by
    rintro ⟨x, hx, hp⟩
    obtain ⟨i, hi, rfl⟩ := List.mem_iff_getElem.1 hx
    have hall := Outcome.mapM_eq_ok.1 hys
    have hy := hall.get hi (hall.length_eq ▸ hi)
    exact (h _ hx).result _ hy hp

end Outcome

open Outcome (AtLimit LimitedBy limitedBy_mapM)

/-! ### Relocating -/

namespace Relocation

variable {src : Source} {o : Order}

lemma limitedBy_sortOn {α : Type} (s : Fault → Prop) (name : α → Name) (xs : List α) :
    LimitedBy s (o.OverLimit (xs.map name)) (Outcome.ofDigits (o.sortOn name xs)) := by
  have hiff := @Order.exists_sortOn_iff_not_overLimit _ o name xs
  cases hsort : o.sortOn name xs with
  | ok ys => exact .of_not (faultsIn_ok _) (hiff.1 ⟨ys, hsort⟩)
  | error d =>
    have hover : o.OverLimit (xs.map name) := by
      by_contra hnot
      obtain ⟨ys, hys⟩ := hiff.2 hnot
      rw [hsort] at hys
      cases hys
    exact ⟨faultsIn_error (.inr ⟨hover, d.count, rfl⟩), fun _ h => nomatch h⟩

/-- The names of entries can be computed. -/
lemma exists_named {segment : List Entry} (h : ∀ e ∈ segment, ∃ name, e.name = .ok name) :
    ∃ items, Rule.named segment = .ok items := by
  obtain ⟨names, hnames⟩ := Outcome.exists_mapM_eq_ok h
  exact ⟨_, Outcome.bind_eq_ok.2 ⟨names, hnames, rfl⟩⟩

lemma limitedBy_sortSegment {segment : List Entry}
    (h : ∀ e ∈ segment, ∃ name, e.name = .ok name) :
    LimitedBy Fault.OfEdits (Rule.OverLimit o segment) (sortSegment src o segment) := by
  obtain ⟨items, hitems⟩ := exists_named h
  obtain ⟨slots, hslots⟩ := exists_namedFrom 0 hitems
  have hover : Rule.OverLimit o segment ↔ o.OverLimit (slots.map Named.name) := by
    rw [Rule.OverLimit, named_of_namedFrom hslots]
    simp [Function.comp_def]
  rw [hover, sortSegment, hslots]
  exact (limitedBy_sortOn _ _ slots).bind fun ordered _ =>
    faultsIn_moveAll_of_misplaced trivial ordered slots

/-- **Relocating a container hits the limit where the container is over it**, unless an entry cannot
be moved. -/
lemma limitedBy_edits {k : Container} (h : ∀ e ∈ k.entries, ∃ name, e.name = .ok name) :
    LimitedBy Fault.OfEdits (k.OverLimit o) (edits src o k) := by
  refine LimitedBy.bind (limitedBy_mapM fun segment hsegment => ?_) fun _ _ => faultsIn_pure _
  exact limitedBy_sortSegment fun e he => h e (mem_of_mem_segments hsegment he)

/-- An entry can be moved to a slot when each of them has a token before it. -/
lemma exists_move {e slot : Entry} (he : src.codeBefore e.range.start ≠ none)
    (hslot : src.codeBefore slot.range.start ≠ none) : ∃ es, move src e slot = .ok es := by
  have hany : ∀ n, src.lastOf false n ≠ none → src.lastOf true n ≠ none := by
    intro n hn
    cases n with
    | zero => exact absurd rfl hn
    | succ n =>
      rw [Source.lastOf] at hn ⊢
      cases htoken : src.tokens[n]? with
      | none => simp [htoken] at hn
      | some t => simp
  obtain ⟨before, hbefore⟩ := Option.ne_none_iff_exists'.1 he
  obtain ⟨anchor, hanchor⟩ := Option.ne_none_iff_exists'.1 (hany _ hslot)
  have hanchor : src.tokenBefore true slot.range.start = some anchor := hanchor
  obtain ⟨leading, hleading⟩ : ∃ leading, moveLeading src e slot = .ok leading := by
    rw [moveLeading, hbefore]
    dsimp only
    split
    · exact ⟨_, rfl⟩
    · rw [hanchor]
      exact ⟨_, rfl⟩
  exact ⟨_, Outcome.bind_eq_ok.2 ⟨leading, hleading, rfl⟩⟩

/-- Making or merging the edits of a container ends in a fault. -/
def Fails (src : Source) (o : Order) (k : Container) (f : Fault) : Prop :=
  f.OfEdits ∧ attempt src o k = .error f

lemma faultsIn_attempt {k : Container} (h : ∀ e ∈ k.entries, ∃ name, e.name = .ok name) :
    FaultsIn (AtLimit (Fails src o k) (k.OverLimit o)) (attempt src o k) := by
  have hlimited := (@limitedBy_edits src o k h).bind fun es _ =>
    @Checker.faultsIn_fixOf src Fault.OfEdits (fun _ => trivial) es
  intro f hf
  exact (hlimited.faults f hf).imp_left fun hof => ⟨hof, hf⟩

end Relocation

/-! ### Checking -/

namespace Rule

variable {o : Order} {previous : Option Item} {e : Entry} {es : List Entry}

/-- The entries of a container from some entry on hit the limit, when `previous` is the last named
entry before them in their segment. -/
def HitsLimit (o : Order) (previous : Option Item) (es : List Entry) : Prop :=
  ∃ s ss items, segments es = s :: ss ∧ named s = .ok items ∧
    (o.OverLimit ((previous.toList ++ items).map Prod.fst) ∨ ∃ t ∈ ss, OverLimit o t)

lemma hitsLimit_iff {s : List Entry} {ss : List (List Entry)} {items : List Item}
    (hs : segments es = s :: ss) (hitems : named s = .ok items) :
    HitsLimit o previous es ↔
      o.OverLimit ((previous.toList ++ items).map Prod.fst) ∨ ∃ t ∈ ss, OverLimit o t := by
  constructor
  · rintro ⟨s', ss', items', hs', hitems', h⟩
    rw [hs] at hs'
    cases hs'
    rw [hitems] at hitems'
    cases hitems'
    exact h
  · exact fun h => ⟨s, ss, items, hs, hitems, h⟩

lemma exists_segments (h : ∀ e ∈ es, ∃ name, e.name = .ok name) :
    ∃ s ss items, segments es = s :: ss ∧ named s = .ok items := by
  obtain ⟨s, ss, hs⟩ := List.exists_cons_of_ne_nil (splitAt_ne_nil _ es)
  have hs : segments es = s :: ss := hs
  obtain ⟨items, hitems⟩ := Relocation.exists_named fun e he =>
    h e (Relocation.mem_of_mem_segments (hs ▸ List.mem_cons_self ..) he)
  exact ⟨s, ss, items, hs, hitems⟩

/-- The last named entry alone, before a spread or at the end, is over no limit. -/
lemma not_overLimit_previous (o : Order) (previous : Option Item) :
    ¬o.OverLimit ((previous.toList ++ []).map Prod.fst) := by
  rintro ⟨hlength, -⟩
  cases previous <;> simp at hlength

lemma not_hitsLimit_nil (o : Order) (previous : Option Item) : ¬HitsLimit o previous [] := by
  rw [@hitsLimit_iff o previous [] [] [] [] rfl rfl, not_or]
  exact ⟨not_overLimit_previous o previous, by simp⟩

/-- Before all entries of a container nothing is remembered. -/
lemma hitsLimit_entries {k : Container} (h : ∀ e ∈ k.entries, ∃ name, e.name = .ok name) :
    HitsLimit o none k.entries ↔ k.OverLimit o := by
  obtain ⟨s, ss, items, hs, hitems⟩ := exists_segments h
  rw [hitsLimit_iff hs hitems, Container.OverLimit, hs, List.exists_mem_cons_iff, OverLimit, hitems]
  simp

lemma hitsLimit_spread (he : e.kind = .spread) (h : ∀ e ∈ es, ∃ name, e.name = .ok name) :
    HitsLimit o previous (e :: es) ↔ HitsLimit o none es := by
  obtain ⟨s, ss, items, hs, hitems⟩ := exists_segments h
  have hsegments : segments (e :: es) = [] :: s :: ss := by rw [segments_cons_spread he, hs]
  rw [@hitsLimit_iff o previous _ _ _ [] hsegments rfl, hitsLimit_iff hs hitems,
    or_iff_right (not_overLimit_previous o previous), List.exists_mem_cons_iff, OverLimit, hitems]
  simp

/-- An entry that can be compared with the one before it takes its place. -/
lemma hitsLimit_property (he : e.kind ≠ .spread) {name : Option Name} (hname : e.name = .ok name)
    (h : ∀ e ∈ es, ∃ name, e.name = .ok name)
    (hclear : ∀ p ∈ previous, ∀ n ∈ name, ¬o.Exceeds p.1 ∧ ¬o.Exceeds n) :
    HitsLimit o previous (e :: es) ↔ HitsLimit o ((name.map (·, e)).or previous) es := by
  obtain ⟨s, ss, items, hs, hitems⟩ := exists_segments h
  have hhere : named (e :: s) = .ok ((name.map (·, e)).toList ++ items) :=
    named_cons_eq_ok.2 ⟨name, items, hname, hitems, rfl⟩
  rw [hitsLimit_iff (segments_cons_property he hs) hhere, hitsLimit_iff hs hitems]
  cases name with
  | none => rfl
  | some n =>
    cases previous with
    | none => rfl
    | some p =>
      obtain ⟨hp, hn⟩ := hclear p rfl n rfl
      exact or_congr_left (Order.overLimit_cons_cons hp hn)

/-- Two names one after the other hit the limit when one of them cannot be compared. -/
lemma hitsLimit_of_exceeds (he : e.kind ≠ .spread) {n : Name} (hname : e.name = .ok (some n))
    (h : ∀ e ∈ es, ∃ name, e.name = .ok name) {p : Item} (hp : o.Exceeds p.1 ∨ o.Exceeds n) :
    HitsLimit o (some p) (e :: es) := by
  obtain ⟨s, ss, items, hs, hitems⟩ := exists_segments h
  have hhere : named (e :: s) = .ok ((n, e) :: items) :=
    named_cons_eq_ok.2 ⟨some n, items, hname, hitems, rfl⟩
  refine (hitsLimit_iff (segments_cons_property he hs) hhere).2 (.inl ⟨Nat.le_add_left .., ?_⟩)
  rcases hp with hp | hp
  · exact ⟨p.1, by simp, hp⟩
  · exact ⟨n, by simp, hp⟩

end Rule

namespace Checker

open Rule (Item HitsLimit)

variable {src : Source} {c : Configuration} {k : Container}

lemma attempt_of_report {st : State} {e : Entry} {n : Name} {p : Item} {f : Fault}
    (h : report src c st k e n p = .error f) :
    Relocation.attempt src c.order k = .error f := by
  have hreport : FaultsIn (fun f => Relocation.attempt src c.order k = .error f)
      (report src c st k e n p) := faultsIn_report (fun _ hf => hf) e n p
  exact hreport f h

/-- A property is compared with the last named entry, and takes its place when it has a name. -/
lemma property_cases {st : State} {e : Entry} {scope : Scope} {outer : List Scope}
    {name : Option Name} (hcovers : Rule.covers c k = true) (hname : e.name = .ok name)
    (hscopes : st.scopes = scope :: outer) :
    (∃ st', property src c st k e scope outer = .ok st' ∧
        st'.scopes = ⟨scope.container, (name.map (·, e)).or scope.previous⟩ :: outer ∧
        ∀ p ∈ scope.previous, ∀ n ∈ name, ¬c.order.Exceeds p.1 ∧ ¬c.order.Exceeds n) ∨
      ∃ f, property src c st k e scope outer = .error f ∧
        (Relocation.attempt src c.order k = .error f ∨
          (∃ d, f = .tooManyDigits d) ∧ ∃ p ∈ scope.previous, ∃ n ∈ name,
            c.order.Exceeds p.1 ∨ c.order.Exceeds n) := by
  cases name with
  | none => exact .inl ⟨st, property_unnamed hcovers hname, hscopes, nofun⟩
  | some n =>
    cases hprevious : scope.previous with
    | none => exact .inl ⟨_, property_first hcovers hname hprevious, rfl, nofun⟩
    | some p =>
      rw [property_next hcovers hname hprevious]
      cases hcheck : c.order.check p.1 n with
      | error d =>
        refine .inr ⟨_, rfl, .inr ⟨⟨_, rfl⟩, p, rfl, n, rfl, ?_⟩⟩
        by_contra hnone
        obtain ⟨v, hv⟩ := Order.exists_check_iff.2 (not_or.1 hnone)
        rw [hcheck] at hv
        cases hv
      | ok inOrder =>
        have hclear : ∀ q ∈ some p, ∀ m ∈ some n, ¬c.order.Exceeds q.1 ∧ ¬c.order.Exceeds m := by
          rintro _ ⟨⟩ _ ⟨⟩
          exact Order.exists_check_iff.1 ⟨_, hcheck⟩
        cases inOrder with
        | true => exact .inl ⟨_, rfl, rfl, hclear⟩
        | false =>
          cases hreport : report src c { st with
              scopes := ⟨scope.container, some (n, e)⟩ :: outer } k e n p with
          | ok st' => exact .inl ⟨st', rfl, (report_eq_ok hreport).1, hclear⟩
          | error f => exact .inr ⟨f, rfl, .inl (attempt_of_report hreport)⟩

/-- Tells the entries of a container to the checker, each with the events of what it holds after
it.  There is an outcome unless what an entry holds ends in a fault of its own. -/
def tellEntries (src : Source) (c : Configuration) (k : Container) (st : State) :
    List (Entry × List Event) → Option (Outcome State)
  | [] => some (.ok st)
  | (e, held) :: told =>
    match step src c st (.entry k e) with
    | .error f => some (.error f)
    | .ok st₁ =>
      match held.foldlM (step src c) st₁ with
      | .error _ => none
      | .ok st₂ => tellEntries src c k st₂ told

/-- The outcome is what comes of the events, one after another. -/
lemma foldlM_of_tellEntries {st : State} {told : List (Entry × List Event)} {r : Outcome State}
    (h : tellEntries src c k st told = some r) :
    (told.flatMap fun p => .entry k p.1 :: p.2).foldlM (step src c) st = r := by
  induction told generalizing st with
  | nil => exact Option.some.inj h
  | cons p told ih =>
    obtain ⟨e, held⟩ := p
    rw [tellEntries] at h
    rw [List.flatMap_cons, List.foldlM_append, List.foldlM_cons]
    dsimp only
    cases hstep : step src c st (.entry k e) with
    | error f =>
      rw [hstep] at h
      exact Option.some.inj h
    | ok st₁ =>
      rw [hstep] at h
      dsimp only at h
      change (held.foldlM (step src c) st₁ >>= _) = r
      cases hheld : held.foldlM (step src c) st₁ with
      | error f =>
        rw [hheld] at h
        cases h
      | ok st₂ =>
        rw [hheld] at h
        exact ih h

/-- There is an outcome when the entries hold nothing. -/
lemma exists_tellEntries (src : Source) (c : Configuration) (k : Container) (st : State)
    (es : List Entry) : ∃ r, tellEntries src c k st (es.map (·, [])) = some r := by
  induction es generalizing st with
  | nil => exact ⟨_, rfl⟩
  | cons e es ih =>
    rw [List.map_cons, tellEntries]
    cases step src c st (.entry k e) with
    | error f => exact ⟨_, rfl⟩
    | ok st₁ => exact ih st₁

/-- An entry of a container whose scope is open is gone through and changes this scope only, or it
ends in a fault.  In the first case the limit is hit after the entry exactly if it is hit from the
entry on. -/
lemma step_entry_cases {st : State} {e : Entry} {es : List Entry} {scope : Scope}
    {outer : List Scope} (hcovers : Rule.covers c k = true)
    (hnames : ∀ d ∈ e :: es, ∃ name, d.name = .ok name) (hscopes : st.scopes = scope :: outer)
    (hpath : scope.container.path = k.path) :
    (∃ st' previous, step src c st (.entry k e) = .ok st' ∧
        st'.scopes = ⟨scope.container, previous⟩ :: outer ∧
        (HitsLimit c.order scope.previous (e :: es) ↔ HitsLimit c.order previous es)) ∨
      ∃ f, step src c st (.entry k e) = .error f ∧
        (Relocation.attempt src c.order k = .error f ∨
          (∃ d, f = .tooManyDigits d) ∧ HitsLimit c.order scope.previous (e :: es)) := by
  obtain ⟨⟨name, hname⟩, hnames⟩ := List.forall_mem_cons.1 hnames
  by_cases hkind : e.kind = .spread
  · exact .inl ⟨_, none, step_spread hscopes hkind, rfl, Rule.hitsLimit_spread hkind hnames⟩
  · rw [step_property hscopes hkind, if_pos hpath]
    rcases @property_cases src c k st e scope outer name hcovers hname hscopes with
      ⟨st', hproperty, hscopes', hclear⟩ | ⟨f, hproperty, hattempt | ⟨hdigits, p, hp, n, hn, hover⟩⟩
    · exact .inl ⟨st', _, hproperty, hscopes', Rule.hitsLimit_property hkind hname hnames hclear⟩
    · exact .inr ⟨f, hproperty, .inl hattempt⟩
    · obtain rfl : name = some n := hn
      refine .inr ⟨f, hproperty, .inr ⟨hdigits, ?_⟩⟩
      rw [Option.mem_def.1 hp]
      exact Rule.hitsLimit_of_exceeds hkind hname hnames hover

/-- **Telling the entries of a container hits the limit where the container is over it**, unless its
edits cannot be made or merged.  From the first entry to the last one it stays the same whether the
limit is hit from there on. -/
lemma limitedBy_tellEntries (hcovers : Rule.covers c k = true)
    (hk : ∀ e ∈ k.entries, ∃ name, e.name = .ok name) {told : List (Entry × List Event)} :
    ∀ {st : State} {scope : Scope} {outer : List Scope} {r : Outcome State},
      (∀ e ∈ told.map Prod.fst, ∃ name, e.name = .ok name) →
      (∀ p ∈ told, ∃ ks, Walk.Balanced ks p.2) →
      st.scopes = scope :: outer → scope.container.path = k.path →
      (HitsLimit c.order scope.previous (told.map Prod.fst) ↔ k.OverLimit c.order) →
      tellEntries src c k st told = some r →
      LimitedBy (Relocation.Fails src c.order k) (k.OverLimit c.order) r := by
  induction told with
  | nil =>
    intro st scope outer r _ _ _ _ hiff h
    cases h
    exact .of_not (faultsIn_ok _) (hiff.not.1 (Rule.not_hitsLimit_nil _ _))
  | cons p told ih =>
    intro st scope outer r hnames hbalanced hscopes hpath hiff h
    obtain ⟨e, held⟩ := p
    obtain ⟨⟨ks, hks⟩, hbalanced⟩ := List.forall_mem_cons.1 hbalanced
    rw [tellEntries] at h
    rcases step_entry_cases hcovers hnames hscopes hpath with
      ⟨st₁, previous, hstep, hscopes₁, hnext⟩ | ⟨f, hstep, hfault⟩
    · rw [hstep] at h
      dsimp only at h
      cases hheld : held.foldlM (step src c) st₁ with
      | error f =>
        rw [hheld] at h
        cases h
      | ok st₂ =>
        rw [hheld] at h
        -- what the entry holds leaves the scope of its container as it was
        have hscopes₂ := (balanced_told hks hheld).1.trans hscopes₁
        exact ih (fun d hd => hnames d (List.mem_cons_of_mem _ hd)) hbalanced hscopes₂ hpath
          (hnext.symm.trans hiff) h
    · rw [hstep] at h
      cases h
      refine ⟨faultsIn_error ?_, fun _ h => nomatch h⟩
      rcases hfault with hattempt | ⟨⟨d, rfl⟩, hhits⟩
      · exact Relocation.faultsIn_attempt hk f hattempt
      · exact .inr ⟨hiff.1 hhits, d, rfl⟩

end Checker

open Checker (tellEntries)

/-- **Checking and fixing hit the limit on digits at the same containers.**  Take a container that
the rule covers and of which all names can be computed.  It is over the limit when some segment has
two named entries or more and one of these names has, in the form in which it is compared, a run of
digits that is too long.  Unless its edits cannot be made or merged, relocating the container and
telling its entries to the checker hit the limit exactly if it is over it, and the edits can be made
when each entry has a token before it.  Sorting a segment by comparing two names at a time hits the
limit exactly if the segment is over it, which one with a single named entry never is, and otherwise
gives what the order gives.  Without natural keys nothing is over the limit. -/
theorem limit_hit_by_check_and_fix {src : Source} {c : Configuration} {k : Container}
    (hcovers : Rule.covers c k = true) (hnames : ∀ e ∈ k.entries, ∃ name, e.name = .ok name) :
    LimitedBy (Relocation.Fails src c.order k) (k.OverLimit c.order)
        (Relocator.fresh.fix src c.order k).1 ∧
      ((∀ e ∈ k.entries, src.codeBefore e.range.start ≠ none) →
        ((∃ n, (Relocator.fresh.fix src c.order k).1 = .error (.tooManyDigits n)) ↔
          k.OverLimit c.order)) ∧
      (∀ (st : Checker.State) (outer : List Checker.Scope) (told : List (Entry × List Event))
        (r : Outcome Checker.State), st.scopes = ⟨k, none⟩ :: outer →
        told.map Prod.fst = k.entries → (∀ p ∈ told, ∃ ks, Walk.Balanced ks p.2) →
        tellEntries src c k st told = some r →
        (told.flatMap fun p => .entry k p.1 :: p.2).foldlM (Checker.step src c) st = r ∧
          LimitedBy (Relocation.Fails src c.order k) (k.OverLimit c.order) r) ∧
      (∀ segment ∈ segments k.entries, ∃ items, Rule.named segment = .ok items ∧
        (Rule.OverLimit c.order segment → 2 ≤ items.length) ∧
        ∀ sorter : Sorter items.length, sorter.IsStable →
          ((∃ d, sorter.run (Sorter.answers c.order fun i => (items.get i).1) = .error d) ↔
            Rule.OverLimit c.order segment) ∧
          ∀ order, sorter.run (Sorter.answers c.order fun i => (items.get i).1) = .ok order →
            c.order.sortOn Prod.fst items = .ok (order.map items.get)) ∧
      (c.natural = false → ¬k.OverLimit c.order) := by
  have hedits := @Relocation.limitedBy_edits src c.order k hnames
  have hfix : (Relocator.fresh.fix src c.order k).1 = Relocation.edits src c.order k := rfl
  refine ⟨?_, fun hbefore => ?_, fun st outer told r hscopes hentries hbalanced h => ?_,
    fun segment hsegment => ?_, ?_⟩
  · refine ⟨fun f hf => (hedits.faults f hf).imp_left fun hof => ⟨hof, ?_⟩, hedits.result⟩
    exact Outcome.bind_eq_error.2 (.inl hf)
  · rw [hfix]
    refine hedits.iff (fun _ h => h) fun f hf hof => ?_
    have hlimit := Relocation.faultsIn_edits (fun e he slot hslot =>
      Relocation.exists_move (hbefore e he) (hbefore slot hslot)) f hf
    cases f with
    | misplaced | unmergeable _ => exact hlimit
    | _ => exact hof
  · refine ⟨Checker.foldlM_of_tellEntries h, ?_⟩
    refine Checker.limitedBy_tellEntries hcovers hnames ?_ hbalanced hscopes rfl ?_ h
    · rwa [hentries]
    · rw [hentries]
      exact Rule.hitsLimit_entries hnames
  · obtain ⟨items, hitems⟩ := Relocation.exists_named fun e he =>
      hnames e (Relocation.mem_of_mem_segments hsegment he)
    have hover : Rule.OverLimit c.order segment ↔ c.order.OverLimit (items.map Prod.fst) := by
      rw [Rule.OverLimit, hitems]
      simp
    refine ⟨items, hitems, fun h => ?_, fun sorter hsorter => ⟨?_, fun order hrun => ?_⟩⟩
    · simpa using (hover.1 h).1
    · have hsorts := @Order.exists_sortOn_iff_not_overLimit _ c.order Prod.fst items
      rw [hsorter.exists_error_iff, hover, hsorts, not_not]
    · exact hsorter.sortOn_eq_ok_iff.2 ⟨order, hrun, rfl⟩
  · rintro hnatural ⟨segment, -, items, -, -, name, -, hexceeds, -⟩
    rw [Configuration.order, hnatural] at hexceeds
    cases hexceeds

/-- A letter and 4301 ones. -/
def Sample.longName : Name := 97 :: List.replicate 4301 49

/-- A keyword argument of one character. -/
def Sample.keyword (name : Name) (start : Nat) : Entry :=
  ⟨.property, some (.keyword name), ⟨start, start + 1⟩, ⟨start, start + 1⟩, 1, 1⟩

/-- A call with two keyword arguments, of which the second has too many digits. -/
def Sample.overlong : Container :=
  ⟨.call, ⟨0, 5⟩, [Sample.keyword [98] 1, Sample.keyword Sample.longName 3], []⟩

/-- A source that starts with a bracket. -/
def Sample.bracket : Source :=
  ⟨['('], .mk .group ⟨⟨1, 0⟩, ⟨1, 1⟩⟩ [], .ofText ['('], #[.make .operator ['('] 0 1 1]⟩

/-- The natural order from the greatest name down, without regard to case. -/
def Sample.descendingNatural : Configuration := ⟨.descending, false, true, .integer 2⟩

/-- Neither relocating the call nor telling its arguments nor comparing the two names in a sort goes
through. -/
theorem limit_hit_by_check_and_fix_ones :
    Rule.covers Sample.descendingNatural Sample.overlong = true ∧
      (∀ e ∈ Sample.overlong.entries, ∃ name, e.name = .ok name) ∧
      (∃ n, (Relocator.fresh.fix Sample.bracket Sample.descendingNatural.order
        Sample.overlong).1 = .error (.tooManyDigits n)) ∧
      (∃ r, tellEntries Sample.bracket Sample.descendingNatural Sample.overlong
          ⟨[⟨Sample.overlong, none⟩], .fresh, [], []⟩ (Sample.overlong.entries.map (·, [])) =
            some r ∧
        ∀ st, r ≠ .ok st) ∧
      ∃ d, Sorter.pair.run (Sorter.answers Sample.descendingNatural.order fun i =>
        ([[98], Sample.longName] : List Name).get i) = .error d := by
  have hcovers : Rule.covers Sample.descendingNatural Sample.overlong = true := by decide
  have hnames : ∀ e ∈ Sample.overlong.entries, ∃ name, e.name = .ok name := by
    simp only [Sample.overlong, List.forall_mem_cons]
    exact ⟨⟨_, rfl⟩, ⟨_, rfl⟩, by simp⟩
  have hbefore : ∀ e ∈ Sample.overlong.entries,
      Sample.bracket.codeBefore e.range.start ≠ none := by
    simp only [Sample.overlong, List.forall_mem_cons, Sample.keyword]
    decide +kernel
  have hlong : Sample.descendingNatural.order.Exceeds Sample.longName := by
    by_contra hnot
    have hwithin := Order.exists_key_iff.1 (Order.not_exceeds_iff.1 hnot) rfl
    rcases NaturalKey.of_cases Sample.longName with ⟨-, key, hkey⟩ | ⟨hover, -⟩
    · rw [Sample.longName, Order.of_ones (by decide)] at hkey
      cases hkey
    · exact hover hwithin
  have hitems : Rule.named Sample.overlong.entries =
      .ok [([98], Sample.keyword [98] 1), (Sample.longName, Sample.keyword Sample.longName 3)] :=
    rfl
  have hover : Rule.OverLimit Sample.descendingNatural.order Sample.overlong.entries :=
    ⟨_, hitems, Nat.le_refl _, Sample.longName, by simp, hlong⟩
  have hsegment : Sample.overlong.entries ∈ segments Sample.overlong.entries :=
    List.mem_cons_self ..
  obtain ⟨-, hfix, htell, hsort, -⟩ :=
    @limit_hit_by_check_and_fix Sample.bracket _ _ hcovers hnames
  refine ⟨hcovers, hnames, (hfix hbefore).2 ⟨_, hsegment, hover⟩, ?_, ?_⟩
  · obtain ⟨r, hr⟩ := Checker.exists_tellEntries Sample.bracket Sample.descendingNatural
      Sample.overlong ⟨[⟨Sample.overlong, none⟩], .fresh, [], []⟩ Sample.overlong.entries
    have hlimited := (htell _ [] _ r rfl rfl (fun p hp => ?_) hr).2
    · exact ⟨r, hr, fun st hst => hlimited.result st hst ⟨_, hsegment, hover⟩⟩
    · obtain ⟨e, -, rfl⟩ := List.mem_map.1 hp
      exact ⟨[], .nil⟩
  · obtain ⟨items, hitems', -, hsort⟩ := hsort _ hsegment
    rw [hitems] at hitems'
    cases hitems'
    exact (hsort .pair Sorter.isStable_pair).1.2 hover

end KeyOrder
