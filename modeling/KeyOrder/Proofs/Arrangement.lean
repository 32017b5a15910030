import KeyOrder.Proofs.Lookup
import KeyOrder.Proofs.Slots
import Mathlib.Data.Fintype.EquivFin
import Mathlib.Data.List.FinRange
import Mathlib.Data.List.Perm.Basic

/-!
# Where the entries of a container go

Relocation sorts the named entries of each segment onto the slots that the named entries of the
segment occupy.  Over a whole container this is one permutation of its entries: it fixes spreads and
entries without a name, keeps every entry in its segment, puts names in order and keeps entries of
equal names in theirs.  The edits of a relocation are the moves of this permutation, slot by slot.
-/

namespace KeyOrder

/-! ### Sorting permutations -/

/-- The number of the segment that an index belongs to. -/
def segmentOf (entries : List Entry) (i : Fin entries.length) : Nat :=
  (entries.take i.val).countP fun e => e.kind == .spread

/-- An entry that is sorted by a name. -/
def Entry.Named (e : Entry) (name : Name) : Prop := e.kind ≠ .spread ∧ e.name = .ok (some name)

/-- A permutation that sorts the named entries of each segment onto the slots of the named entries
of that segment and keeps the order of entries of equal names.  Slot `i` gets entry `σ i`. -/
structure Sorts (o : Order) (entries : List Entry) (σ : Equiv.Perm (Fin entries.length)) :
    Prop where
  fixed : ∀ i, (¬∃ name, (entries.get i).Named name) → σ i = i
  segment : ∀ i, segmentOf entries (σ i) = segmentOf entries i
  sorted : ∀ i j a b, i < j → segmentOf entries i = segmentOf entries j →
    (entries.get (σ i)).Named a → (entries.get (σ j)).Named b → o.check a b = .ok true
  stable : ∀ i j a b, i < j → segmentOf entries i = segmentOf entries j →
    (entries.get (σ i)).Named a → (entries.get (σ j)).Named b → o.check b a = .ok true → σ i < σ j

/-! ### Permutations from pairs -/

section Pairs

variable {n : Nat} {pairs : List (Fin n × Fin n)}

/-- What pairs assign to a number; one that is not mentioned is its own. -/
def assigned (pairs : List (Fin n × Fin n)) (i : Fin n) : Fin n :=
  ((pairs.find? fun p => p.1 = i).map Prod.snd).getD i

lemma assigned_of_mem (hnodup : (pairs.map Prod.fst).Nodup) {p : Fin n × Fin n}
    (hp : p ∈ pairs) : assigned pairs p.1 = p.2 := by
  have hsome : (pairs.find? fun q => q.1 = p.1).isSome := List.find?_isSome.2 ⟨p, hp, by simp⟩
  obtain ⟨q, hq⟩ := Option.isSome_iff_exists.1 hsome
  have hq1 : q.1 = p.1 := by simpa using List.find?_some hq
  have hqp : q = p := List.inj_on_of_nodup_map hnodup (List.mem_of_find?_eq_some hq) hp hq1
  rw [assigned, hq, hqp]
  rfl

lemma assigned_of_not_mem {i : Fin n} (hi : i ∉ pairs.map Prod.fst) : assigned pairs i = i := by
  have hnone : (pairs.find? fun q => q.1 = i) = none := by
    refine List.find?_eq_none.2 fun q hq => ?_
    simp only [decide_eq_true_eq]
    rintro rfl
    exact hi (List.mem_map_of_mem hq)
  rw [assigned, hnone]
  rfl

/-- Pairs that assign to some numbers the same numbers in another order give a permutation. -/
lemma assigned_injective (hnodup : (pairs.map Prod.fst).Nodup)
    (hperm : (pairs.map Prod.snd).Perm (pairs.map Prod.fst)) :
    Function.Injective (assigned pairs) := by
  intro i j hij
  by_cases hi : i ∈ pairs.map Prod.fst
  · obtain ⟨p, hp, rfl⟩ := List.mem_map.1 hi
    rw [assigned_of_mem hnodup hp] at hij
    by_cases hj : j ∈ pairs.map Prod.fst
    · obtain ⟨q, hq, rfl⟩ := List.mem_map.1 hj
      rw [assigned_of_mem hnodup hq] at hij
      rw [List.inj_on_of_nodup_map (hperm.nodup_iff.2 hnodup) hp hq hij]
    · rw [assigned_of_not_mem hj] at hij
      exact absurd (hperm.subset (hij ▸ List.mem_map_of_mem hp)) hj
  · rw [assigned_of_not_mem hi] at hij
    by_cases hj : j ∈ pairs.map Prod.fst
    · obtain ⟨q, hq, rfl⟩ := List.mem_map.1 hj
      rw [assigned_of_mem hnodup hq] at hij
      exact absurd (hperm.subset (hij ▸ List.mem_map_of_mem hq)) hi
    · rwa [assigned_of_not_mem hj] at hij

end Pairs

/-! ### Splitting a list -/

section Split

variable {α β : Type} {p : α → Bool}

lemma splitAt_ne_nil (p : α → Bool) (xs : List α) : splitAt p xs ≠ [] := by
  cases xs with
  | nil => simp [splitAt]
  | cons x xs =>
    rw [splitAt]
    split
    · simp
    · split <;> simp

lemma splitAt_cons_of_neg {x : α} (hx : p x = false) {xs s : List α} {ss : List (List α)}
    (h : splitAt p xs = s :: ss) : splitAt p (x :: xs) = (x :: s) :: ss := by
  rw [splitAt, h, if_neg (by simp [hx])]

lemma splitAt_map (p : β → Bool) (f : α → β) (xs : List α) :
    splitAt p (xs.map f) = (splitAt (fun x => p (f x)) xs).map (List.map f) := by
  induction xs with
  | nil => rfl
  | cons x xs ih =>
    rw [List.map_cons, splitAt, splitAt, ih]
    split
    · rfl
    · cases splitAt (fun x => p (f x)) xs <;> rfl

lemma flatten_splitAt (p : α → Bool) (xs : List α) :
    (splitAt p xs).flatten = xs.filter fun x => !p x := by
  induction xs with
  | nil => rfl
  | cons x xs ih =>
    cases hx : p x with
    | true => rw [splitAt, if_pos hx, List.flatten_cons, ih, List.filter_cons_of_neg (by simp [hx]),
        List.nil_append]
    | false =>
      cases hs : splitAt p xs with
      | nil => exact absurd hs (splitAt_ne_nil p xs)
      | cons s ss =>
        rw [splitAt_cons_of_neg hx hs, List.filter_cons_of_pos (by simp [hx]), ← ih, hs]
        rfl

/-- An item of the part with number `t` has `t` of the items that split the list before it. -/
lemma countP_of_mem_splitAt {xs : List α} {t : Nat} {s : List α} {x : α}
    (hs : (splitAt p xs)[t]? = some s) (hx : x ∈ s) :
    ∃ before after, xs = before ++ x :: after ∧ before.countP p = t ∧ p x = false := by
  induction xs generalizing t s with
  | nil =>
    obtain ⟨-, rfl⟩ : t = 0 ∧ s = [] := by
      cases t <;> simp_all [splitAt]
    exact absurd hx List.not_mem_nil
  | cons y xs ih =>
    cases hy : p y with
    | true =>
      -- the first part is empty, and one more item splits the list before the others
      rw [splitAt, if_pos hy] at hs
      cases t with
      | zero =>
        obtain rfl : [] = s := by simpa using hs
        exact absurd hx List.not_mem_nil
      | succ t =>
        obtain ⟨before, after, rfl, hcount, hpx⟩ := ih (by simpa using hs) hx
        exact ⟨y :: before, after, rfl, by rw [List.countP_cons_of_pos hy, hcount], hpx⟩
    | false =>
      cases hss : splitAt p xs with
      | nil => exact absurd hss (splitAt_ne_nil p xs)
      | cons r rs =>
        -- the head joins the first part and is no split before any item
        rw [splitAt_cons_of_neg hy hss] at hs
        rw [hss] at ih
        have hlater : ∀ s', (r :: rs)[t]? = some s' → x ∈ s' →
            ∃ before after, y :: xs = before ++ x :: after ∧ before.countP p = t ∧
              p x = false := by
          intro s' hs' hx'
          obtain ⟨before, after, rfl, hcount, hpx⟩ := ih hs' hx'
          exact ⟨y :: before, after, rfl, by rw [List.countP_cons_of_neg (by simp [hy]), hcount],
            hpx⟩
        cases t with
        | zero =>
          obtain rfl : y :: r = s := by simpa using hs
          rcases List.mem_cons.1 hx with rfl | hx
          · exact ⟨[], xs, rfl, rfl, hy⟩
          · exact hlater r rfl hx
        | succ t => exact hlater s (by simpa using hs) hx

end Split

/-! ### Segments by their indices -/

section Segments

variable (entries : List Entry)

/-- The segments of a list of entries, each entry by its index. -/
def indexSegments : List (List (Fin entries.length)) :=
  splitAt (fun i => (entries.get i).kind == .spread) (List.finRange entries.length)

lemma map_get_indexSegments :
    (indexSegments entries).map (List.map entries.get) = segments entries := by
  have h := splitAt_map (fun e : Entry => e.kind == .spread) entries.get
    (List.finRange entries.length)
  rw [List.map_get_finRange] at h
  exact h.symm

lemma flatten_indexSegments_sublist :
    (indexSegments entries).flatten.Sublist (List.finRange entries.length) := by
  rw [indexSegments, flatten_splitAt]
  exact List.filter_sublist

variable {entries}

lemma take_of_finRange_eq {before after : List (Fin entries.length)} {i : Fin entries.length}
    (h : List.finRange entries.length = before ++ i :: after) :
    entries.take i.val = before.map entries.get := by
  have hlength : before.length < (List.finRange entries.length).length := by rw [h]; simp
  have hi : i.val = before.length := by
    have hget : (List.finRange entries.length)[before.length] = i := by simp [h]
    rw [← hget]
    simp
  have hmap := congrArg (List.map entries.get) h
  rw [List.map_get_finRange, List.map_append] at hmap
  rw [hi]
  exact (congrArg (List.take before.length) hmap).trans (List.take_left' (List.length_map _))

lemma segmentOf_of_mem {t : Nat} {s : List (Fin entries.length)} {i : Fin entries.length}
    (hs : (indexSegments entries)[t]? = some s) (hi : i ∈ s) :
    segmentOf entries i = t ∧ (entries.get i).kind ≠ .spread := by
  obtain ⟨before, after, h, hcount, hspread⟩ := countP_of_mem_splitAt hs hi
  refine ⟨?_, by simpa using hspread⟩
  rw [segmentOf, take_of_finRange_eq h, List.countP_map]
  exact hcount

lemma exists_segment {i : Fin entries.length} (hi : (entries.get i).kind ≠ .spread) :
    ∃ (t : Nat) (s : List (Fin entries.length)), (indexSegments entries)[t]? = some s ∧ i ∈ s := by
  have hmem : i ∈ (indexSegments entries).flatten := by
    rw [indexSegments, flatten_splitAt]
    exact List.mem_filter.2 ⟨List.mem_finRange i, by simpa using hi⟩
  obtain ⟨s, hs, his⟩ := List.mem_flatten.1 hmem
  obtain ⟨t, ht⟩ := List.mem_iff_getElem?.1 hs
  exact ⟨t, s, ht, his⟩

end Segments

/-! ### Sorting one segment -/

namespace Relocation

variable {src : Source} {o : Order} {entries : List Entry}

/-- A named entry of a segment and its index in the container. -/
abbrev Seat (entries : List Entry) := Named × Fin entries.length

/-- The slots of a segment are the named ones of its indices. -/
lemma exists_seats {k : Nat} {s : List (Fin entries.length)} {slots : List Named}
    (h : namedFrom k (s.map entries.get) = .ok slots) :
    ∃ seats : List (Seat entries), seats.map Prod.fst = slots ∧
      (seats.map Prod.snd).Sublist s ∧
      (∀ p ∈ seats, p.1.entry = entries.get p.2 ∧
        (entries.get p.2).name = .ok (some p.1.name)) ∧
      ∀ i ∈ s, ∀ name, (entries.get i).name = .ok (some name) → i ∈ seats.map Prod.snd := by
  induction s generalizing k slots with
  | nil =>
    cases h
    exact ⟨[], rfl, List.Sublist.refl _, by simp, by simp⟩
  | cons i s ih =>
    rw [List.map_cons, namedFrom] at h
    obtain ⟨name, hname, h⟩ := Outcome.bind_eq_ok.1 h
    cases name with
    | none =>
      -- an entry without a name gets no seat
      obtain ⟨seats, hslots, hsub, hseats, hall⟩ := ih h
      refine ⟨seats, hslots, hsub.cons i, hseats, fun j hj name hj' => ?_⟩
      rcases List.mem_cons.1 hj with rfl | hj
      · rw [hname] at hj'
        cases hj'
      · exact hall j hj name hj'
    | some n =>
      obtain ⟨rest, hrest, h⟩ := Outcome.bind_eq_ok.1 h
      obtain rfl := Outcome.pure_eq_ok.1 h
      obtain ⟨seats, hslots, hsub, hseats, hall⟩ := ih hrest
      refine ⟨(⟨k, entries.get i, n⟩, i) :: seats, by rw [List.map_cons, hslots],
        hsub.cons_cons i, fun p hp => ?_, fun j hj name hj' => ?_⟩
      · rcases List.mem_cons.1 hp with rfl | hp
        · exact ⟨rfl, hname⟩
        · exact hseats p hp
      · rcases List.mem_cons.1 hj with rfl | hj
        · exact List.mem_cons_self ..
        · exact List.mem_cons_of_mem _ (hall j hj name hj')

/-- How one segment is sorted: pairs of a slot and the entry that goes there. -/
structure SortsSegment (o : Order) (entries : List Entry) (s : List (Fin entries.length))
    (pairs : List (Fin entries.length × Fin entries.length)) : Prop where
  slots : (pairs.map Prod.fst).Sublist s
  perm : (pairs.map Prod.snd).Perm (pairs.map Prod.fst)
  named : ∀ i, i ∈ pairs.map Prod.fst ↔ i ∈ s ∧ ∃ name, (entries.get i).name = .ok (some name)
  sorted : pairs.Pairwise fun p q => ∀ a b, (entries.get p.2).name = .ok (some a) →
    (entries.get q.2).name = .ok (some b) →
      o.check a b = .ok true ∧ (o.check b a = .ok true → p.2 < q.2)

/-- The slots are numbered in the order of their indices. -/
lemma pairwise_seats {s : List (Fin entries.length)} (hs : s.Pairwise (· < ·))
    {slots : List Named} (hslots : namedFrom 0 (s.map entries.get) = .ok slots)
    {seats : List (Seat entries)} (hseats : seats.map Prod.fst = slots)
    (hsub : (seats.map Prod.snd).Sublist s) :
    seats.Pairwise fun p q => p.1.index < q.1.index ∧ p.2 < q.2 := by
  have hindex := pairwise_index_of_namedFrom hslots
  rw [← hseats, List.pairwise_map] at hindex
  have hsnd := hs.sublist hsub
  rw [List.pairwise_map] at hsnd
  exact hindex.and hsnd

/-- The sorted seats: every name may follow those before it, and seats of equal names keep their
order. -/
lemma pairwise_ordered {seats ordered : List (Seat entries)}
    (hseats : seats.Pairwise fun p q => p.1.index < q.1.index ∧ p.2 < q.2)
    (hsort : o.sortOn Named.name (seats.map Prod.fst) = .ok (ordered.map Prod.fst))
    (hperm : ordered.Perm seats) :
    ordered.Pairwise fun p q => o.check p.1.name q.1.name = .ok true ∧
      (o.check q.1.name p.1.name = .ok true → p.2 < q.2) := by
  have hchecks := Order.sortOn_pairwise hsort
  rw [List.pairwise_map] at hchecks
  have hindex : (seats.map Prod.fst).Pairwise fun x y => x.index < y.index := by
    rw [List.pairwise_map]
    exact hseats.imp And.left
  have hnodup : (seats.map Prod.fst).Nodup := by
    refine hindex.imp ?_
    rintro x y hxy rfl
    exact Nat.lt_irrefl _ hxy
  -- sorting keeps equal names in the order of their slots, and that is the order of the entries
  refine List.pairwise_iff_forall_sublist.2 fun {p q} hsub =>
    ⟨List.pairwise_iff_forall_sublist.1 hchecks hsub, fun hback => ?_⟩
  have hkept := Order.sortOn_keeps hsort hnodup (hsub.map Prod.fst) hback
  have hlt := List.pairwise_iff_forall_sublist.1 hindex hkept
  have hp : p ∈ seats := hperm.subset (hsub.subset (by simp))
  have hq : q ∈ seats := hperm.subset (hsub.subset (by simp))
  rcases eq_or_rel_of_mem hseats hp hq with rfl | hpq | hqp
  · exact absurd hlt (Nat.lt_irrefl _)
  · exact hpq.2
  · exact absurd hlt (Nat.lt_asymm hqp.1)

/-- **Sorting a segment.**  The slots of a segment and the sorted ones, each with its index, are
paired to a sorting of the segment. -/
lemma exists_seating {s : List (Fin entries.length)} (hs : s.Pairwise (· < ·))
    {slots sorted : List Named} (hslots : namedFrom 0 (s.map entries.get) = .ok slots)
    (hsort : o.sortOn Named.name slots = .ok sorted) :
    ∃ seats ordered : List (Seat entries), seats.map Prod.fst = slots ∧
      ordered.map Prod.fst = sorted ∧ ordered.Perm seats ∧
      (∀ p ∈ seats, p.1.entry = entries.get p.2) ∧
      (∀ p ∈ seats, ∀ q ∈ seats, p.1.index = q.1.index ↔ p.2 = q.2) ∧
      SortsSegment o entries s ((seats.map Prod.snd).zip (ordered.map Prod.snd)) := by
  obtain ⟨seats, rfl, hsub, hseats, hall⟩ := exists_seats hslots
  have hboth := pairwise_seats hs hslots rfl hsub
  -- the sorted slots with their indices
  have hforall : List.Forall₂ (fun (x : Named) (p : Seat entries) => x = p.1)
      (seats.map Prod.fst) seats := by
    rw [List.forall₂_map_left_iff]
    exact List.forall₂_same.2 fun _ _ => rfl
  obtain ⟨ordered, hordered, hperm⟩ := List.perm_comp_forall₂ (Order.sortOn_perm hsort) hforall
  obtain rfl : sorted = ordered.map Prod.fst := by
    have hmap := List.forall₂_map_right_iff.2 hordered
    rwa [List.forall₂_eq_eq_eq] at hmap
  have hlength : ordered.length = seats.length := hperm.length_eq
  have hslot : ((seats.map Prod.snd).zip (ordered.map Prod.snd)).map Prod.fst =
      seats.map Prod.snd := List.map_fst_zip (by simp [hlength])
  have hentry : ((seats.map Prod.snd).zip (ordered.map Prod.snd)).map Prod.snd =
      ordered.map Prod.snd := List.map_snd_zip (by simp [hlength])
  refine ⟨seats, ordered, rfl, rfl, hperm, fun p hp => (hseats p hp).1, fun p hp q hq => ?_,
    ⟨?_, ?_, fun i => ?_, ?_⟩⟩
  · rcases eq_or_rel_of_mem hboth hp hq with rfl | ⟨h1, h2⟩ | ⟨h1, h2⟩
    · exact ⟨fun _ => rfl, fun _ => rfl⟩
    · exact ⟨fun heq => absurd heq (Nat.ne_of_lt h1), fun heq => absurd heq (Fin.ne_of_lt h2)⟩
    · exact ⟨fun heq => absurd heq.symm (Nat.ne_of_lt h1),
        fun heq => absurd heq.symm (Fin.ne_of_lt h2)⟩
  · rw [hslot]
    exact hsub
  · rw [hslot, hentry]
    exact hperm.map Prod.snd
  · rw [hslot]
    refine ⟨fun hi => ⟨hsub.subset hi, ?_⟩, fun ⟨hi, name, hname⟩ => hall i hi name hname⟩
    obtain ⟨p, hp, rfl⟩ := List.mem_map.1 hi
    exact ⟨_, (hseats p hp).2⟩
  · have hsorted := pairwise_ordered hboth hsort hperm
    have hpairs : (ordered.map Prod.snd).Pairwise fun i j => ∀ a b,
        (entries.get i).name = .ok (some a) → (entries.get j).name = .ok (some b) →
          o.check a b = .ok true ∧ (o.check b a = .ok true → i < j) := by
      rw [List.pairwise_map]
      refine hsorted.imp_of_mem fun {p q} hp hq hpq a b ha hb => ?_
      rw [(hseats p (hperm.subset hp)).2] at ha
      rw [(hseats q (hperm.subset hq)).2] at hb
      cases ha
      cases hb
      exact hpq
    rw [← hentry, List.pairwise_map] at hpairs
    exact hpairs

/-! ### The moves of a rearrangement -/

/-- The edits that move the entry `a` to the slot `i`, none when it cannot be moved. -/
def moveOf (src : Source) (entries : List Entry) (i a : Fin entries.length) : List Edit :=
  (move src (entries.get a) (entries.get i)).toOption.getD []

/-- Edits bring entries to slots, given in pairs: they are those of one move for each entry that is
not at its slot already, and each of these moves succeeds. -/
def Moves (src : Source) (entries : List Entry)
    (pairs : List (Fin entries.length × Fin entries.length)) (es : List Edit) : Prop :=
  (∀ p ∈ pairs, p.2 ≠ p.1 →
      move src (entries.get p.2) (entries.get p.1) = .ok (moveOf src entries p.1 p.2)) ∧
    es = pairs.flatMap fun p => if p.2 = p.1 then [] else moveOf src entries p.1 p.2

lemma Moves.append {pairs pairs' : List (Fin entries.length × Fin entries.length)}
    {es es' : List Edit} (h : Moves src entries pairs es) (h' : Moves src entries pairs' es') :
    Moves src entries (pairs ++ pairs') (es ++ es') := by
  obtain ⟨hmove, rfl⟩ := h
  obtain ⟨hmove', rfl⟩ := h'
  refine ⟨fun p hp => ?_, List.flatMap_append.symm⟩
  rcases List.mem_append.1 hp with hp | hp
  · exact hmove p hp
  · exact hmove' p hp

/-- One pair: nothing is done when the entry is at its slot already. -/
lemma moves_singleton {i a : Fin entries.length} {es : List Edit}
    (h : (if a = i then .ok [] else move src (entries.get a) (entries.get i)) = .ok es) :
    Moves src entries [(i, a)] es := by
  simp only [Moves, List.mem_singleton, forall_eq, List.flatMap_cons, List.flatMap_nil,
    List.append_nil]
  split at h
  · rename_i heq
    cases h
    exact ⟨fun hne => absurd heq hne, by rw [if_pos heq]⟩
  · rename_i hne
    rw [moveOf, h]
    exact ⟨fun _ => rfl, by rw [if_neg hne]; rfl⟩

/-- Seats are brought to slots by the moves of their pairs. -/
lemma moves_of_moveAll {seats ordered : List (Seat entries)}
    (hlength : ordered.length = seats.length)
    (hentry : ∀ p ∈ ordered ++ seats, p.1.entry = entries.get p.2)
    (hindex : ∀ p ∈ ordered, ∀ q ∈ seats, p.1.index = q.1.index ↔ p.2 = q.2)
    {edits : List Edit}
    (h : moveAll src (ordered.map Prod.fst) (seats.map Prod.fst) = .ok edits) :
    Moves src entries ((seats.map Prod.snd).zip (ordered.map Prod.snd)) edits := by
  induction ordered generalizing seats edits with
  | nil =>
    rw [List.eq_nil_of_length_eq_zero hlength.symm] at h ⊢
    cases h
    exact ⟨by simp, rfl⟩
  | cons p ordered ih =>
    match seats, hlength with
    | q :: seats, hlength =>
      obtain ⟨here, rest, hhere, hrest, rfl⟩ := moveAll_cons_eq_ok.1 h
      have hrest' := ih (Nat.succ.inj hlength)
        (fun r hr => hentry r (by rcases List.mem_append.1 hr with hr | hr <;> simp [hr]))
        (fun p hp q hq => hindex p (List.mem_cons_of_mem _ hp) q (List.mem_cons_of_mem _ hq))
        hrest
      -- an entry stays when its number in the segment is that of the slot
      have hpq := hindex p (List.mem_cons_self ..) q (List.mem_cons_self ..)
      rw [hentry p (by simp), hentry q (by simp)] at hhere
      simp only [hpq] at hhere
      exact (moves_singleton hhere).append hrest'

/-! ### Sorting all segments -/

lemma exists_parts {segs : List (List (Fin entries.length))}
    (hsegs : ∀ s ∈ segs, s.Pairwise (· < ·)) {edits : List (List Edit)}
    (h : List.Forall₂ (fun s es => sortSegment src o (s.map entries.get) = .ok es) segs edits) :
    ∃ parts, List.Forall₂ (SortsSegment o entries) segs parts ∧
      Moves src entries parts.flatten edits.flatten := by
  induction h with
  | nil => exact ⟨[], .nil, by simp, rfl⟩
  | cons hhere _ ih =>
    obtain ⟨parts, hparts, hrest⟩ := ih fun s hs => hsegs s (List.mem_cons_of_mem _ hs)
    obtain ⟨slots, sorted, hslots, hsort, hmoves⟩ := sortSegment_eq_ok.1 hhere
    obtain ⟨seats, ordered, rfl, rfl, hperm, hentry, hindex, hpairs⟩ :=
      exists_seating (hsegs _ (List.mem_cons_self ..)) hslots hsort
    have hhere' := moves_of_moveAll hperm.length_eq
      (fun p hp => hentry p ((List.mem_append.1 hp).elim (fun hp => hperm.subset hp) id))
      (fun p hp q hq => hindex p (hperm.subset hp) q hq) hmoves
    exact ⟨_ :: parts, .cons hpairs hparts, hhere'.append hrest⟩

section Parts

variable {segs : List (List (Fin entries.length))}
  {parts : List (List (Fin entries.length × Fin entries.length))}
  (h : List.Forall₂ (SortsSegment o entries) segs parts)

include h

lemma slots_sublist : (parts.flatten.map Prod.fst).Sublist segs.flatten := by
  induction h with
  | nil => exact List.Sublist.refl _
  | cons hhere _ ih =>
    rw [List.flatten_cons, List.flatten_cons, List.map_append]
    exact hhere.slots.append ih

lemma entries_perm : (parts.flatten.map Prod.snd).Perm (parts.flatten.map Prod.fst) := by
  induction h with
  | nil => exact List.Perm.refl _
  | cons hhere _ ih =>
    rw [List.flatten_cons, List.map_append, List.map_append]
    exact hhere.perm.append ih

lemma exists_part {t : Nat} {s : List (Fin entries.length)} (hs : segs[t]? = some s) :
    ∃ part, parts[t]? = some part ∧ SortsSegment o entries s part := by
  induction h generalizing t with
  | nil => simp at hs
  | cons hhere _ ih =>
    cases t with
    | zero =>
      obtain rfl := Option.some_inj.1 hs
      exact ⟨_, rfl, hhere⟩
    | succ t => exact ih hs

lemma exists_part_of_mem {p : Fin entries.length × Fin entries.length} (hp : p ∈ parts.flatten) :
    ∃ (t : Nat) (s : List (Fin entries.length)) (part : List _), segs[t]? = some s ∧
      parts[t]? = some part ∧ SortsSegment o entries s part ∧ p ∈ part := by
  induction h with
  | nil => exact absurd hp List.not_mem_nil
  | cons hhere _ ih =>
    rcases List.mem_append.1 hp with hp | hp
    · exact ⟨0, _, _, rfl, rfl, hhere, hp⟩
    · obtain ⟨t, s, part, hs, hpart, hsort, hp⟩ := ih hp
      exact ⟨t + 1, s, part, hs, hpart, hsort, hp⟩

end Parts

section Whole

variable {parts : List (List (Fin entries.length × Fin entries.length))}
  (h : List.Forall₂ (SortsSegment o entries) (indexSegments entries) parts)

include h

lemma slots_pairwise : (parts.flatten.map Prod.fst).Pairwise (· < ·) :=
  (List.pairwise_lt_finRange _).sublist
    ((slots_sublist h).trans (flatten_indexSegments_sublist entries))

lemma slots_nodup : (parts.flatten.map Prod.fst).Nodup :=
  (slots_pairwise h).imp Fin.ne_of_lt

/-- The slots are those of the named entries. -/
lemma mem_slots_iff {i : Fin entries.length} :
    i ∈ parts.flatten.map Prod.fst ↔ ∃ name, (entries.get i).Named name := by
  constructor
  · intro hi
    obtain ⟨p, hp, rfl⟩ := List.mem_map.1 hi
    obtain ⟨t, s, part, hs, -, hsort, hp⟩ := exists_part_of_mem h hp
    obtain ⟨hmem, name, hname⟩ := (hsort.named p.1).1 (List.mem_map_of_mem hp)
    exact ⟨name, (segmentOf_of_mem hs hmem).2, hname⟩
  · rintro ⟨name, hkind, hname⟩
    obtain ⟨t, s, hs, hi⟩ := exists_segment hkind
    obtain ⟨part, hpart, hsort⟩ := exists_part h hs
    obtain ⟨p, hp, rfl⟩ := List.mem_map.1 ((hsort.named i).2 ⟨hi, name, hname⟩)
    refine List.mem_map_of_mem (List.mem_flatten.2 ⟨part, ?_, hp⟩)
    exact List.mem_of_getElem? hpart

lemma exists_pair_of_named {i : Fin entries.length} {name : Name}
    (hi : (entries.get (assigned parts.flatten i)).Named name) :
    (i, assigned parts.flatten i) ∈ parts.flatten := by
  have hmem : i ∈ parts.flatten.map Prod.fst := by
    by_contra hi'
    rw [assigned_of_not_mem hi'] at hi
    exact hi' ((mem_slots_iff h).2 ⟨name, hi⟩)
  obtain ⟨p, hp, rfl⟩ := List.mem_map.1 hmem
  rw [assigned_of_mem (slots_nodup h) hp]
  exact hp

lemma segmentOf_assigned (i : Fin entries.length) :
    segmentOf entries (assigned parts.flatten i) = segmentOf entries i := by
  by_cases hi : i ∈ parts.flatten.map Prod.fst
  · obtain ⟨p, hp, rfl⟩ := List.mem_map.1 hi
    obtain ⟨t, s, part, hs, -, hsort, hp'⟩ := exists_part_of_mem h hp
    have hslot : p.1 ∈ s := hsort.slots.subset (List.mem_map_of_mem hp')
    have hentry : p.2 ∈ s := hsort.slots.subset (hsort.perm.subset (List.mem_map_of_mem hp'))
    rw [assigned_of_mem (slots_nodup h) hp, (segmentOf_of_mem hs hslot).1,
      (segmentOf_of_mem hs hentry).1]
  · rw [assigned_of_not_mem hi]

/-- Of two slots of one segment the entries are in order. -/
lemma check_assigned {i j : Fin entries.length} {a b : Name} (hij : i < j)
    (hsegment : segmentOf entries i = segmentOf entries j)
    (ha : (entries.get (assigned parts.flatten i)).Named a)
    (hb : (entries.get (assigned parts.flatten j)).Named b) :
    o.check a b = .ok true ∧ (o.check b a = .ok true →
      assigned parts.flatten i < assigned parts.flatten j) := by
  obtain ⟨t, s, part, hs, hpart, hsort, hi⟩ := exists_part_of_mem h (exists_pair_of_named h ha)
  obtain ⟨t', s', part', hs', hpart', hsort', hj⟩ :=
    exists_part_of_mem h (exists_pair_of_named h hb)
  -- both slots are in the same segment
  have ht := (segmentOf_of_mem hs (hsort.slots.subset (List.mem_map_of_mem hi))).1
  have ht' := (segmentOf_of_mem hs' (hsort'.slots.subset (List.mem_map_of_mem hj))).1
  obtain rfl : t = t' := by rw [← ht, ← ht', hsegment]
  rw [hpart] at hpart'
  cases hpart'
  have hslots : (part.map Prod.fst).Pairwise (· < ·) := by
    refine (slots_pairwise h).sublist (List.Sublist.map _ ?_)
    exact List.sublist_flatten_of_mem (List.mem_of_getElem? hpart)
  rw [List.pairwise_map] at hslots
  rcases eq_or_rel_of_mem (hslots.and hsort.sorted) hi hj with heq | ⟨-, hsorted⟩ | ⟨hji, -⟩
  · exact absurd (Prod.ext_iff.1 heq).1 (Fin.ne_of_lt hij)
  · exact hsorted a b ha.2 hb.2
  · exact absurd hji (Nat.lt_asymm hij)

end Whole

lemma flatMap_eq_of_sublist {α β : Type} {xs ys : List α} (hsub : xs.Sublist ys) (hys : ys.Nodup)
    {g : α → List β} (hg : ∀ y ∈ ys, y ∉ xs → g y = []) : ys.flatMap g = xs.flatMap g := by
  induction hsub with
  | slnil => rfl
  | @cons xs ys a hsub ih =>
    obtain ⟨ha, hys⟩ := List.nodup_cons.1 hys
    rw [List.flatMap_cons, hg a (List.mem_cons_self ..) fun hmem => ha (hsub.subset hmem),
      List.nil_append]
    exact ih hys fun y hy => hg y (List.mem_cons_of_mem _ hy)
  | @cons_cons xs ys a hsub ih =>
    obtain ⟨ha, hys⟩ := List.nodup_cons.1 hys
    rw [List.flatMap_cons, List.flatMap_cons, ih hys fun y hy hy' => ?_]
    refine hg y (List.mem_cons_of_mem _ hy) ?_
    intro hmem
    rcases List.mem_cons.1 hmem with rfl | hmem
    · exact ha hy
    · exact hy' hmem

/-- The parts of all segments make one permutation, that sorts the entries. -/
lemma exists_sorts_of_parts {parts : List (List (Fin entries.length × Fin entries.length))}
    (h : List.Forall₂ (SortsSegment o entries) (indexSegments entries) parts) :
    ∃ σ : Equiv.Perm (Fin entries.length), Sorts o entries σ ∧ ⇑σ = assigned parts.flatten := by
  have hinj := assigned_injective (slots_nodup h) (entries_perm h)
  refine ⟨Equiv.ofBijective _ (Finite.injective_iff_bijective.1 hinj), ⟨?_, ?_, ?_, ?_⟩, rfl⟩
  · intro i hi
    exact assigned_of_not_mem fun hmem => hi ((mem_slots_iff h).1 hmem)
  · exact segmentOf_assigned h
  · exact fun i j a b hij hsegment ha hb => (check_assigned h hij hsegment ha hb).1
  · exact fun i j a b hij hsegment ha hb => (check_assigned h hij hsegment ha hb).2

lemma pairwise_of_mem_indexSegments {s : List (Fin entries.length)}
    (hs : s ∈ indexSegments entries) : s.Pairwise (· < ·) :=
  (List.pairwise_lt_finRange _).sublist
    ((List.sublist_flatten_of_mem hs).trans (flatten_indexSegments_sublist entries))

/-- **A relocation is a sorting permutation.**  The edits of a container are the moves of the
permutation that sorts its entries, slot by slot. -/
lemma exists_sorts {c : Container} {es : List Edit} (h : edits src o c = .ok es) :
    ∃ σ : Equiv.Perm (Fin c.entries.length), Sorts o c.entries σ ∧
      Moves src c.entries ((List.finRange c.entries.length).map fun i => (i, σ i)) es := by
  simp only [edits, Outcome.bind_eq_ok, Outcome.pure_eq_ok] at h
  obtain ⟨ess, hess, rfl⟩ := h
  rw [← map_get_indexSegments, Outcome.mapM_eq_ok, List.forall₂_map_left_iff] at hess
  obtain ⟨parts, hparts, hmove, hedits⟩ :=
    exists_parts (fun s hs => pairwise_of_mem_indexSegments hs) hess
  obtain ⟨σ, hσ, hassigned⟩ := exists_sorts_of_parts hparts
  refine ⟨σ, hσ, fun p hp hne => ?_, ?_⟩
  · obtain ⟨i, -, rfl⟩ := List.mem_map.1 hp
    -- an entry that goes to another slot is one of the pairs
    have hmem : i ∈ parts.flatten.map Prod.fst := by
      by_contra hi
      rw [hassigned] at hne
      exact hne (assigned_of_not_mem hi)
    obtain ⟨q, hq, rfl⟩ := List.mem_map.1 hmem
    dsimp only at hne ⊢
    rw [hassigned, assigned_of_mem (slots_nodup hparts) hq] at hne ⊢
    exact hmove q hq hne
  · have hsub := (slots_sublist hparts).trans (flatten_indexSegments_sublist c.entries)
    rw [hedits, List.flatMap_map, flatMap_eq_of_sublist hsub (List.nodup_finRange _)
      fun i _ hi => ?_, List.flatMap_map]
    · refine List.flatMap_congr ?_
      intro p hp
      simp only [hassigned, assigned_of_mem (slots_nodup hparts) hp]
    · simp only [hassigned, assigned_of_not_mem hi, if_true]

end Relocation

end KeyOrder
