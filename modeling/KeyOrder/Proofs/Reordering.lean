import KeyOrder.Proofs.Arrangement
import KeyOrder.Proofs.Completion

/-!
# The sorted order of entries

A relocation sorts the named entries of each segment and puts them, in this order, on the places of
the named entries of the segment.  The list that this gives is a permutation of the entries, and
there is only one that fixes spreads and entries without a name, keeps every entry in its segment,
puts names in order and leaves equal names in theirs.  The checker has nothing to say about it.

* `Sorts.unique`: two permutations that sort the same entries are equal;
* `arranged_sorts_uniquely`: what the sorted order is, for every list of entries.
-/

namespace KeyOrder

/-! ### Parts and what stands between them -/

section Interleave

variable {α β : Type}

/-- Parts of a list and the items between them, in turn. -/
def interleave : List (List α) → List α → List α
  | [], _ => []
  | s :: _, [] => s
  | s :: ss, x :: xs => s ++ x :: interleave ss xs

lemma interleave_cons_cons (x : α) (s : List α) (ss : List (List α)) (xs : List α) :
    interleave ((x :: s) :: ss) xs = x :: interleave (s :: ss) xs := by
  cases xs <;> rfl

/-- A list is made of its parts and of the items that split it. -/
lemma interleave_splitAt (p : α → Bool) (xs : List α) :
    interleave (splitAt p xs) (xs.filter p) = xs := by
  induction xs with
  | nil => rfl
  | cons x xs ih =>
    cases hx : p x with
    | true =>
      rw [splitAt, if_pos hx, List.filter_cons_of_pos hx, interleave, ih, List.nil_append]
    | false =>
      obtain ⟨s, ss, hs⟩ := List.exists_cons_of_ne_nil (splitAt_ne_nil p xs)
      rw [splitAt_cons_of_neg hx hs, List.filter_cons_of_neg (by simp [hx]), interleave_cons_cons,
        ← hs, ih]

lemma interleave_map (f : α → β) (ss : List (List α)) (xs : List α) :
    interleave (ss.map (List.map f)) (xs.map f) = (interleave ss xs).map f := by
  induction ss generalizing xs with
  | nil => rfl
  | cons s ss ih =>
    cases xs with
    | nil => rfl
    | cons x xs => simp [interleave, ih]

lemma length_splitAt (p : α → Bool) (xs : List α) :
    (splitAt p xs).length = (xs.filter p).length + 1 := by
  induction xs with
  | nil => rfl
  | cons x xs ih =>
    cases hx : p x with
    | true => rw [splitAt, if_pos hx, List.filter_cons_of_pos hx, List.length_cons, ih]; rfl
    | false =>
      obtain ⟨s, ss, hs⟩ := List.exists_cons_of_ne_nil (splitAt_ne_nil p xs)
      rw [hs] at ih
      rw [splitAt_cons_of_neg hx hs, List.filter_cons_of_neg (by simp [hx]), ← ih]
      rfl

/-- Parts in which no item splits a list are its parts again. -/
lemma splitAt_interleave {p : α → Bool} {ss : List (List α)} {xs : List α}
    (hlength : ss.length = xs.length + 1) (hss : ∀ s ∈ ss, ∀ x ∈ s, p x = false)
    (hxs : ∀ x ∈ xs, p x = true) : splitAt p (interleave ss xs) = ss := by
  have hpart : ∀ (s rest : List α) (ts : List (List α)), (∀ x ∈ s, p x = false) →
      splitAt p rest = [] :: ts → splitAt p (s ++ rest) = s :: ts := by
    intro s rest ts hs hrest
    induction s with
    | nil => exact hrest
    | cons x s ih =>
      exact splitAt_cons_of_neg (hs x (List.mem_cons_self ..))
        (ih fun y hy => hs y (List.mem_cons_of_mem _ hy))
  induction ss generalizing xs with
  | nil => cases hlength
  | cons s ss ih =>
    have hs := hss s (List.mem_cons_self ..)
    cases xs with
    | nil =>
      obtain rfl : ss = [] := List.eq_nil_of_length_eq_zero (Nat.succ.inj hlength)
      have hend := hpart s [] [] hs rfl
      rwa [List.append_nil] at hend
    | cons x xs =>
      refine hpart s _ ss hs ?_
      rw [splitAt, if_pos (hxs x (List.mem_cons_self ..)),
        ih (Nat.succ.inj hlength) (fun t ht => hss t (List.mem_cons_of_mem _ ht))
          fun y hy => hxs y (List.mem_cons_of_mem _ hy)]

end Interleave

/-! ### The sorted order -/

/-- Whether an entry has a name. -/
def Entry.hasName (e : Entry) : Bool :=
  match e.name with
  | .ok (some _) => true
  | _ => false

lemma Entry.hasName_iff {e : Entry} : e.hasName = true ↔ ∃ name, e.name = .ok (some name) := by
  unfold hasName
  split
  · rename_i name hname
    exact ⟨fun _ => ⟨name, hname⟩, fun _ => rfl⟩
  · rename_i hnone
    exact ⟨nofun, fun ⟨name, hname⟩ => absurd hname (hnone name)⟩

namespace Relocation

/-- Puts entries, one after another, on the places of the entries of a list that have a name. -/
def onto : List Entry → List Named → List Entry
  | [], _ => []
  | e :: es, [] => e :: onto es []
  | e :: es, x :: xs => if e.hasName then x.entry :: onto es xs else e :: onto es (x :: xs)

/-- A segment with its named entries sorted onto their places. -/
def arrangedSegment (o : Order) (segment : List Entry) : Outcome (List Entry) := do
  let slots ← namedFrom 0 segment
  let ordered ← Outcome.ofDigits (o.sortOn Named.name slots)
  return onto segment ordered

/-- The entries of a container with the named entries of each segment sorted onto their places. -/
def arranged (o : Order) (entries : List Entry) : Outcome (List Entry) := do
  let sorted ← (segments entries).mapM (arrangedSegment o)
  return interleave sorted (entries.filter fun e => e.kind == .spread)

lemma arrangedSegment_eq_ok {o : Order} {segment ys : List Entry} :
    arrangedSegment o segment = .ok ys ↔ ∃ slots ordered, namedFrom 0 segment = .ok slots ∧
      o.sortOn Named.name slots = .ok ordered ∧ onto segment ordered = ys := by
  simp only [arrangedSegment, Outcome.bind_eq_ok, Outcome.pure_eq_ok, Outcome.ofDigits_eq_ok]
  constructor
  · rintro ⟨slots, hslots, ordered, hordered, h⟩
    exact ⟨slots, ordered, hslots, hordered, h⟩
  · rintro ⟨slots, ordered, hslots, hordered, h⟩
    exact ⟨slots, hslots, ordered, hordered, h⟩

/-- The sorted order fails only on a number with too many digits. -/
lemma faultsIn_arranged (o : Order) (entries : List Entry) :
    Outcome.FaultsIn Fault.IsDigitLimit (arranged o entries) := by
  refine (Outcome.faultsIn_mapM fun segment _ => ?_).bind fun _ _ => Outcome.faultsIn_pure _
  refine (faultsIn_namedFrom 0 segment).bind fun slots _ => ?_
  exact (faultsIn_ofDigits _).bind fun _ _ => Outcome.faultsIn_pure _

end Relocation

/-! ### The sorting permutation -/

/-- Where two permutations agree before a slot and not there, the entry that one of them has there
comes later in the other. -/
lemma lt_symm_of_agree {n : Nat} {σ τ : Equiv.Perm (Fin n)} {i : Fin n}
    (hbefore : ∀ j < i, σ j = τ j) (hi : σ i ≠ τ i) : i < σ.symm (τ i) := by
  by_contra hle
  rcases Nat.lt_or_eq_of_le (Nat.le_of_not_lt hle) with hlt | heq
  · have hback := hbefore _ hlt
    rw [σ.apply_symm_apply] at hback
    exact absurd (τ.injective hback) (Fin.ne_of_gt hlt)
  · have hsame : σ (σ.symm (τ i)) = τ i := σ.apply_symm_apply _
    rw [Fin.ext heq] at hsame
    exact hi hsame

namespace Sorts

variable {o : Order} {entries : List Entry} {σ τ : Equiv.Perm (Fin entries.length)}

/-- An entry that comes after a slot, in the same segment, may follow the entry at the slot, and
stood after it already when the names are equal. -/
lemma check_of_lt (hσ : Sorts o entries σ) {i j : Fin entries.length} {a b : Name}
    (ha : (entries.get (σ i)).Named a) (hb : (entries.get j).Named b) (hij : i < σ.symm j)
    (hsegment : segmentOf entries j = segmentOf entries i) :
    o.check a b = .ok true ∧ (o.check b a = .ok true → σ i < j) := by
  have hj : σ (σ.symm j) = j := σ.apply_symm_apply j
  have hsame : segmentOf entries i = segmentOf entries (σ.symm j) := by
    rw [← hsegment, ← hσ.segment (σ.symm j), hj]
  rw [← hj] at hb
  refine ⟨hσ.sorted i _ a b hij hsame ha hb, fun hba => ?_⟩
  have hlt := hσ.stable i _ a b hij hsame ha hb hba
  rwa [hj] at hlt

/-- An entry that two sortings put on different slots has a name. -/
lemma exists_named (hσ : Sorts o entries σ) (hτ : Sorts o entries τ) {i : Fin entries.length}
    (hlt : i < τ.symm (σ i)) : ∃ name, (entries.get (σ i)).Named name := by
  by_contra hnone
  have hhere : σ i = i := σ.injective (hσ.fixed (σ i) hnone)
  have hthere : τ.symm (σ i) = σ i := τ.symm_apply_eq.2 (hτ.fixed (σ i) hnone).symm
  rw [hthere, hhere] at hlt
  exact absurd hlt (Nat.lt_irrefl _)

/-- **There is one way to sort.**  At the first slot where two sortings differ, each would have to
put its entry before that of the other. -/
lemma unique (hσ : Sorts o entries σ) (hτ : Sorts o entries τ) : σ = τ := by
  have hagree : ∀ (n : Nat) (i : Fin entries.length), i.val = n → σ i = τ i := by
    intro n
    induction n using Nat.strongRecOn with
    | ind n ih =>
      rintro i rfl
      have hbefore : ∀ j < i, σ j = τ j := fun j hj => ih j.val hj j rfl
      by_contra hi
      have hσlt := lt_symm_of_agree hbefore hi
      have hτlt := lt_symm_of_agree (fun j hj => (hbefore j hj).symm) (Ne.symm hi)
      obtain ⟨a, ha⟩ := hσ.exists_named hτ hτlt
      obtain ⟨b, hb⟩ := hτ.exists_named hσ hσlt
      obtain ⟨hab, hfirst⟩ := hσ.check_of_lt ha hb hσlt (hτ.segment i)
      obtain ⟨hba, hsecond⟩ := hτ.check_of_lt hb ha hτlt (hσ.segment i)
      exact Nat.lt_asymm (hfirst hba) (hsecond hab)
  exact Equiv.ext fun i => hagree i.val i rfl

end Sorts

namespace Relocation

variable {o : Order} {entries : List Entry}

lemma assigned_cons_of_ne {n : Nat} {p : Fin n × Fin n} {pairs : List (Fin n × Fin n)}
    {i : Fin n} (h : p.1 ≠ i) : assigned (p :: pairs) i = assigned pairs i := by
  rw [assigned, assigned, List.find?_cons_of_neg (by simpa using h)]

/-- The entries that are put on the places of the named ones are those assigned to these places. -/
lemma onto_eq_map {s : List (Fin entries.length)} (hs : s.Nodup)
    {ordered : List (Seat entries)} (hentry : ∀ p ∈ ordered, p.1.entry = entries.get p.2)
    (hlength : (s.filter fun i => (entries.get i).hasName).length = ordered.length) :
    onto (s.map entries.get) (ordered.map Prod.fst) = s.map fun i => entries.get
      (assigned ((s.filter fun i => (entries.get i).hasName).zip (ordered.map Prod.snd)) i) := by
  induction s generalizing ordered with
  | nil => rfl
  | cons i s ih =>
    obtain ⟨hi, hs⟩ := List.nodup_cons.1 hs
    cases hname : (entries.get i).hasName with
    | true =>
      rw [List.filter_cons_of_pos (by simpa using hname)] at hlength ⊢
      match ordered, hlength with
      | p :: ordered, hlength =>
        have hrest := ih hs (fun q hq => hentry q (List.mem_cons_of_mem _ hq))
          (Nat.succ.inj hlength)
        rw [List.map_cons, List.map_cons, onto, if_pos hname, hrest, List.map_cons, List.map_cons,
          List.zip_cons_cons, hentry p (List.mem_cons_self ..)]
        congr 1
        · rw [assigned, List.find?_cons_of_pos (by simp)]
          rfl
        · refine List.map_congr_left fun j hj => ?_
          rw [assigned_cons_of_ne]
          rintro rfl
          exact hi hj
    | false =>
      rw [List.filter_cons_of_neg (by rw [hname]; exact Bool.false_ne_true)] at hlength ⊢
      have hhere : assigned ((s.filter fun i => (entries.get i).hasName).zip
          (ordered.map Prod.snd)) i = i := by
        refine assigned_of_not_mem fun hmem => hi ?_
        obtain ⟨p, hp, rfl⟩ := List.mem_map.1 hmem
        exact (List.mem_filter.1 (List.of_mem_zip hp).1).1
      have hstep : onto (entries.get i :: s.map entries.get) (ordered.map Prod.fst) =
          entries.get i :: onto (s.map entries.get) (ordered.map Prod.fst) := by
        cases ordered with
        | nil => rfl
        | cons p ordered => rw [List.map_cons, onto, hname, if_neg Bool.false_ne_true]
      rw [List.map_cons, hstep, ih hs hentry hlength, List.map_cons, hhere]

/-- The slots of a sorted segment are the places of its named entries. -/
lemma SortsSegment.slots_eq_filter {s : List (Fin entries.length)}
    {pairs : List (Fin entries.length × Fin entries.length)}
    (h : SortsSegment o entries s pairs) (hs : s.Pairwise (· < ·)) :
    pairs.map Prod.fst = s.filter fun i => (entries.get i).hasName := by
  have hlt : (pairs.map Prod.fst).Pairwise (· < ·) := hs.sublist h.slots
  have hlt' : (s.filter fun i => (entries.get i).hasName).Pairwise (· < ·) := hs.filter _
  have hperm : (pairs.map Prod.fst).Perm (s.filter fun i => (entries.get i).hasName) := by
    refine (List.perm_ext_iff_of_nodup (hlt.imp Fin.ne_of_lt) (hlt'.imp Fin.ne_of_lt)).2 fun i => ?_
    rw [h.named i, List.mem_filter, Entry.hasName_iff]
  refine hperm.eq_of_pairwise (fun i j _ _ hij hji => ?_) hlt hlt'
  exact absurd hij (Nat.lt_asymm hji)

/-- A sorted segment, entry by entry. -/
lemma exists_pairs_of_arrangedSegment {s : List (Fin entries.length)} (hs : s.Pairwise (· < ·))
    {ys : List Entry} (h : arrangedSegment o (s.map entries.get) = .ok ys) :
    ∃ pairs, SortsSegment o entries s pairs ∧
      ys = s.map fun i => entries.get (assigned pairs i) := by
  obtain ⟨slots, sorted, hslots, hsort, rfl⟩ := arrangedSegment_eq_ok.1 h
  obtain ⟨seats, ordered, rfl, rfl, hperm, hentry, -, hpairs⟩ := exists_seating hs hslots hsort
  have hlength : ordered.length = seats.length := hperm.length_eq
  have hfilter := hpairs.slots_eq_filter hs
  rw [List.map_fst_zip (by simp [hlength])] at hfilter
  refine ⟨_, hpairs, ?_⟩
  rw [onto_eq_map (hs.imp Fin.ne_of_lt) (fun p hp => hentry p (hperm.subset hp)) ?_, ← hfilter]
  rw [← hfilter, List.length_map, hlength]

lemma exists_parts_of_arranged {segs : List (List (Fin entries.length))}
    (hsegs : ∀ s ∈ segs, s.Pairwise (· < ·)) {yss : List (List Entry)}
    (h : List.Forall₂ (fun s ys => arrangedSegment o (s.map entries.get) = .ok ys) segs yss) :
    ∃ parts, List.Forall₂ (SortsSegment o entries) segs parts ∧
      List.Forall₂ (fun s ys => ∃ pairs ∈ parts, SortsSegment o entries s pairs ∧
        ys = s.map fun i => entries.get (assigned pairs i)) segs yss := by
  induction h with
  | nil => exact ⟨[], .nil, .nil⟩
  | cons hhere _ ih =>
    obtain ⟨parts, hparts, hrest⟩ := ih fun s hs => hsegs s (List.mem_cons_of_mem _ hs)
    obtain ⟨pairs, hpairs, hys⟩ :=
      exists_pairs_of_arrangedSegment (hsegs _ (List.mem_cons_self ..)) hhere
    refine ⟨pairs :: parts, .cons hpairs hparts,
      .cons ⟨pairs, List.mem_cons_self .., hpairs, hys⟩ (hrest.imp ?_)⟩
    rintro s ys ⟨pairs', hmem, hs⟩
    exact ⟨pairs', List.mem_cons_of_mem _ hmem, hs⟩

/-- Within a segment its own pairs say where entries go. -/
lemma assigned_flatten {parts : List (List (Fin entries.length × Fin entries.length))}
    (h : List.Forall₂ (SortsSegment o entries) (indexSegments entries) parts)
    {s : List (Fin entries.length)} {pairs : List (Fin entries.length × Fin entries.length)}
    (hpairs : pairs ∈ parts) (hsort : SortsSegment o entries s pairs) {i : Fin entries.length}
    (hi : i ∈ s) : assigned pairs i = assigned parts.flatten i := by
  have hnodup := slots_nodup h
  by_cases hmem : i ∈ pairs.map Prod.fst
  · obtain ⟨p, hp, rfl⟩ := List.mem_map.1 hmem
    have hsub : (pairs.map Prod.fst).Sublist (parts.flatten.map Prod.fst) :=
      (List.sublist_flatten_of_mem hpairs).map _
    rw [assigned_of_mem (hnodup.sublist hsub) hp,
      assigned_of_mem hnodup (List.mem_flatten.2 ⟨pairs, hpairs, hp⟩)]
  · rw [assigned_of_not_mem hmem, assigned_of_not_mem]
    intro hslot
    obtain ⟨name, -, hname⟩ := (mem_slots_iff h).1 hslot
    exact hmem ((hsort.named i).2 ⟨hi, name, hname⟩)

/-- **The sorted order is a sorting permutation of the entries.** -/
lemma exists_sorts_of_arranged {ys : List Entry} (h : arranged o entries = .ok ys) :
    ∃ σ : Equiv.Perm (Fin entries.length), Sorts o entries σ ∧
      ys = (List.finRange entries.length).map fun i => entries.get (σ i) := by
  simp only [arranged, Outcome.bind_eq_ok, Outcome.pure_eq_ok] at h
  obtain ⟨yss, hyss, rfl⟩ := h
  rw [← map_get_indexSegments, Outcome.mapM_eq_ok, List.forall₂_map_left_iff] at hyss
  obtain ⟨parts, hparts, hlists⟩ :=
    exists_parts_of_arranged (fun s hs => pairwise_of_mem_indexSegments hs) hyss
  obtain ⟨σ, hσ, hassigned⟩ := exists_sorts_of_parts hparts
  have hsegments : (indexSegments entries).map (List.map fun i => entries.get (σ i)) = yss := by
    have heq : List.Forall₂ (fun s ys => (s.map fun i => entries.get (σ i)) = ys)
        (indexSegments entries) yss := by
      refine hlists.imp ?_
      rintro s ys ⟨pairs, hpairs, hsort, rfl⟩
      refine List.map_congr_left fun i hi => ?_
      rw [hassigned, assigned_flatten hparts hpairs hsort hi]
    have hmap := List.forall₂_map_left_iff.2 heq
    rwa [List.forall₂_eq_eq_eq] at hmap
  -- spreads stay where they are
  have hspreads : (entries.filter fun e => e.kind == .spread) =
      ((List.finRange entries.length).filter fun i => (entries.get i).kind == .spread).map
        fun i => entries.get (σ i) := by
    have hall : entries = (List.finRange entries.length).map entries.get :=
      (List.map_get_finRange entries).symm
    conv => lhs; rw [hall]
    rw [List.filter_map]
    refine List.map_congr_left fun i hi => ?_
    have hkind : (entries.get i).kind = .spread := by simpa using (List.mem_filter.1 hi).2
    rw [hσ.fixed i fun ⟨name, hnamed⟩ => hnamed.1 hkind]
  refine ⟨σ, hσ, ?_⟩
  rw [← hsegments, hspreads, interleave_map, indexSegments, interleave_splitAt]

end Relocation

/-! ### The checker on the sorted order -/

/-- Names in order: each may follow all those before it. -/
def Rule.InOrder (o : Order) (items : List Rule.Item) : Prop :=
  items.Pairwise fun p q => o.check p.1 q.1 = .ok true

/-- A sweep over segments whose names are in order finds nothing. -/
lemma Rule.scan_eq_nil {o : Order} {previous : Option Item} {es s : List Entry}
    {ss : List (List Entry)} {items : List Item} (hsegments : segments es = s :: ss)
    (hitems : named s = .ok items) (hhere : InOrder o (previous.toList ++ items))
    (hrest : ∀ t ∈ ss, ∃ items, named t = .ok items ∧ InOrder o items) :
    scan o previous es = .ok [] := by
  induction es generalizing previous s ss items with
  | nil => rfl
  | cons e es ih =>
    obtain ⟨t, ts, hts⟩ := List.exists_cons_of_ne_nil
      (splitAt_ne_nil (fun e : Entry => e.kind == .spread) es)
    by_cases hkind : e.kind = .spread
    · -- a spread: the next segment starts afresh
      rw [segments_cons_spread hkind, show segments es = t :: ts from hts] at hsegments
      cases hsegments
      obtain ⟨items', hitems', hhere'⟩ := hrest t (List.mem_cons_self ..)
      rw [scan_spread hkind]
      exact ih hts hitems' hhere' fun u hu => hrest u (List.mem_cons_of_mem _ hu)
    · rw [segments_cons_property hkind hts] at hsegments
      cases hsegments
      obtain ⟨name, later, hname, hlater, rfl⟩ := named_cons_eq_ok.1 hitems
      cases name with
      | none =>
        rw [scan_unnamed hkind hname]
        exact ih hts hlater hhere hrest
      | some n =>
        cases previous with
        | none =>
          rw [scan_first hkind hname]
          exact ih hts hlater hhere hrest
        | some p =>
          have hcheck : o.check p.1 n = .ok true :=
            (List.pairwise_cons.1 hhere).1 (n, e) (List.mem_cons_self ..)
          exact scan_next hkind hname hcheck (ih hts hlater hhere.tail hrest)

namespace Relocation

variable {o : Order}

lemma name_of_namedFrom {i : Nat} {es : List Entry} {slots : List Named}
    (h : namedFrom i es = .ok slots) {x : Named} (hx : x ∈ slots) :
    x.entry.name = .ok (some x.name) := by
  induction es generalizing i slots with
  | nil =>
    cases h
    exact absurd hx List.not_mem_nil
  | cons e es ih =>
    rw [namedFrom] at h
    obtain ⟨name, hname, h⟩ := Outcome.bind_eq_ok.1 h
    cases name with
    | none => exact ih h hx
    | some n =>
      obtain ⟨rest, hrest, h⟩ := Outcome.bind_eq_ok.1 h
      obtain rfl := Outcome.pure_eq_ok.1 h
      rcases List.mem_cons.1 hx with rfl | hx
      · exact hname
      · exact ih hrest hx

/-- The named entries of a segment after others have been put on their places. -/
lemma named_onto {i : Nat} {es : List Entry} {slots xs : List Named}
    (hslots : namedFrom i es = .ok slots) (hlength : xs.length = slots.length)
    (hxs : ∀ x ∈ xs, x.entry.name = .ok (some x.name)) :
    Rule.named (onto es xs) = .ok (xs.map fun x => (x.name, x.entry)) := by
  induction es generalizing i slots xs with
  | nil =>
    cases hslots
    rw [List.eq_nil_of_length_eq_zero hlength]
    rfl
  | cons e es ih =>
    rw [namedFrom] at hslots
    obtain ⟨name, hname, hslots⟩ := Outcome.bind_eq_ok.1 hslots
    cases name with
    | none =>
      have hstep : onto (e :: es) xs = e :: onto es xs := by
        have hnone : e.hasName = false := by
          rw [Entry.hasName, hname]
        cases xs with
        | nil => rfl
        | cons x xs => rw [onto, hnone, if_neg Bool.false_ne_true]
      rw [hstep]
      exact Rule.named_cons_eq_ok.2 ⟨none, _, hname, ih hslots hlength hxs, rfl⟩
    | some n =>
      obtain ⟨rest, hrest, hslots⟩ := Outcome.bind_eq_ok.1 hslots
      obtain rfl := Outcome.pure_eq_ok.1 hslots
      obtain ⟨x, xs, rfl⟩ := List.exists_cons_of_length_eq_add_one hlength
      rw [onto, if_pos (Entry.hasName_iff.2 ⟨n, hname⟩)]
      exact Rule.named_cons_eq_ok.2 ⟨some x.name, _, hxs x (List.mem_cons_self ..),
        ih hrest (Nat.succ.inj hlength) fun y hy => hxs y (List.mem_cons_of_mem _ hy), rfl⟩

lemma mem_of_mem_onto {es : List Entry} {xs : List Named} {y : Entry} (hy : y ∈ onto es xs) :
    y ∈ es ∨ ∃ x ∈ xs, x.entry = y := by
  fun_induction onto es xs with
  | case1 => exact absurd hy List.not_mem_nil
  | case2 e es ih =>
    rcases List.mem_cons.1 hy with rfl | hy
    · exact .inl (List.mem_cons_self ..)
    · exact (ih hy).imp_left (List.mem_cons_of_mem _)
  | case3 e es x xs _ ih =>
    rcases List.mem_cons.1 hy with rfl | hy
    · exact .inr ⟨x, List.mem_cons_self .., rfl⟩
    · exact (ih hy).imp (List.mem_cons_of_mem _) fun ⟨z, hz, hzy⟩ =>
        ⟨z, List.mem_cons_of_mem _ hz, hzy⟩
  | case4 e es x xs _ ih =>
    rcases List.mem_cons.1 hy with rfl | hy
    · exact .inl (List.mem_cons_self ..)
    · exact (ih hy).imp_left (List.mem_cons_of_mem _)

/-- The names of a sorted segment are in order, and its entries are those of the segment. -/
lemma inOrder_of_arrangedSegment {segment ys : List Entry}
    (h : arrangedSegment o segment = .ok ys) :
    (∃ items, Rule.named ys = .ok items ∧ Rule.InOrder o items) ∧ ∀ y ∈ ys, y ∈ segment := by
  obtain ⟨slots, ordered, hslots, hsort, rfl⟩ := arrangedSegment_eq_ok.1 h
  have hperm := Order.sortOn_perm hsort
  refine ⟨⟨_, named_onto hslots hperm.length_eq fun x hx =>
    name_of_namedFrom hslots (hperm.subset hx), ?_⟩, fun y hy => ?_⟩
  · exact List.pairwise_map.2 (Order.sortOn_pairwise hsort)
  · rcases mem_of_mem_onto hy with hy | ⟨x, hx, rfl⟩
    · exact hy
    · exact entry_mem_of_namedFrom hslots (hperm.subset hx)

/-- A sweep over the sorted order finds nothing. -/
lemma scan_arranged {entries ys : List Entry} (h : arranged o entries = .ok ys) :
    Rule.scan o none ys = .ok [] := by
  simp only [arranged, Outcome.bind_eq_ok, Outcome.pure_eq_ok] at h
  obtain ⟨yss, hyss, rfl⟩ := h
  have hsegs := Outcome.mapM_eq_ok.1 hyss
  have hlength : yss.length = (entries.filter fun e => e.kind == .spread).length + 1 := by
    rw [← hsegs.length_eq]
    exact length_splitAt _ _
  have hkinds : ∀ ys ∈ yss, ∀ y ∈ ys, (y.kind == .spread) = false := by
    intro ys hys y hy
    obtain ⟨segment, hsegment, harranged⟩ := Outcome.exists_of_mem_mapM hyss hys
    have hy' := (inOrder_of_arrangedSegment harranged).2 y hy
    have hmem : y ∈ (segments entries).flatten := List.mem_flatten.2 ⟨segment, hsegment, hy'⟩
    rw [segments, flatten_splitAt] at hmem
    simpa using (List.mem_filter.1 hmem).2
  have hsegments : segments (interleave yss (entries.filter fun e => e.kind == .spread)) = yss :=
    splitAt_interleave hlength hkinds fun e he => (List.mem_filter.1 he).2
  have hinOrder : ∀ ys ∈ yss, ∃ items, Rule.named ys = .ok items ∧ Rule.InOrder o items := by
    intro ys hys
    obtain ⟨segment, -, harranged⟩ := Outcome.exists_of_mem_mapM hyss hys
    exact (inOrder_of_arrangedSegment harranged).1
  obtain ⟨ys, rest, rfl⟩ : ∃ ys rest, yss = ys :: rest := by
    cases yss with
    | nil => cases hlength
    | cons ys rest => exact ⟨ys, rest, rfl⟩
  obtain ⟨items, hitems, hhere⟩ := hinOrder ys (List.mem_cons_self ..)
  exact Rule.scan_eq_nil hsegments hitems hhere fun t ht => hinOrder t (List.mem_cons_of_mem _ ht)

end Relocation

namespace Checker

variable {c : Configuration}

/-- An entry at which the sweep finds nothing only changes what its scope remembers. -/
lemma step_entry_of_scan (src : Source) {st : State} {k : Container} {e : Entry} {es : List Entry}
    {scope : Scope} {outer : List Scope} (hscopes : st.scopes = scope :: outer)
    (hpath : scope.container.path = k.path)
    (hscan : Rule.covers c k = true → Rule.scan c.order scope.previous (e :: es) = .ok []) :
    ∃ previous, step src c st (.entry k e) =
        .ok { st with scopes := ⟨scope.container, previous⟩ :: outer } ∧
      (Rule.covers c k = true → Rule.scan c.order previous es = .ok []) := by
  by_cases hkind : e.kind = .spread
  · refine ⟨none, step_spread hscopes hkind, fun hcovers => ?_⟩
    rw [← hscan hcovers, Rule.scan_spread hkind]
  · rw [step_property hscopes hkind, if_pos hpath]
    have hsame : { st with scopes := ⟨scope.container, scope.previous⟩ :: outer } = st := by
      rw [← hscopes]
    cases hcovers : Rule.covers c k with
    | false => exact ⟨scope.previous, by rw [property_uncovered hcovers, hsame], nofun⟩
    | true =>
      have hscan := hscan hcovers
      rw [Rule.scan, if_neg hkind] at hscan
      obtain ⟨name, hname, hscan⟩ := Outcome.bind_eq_ok.1 hscan
      cases name with
      | none =>
        exact ⟨scope.previous, by rw [property_unnamed hcovers hname, hsame], fun _ => hscan⟩
      | some n =>
        cases hprevious : scope.previous with
        | none =>
          rw [hprevious] at hscan
          exact ⟨some (n, e), property_first hcovers hname hprevious, fun _ => hscan⟩
        | some p =>
          rw [hprevious] at hscan
          obtain ⟨inOrder, hcheck, hscan⟩ := Outcome.bind_eq_ok.1 hscan
          obtain ⟨later, hlater, hscan⟩ := Outcome.bind_eq_ok.1 hscan
          cases inOrder with
          | false => cases hscan
          | true =>
            cases hscan
            refine ⟨some (n, e), ?_, fun _ => hlater⟩
            rw [property_next hcovers hname hprevious, hcheck]
            rfl

/-- Entries in which the sweep finds nothing are gone through without a report. -/
lemma foldlM_entries_of_scan (src : Source) {k : Container} {es : List Entry} (st : State)
    {scope : Scope} {outer : List Scope} (hscopes : st.scopes = scope :: outer)
    (hpath : scope.container.path = k.path)
    (hscan : Rule.covers c k = true → Rule.scan c.order scope.previous es = .ok []) :
    ∃ previous, (es.map (Event.entry k)).foldlM (step src c) st =
      .ok { st with scopes := ⟨scope.container, previous⟩ :: outer } := by
  induction es generalizing st scope with
  | nil => exact ⟨scope.previous, by rw [← hscopes]; rfl⟩
  | cons e es ih =>
    obtain ⟨previous, hstep, hrest⟩ := step_entry_of_scan src hscopes hpath hscan
    obtain ⟨last, hfold⟩ := ih { st with scopes := ⟨scope.container, previous⟩ :: outer } rfl hpath
      hrest
    refine ⟨last, ?_⟩
    rw [List.map_cons, List.foldlM_cons, hstep]
    exact hfold

/-- A container in which the sweep finds nothing has no problems. -/
lemma run_of_scan (src : Source) {k : Container}
    (hscan : Rule.scan c.order none k.entries = .ok []) :
    ∃ st, run src c ⟨.enter k :: (k.entries.map (Event.entry k) ++ [.leave k]), none⟩ = .ok st ∧
      st.problems = [] := by
  obtain ⟨previous, hfold⟩ := foldlM_entries_of_scan src
    { State.initial c with scopes := [⟨k, none⟩] } rfl rfl fun _ => hscan
  refine ⟨State.initial c, ?_, rfl⟩
  have hevents : (Event.enter k :: (k.entries.map (Event.entry k) ++ [.leave k])).foldlM
      (step src c) (.initial c) = .ok (.initial c) := by
    rw [List.foldlM_cons]
    refine Outcome.bind_eq_ok.2 ⟨_, rfl, ?_⟩
    rw [List.foldlM_append]
    refine Outcome.bind_eq_ok.2 ⟨_, hfold, ?_⟩
    rw [List.foldlM_cons]
    exact Outcome.bind_eq_ok.2 ⟨_, if_pos rfl, rfl⟩
  exact Outcome.bind_eq_ok.2 ⟨_, hevents, rfl⟩

end Checker

/-! ### What the sorted order is -/

/-- **The sorted order.**  For every list of entries and every order, unless a number has too many
digits: sorting the named entries of each segment onto their places permutes the entries.  The
permutation sorts, no other one does, and the edits of a container with these entries are its moves.
The checker goes through a container with the entries in this order without finding a problem. -/
theorem arranged_sorts_uniquely {o : Order} {entries : List Entry}
    (h : ∀ f, f.IsDigitLimit → Relocation.arranged o entries ≠ .error f) :
    ∃ (ys : List Entry) (σ : Equiv.Perm (Fin entries.length)),
      Relocation.arranged o entries = .ok ys ∧
      ys = (List.finRange entries.length).map (fun i => entries.get (σ i)) ∧
      Sorts o entries σ ∧ (∀ τ, Sorts o entries τ → τ = σ) ∧
      (∀ (src : Source) (kind : ContainerKind) (range : Range) (path : List Nat) (es : List Edit),
        Relocation.edits src o ⟨kind, range, entries, path⟩ = .ok es →
          Relocation.Moves src entries ((List.finRange entries.length).map fun i => (i, σ i)) es) ∧
      ∀ (src : Source) (c : Configuration) (k : Container), c.order = o → k.entries = ys →
        ∃ st,
          Checker.run src c ⟨.enter k :: (ys.map (Event.entry k) ++ [.leave k]), none⟩ = .ok st ∧
            st.problems = [] := by
  obtain ⟨ys, hys⟩ : ∃ ys, Relocation.arranged o entries = .ok ys := by
    cases harranged : Relocation.arranged o entries with
    | ok ys => exact ⟨ys, rfl⟩
    | error f =>
      exact absurd harranged (h f (Relocation.faultsIn_arranged o entries f harranged))
  obtain ⟨σ, hσ, hmap⟩ := Relocation.exists_sorts_of_arranged hys
  refine ⟨ys, σ, hys, hmap, hσ, fun τ hτ => hτ.unique hσ, fun src kind range path es hes => ?_, ?_⟩
  · obtain ⟨τ, hτ, hmoves⟩ := Relocation.exists_sorts hes
    rwa [hτ.unique hσ] at hmoves
  · rintro src c k rfl rfl
    exact Checker.run_of_scan src (Relocation.scan_arranged hys)

namespace Sample

/-- The entries `b`, `a`, a spread, `c`, one without a name, `B`, `a` and `c` again. -/
def mixed : List Entry :=
  [⟨.property, some (.keyword [98]), ⟨0, 1⟩, ⟨0, 1⟩, 1, 1⟩,
    ⟨.property, some (.keyword [97]), ⟨2, 3⟩, ⟨2, 3⟩, 1, 1⟩,
    ⟨.spread, none, ⟨4, 5⟩, ⟨4, 5⟩, 1, 1⟩,
    ⟨.property, some (.keyword [99]), ⟨6, 7⟩, ⟨6, 7⟩, 1, 1⟩,
    ⟨.property, some (.expression default), ⟨8, 9⟩, ⟨8, 9⟩, 1, 1⟩,
    ⟨.property, some (.keyword [66]), ⟨10, 11⟩, ⟨10, 11⟩, 1, 1⟩,
    ⟨.property, some (.keyword [97]), ⟨12, 13⟩, ⟨12, 13⟩, 1, 1⟩,
    ⟨.property, some (.keyword [99]), ⟨14, 15⟩, ⟨14, 15⟩, 1, 1⟩]

end Sample

/-- In descending order, without regard to case, the mixed entries become `b`, `a`, the spread, the
first `c`, the one without a name, the second `c`, `B` and `a`. -/
theorem arranged_sorts_uniquely_mixed :
    ∃ (ys : List Entry) (σ : Equiv.Perm (Fin Sample.mixed.length)),
      Relocation.arranged ⟨.descending, true, false⟩ Sample.mixed = .ok ys ∧
      ys.map (·.range.start) = [0, 2, 4, 6, 8, 14, 10, 12] ∧
      ys = (List.finRange Sample.mixed.length).map (fun i => Sample.mixed.get (σ i)) ∧
      Sorts ⟨.descending, true, false⟩ Sample.mixed σ ∧
      ∀ τ, Sorts ⟨.descending, true, false⟩ Sample.mixed τ → τ = σ := by
  have hrun : (Relocation.arranged ⟨.descending, true, false⟩ Sample.mixed).toOption.map
      (List.map (·.range.start)) = some [0, 2, 4, 6, 8, 14, 10, 12] := by
    decide +kernel
  obtain ⟨ys, hys, hstarts⟩ := Outcome.exists_of_toOption_map hrun
  have hdigits : ∀ f, f.IsDigitLimit →
      Relocation.arranged ⟨.descending, true, false⟩ Sample.mixed ≠ .error f := by
    intro f _ hf
    rw [hys] at hf
    cases hf
  obtain ⟨zs, σ, hzs, hmap, hσ, hunique, -, -⟩ := arranged_sorts_uniquely hdigits
  obtain rfl : ys = zs := by
    rw [hys] at hzs
    cases hzs
    rfl
  exact ⟨ys, σ, hys, hstarts, hmap, hσ, hunique⟩

end KeyOrder
