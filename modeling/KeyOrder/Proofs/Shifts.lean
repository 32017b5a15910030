import KeyOrder.Proofs.Arrangement
import KeyOrder.Proofs.Scanning

/-!
# What a relocation shifts

The edits of a relocation come in groups.  An entry takes the place of another one, comments leave
one place and come to another, and a line break is put in.  Every comment that leaves comes back in
the same group, and the entries that are put in are those that are replaced.  None of this needs to
know how the container is laid out.
-/

namespace KeyOrder

/-- A group of edits of a relocation. -/
inductive Shift where
  /-- The entry of a range comes to a slot. -/
  | entry (slot range : Range)
  /-- Comments leave a range and come to an offset. -/
  | comments (range : Range) (target : Nat)
  /-- A line break is put in. -/
  | lineBreak (offset : Nat)
deriving Repr, DecidableEq

namespace Shift

/-- The edits of a group. -/
def edits (src : Source) : Shift → List Edit
  | entry slot range => [Edit.replace slot (src.slice range)]
  | comments range target => [Edit.remove range, ⟨⟨target, target⟩, src.slice range⟩]
  | lineBreak offset => [⟨⟨offset, offset⟩, ['\n']⟩]

def slot? : Shift → Option Range
  | entry slot _ => some slot
  | _ => none

def entry? : Shift → Option Range
  | entry _ range => some range
  | _ => none

/-- What is replaced or leaves does not end before it starts. -/
def Forward : Shift → Prop
  | entry slot _ => slot.start ≤ slot.stop
  | comments range _ => range.start ≤ range.stop
  | lineBreak _ => True

/-- Groups that move no entry. -/
structure Loose (shifts : List Shift) : Prop where
  slots : shifts.filterMap slot? = []
  entries : shifts.filterMap entry? = []
  forward : ∀ s ∈ shifts, s.Forward

/-- The entries that come to slots are those of the slots, in another order. -/
structure Settled (shifts : List Shift) : Prop where
  entries : (shifts.filterMap entry?).Perm (shifts.filterMap slot?)
  forward : ∀ s ∈ shifts, s.Forward

lemma Loose.nil : Loose [] := ⟨rfl, rfl, by simp⟩

lemma Loose.append {a b : List Shift} (ha : Loose a) (hb : Loose b) : Loose (a ++ b) := by
  refine ⟨?_, ?_, fun s hs => ?_⟩
  · rw [List.filterMap_append, ha.slots, hb.slots, List.append_nil]
  · rw [List.filterMap_append, ha.entries, hb.entries, List.append_nil]
  · exact (List.mem_append.1 hs).elim (ha.forward s) (hb.forward s)

lemma Loose.comments (range : Range) (h : range.start ≤ range.stop) (target : Nat) :
    Loose [.comments range target] := by
  refine ⟨rfl, rfl, fun s hs => ?_⟩
  obtain rfl := List.mem_singleton.1 hs
  exact h

lemma Loose.lineBreak (offset : Nat) : Loose [.lineBreak offset] := by
  refine ⟨rfl, rfl, fun s hs => ?_⟩
  obtain rfl := List.mem_singleton.1 hs
  trivial

lemma Settled.append {a b : List Shift} (ha : Settled a) (hb : Settled b) : Settled (a ++ b) := by
  refine ⟨?_, fun s hs => (List.mem_append.1 hs).elim (ha.forward s) (hb.forward s)⟩
  rw [List.filterMap_append, List.filterMap_append]
  exact ha.entries.append hb.entries

lemma forward_of_mem_edits {src : Source} {s : Shift} (hs : s.Forward) {e : Edit}
    (he : e ∈ s.edits src) : e.range.start ≤ e.range.stop := by
  cases s with
  | entry slot range =>
    obtain rfl := List.mem_singleton.1 he
    exact hs
  | comments range target =>
    rcases List.mem_pair.1 he with rfl | rfl
    · exact hs
    · exact Nat.le_refl _
  | lineBreak offset =>
    obtain rfl := List.mem_singleton.1 he
    exact Nat.le_refl _

end Shift

namespace Relocation

variable {src : Source}

/-! ### Comments that move with an entry -/

/-- The lines of two tokens of which one stands before the other. -/
lemma endLine_le_of_before (hsrc : src.Ordered) (hlines : src.LinesGrow) {a b : Token}
    (ha : a ∈ src.tokens.toList) (hb : b ∈ src.tokens.toList) (hab : a.Before b) :
    a.endLine ≤ b.startLine := by
  rcases eq_or_rel_of_mem (hsrc.pairwise.and hlines.pairwise) ha hb with rfl | ⟨-, hle⟩ | ⟨hba, -⟩
  · exact absurd hab hab.asymm
  · exact hle
  · exact absurd hab hba.asymm

/-- The comments above an entry that it owns end after those that it does not own. -/
lemma start_le_of_leading (hsrc : src.Ordered) (hlines : src.LinesGrow) {e : Entry}
    {before last : Token} (hbefore : src.codeBefore e.range.start = some before)
    (hlast : (commentsBefore src e before).leading.getLast? = some last) :
    ((commentsBefore src e before).kept.getLast?.map (·.range.stop)).getD before.range.stop ≤
      last.range.stop := by
  obtain ⟨hmem, hline⟩ := List.mem_filter.1 (List.mem_of_getLast? hlast)
  obtain ⟨hbtokens, hbcode, hbstop, -⟩ := hsrc.tokenBefore_eq_some.1 hbefore
  obtain ⟨htokens, -, -, hcode⟩ := hsrc.mem_commentsBefore.1 hmem
  have hbl := hcode before hbtokens (by simpa using hbcode) hbstop
  cases hkept : (commentsBefore src e before).kept.getLast? with
  | none =>
    obtain ⟨-, hle, hlt⟩ := hbl
    simp only [Option.map_none, Option.getD_none]
    omega
  | some t =>
    obtain ⟨htmem, htline⟩ := List.mem_filter.1 (List.mem_of_getLast? hkept)
    have httokens := (hsrc.mem_commentsBefore.1 htmem).1
    simp only [Option.map_some, Option.getD_some]
    rcases hsrc.trichotomy httokens htokens with rfl | ⟨-, htl, htl'⟩ | hlt
    · exact Nat.le_refl _
    · omega
    · -- then it would be on the line of the code before it, too
      have h1 := endLine_le_of_before hsrc hlines hbtokens htokens hbl
      have h2 := hlines.each last htokens
      have h3 := endLine_le_of_before hsrc hlines htokens httokens hlt
      rw [beq_iff_eq.1 htline] at h3
      exact absurd (Nat.le_antisymm (Nat.le_trans h2 h3) h1) (bne_iff_ne.1 hline)

lemma exists_shifts_of_moveLeading (hsrc : src.Ordered) (hlines : src.LinesGrow) {e slot : Entry}
    {es : List Edit} (h : moveLeading src e slot = .ok es) :
    ∃ shifts, Shift.Loose shifts ∧ es = shifts.flatMap (Shift.edits src) := by
  unfold moveLeading at h
  cases hbefore : src.codeBefore e.range.start with
  | none =>
    rw [hbefore] at h
    cases h
  | some before =>
    rw [hbefore] at h
    simp only at h
    cases hlast : (commentsBefore src e before).leading.getLast? with
    | none =>
      rw [hlast] at h
      cases h
      exact ⟨[], .nil, rfl⟩
    | some last =>
      have hle := start_le_of_leading hsrc hlines hbefore hlast
      rw [hlast] at h
      simp only at h
      cases hanchor : src.tokenBefore true slot.range.start with
      | none =>
        rw [hanchor] at h
        cases h
      | some anchor =>
        rw [hanchor] at h
        cases h
        have hcarried := Shift.Loose.comments ⟨_, last.range.stop⟩ hle anchor.range.stop
        split
        · exact ⟨_, hcarried.append (.lineBreak slot.range.start), rfl⟩
        · exact ⟨_, hcarried, rfl⟩

lemma exists_shifts_of_moveTrailing (hsrc : src.Ordered) (e slot : Entry) :
    ∃ shifts, Shift.Loose shifts ∧
      moveTrailing src e slot = shifts.flatMap (Shift.edits src) := by
  unfold moveTrailing
  cases hlast : (trailingComments src e).getLast? with
  | none => exact ⟨[], .nil, rfl⟩
  | some last =>
    have hmem := (List.mem_filter.1 (List.mem_of_getLast? hlast)).1
    obtain ⟨htokens, -, hstart, -⟩ := hsrc.mem_commentsAfter.1 hmem
    have hlt := hsrc.nonempty last htokens
    have hle : (commaAfter src e).1.stop ≤ last.range.stop := by omega
    have hcarried := Shift.Loose.comments ⟨_, last.range.stop⟩ hle
      (commaAfter src slot).1.stop
    dsimp only
    split
    · split
      · exact ⟨_, hcarried.append (.lineBreak _), rfl⟩
      · exact ⟨_, hcarried, rfl⟩
    · exact ⟨_, hcarried, rfl⟩

/-- Moving an entry shifts it to its slot; all other groups carry comments or line breaks. -/
lemma exists_shifts_of_move (hsrc : src.Ordered) (hlines : src.LinesGrow) {e slot : Entry}
    {es : List Edit} (h : move src e slot = .ok es) :
    ∃ shifts, Shift.Loose shifts ∧
      es = (Shift.entry slot.range e.range :: shifts).flatMap (Shift.edits src) := by
  obtain ⟨leading, hleading, h⟩ := Outcome.bind_eq_ok.1 h
  obtain rfl := Outcome.pure_eq_ok.1 h
  obtain ⟨above, habove, rfl⟩ := exists_shifts_of_moveLeading hsrc hlines hleading
  obtain ⟨after, hafter, htrailing⟩ := exists_shifts_of_moveTrailing hsrc e slot
  refine ⟨above ++ after, habove.append hafter, ?_⟩
  rw [htrailing, List.flatMap_cons, List.flatMap_append]
  rfl

/-! ### Entries that move to slots -/

/-- The slots that get another entry, each with it. -/
def moved (ordered slots : List Named) : List (Named × Named) :=
  (ordered.zip slots).filter fun p => p.1.index != p.2.index

lemma exists_shifts_of_moveAll (hsrc : src.Ordered) (hlines : src.LinesGrow)
    {ordered slots : List Named} {es : List Edit}
    (hslots : ∀ s ∈ slots, s.entry.range.start ≤ s.entry.range.stop)
    (h : moveAll src ordered slots = .ok es) :
    ∃ shifts : List Shift, es = shifts.flatMap (Shift.edits src) ∧ (∀ s ∈ shifts, s.Forward) ∧
      shifts.filterMap Shift.slot? = (moved ordered slots).map (·.2.entry.range) ∧
      shifts.filterMap Shift.entry? = (moved ordered slots).map (·.1.entry.range) := by
  induction ordered generalizing slots es with
  | nil =>
    cases h
    exact ⟨[], rfl, by simp, rfl, rfl⟩
  | cons x ordered ih =>
    cases slots with
    | nil =>
      cases h
      exact ⟨[], rfl, by simp, rfl, rfl⟩
    | cons s slots =>
      obtain ⟨here, rest, hhere, hrest, rfl⟩ := moveAll_cons_eq_ok.1 h
      obtain ⟨later, rfl, hforward, hslot, hentry⟩ :=
        ih (fun s' hs' => hslots s' (List.mem_cons_of_mem _ hs')) hrest
      split at hhere
      · -- the entry is at its slot
        rename_i hindex
        cases hhere
        have hskip : moved (x :: ordered) (s :: slots) = moved ordered slots := by
          rw [moved, List.zip_cons_cons, List.filter_cons_of_neg (by simp [hindex])]
          rfl
        rw [hskip]
        exact ⟨later, rfl, hforward, hslot, hentry⟩
      · rename_i hindex
        obtain ⟨loose, hloose, rfl⟩ := exists_shifts_of_move hsrc hlines hhere
        have hmoved : moved (x :: ordered) (s :: slots) = (x, s) :: moved ordered slots := by
          rw [moved, List.zip_cons_cons, List.filter_cons_of_pos (by simp [hindex])]
          rfl
        refine ⟨.entry s.entry.range x.entry.range :: loose ++ later,
          by rw [List.flatMap_append], fun t ht => ?_, ?_, ?_⟩
        · rcases List.mem_append.1 ht with ht | ht
          · rcases List.mem_cons.1 ht with rfl | ht
            · exact hslots s (List.mem_cons_self ..)
            · exact hloose.forward t ht
          · exact hforward t ht
        · rw [hmoved, List.filterMap_append, List.filterMap_cons, hloose.slots, hslot]
          rfl
        · rw [hmoved, List.filterMap_append, List.filterMap_cons, hloose.entries, hentry]
          rfl

/-- Pairs of which some are dropped that pair an item with itself. -/
lemma perm_of_filter {α : Type} {ps : List (α × α)} {p : α × α → Bool}
    (hp : ∀ q ∈ ps, p q = false → q.1 = q.2) (h : (ps.map Prod.fst).Perm (ps.map Prod.snd)) :
    ((ps.filter p).map Prod.fst).Perm ((ps.filter p).map Prod.snd) := by
  have hsplit := List.filter_append_perm p ps
  have hsame : (ps.filter fun q => !p q).map Prod.fst = (ps.filter fun q => !p q).map Prod.snd := by
    refine List.map_congr_left fun q hq => ?_
    obtain ⟨hq, hpq⟩ := List.mem_filter.1 hq
    exact hp q hq (by simpa using hpq)
  have hfst := hsplit.map Prod.fst
  have hsnd := hsplit.map Prod.snd
  rw [List.map_append] at hfst hsnd
  rw [hsame] at hfst
  exact (List.perm_append_right_iff _).1 (hfst.trans (h.trans hsnd.symm))

lemma entry_mem_of_namedFrom {i : Nat} {es : List Entry} {slots : List Named}
    (h : namedFrom i es = .ok slots) {x : Named} (hx : x ∈ slots) : x.entry ∈ es := by
  have hnamed := named_of_namedFrom h
  obtain ⟨names, -, hitems⟩ := Outcome.bind_eq_ok.1 hnamed
  have hmem : (x.name, x.entry) ∈ slots.map fun x => (x.name, x.entry) := List.mem_map_of_mem hx
  rw [← Outcome.pure_eq_ok.1 hitems] at hmem
  obtain ⟨p, hp, hpx⟩ := List.mem_filterMap.1 hmem
  obtain ⟨name, -, heq⟩ := Option.map_eq_some_iff.1 hpx
  have hentry : p.2 = x.entry := congrArg Prod.snd heq
  rw [← hentry]
  exact (List.of_mem_zip hp).2

/-- The entries of a segment are put on the slots of that segment. -/
lemma exists_shifts_of_sortSegment (hsrc : src.Ordered) (hlines : src.LinesGrow) {o : Order}
    {segment : List Entry} {es : List Edit}
    (hentries : ∀ e ∈ segment, e.range.start ≤ e.range.stop)
    (h : sortSegment src o segment = .ok es) :
    ∃ shifts, Shift.Settled shifts ∧ es = shifts.flatMap (Shift.edits src) := by
  obtain ⟨slots, ordered, hslots, hsort, hmoves⟩ := sortSegment_eq_ok.1 h
  obtain ⟨shifts, hes, hforward, hslot, hentry⟩ := exists_shifts_of_moveAll hsrc hlines
    (fun s hs => hentries _ (entry_mem_of_namedFrom hslots hs)) hmoves
  have hperm := Order.sortOn_perm hsort
  have hlength := hperm.length_eq
  have hindex := pairwise_index_of_namedFrom hslots
  refine ⟨shifts, ⟨?_, hforward⟩, hes⟩
  have hmoved : ((moved ordered slots).map Prod.fst).Perm ((moved ordered slots).map Prod.snd) := by
    refine perm_of_filter (fun q hq hsame => ?_) ?_
    · -- a slot is told by its number
      obtain ⟨h1, h2⟩ := List.of_mem_zip hq
      have hsame : q.1.index = q.2.index := by simpa using hsame
      rcases eq_or_rel_of_mem hindex (hperm.subset h1) h2 with heq | hlt | hlt
      · exact heq
      · omega
      · omega
    · rw [List.map_fst_zip (by omega), List.map_snd_zip (by omega)]
      exact hperm
  rw [hslot, hentry]
  have hranges := hmoved.map fun x => x.entry.range
  rwa [List.map_map, List.map_map] at hranges

lemma mem_of_mem_segments {entries segment : List Entry} (hsegment : segment ∈ segments entries)
    {e : Entry} (he : e ∈ segment) : e ∈ entries := by
  have hmem : e ∈ (segments entries).flatten := List.mem_flatten.2 ⟨segment, hsegment, he⟩
  rw [segments, flatten_splitAt] at hmem
  exact (List.mem_filter.1 hmem).1

lemma exists_shifts_of_segments (hsrc : src.Ordered) (hlines : src.LinesGrow) {o : Order}
    {ss : List (List Entry)} {ess : List (List Edit)}
    (hentries : ∀ s ∈ ss, ∀ e ∈ s, e.range.start ≤ e.range.stop)
    (h : List.Forall₂ (fun s es => sortSegment src o s = .ok es) ss ess) :
    ∃ shifts, Shift.Settled shifts ∧ ess.flatten = shifts.flatMap (Shift.edits src) := by
  induction h with
  | nil => exact ⟨[], ⟨.refl _, by simp⟩, rfl⟩
  | cons hhere _ ih =>
    obtain ⟨first, hfirst, rfl⟩ := exists_shifts_of_sortSegment hsrc hlines
      (hentries _ (List.mem_cons_self ..)) hhere
    obtain ⟨rest, hrest, hes⟩ := ih fun s hs => hentries s (List.mem_cons_of_mem _ hs)
    exact ⟨first ++ rest, hfirst.append hrest, by rw [List.flatten_cons, hes, List.flatMap_append]⟩

/-- **The edits of a relocation come in groups**: entries change places among themselves, and
comments that leave come to another place. -/
lemma exists_shifts (hsrc : src.Ordered) (hlines : src.LinesGrow) {o : Order} {k : Container}
    {es : List Edit} (hentries : ∀ e ∈ k.entries, e.range.start ≤ e.range.stop)
    (h : edits src o k = .ok es) :
    ∃ shifts, Shift.Settled shifts ∧ es = shifts.flatMap (Shift.edits src) := by
  simp only [edits, Outcome.bind_eq_ok, Outcome.pure_eq_ok] at h
  obtain ⟨ess, hess, rfl⟩ := h
  exact exists_shifts_of_segments hsrc hlines
    (fun s hs e he => hentries e (mem_of_mem_segments hs he)) (Outcome.mapM_eq_ok.1 hess)

end Relocation

end KeyOrder
