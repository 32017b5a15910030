import KeyOrder.Proofs.Frame
import KeyOrder.Proofs.Merge
import Mathlib.Data.List.FinRange

/-!
# The changes of a rearrangement

A rearrangement says for each slot of a container which entry goes there.  Every entry that moves
makes up to seven changes: its text replaces that of the slot, its comments are taken out in two
places and put in at two others, and two line breaks may be needed.

Each kind of change has its place in the sequence of all offsets of all frames.  Numbered by it, a
change lies between two neighbouring offsets of the sequence, so changes with different numbers
never overlap, and changes at one offset are made in the order of their numbers.  Hence the order in
which edits are merged is the order of the numbers.
-/

namespace KeyOrder

namespace Frame

/-- The frames of the entries of a container between two offsets. -/
structure Sequence {n : Nat} (f : Fin n → Frame) (lo hi : Nat) : Prop where
  ordered : ∀ i, (f i).Ordered
  follows : ∀ i j : Fin n, i.val + 1 = j.val → (f j).Follows (f i)
  first : ∀ i : Fin n, i.val = 0 → lo ≤ (f i).before
  last : ∀ i : Fin n, i.val + 1 = n →
    (f i).trail ≤ hi ∧ ∀ o ∈ (f i).break?, (f i).trail ≤ o ∧ o ≤ hi

/-! ### Cuts -/

/-- The offsets of a frame between which changes lie, in order. -/
def cut (f : Frame) : Nat → Nat
  | 0 => f.kept
  | 1 => f.anchor
  | 2 => f.anchor
  | 3 => f.start
  | 4 => f.start
  | 5 => f.start
  | 6 => f.stop
  | 7 => f.comma
  | _ => f.trail

/-- The cuts of all frames, nine for each, and the offset after the last of them. -/
def cuts {n : Nat} (f : Fin n → Frame) (hi : Nat) (k : Nat) : Nat :=
  if h : k / 9 < n then (f ⟨k / 9, h⟩).cut (k % 9) else hi

section Cuts

variable {n : Nat} {f : Fin n → Frame} {lo hi : Nat}

lemma cuts_eq (f : Fin n → Frame) (hi : Nat) (i : Fin n) {r : Nat} (hr : r < 9) :
    cuts f hi (9 * i.val + r) = (f i).cut r := by
  have hdiv : (9 * i.val + r) / 9 = i.val := by omega
  have hmod : (9 * i.val + r) % 9 = r := by omega
  simp only [cuts, hdiv, hmod, Fin.is_lt, dite_true, Fin.eta]

lemma cuts_of_le (f : Fin n → Frame) (hi : Nat) {k : Nat} (hk : 9 * n ≤ k) : cuts f hi k = hi :=
  dif_neg (by omega)

lemma cut_le_succ {g : Frame} (hg : g.Ordered) {r : Nat} (hr : r < 8) :
    g.cut r ≤ g.cut (r + 1) := by
  obtain ⟨-, hkept, hanchor, hstart, hstop, hcomma⟩ := hg
  match r, hr with
  | 0, _ => exact hkept
  | 1, _ => exact Nat.le_refl _
  | 2, _ => exact hanchor
  | 3, _ => exact Nat.le_refl _
  | 4, _ => exact Nat.le_refl _
  | 5, _ => exact Nat.le_of_lt hstart
  | 6, _ => exact hstop
  | 7, _ => exact hcomma

lemma Sequence.cuts_le_succ (h : Sequence f lo hi) (k : Nat) :
    cuts f hi k ≤ cuts f hi (k + 1) := by
  by_cases hk : k / 9 < n
  · obtain ⟨i, hi'⟩ : ∃ i : Fin n, i.val = k / 9 := ⟨⟨k / 9, hk⟩, rfl⟩
    have hkey : k = 9 * i.val + k % 9 := by omega
    have hmod : k % 9 < 9 := Nat.mod_lt _ (by omega)
    rcases Nat.lt_or_ge (k % 9) 8 with hlt | hge
    · rw [hkey, Nat.add_assoc, cuts_eq f hi i hmod, cuts_eq f hi i (by omega)]
      exact cut_le_succ (h.ordered i) hlt
    · -- from the last cut of a frame to the first one of the next
      have hlast : k % 9 = 8 := by omega
      have hhere : cuts f hi k = (f i).trail := by
        rw [hkey, cuts_eq f hi i hmod, hlast]
        rfl
      rw [hhere]
      by_cases hnext : i.val + 1 < n
      · have hthere := cuts_eq f hi ⟨i.val + 1, hnext⟩ (r := 0) (by omega)
        rw [show k + 1 = 9 * (i.val + 1) + 0 by omega, hthere]
        exact (h.follows i ⟨i.val + 1, hnext⟩ rfl).trail_le
      · rw [cuts_of_le f hi (by omega)]
        exact (h.last i (by omega)).1
  · rw [cuts_of_le f hi (by omega), cuts_of_le f hi (by omega)]

lemma Sequence.cuts_mono (h : Sequence f lo hi) {k l : Nat} (hkl : k ≤ l) :
    cuts f hi k ≤ cuts f hi l := by
  induction l, hkl using Nat.le_induction with
  | base => exact Nat.le_refl _
  | succ l _ ih => exact Nat.le_trans ih (h.cuts_le_succ l)

lemma Sequence.le_cuts_zero (h : Sequence f lo hi) (hn : 0 < n) : lo ≤ cuts f hi 0 := by
  have hcut := cuts_eq f hi ⟨0, hn⟩ (r := 0) (by omega)
  rw [show 9 * 0 + 0 = 0 by rfl] at hcut
  rw [hcut]
  exact Nat.le_trans (h.first ⟨0, hn⟩ rfl) (h.ordered ⟨0, hn⟩).before_le

end Cuts

end Frame

/-! ### Changes -/

/-- What is put in the place of a range. -/
inductive Fill where
  | nothing
  | lineBreak
  /-- Text taken from another range. -/
  | taken (range : Range)
deriving Repr, DecidableEq

/-- The text of a fill. -/
def Fill.text (src : Source) : Fill → Text
  | nothing => []
  | lineBreak => ['\n']
  | taken r => src.slice r

/-- An edit that knows its place in the sequence of cuts and where its text comes from. -/
structure Change where
  place : Nat
  range : Range
  fill : Fill
deriving Repr, DecidableEq

namespace Change

/-- The edit that a change makes. -/
def edit (src : Source) (x : Change) : Edit := ⟨x.range, x.fill.text src⟩

variable {n : Nat} (f : Fin n → Frame)

/-- The entry `a` goes to the slot `i`. -/
def entry (i a : Fin n) : Change :=
  ⟨9 * i.val + 5, ⟨(f i).start, (f i).stop⟩, .taken ⟨(f a).start, (f a).stop⟩⟩

/-- The comments above the entry `a` leave. -/
def leadOut (a : Fin n) : Change := ⟨9 * a.val, (f a).leading, .nothing⟩

/-- The comments above the entry `a` come before the slot `i`. -/
def leadIn (i a : Fin n) : Change :=
  ⟨9 * i.val + 2, ⟨(f i).anchor, (f i).anchor⟩, .taken (f a).leading⟩

/-- A line break keeps the comments before the slot `i` from the entry there. -/
def leadBreak (i : Fin n) : Change := ⟨9 * i.val + 4, ⟨(f i).start, (f i).start⟩, .lineBreak⟩

/-- The comments that trail the entry `a` leave. -/
def trailOut (a : Fin n) : Change := ⟨9 * a.val + 7, (f a).trailing, .nothing⟩

/-- The comments that trail the entry `a` come after the slot `i`. -/
def trailIn (i a : Fin n) : Change :=
  ⟨9 * i.val + 6, ⟨(f i).comma, (f i).comma⟩, .taken (f a).trailing⟩

/-- The place of a line break after the slot `i`.  One that stands directly before the next entry
comes after the comments above that entry have left; where others come in at the same offset, it
comes before them, and else after them. -/
def breakPlace (i : Fin n) (o : Nat) : Nat :=
  if h : i.val + 1 < n then
    let next := f ⟨i.val + 1, h⟩
    if o ≤ next.kept then 9 * i.val + 8
    else if next.anchor = next.start then 9 * (i.val + 1) + 1
    else 9 * (i.val + 1) + 3
  else 9 * i.val + 8

/-- A line break keeps the comments after the slot `i` from what follows. -/
def trailBreak (i : Fin n) (o : Nat) : Change := ⟨breakPlace f i o, ⟨o, o⟩, .lineBreak⟩

/-- The changes that bring the comments above the entry `a` to the slot `i`. -/
def leads (i a : Fin n) : List Change :=
  if (f a).kept < (f a).anchor then
    [leadOut f a, leadIn f i a] ++ if (f i).joined then [leadBreak f i] else []
  else []

/-- The changes that bring the comments that trail the entry `a` to the slot `i`. -/
def trails (i a : Fin n) : List Change :=
  if (f a).comma < (f a).trail then
    [trailOut f a, trailIn f i a] ++ ((f i).break?.map (trailBreak f i)).toList
  else []

/-- The changes that bring the entry `a` to the slot `i`. -/
def moved (i a : Fin n) : List Change := entry f i a :: leads f i a ++ trails f i a

/-- The changes at a slot: none when its own entry stays. -/
def atSlot (σ : Fin n → Fin n) (i : Fin n) : List Change := if σ i = i then [] else moved f i (σ i)

/-- The changes of a rearrangement, in the order in which they are made. -/
def all (σ : Fin n → Fin n) : List Change := (List.finRange n).flatMap (atSlot f σ)

variable {f}

lemma map_edit_moved (src : Source) (i a : Fin n) :
    (moved f i a).map (edit src) = Frame.moveEdits src (f a) (f i) := by
  simp only [moved, leads, trails, Frame.moveEdits, List.map_cons, List.map_append,
    List.cons_append]
  congr 2
  · split
    · split <;> rfl
    · rfl
  · split
    · cases (f i).break? <;> rfl
    · rfl

lemma mem_leads {i a : Fin n} {x : Change} :
    x ∈ leads f i a ↔ (f a).kept < (f a).anchor ∧
      (x = leadOut f a ∨ x = leadIn f i a ∨ (f i).joined = true ∧ x = leadBreak f i) := by
  unfold leads
  by_cases hlead : (f a).kept < (f a).anchor <;> by_cases hjoined : (f i).joined = true <;>
    simp [hlead, hjoined]

lemma mem_trails {i a : Fin n} {x : Change} :
    x ∈ trails f i a ↔ (f a).comma < (f a).trail ∧
      (x = trailOut f a ∨ x = trailIn f i a ∨ ∃ o ∈ (f i).break?, x = trailBreak f i o) := by
  unfold trails
  by_cases htrail : (f a).comma < (f a).trail
  · cases (f i).break? <;> simp [htrail]
  · simp [htrail]

lemma mem_moved {i a : Fin n} {x : Change} :
    x ∈ moved f i a ↔ x = entry f i a ∨ x ∈ leads f i a ∨ x ∈ trails f i a := by
  simp [moved]

lemma mem_all {σ : Fin n → Fin n} {x : Change} :
    x ∈ all f σ ↔ ∃ i, σ i ≠ i ∧ x ∈ moved f i (σ i) := by
  simp only [all, List.mem_flatMap, List.mem_finRange, true_and]
  refine exists_congr ?_
  intro i
  unfold atSlot
  by_cases hi : σ i = i <;> simp [hi]

/-! ### Places -/

/-- A change lies between the cuts at its place. -/
def Fits (f : Fin n → Frame) (hi : Nat) (x : Change) : Prop :=
  Frame.cuts f hi x.place ≤ x.range.start ∧ x.range.start ≤ x.range.stop ∧
    x.range.stop ≤ Frame.cuts f hi (x.place + 1)

section Fits

variable {lo hi : Nat} (h : Frame.Sequence f lo hi)

include h

lemma fits_trailBreak {i : Fin n} {o : Nat} (ho : o ∈ (f i).break?) :
    Fits f hi (trailBreak f i o) := by
  have hhere := Frame.cuts_eq f hi i (r := 8) (by omega)
  unfold Fits trailBreak breakPlace
  dsimp only
  split
  · rename_i hnext
    obtain ⟨hlo, hhi⟩ := (h.follows i ⟨i.val + 1, hnext⟩ rfl).break_mem o ho
    have hthere := fun r (hr : r < 9) => Frame.cuts_eq f hi ⟨i.val + 1, hnext⟩ hr
    split
    · rename_i hkept
      rw [hhere, show 9 * i.val + 8 + 1 = 9 * (i.val + 1) + 0 by omega, hthere 0 (by omega)]
      exact ⟨hlo, Nat.le_refl _, hkept⟩
    · rename_i hkept
      have hstart := hhi.resolve_left hkept
      split
      · rename_i htie
        rw [hthere 1 (by omega), Nat.add_assoc, hthere 2 (by omega)]
        exact ⟨by rw [hstart]; exact Nat.le_of_eq htie, Nat.le_refl _,
          by rw [hstart]; exact Nat.le_of_eq htie.symm⟩
      · rw [hthere 3 (by omega), Nat.add_assoc, hthere 4 (by omega)]
        exact ⟨Nat.le_of_eq hstart.symm, Nat.le_refl _, Nat.le_of_eq hstart⟩
  · rename_i hnext
    obtain ⟨hlo, hhi⟩ := (h.last i (by omega)).2 o ho
    rw [hhere, Frame.cuts_of_le f hi (by omega)]
    exact ⟨hlo, Nat.le_refl _, hhi⟩

lemma fits_of_mem_moved {i a : Fin n} {x : Change} (hx : x ∈ moved f i a) : Fits f hi x := by
  have hi' := h.ordered i
  have hcut := fun (k : Fin n) r (hr : r < 9) => Frame.cuts_eq f hi k hr
  simp only [mem_moved, mem_leads, mem_trails] at hx
  rcases hx with rfl | ⟨hlead, rfl | rfl | ⟨-, rfl⟩⟩ | ⟨htrail, rfl | rfl | ⟨o, ho, rfl⟩⟩
  · refine ⟨?_, Nat.le_of_lt hi'.start_lt, ?_⟩
    · exact Nat.le_of_eq (hcut i 5 (by omega))
    · exact Nat.le_of_eq (hcut i 6 (by omega)).symm
  · refine ⟨?_, Nat.le_of_lt hlead, ?_⟩
    · exact Nat.le_of_eq (hcut a 0 (by omega))
    · exact Nat.le_of_eq (hcut a 1 (by omega)).symm
  · refine ⟨?_, Nat.le_refl _, ?_⟩
    · exact Nat.le_of_eq (hcut i 2 (by omega))
    · exact Nat.le_trans hi'.anchor_le (Nat.le_of_eq (hcut i 3 (by omega)).symm)
  · refine ⟨?_, Nat.le_refl _, ?_⟩
    · exact Nat.le_of_eq (hcut i 4 (by omega))
    · exact Nat.le_of_eq (hcut i 5 (by omega)).symm
  · refine ⟨?_, Nat.le_of_lt htrail, ?_⟩
    · exact Nat.le_of_eq (hcut a 7 (by omega))
    · exact Nat.le_of_eq (hcut a 8 (by omega)).symm
  · refine ⟨?_, Nat.le_refl _, ?_⟩
    · exact Nat.le_trans (Nat.le_of_eq (hcut i 6 (by omega))) hi'.stop_le
    · exact Nat.le_of_eq (hcut i 7 (by omega)).symm
  · exact fits_trailBreak h ho

end Fits

/-- Where the changes of one move stand: those that take something out at the entry, those that put
something in at the slot. -/
lemma place_of_mem_leads {i a : Fin n} {x : Change} (hx : x ∈ leads f i a) :
    x.place = 9 * a.val ∧ x.range.start < x.range.stop ∨
      x.place = 9 * i.val + 2 ∧ x.range.start = (f i).anchor ∨ x.place = 9 * i.val + 4 := by
  obtain ⟨hlead, rfl | rfl | ⟨-, rfl⟩⟩ := mem_leads.1 hx
  · exact .inl ⟨rfl, hlead⟩
  · exact .inr (.inl ⟨rfl, rfl⟩)
  · exact .inr (.inr rfl)

lemma breakPlace_cases (f : Fin n → Frame) (i : Fin n) (o : Nat) :
    breakPlace f i o = 9 * i.val + 8 ∨ breakPlace f i o = 9 * i.val + 10 ∨
      breakPlace f i o = 9 * i.val + 12 := by
  unfold breakPlace
  split
  · dsimp only
    split
    · exact .inl rfl
    · split
      · exact .inr (.inl (by omega))
      · exact .inr (.inr (by omega))
  · exact .inl rfl

lemma place_of_mem_trails {i a : Fin n} {x : Change} (hx : x ∈ trails f i a) :
    x.place = 9 * a.val + 7 ∧ x.range.start < x.range.stop ∨ x.place = 9 * i.val + 6 ∨
      ∃ o ∈ (f i).break?, x = trailBreak f i o := by
  obtain ⟨htrail, rfl | rfl | ⟨o, ho, rfl⟩⟩ := mem_trails.1 hx
  · exact .inl ⟨rfl, htrail⟩
  · exact .inr (.inl rfl)
  · exact .inr (.inr ⟨o, ho, rfl⟩)

/-- A line break far after a slot stands right before the next entry, and past the comments that
come in there if these come in earlier in the text. -/
lemma far_break {lo hi : Nat} (h : Frame.Sequence f lo hi) {i j : Fin n} (hij : i.val + 1 = j.val)
    {o : Nat} (ho : o ∈ (f i).break?) (hplace : breakPlace f i o = 9 * i.val + 12) :
    o = (f j).start ∧ (f j).anchor ≠ (f j).start := by
  obtain ⟨-, hmem⟩ := (h.follows i j hij).break_mem o ho
  obtain ⟨j, hj⟩ := j
  obtain rfl : i.val + 1 = j := hij
  unfold breakPlace at hplace
  rw [dif_pos (by omega)] at hplace
  dsimp only at hplace
  split at hplace
  · omega
  · rename_i hkept
    split at hplace
    · omega
    · rename_i htie
      exact ⟨hmem.resolve_left hkept, htie⟩

/-- Changes in the order in which they are made: no two have the same place, and of two that put
something in at the same offset the first one has the smaller place. -/
def Made (x y : Change) : Prop :=
  x.place ≠ y.place ∧ (x.range = y.range → x.range.start = x.range.stop → x.place < y.place)

lemma made_of_nonempty {x y : Change} (hplace : x.place ≠ y.place)
    (hx : x.range.start < x.range.stop ∨ y.range.start < y.range.stop) : Made x y := by
  refine ⟨hplace, fun hrange hempty => ?_⟩
  rw [hrange] at hempty hx
  omega

lemma made_of_lt {x y : Change} (hplace : x.place < y.place) : Made x y :=
  ⟨Nat.ne_of_lt hplace, fun _ _ => hplace⟩

lemma made_leads (i a : Fin n) : (leads f i a).Pairwise Made := by
  unfold leads
  split
  · rename_i hlead
    have hout : ∀ y ∈ [leadIn f i a, leadBreak f i], Made (leadOut f a) y := by
      intro y hy
      refine made_of_nonempty ?_ (.inl hlead)
      rcases List.mem_pair.1 hy with rfl | rfl <;> simp only [leadOut, leadIn, leadBreak] <;> omega
    have hin : Made (leadIn f i a) (leadBreak f i) :=
      made_of_lt (by simp only [leadIn, leadBreak]; omega)
    split
    · exact .cons hout (.cons (by simpa using hin) (.cons (by simp) .nil))
    · exact .cons (fun y hy => hout y (by simp_all)) (.cons (by simp) .nil)
  · exact .nil

lemma made_trails (i a : Fin n) : (trails f i a).Pairwise Made := by
  unfold trails
  split
  · rename_i htrail
    have hin : ∀ o, Made (trailIn f i a) (trailBreak f i o) := fun o =>
      made_of_lt (by
        have := breakPlace_cases f i o
        simp only [trailIn, trailBreak]
        omega)
    have hout : Made (trailOut f a) (trailIn f i a) :=
      made_of_nonempty (by simp only [trailOut, trailIn]; omega) (.inl htrail)
    have hout' : ∀ o, Made (trailOut f a) (trailBreak f i o) := fun o =>
      made_of_nonempty (by
        have := breakPlace_cases f i o
        simp only [trailOut, trailBreak]
        omega) (.inl htrail)
    cases (f i).break? with
    | none => exact .cons (by simpa using hout) (.cons (by simp) .nil)
    | some o =>
      refine .cons (fun y hy => ?_) (.cons (by simpa using hin o) (.cons (by simp) .nil))
      rcases List.mem_pair.1 hy with rfl | rfl
      · exact hout
      · exact hout' o
  · exact .nil

/-- The changes of one move are made in order. -/
lemma made_moved {lo hi : Nat} (h : Frame.Sequence f lo hi) (i a : Fin n) :
    (moved f i a).Pairwise Made := by
  have hentry : (entry f i a).range.start < (entry f i a).range.stop := (h.ordered i).start_lt
  refine List.pairwise_append.2
    ⟨.cons (fun y hy => made_of_nonempty ?_ (.inl hentry)) (made_leads i a), made_trails i a,
      fun x hx y hy => ?_⟩
  · have := place_of_mem_leads hy
    simp only [entry]
    omega
  · have hy' := place_of_mem_trails hy
    have hbreak := breakPlace_cases f i
    rcases List.mem_cons.1 hx with rfl | hx
    · refine made_of_nonempty ?_ (.inl hentry)
      rcases hy' with ⟨hy', -⟩ | hy' | ⟨o, -, rfl⟩
      · simp only [entry]
        omega
      · simp only [entry]
        omega
      · have := hbreak o
        simp only [entry, trailBreak]
        omega
    · have hx' := place_of_mem_leads hx
      rcases hy' with ⟨hy', hne⟩ | hy' | ⟨o, -, rfl⟩
      · exact made_of_nonempty (by omega) (.inr hne)
      · rcases hx' with ⟨hx', hne⟩ | hx'
        · exact made_of_nonempty (by omega) (.inl hne)
        · exact made_of_lt (by omega)
      · have := hbreak o
        rcases hx' with ⟨hx', hne⟩ | hx'
        · exact made_of_nonempty (by simp only [trailBreak]; omega) (.inl hne)
        · exact made_of_lt (by simp only [trailBreak]; omega)

lemma place_of_mem_moved {lo hi : Nat} (h : Frame.Sequence f lo hi) {i a : Fin n} {x : Change}
    (hx : x ∈ moved f i a) :
    x.range.start < x.range.stop ∧
        (x.place = 9 * a.val ∨ x.place = 9 * a.val + 7 ∨ x.place = 9 * i.val + 5) ∨
      x.place = 9 * i.val + 2 ∧ x.range.start = (f i).anchor ∨ x.place = 9 * i.val + 4 ∨
      x.place = 9 * i.val + 6 ∨ ∃ o ∈ (f i).break?, x = trailBreak f i o := by
  rcases mem_moved.1 hx with rfl | hx | hx
  · exact .inl ⟨(h.ordered i).start_lt, .inr (.inr rfl)⟩
  · rcases place_of_mem_leads hx with ⟨hx, hne⟩ | hx | hx
    · exact .inl ⟨hne, .inl hx⟩
    · exact .inr (.inl hx)
    · exact .inr (.inr (.inl hx))
  · rcases place_of_mem_trails hx with ⟨hx, hne⟩ | hx | hx
    · exact .inl ⟨hne, .inr (.inl hx)⟩
    · exact .inr (.inr (.inr (.inl hx)))
    · exact .inr (.inr (.inr (.inr hx)))

lemma place_cases {lo hi : Nat} (h : Frame.Sequence f lo hi) {i a : Fin n} {x : Change}
    (hx : x ∈ moved f i a) :
    x.place = 9 * a.val ∨ x.place = 9 * a.val + 7 ∨ x.place = 9 * i.val + 2 ∨
      x.place = 9 * i.val + 4 ∨ x.place = 9 * i.val + 5 ∨ x.place = 9 * i.val + 6 ∨
      x.place = 9 * i.val + 8 ∨ x.place = 9 * i.val + 10 ∨ x.place = 9 * i.val + 12 := by
  rcases place_of_mem_moved h hx with ⟨-, hx⟩ | ⟨hx, -⟩ | hx | hx | ⟨o, -, rfl⟩
  · omega
  · omega
  · omega
  · omega
  · have := breakPlace_cases f i o
    simp only [trailBreak]
    omega

lemma place_lt {lo hi : Nat} (h : Frame.Sequence f lo hi) {i a : Fin n} {x : Change}
    (hx : x ∈ moved f i a) : x.place < 9 * n := by
  have hi' := i.isLt
  have ha' := a.isLt
  rcases place_of_mem_moved h hx with ⟨-, hx⟩ | ⟨hx, -⟩ | hx | hx | ⟨o, -, rfl⟩
  · omega
  · omega
  · omega
  · omega
  · simp only [trailBreak, breakPlace]
    split
    · split
      · omega
      · split <;> omega
    · omega

/-- The changes of moves to different slots are made in the order of the slots. -/
lemma made_across {lo hi : Nat} (h : Frame.Sequence f lo hi) {i j a b : Fin n} (hij : i < j)
    (hab : a ≠ b) {x y : Change} (hx : x ∈ moved f i a) (hy : y ∈ moved f j b) : Made x y := by
  have hij' : i.val < j.val := hij
  have hab' : a.val ≠ b.val := fun heq => hab (Fin.ext heq)
  have hxplace := place_cases h hx
  have hyplace := place_cases h hy
  refine ⟨by omega, fun hrange hempty => ?_⟩
  have hyempty : y.range.start = y.range.stop := hrange ▸ hempty
  have hx' : x.place ≤ 9 * i.val + 10 ∨ ∃ o ∈ (f i).break?, x = trailBreak f i o := by
    rcases place_of_mem_moved h hx with ⟨hne, -⟩ | ⟨hx, -⟩ | hx | hx | hx
    · omega
    · exact .inl (by omega)
    · exact .inl (by omega)
    · exact .inl (by omega)
    · exact .inr hx
  have hy' : y.place = 9 * j.val + 2 ∧ y.range.start = (f j).anchor ∨
      9 * j.val + 4 ≤ y.place := by
    rcases place_of_mem_moved h hy with ⟨hne, -⟩ | hy | hy | hy | ⟨o, -, rfl⟩
    · omega
    · exact .inl hy
    · exact .inr (by omega)
    · exact .inr (by omega)
    · have := breakPlace_cases f j o
      exact .inr (by simp only [trailBreak]; omega)
  rcases hx' with hx' | ⟨o, ho, rfl⟩
  · omega
  · have hbreak := breakPlace_cases f i o
    simp only [trailBreak] at hrange ⊢
    by_cases hnext : i.val + 1 = j.val ∧ breakPlace f i o = 9 * i.val + 12
    · -- only here the order of places is not that of the slots alone
      obtain ⟨hstart, hanchor⟩ := far_break h hnext.1 ho hnext.2
      rcases hy' with ⟨-, hy'⟩ | hy'
      · rw [← hrange] at hy'
        exact absurd (hy'.symm.trans hstart) hanchor
      · omega
    · omega

/-- All changes of a rearrangement are made in order. -/
lemma made_all {lo hi : Nat} (h : Frame.Sequence f lo hi) {σ : Fin n → Fin n}
    (hσ : Function.Injective σ) : (all f σ).Pairwise Made := by
  refine List.pairwise_flatMap.2 ⟨fun i _ => ?_, (List.pairwise_lt_finRange n).imp ?_⟩
  · unfold atSlot
    split
    · exact .nil
    · exact made_moved h i (σ i)
  · intro i j hij x hx y hy
    unfold atSlot at hx hy
    split at hx
    · exact absurd hx List.not_mem_nil
    · split at hy
      · exact absurd hy List.not_mem_nil
      · exact made_across h hij (fun heq => (Fin.ne_of_lt hij) (hσ heq)) hx hy

/-! ### Changes in the order of their ranges -/

/-- The changes of a rearrangement in the order in which they are merged. -/
def inOrder (f : Fin n → Frame) (σ : Fin n → Fin n) : List Change :=
  (all f σ).mergeSort fun x y => x.range.le y.range

lemma map_edit_inOrder (src : Source) (f : Fin n → Frame) (σ : Fin n → Fin n) :
    (inOrder f σ).map (edit src) = Edit.inOrder ((all f σ).map (edit src)) := by
  rw [Edit.inOrder_eq_mergeSort]
  exact List.map_mergeSort fun _ _ _ _ => rfl

lemma inOrder_perm (f : Fin n → Frame) (σ : Fin n → Fin n) : (inOrder f σ).Perm (all f σ) :=
  List.mergeSort_perm _ _

section Order

variable {lo hi : Nat} (h : Frame.Sequence f lo hi)

include h

lemma stop_le_start_of_place {x y : Change} (hx : Fits f hi x) (hy : Fits f hi y)
    (hlt : x.place < y.place) : x.range.stop ≤ y.range.start :=
  Nat.le_trans hx.2.2 (Nat.le_trans (h.cuts_mono hlt) hy.1)

/-- A change that is made before another one, but is merged after it, has the greater place. -/
lemma place_lt_of_not_le {x y : Change} (hx : Fits f hi x) (hy : Fits f hi y) (hxy : Made x y)
    (hle : ¬x.range.le y.range = true) : y.place < x.place := by
  refine Nat.lt_of_le_of_ne (Nat.not_lt.1 fun hlt => hle ?_) hxy.1.symm
  have hstop := stop_le_start_of_place h hx hy hlt
  obtain ⟨-, hx', -⟩ := hx
  obtain ⟨-, hy', -⟩ := hy
  rw [Range.le_iff]
  omega

/-- A change that is made before another one, and is merged before it, has the smaller place. -/
lemma place_lt_of_le {x y : Change} (hx : Fits f hi x) (hy : Fits f hi y) (hxy : Made x y)
    (hle : x.range.le y.range = true) : x.place < y.place := by
  refine Nat.lt_of_le_of_ne (Nat.not_lt.1 fun hlt => ?_) hxy.1
  have hstop := stop_le_start_of_place h hy hx hlt
  obtain ⟨-, hx', -⟩ := hx
  obtain ⟨-, hy', -⟩ := hy
  rw [Range.le_iff] at hle
  -- both put something in at the same offset
  have hstart : x.range.start = y.range.start := by omega
  have hrange : x.range = y.range := by
    have hstops : x.range.stop = y.range.stop := by omega
    cases hxr : x.range
    cases hyr : y.range
    simp_all
  have := hxy.2 hrange (by omega)
  omega

/-- Changes that are made in order are merged in the order of their places. -/
lemma pairwise_place_mergeSort {xs : List Change} (hfits : ∀ x ∈ xs, Fits f hi x)
    (hmade : xs.Pairwise Made) :
    (xs.mergeSort fun x y => x.range.le y.range).Pairwise fun x y => x.place < y.place := by
  induction xs with
  | nil => simp
  | cons x xs ih =>
    obtain ⟨hx, hxs⟩ := List.pairwise_cons.1 hmade
    have htrans : ∀ x y z : Change, x.range.le y.range → y.range.le z.range → x.range.le z.range :=
      fun x y z => Range.le_trans _ _ _
    have htotal : ∀ x y : Change, x.range.le y.range || y.range.le x.range :=
      fun x y => Range.le_total _ _
    have hsorted := List.pairwise_mergeSort htrans htotal (x :: xs)
    -- sorting puts the first change between two parts of the others
    obtain ⟨l₁, l₂, hcons, htail, hbefore⟩ := List.mergeSort_cons htrans htotal x xs
    have hplaces := ih (fun y hy => hfits y (List.mem_cons_of_mem _ hy)) hxs
    have hmem : ∀ y ∈ l₁ ++ l₂, y ∈ xs := fun y hy => by
      rw [← htail] at hy
      exact (List.mergeSort_perm _ _).subset hy
    have hxfits := hfits x (List.mem_cons_self ..)
    have hyfits : ∀ y ∈ l₁ ++ l₂, Fits f hi y := fun y hy =>
      hfits y (List.mem_cons_of_mem _ (hmem y hy))
    rw [htail] at hplaces
    rw [hcons] at hsorted ⊢
    obtain ⟨h₁, h₂, h₁₂⟩ := List.pairwise_append.1 hplaces
    refine List.pairwise_append.2 ⟨h₁, .cons (fun y hy => ?_) h₂, fun y hy z hz => ?_⟩
    · have hle := (List.pairwise_cons.1 (List.pairwise_append.1 hsorted).2.1).1 y hy
      have hy' := List.mem_append_right l₁ hy
      exact place_lt_of_le h hxfits (hyfits y hy') (hx y (hmem y hy')) hle
    · rcases List.mem_cons.1 hz with rfl | hz
      · have hy' := List.mem_append_left l₂ hy
        exact place_lt_of_not_le h hxfits (hyfits y hy') (hx y (hmem y hy'))
          (by simpa using hbefore y hy)
      · exact h₁₂ y hy z hz

lemma fits_of_mem_inOrder {σ : Fin n → Fin n} {x : Change} (hx : x ∈ inOrder f σ) :
    Fits f hi x := by
  obtain ⟨i, -, hx⟩ := mem_all.1 ((inOrder_perm f σ).subset hx)
  exact fits_of_mem_moved h hx

/-- **The changes of a rearrangement are merged in the order of their places.** -/
lemma pairwise_place_inOrder {σ : Fin n → Fin n} (hσ : Function.Injective σ) :
    (inOrder f σ).Pairwise fun x y => x.place < y.place := by
  refine pairwise_place_mergeSort h (fun x hx => ?_) (made_all h hσ)
  obtain ⟨i, -, hx⟩ := mem_all.1 hx
  exact fits_of_mem_moved h hx

/-- Changes in the order of their places follow one another, from the first cut on to the last. -/
lemma chain_of_places (src : Source) {xs : List Change} {k m : Nat} (hkm : k ≤ m)
    (hfits : ∀ x ∈ xs, Fits f hi x) (hplaces : xs.Pairwise fun x y => x.place < y.place)
    (hk : ∀ x ∈ xs, k ≤ x.place) (hm : ∀ x ∈ xs, x.place < m) :
    Edit.Chain (Frame.cuts f hi k) (Frame.cuts f hi m) (xs.map (edit src)) := by
  induction xs generalizing k with
  | nil => exact h.cuts_mono hkm
  | cons x xs ih =>
    obtain ⟨hx, hxs⟩ := List.pairwise_cons.1 hplaces
    obtain ⟨hstart, hrange, hstop⟩ := hfits x (List.mem_cons_self ..)
    refine ⟨Nat.le_trans (h.cuts_mono (hk x (List.mem_cons_self ..))) hstart, hrange, ?_⟩
    refine Edit.Chain.mono hstop (ih (hm x (List.mem_cons_self ..)) ?_ hxs (fun y hy => hx y hy) ?_)
    · exact fun y hy => hfits y (List.mem_cons_of_mem _ hy)
    · exact fun y hy => hm y (List.mem_cons_of_mem _ hy)

/-- **The edits of a rearrangement follow one another** in the order in which they are merged. -/
lemma chain_inOrder (src : Source) (hn : 0 < n) {σ : Fin n → Fin n}
    (hσ : Function.Injective σ) :
    Edit.Chain lo hi (Edit.inOrder ((all f σ).map (edit src))) := by
  rw [← map_edit_inOrder, ← Frame.cuts_of_le f hi (Nat.le_refl (9 * n))]
  refine Edit.Chain.mono (h.le_cuts_zero hn) (chain_of_places h src (Nat.zero_le _)
    (fun x hx => fits_of_mem_inOrder h hx) (pairwise_place_inOrder h hσ)
    (fun x _ => Nat.zero_le _) fun x hx => ?_)
  obtain ⟨i, -, hx⟩ := mem_all.1 ((inOrder_perm f σ).subset hx)
  exact place_lt h hx

end Order

end Change

end KeyOrder
