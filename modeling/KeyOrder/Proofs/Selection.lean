import KeyOrder.Proofs.Merge
import KeyOrder.Proofs.Sorting

/-!
# Which fixes a pass applies

A pass goes through the fixes in order and compares each one with the end of the last one that it
applied.  Where any two fixes are apart or one lies inside the other, this is enough: a fix that
starts by that end lies inside the last one applied, and a fix that starts past it lies inside no
other one.  So exactly the outermost fixes are applied.
-/

namespace KeyOrder

namespace Edit

/-- At least one character stands between an edit and a later one. -/
def Apart (f g : Edit) : Prop := f.range.stop < g.range.start

/-- An edit lies strictly inside another one. -/
def Inside (f g : Edit) : Prop := g.range.start < f.range.start ∧ f.range.stop < g.range.stop

/-- Two edits are apart or one lies strictly inside the other. -/
def Laminar (f g : Edit) : Prop := Apart f g ∨ Apart g f ∨ Inside f g ∨ Inside g f

lemma Laminar.symm {f g : Edit} (h : Laminar f g) : Laminar g f := by
  rcases h with h | h | h | h
  · exact .inr (.inl h)
  · exact .inl h
  · exact .inr (.inr (.inr h))
  · exact .inr (.inr (.inl h))

/-- Whether an edit lies in no other one of some edits. -/
def outermost (fixes : List Edit) (f : Edit) : Bool :=
  fixes.all fun g => decide (g = f) ||
    !(decide (g.range.start ≤ f.range.start) && decide (f.range.stop ≤ g.range.stop))

lemma outermost_iff {fixes : List Edit} {f : Edit} :
    outermost fixes f = true ↔ ∀ g ∈ fixes, g ≠ f → g.range.start ≤ f.range.start →
      g.range.stop < f.range.stop := by
  simp only [outermost, List.all_eq_true, Bool.or_eq_true, decide_eq_true_eq, Bool.not_eq_true',
    Bool.and_eq_false_iff, decide_eq_false_iff_not]
  refine forall_congr' fun g => forall_congr' fun _ => ?_
  constructor
  · rintro (rfl | hstart | hstop) hne hle
    · exact absurd rfl hne
    · exact absurd hle hstart
    · omega
  · intro h
    by_cases hgf : g = f
    · exact .inl hgf
    · by_cases hle : g.range.start ≤ f.range.start
      · have := h hgf hle
        exact .inr (.inr (by omega))
      · exact .inr (.inl hle)

/-- Edits in order, any two of which are apart or one inside the other. -/
structure Layered (es : List Edit) : Prop where
  forward : ∀ e ∈ es, e.range.start ≤ e.range.stop
  sorted : es.Pairwise fun f g => f.range.le g.range = true
  laminar : es.Pairwise Laminar

/-- Of two edits in order the second one is past the first one or inside it. -/
lemma apart_or_inside {f g : Edit} (hg : g.range.start ≤ g.range.stop)
    (hle : f.range.le g.range = true) (h : Laminar f g) : Apart f g ∨ Inside g f := by
  rw [Range.le_iff] at hle
  rcases h with h | h | h | h
  · exact .inl h
  · unfold Apart at h
    omega
  · unfold Inside at h
    omega
  · exact .inr h

/-- What is known while a pass goes through edits of which `done` are behind it: the last one that
was applied is an outermost one, and none of them ends after it. -/
def Reached (all done : List Edit) : Option Nat → Prop
  | none => done = []
  | some last => ∃ g ∈ done, outermost all g = true ∧ g.range.stop = last ∧
      ∀ d ∈ done, d.range.stop ≤ last

section Step

variable {all done rest : List Edit} {f : Edit} (h : Layered all) (hall : all = done ++ f :: rest)

include h hall

/-- An edit among others in order: it is past those before it or inside them, and those after it are
past it or inside it. -/
lemma Layered.around : f.range.start ≤ f.range.stop ∧ (∀ d ∈ done, Apart d f ∨ Inside f d) ∧
    ∀ e ∈ rest, Apart f e ∨ Inside e f := by
  obtain ⟨hforward, hsorted, hlaminar⟩ := h
  subst hall
  have hboth := List.pairwise_append.1 (hsorted.and hlaminar)
  have hf := hforward f (by simp)
  refine ⟨hf, fun d hd => ?_, fun e he => ?_⟩
  · obtain ⟨hle, hlam⟩ := hboth.2.2 d hd f (List.mem_cons_self ..)
    exact apart_or_inside hf hle hlam
  · obtain ⟨hle, hlam⟩ := (List.pairwise_cons.1 hboth.2.1).1 e he
    exact apart_or_inside (hforward e (by simp [he])) hle hlam

/-- An edit that starts by the end of the last one applied lies inside that one. -/
lemma Layered.exists_of_le {last : Nat} (hreached : Reached all done (some last))
    (hlast : f.range.start ≤ last) :
    Reached all (done ++ [f]) (some last) ∧ outermost all f = false ∧
      ∃ g ∈ all, outermost all g = true ∧ Inside f g := by
  obtain ⟨g, hg, hout, hstop, hdone⟩ := hreached
  obtain ⟨hf, hbefore, -⟩ := h.around hall
  have hinside : Inside f g := by
    refine (hbefore g hg).resolve_left fun hapart => ?_
    unfold Apart at hapart
    omega
  have hmem : g ∈ all := by
    rw [hall]
    exact List.mem_append_left _ hg
  obtain ⟨hstart, hstop'⟩ := hinside
  refine ⟨⟨g, List.mem_append_left _ hg, hout, hstop, fun d hd => ?_⟩, ?_, g, hmem, hout, hstart,
    hstop'⟩
  · rcases List.mem_append.1 hd with hd | hd
    · exact hdone d hd
    · obtain rfl := List.mem_singleton.1 hd
      omega
  · rw [← Bool.not_eq_true, outermost_iff]
    intro hf'
    have := hf' g hmem (by rintro rfl; omega) (Nat.le_of_lt hstart)
    omega

/-- An edit that starts past the end of the last one applied lies inside no other one. -/
lemma Layered.outermost_of_lt {last : Option Nat} (hreached : Reached all done last)
    (hlast : ∀ l ∈ last, l < f.range.start) :
    Reached all (done ++ [f]) (some f.range.stop) ∧ outermost all f = true := by
  obtain ⟨hf, -, hafter⟩ := h.around hall
  have hdone : ∀ d ∈ done, d.range.stop < f.range.start := by
    intro d hd
    cases last with
    | none =>
      rw [show done = [] from hreached] at hd
      exact absurd hd List.not_mem_nil
    | some l =>
      obtain ⟨-, -, -, -, hle⟩ := hreached
      exact Nat.lt_of_le_of_lt (hle d hd) (hlast l rfl)
  have hout : outermost all f = true := by
    refine outermost_iff.2 fun g hg hne hle => ?_
    rw [hall] at hg
    rcases List.mem_append.1 hg with hg | hg
    · have := hdone g hg
      omega
    · rcases List.mem_cons.1 hg with rfl | hg
      · exact absurd rfl hne
      · rcases hafter g hg with hapart | ⟨hinside, -⟩
        · unfold Apart at hapart
          omega
        · omega
  refine ⟨⟨f, by simp, hout, rfl, fun d hd => ?_⟩, hout⟩
  rcases List.mem_append.1 hd with hd | hd
  · have := hdone d hd
    omega
  · obtain rfl := List.mem_singleton.1 hd
    exact Nat.le_refl _

end Step

/-- Going on with a pass: exactly the outermost edits are applied, and every other one lies inside
one that is. -/
lemma Layered.applyFrom_eq {all : List Edit} (h : Layered all) (text : Text) {done rest : List Edit}
    (hall : all = done ++ rest) {last : Option Nat} (hreached : Reached all done last) :
    applyFrom text last rest =
        ⟨rewritten text (last.getD 0) text.length (rest.filter (outermost all)),
          (rest.filter (outermost all)).length,
          (rest.filter fun f => !outermost all f).map Edit.range⟩ ∧
      ∀ f ∈ rest, outermost all f = false → ∃ g ∈ all, outermost all g = true ∧ Inside f g := by
  induction rest generalizing done last with
  | nil =>
    refine ⟨?_, by simp⟩
    rw [applyFrom, List.filter_nil, rewritten, text.slice_length]
    rfl
  | cons f rest ih =>
    have hnext : all = (done ++ [f]) ++ rest := by rw [hall]; simp
    rw [applyFrom]
    split
    · -- put off
      rename_i hlast
      obtain ⟨l, rfl, hle⟩ := (Option.any_eq_true _ _).1 hlast
      obtain ⟨hreached', hinner, hinside⟩ := h.exists_of_le hall hreached (by simpa using hle)
      obtain ⟨happly, hrest⟩ := ih hnext hreached'
      refine ⟨?_, fun e he hout => ?_⟩
      · rw [happly, List.filter_cons_of_neg (by simp [hinner]),
          List.filter_cons_of_pos (by simp [hinner]), List.map_cons]
      · rcases List.mem_cons.1 he with rfl | he
        · exact hinside
        · exact hrest e he hout
    · -- applied
      rename_i hlast
      have hlt : ∀ l ∈ last, l < f.range.start := by
        rintro l ⟨⟩
        simpa using hlast
      obtain ⟨hreached', hout⟩ := h.outermost_of_lt hall hreached hlt
      obtain ⟨happly, hrest⟩ := ih hnext hreached'
      refine ⟨?_, fun e he hout' => ?_⟩
      · rw [happly, List.filter_cons_of_pos hout, List.filter_cons_of_neg (by simp [hout]),
          rewritten, List.length_cons]
        rfl
      · rcases List.mem_cons.1 he with rfl | he
        · rw [hout] at hout'
          cases hout'
        · exact hrest e he hout'

/-- **A pass applies exactly the outermost fixes**, where any two fixes are apart or one lies inside
the other; every fix that it puts off lies inside one that it applies. -/
lemma applyAll_eq (text : Text) {fixes : List Edit}
    (hforward : ∀ f ∈ fixes, f.range.start ≤ f.range.stop) (hlaminar : fixes.Pairwise Laminar) :
    applyAll text fixes =
        ⟨rewritten text 0 text.length ((inOrder fixes).filter (outermost fixes)),
          (fixes.filter (outermost fixes)).length,
          ((inOrder fixes).filter fun f => !outermost fixes f).map Edit.range⟩ ∧
      ∀ f ∈ fixes, outermost fixes f = false →
        ∃ g ∈ fixes, outermost fixes g = true ∧ Inside f g := by
  have hperm := inOrder_perm fixes
  have hlayered : Layered (inOrder fixes) := by
    refine ⟨fun e he => hforward e (hperm.subset he), pairwise_inOrder fixes, ?_⟩
    exact (hperm.pairwise_iff fun h => Laminar.symm h).2 hlaminar
  have hsame : outermost (inOrder fixes) = outermost fixes := by
    funext f
    rw [Bool.eq_iff_iff, outermost_iff, outermost_iff]
    simp only [hperm.mem_iff]
  have hreached : Reached (inOrder fixes) [] none := rfl
  obtain ⟨happly, hinside⟩ := hlayered.applyFrom_eq text (List.nil_append _).symm hreached
  rw [hsame] at happly hinside
  refine ⟨happly.trans ?_, fun f hf hout => ?_⟩
  · rw [(hperm.filter _).length_eq]
    rfl
  · obtain ⟨g, hg, hg'⟩ := hinside f (hperm.symm.subset hf) hout
    exact ⟨g, hperm.subset hg, hg'⟩

end Edit

end KeyOrder
