import KeyOrder.Proofs.Detection
import KeyOrder.Proofs.Separation
import KeyOrder.Proofs.Shifts

/-!
# A check gives a result

Where the walk over a tree gives its containers and these are well-formed, no step of a check can
fail but for a number with too many digits: the walk tells of containers in brackets, so that the
checker always has the right scope open; the entries of a well-formed container can be moved, since
each of them has a token before it; and the edits that move them can be merged (`lint_completes`).

The walk does not give the containers of every program.  A lone `\r` ends a line of the tree and no
line of the text, and then a place in the tree may be no place in the text (`verify_lone_return`).
-/

namespace KeyOrder

open Outcome (FaultsIn faultsIn_ok faultsIn_pure faultsIn_error faultsIn_mapM)

/-- The faults that numbers with too many digits give rise to. -/
def Fault.IsDigitLimit : Fault → Prop
  | .tooManyDigits _ => True
  | .integerTooLong => True
  | _ => False

/-! ### Names and comparisons -/

lemma faultsIn_ofDigits {α : Type} (x : Except TooManyDigits α) :
    FaultsIn Fault.IsDigitLimit (Outcome.ofDigits x) := by
  cases x with
  | error e => exact faultsIn_error trivial
  | ok a => exact faultsIn_ok a

lemma Constant.faultsIn_name (c : Constant) : FaultsIn Fault.IsDigitLimit c.name := by
  cases c with
  | integer n =>
    dsimp only [name]
    split
    · exact faultsIn_error trivial
    · exact faultsIn_ok _
  | float x =>
    dsimp only [name]
    split
    · exact faultsIn_ok _
    · exact faultsIn_ok _
  | string _ | bytes _ | imaginary _ | boolean _ | none | ellipsis => exact faultsIn_ok _

lemma Entry.faultsIn_name (e : Entry) : FaultsIn Fault.IsDigitLimit e.name := by
  unfold name
  split
  · exact faultsIn_ok _
  · exact (Constant.faultsIn_name _).map some
  · exact faultsIn_ok _
  · exact faultsIn_ok _

/-! ### Relocation -/

namespace Relocation

variable {src : Source}

lemma faultsIn_namedFrom (i : Nat) (es : List Entry) :
    FaultsIn Fault.IsDigitLimit (namedFrom i es) := by
  induction es generalizing i with
  | nil => exact faultsIn_ok _
  | cons e es ih =>
    rw [namedFrom]
    refine e.faultsIn_name.bind fun name _ => ?_
    cases name with
    | none => exact ih i
    | some n => exact (ih (i + 1)).bind fun _ _ => faultsIn_pure _

/-- Entries that can be moved one by one can be moved together. -/
lemma faultsIn_moveAll {ordered slots : List Named}
    (h : ∀ x ∈ ordered, ∀ s ∈ slots, ∃ es, move src x.entry s.entry = .ok es) :
    FaultsIn Fault.IsDigitLimit (moveAll src ordered slots) := by
  induction ordered generalizing slots with
  | nil => exact faultsIn_ok _
  | cons x xs ih =>
    cases slots with
    | nil => exact faultsIn_ok _
    | cons s ss =>
      obtain ⟨es, hes⟩ := h x (List.mem_cons_self ..) s (List.mem_cons_self ..)
      have hrest := ih fun y hy t ht =>
        h y (List.mem_cons_of_mem _ hy) t (List.mem_cons_of_mem _ ht)
      rw [moveAll, hes]
      split
      · exact (faultsIn_ok _).bind fun _ _ => hrest.bind fun _ _ => faultsIn_pure _
      · exact (faultsIn_ok _).bind fun _ _ => hrest.bind fun _ _ => faultsIn_pure _

lemma faultsIn_edits {o : Order} {c : Container}
    (h : ∀ e ∈ c.entries, ∀ slot ∈ c.entries, ∃ es, move src e slot = .ok es) :
    FaultsIn Fault.IsDigitLimit (edits src o c) := by
  refine (faultsIn_mapM fun segment hsegment => ?_).bind fun _ _ => faultsIn_pure _
  refine (faultsIn_namedFrom 0 segment).bind fun slots hslots => ?_
  refine (faultsIn_ofDigits _).bind fun ordered hordered => faultsIn_moveAll fun x hx s hs => ?_
  have hperm := Order.sortOn_perm (Outcome.ofDigits_eq_ok.1 hordered)
  have hentry : ∀ y ∈ slots, y.entry ∈ c.entries := fun y hy =>
    mem_of_mem_segments hsegment (entry_mem_of_namedFrom hslots hy)
  exact h _ (hentry x (hperm.subset hx)) _ (hentry s hs)

/-- The edits of a container, merged if there are any. -/
def attempt (src : Source) (o : Order) (k : Container) : Outcome (Option Edit) :=
  edits src o k >>= Checker.fixOf src

end Relocation

/-- **The fix of a well-formed container can be made**: its entries can be moved and their edits
merged. -/
lemma Container.WellFormed.faultsIn_attempt {src : Source} {c : Container}
    {opening closing : Token} (h : c.WellFormed src opening closing) (o : Order) :
    FaultsIn Fault.IsDigitLimit (Relocation.attempt src o c) := by
  have hedits : FaultsIn Fault.IsDigitLimit (Relocation.edits src o c) :=
    Relocation.faultsIn_edits fun e he slot hslot => ⟨_, h.move_eq he hslot⟩
  refine hedits.bind fun es hes => ?_
  by_cases hne : es = []
  · subst hne
    exact faultsIn_ok _
  · obtain ⟨-, m, -, hm, -⟩ := h.exists_merged hes hne
    rw [Checker.fixOf, if_neg (by simpa using hne), hm]
    exact faultsIn_ok _

/-! ### The checker -/

/-- A container can be put in order, as far as the rule may ask for it: patterns are passed over,
and a single entry is out of order with none. -/
def Container.Movable (src : Source) (k : Container) : Prop :=
  k.kind ≠ .pattern → 2 ≤ k.entries.length → ∃ opening closing, k.WellFormed src opening closing

namespace Checker

variable {src : Source} {c : Configuration}

/-- A report ends in a fault only where making or merging the edits of the container does. -/
lemma faultsIn_report {s : Fault → Prop} {st : State} {k : Container}
    (h : FaultsIn s (Relocation.attempt src c.order k)) (e : Entry) (name : Name)
    (previous : Name × Entry) : FaultsIn s (report src c st k e name previous) := by
  rw [report_eq]
  by_cases hdone : k.path ∈ st.relocator.done
  · -- the container was asked for before: there is nothing to make
    rw [Relocator.fix_of_mem hdone]
    exact faultsIn_ok _
  · rw [Relocator.fix_of_not_mem hdone]
    refine FaultsIn.bind (fun f hf => h f (Outcome.bind_eq_error.2 (.inl hf))) fun es hes => ?_
    refine FaultsIn.bind (fun f hf => h f (Outcome.bind_eq_error.2 (.inr ⟨es, hes, hf⟩))) ?_
    exact fun _ _ => faultsIn_pure _

/-- A property is reported only after another one, in a container that the rule covers. -/
lemma faultsIn_property {s : Fault → Prop} {st : State} {k : Container} {e : Entry} {scope : Scope}
    {outer : List Scope} (hdigits : ∀ f, f.IsDigitLimit → s f)
    (hreport : Rule.covers c k = true → scope.previous ≠ none →
      FaultsIn s (Relocation.attempt src c.order k)) :
    FaultsIn s (property src c st k e scope outer) := by
  cases hcovers : Rule.covers c k with
  | false =>
    rw [property_uncovered hcovers]
    exact faultsIn_ok _
  | true =>
    rw [property_covered hcovers]
    refine (e.faultsIn_name.imp hdigits).bind fun name _ => ?_
    cases name with
    | none => exact faultsIn_ok _
    | some n =>
      cases hprevious : scope.previous with
      | none => exact faultsIn_ok _
      | some p =>
        refine ((faultsIn_ofDigits _).imp hdigits).bind fun inOrder _ => ?_
        cases inOrder with
        | true => exact faultsIn_ok _
        | false => exact faultsIn_report (hreport hcovers (by simp [hprevious])) e n p

/-- An entry is checked in the scope of its own container.  It is reported only after another
one. -/
lemma faultsIn_step_entry {st : State} {k : Container} {e : Entry} {scope : Scope}
    {outer : List Scope} {seen rest : List Entry} (hk : k.Movable src)
    (hentries : k.entries = seen ++ e :: rest) (hseen : scope.previous ≠ none → seen ≠ [])
    (hscopes : st.scopes = scope :: outer) (hpath : scope.container.path = k.path) :
    FaultsIn Fault.IsDigitLimit (step src c st (.entry k e)) := by
  by_cases hkind : e.kind = .spread
  · rw [step_spread hscopes hkind]
    exact faultsIn_ok _
  · rw [step_property hscopes hkind, if_pos hpath]
    refine faultsIn_property (fun _ h => h) fun hcovers hprevious => ?_
    have hpattern : k.kind ≠ .pattern := fun hpattern => by
      rw [covers_eq_false_iff.2 (.inl hpattern)] at hcovers
      cases hcovers
    have hlength : 2 ≤ k.entries.length := by
      have hpos := List.length_pos_of_ne_nil (hseen hprevious)
      rw [hentries, List.length_append, List.length_cons]
      omega
    obtain ⟨opening, closing, hformed⟩ := hk hpattern hlength
    exact hformed.faultsIn_attempt c.order

mutual

/-- A bracketed stretch of events is gone through, in any state. -/
lemma balanced_faultsIn {ks : List Container} {events : List Event} :
    Walk.Balanced ks events → (∀ k ∈ ks, k.Movable src) → ∀ st : State,
      FaultsIn Fault.IsDigitLimit (events.foldlM (step src c) st)
  | .nil, _, st => faultsIn_pure _
  | .append hes hfs, hks, st => by
    rw [List.foldlM_append]
    refine (balanced_faultsIn hes (fun k hk => hks k (List.mem_append_left _ hk)) st).bind
      fun mid _ => ?_
    exact balanced_faultsIn hfs (fun k hk => hks k (List.mem_append_right _ hk)) mid
  | .container (c := k) hes hfs, hks, st => by
    -- enter, what the function holds, the entries, leave
    rw [List.foldlM_cons]
    have henter : FaultsIn Fault.IsDigitLimit (step src c st (.enter k)) := faultsIn_ok _
    refine henter.bind fun st₁ hst₁ => ?_
    obtain ⟨hs₁, -⟩ := step_enter_eq_ok hst₁
    rw [List.foldlM_append]
    refine (balanced_faultsIn hes (fun l hl => hks l (by simp [hl])) st₁).bind
      fun st₂ hfunction => ?_
    have hs₂ := (balanced_told hes hfunction).1.trans hs₁
    rw [List.foldlM_append]
    refine (inside_faultsIn hfs [] rfl (hks k (List.mem_cons_self ..))
      (fun l hl => hks l (by simp [hl])) hs₂ rfl fun h => absurd rfl h).bind fun st₃ hentries => ?_
    obtain ⟨previous, hs₃, -⟩ := inside_told hfs hs₂ hentries
    have hleave : FaultsIn Fault.IsDigitLimit (step src c st₃ (.leave k)) := by
      rw [step, hs₃]
      dsimp only
      rw [if_pos rfl]
      exact faultsIn_ok _
    rw [List.foldlM_cons]
    exact hleave.bind fun _ _ => faultsIn_pure _

lemma inside_faultsIn {k : Container} {rest : List Entry} {ks : List Container}
    {events : List Event} :
    Walk.Inside k rest ks events → ∀ seen : List Entry, k.entries = seen ++ rest →
      k.Movable src → (∀ l ∈ ks, l.Movable src) →
      ∀ {st : State} {scope : Scope} {outer : List Scope}, st.scopes = scope :: outer →
        scope.container.path = k.path → (scope.previous ≠ none → seen ≠ []) →
        FaultsIn Fault.IsDigitLimit (events.foldlM (step src c) st)
  | .nil, _, _, _, _, _, _, _, _, _, _ => faultsIn_pure _
  | .cons (e := e) hes hfs, seen, hentries, hk, hks, st, scope, outer, hscopes, hpath, hseen => by
    rw [List.foldlM_cons]
    refine (faultsIn_step_entry hk hentries hseen hscopes hpath).bind fun st₁ hentry => ?_
    obtain ⟨previous, -, hs₁, -⟩ := step_entry_eq_ok hscopes hentry
    rw [List.foldlM_append]
    refine (balanced_faultsIn hes (fun l hl => hks l (List.mem_append_left _ hl)) st₁).bind
      fun st₂ hheld => ?_
    have hs₂ := (balanced_told hes hheld).1.trans hs₁
    exact inside_faultsIn hfs (seen ++ [e]) (by simp [hentries]) hk
      (fun l hl => hks l (List.mem_append_right _ hl)) hs₂ hpath (by simp)

end

/-- A walk without a fault over containers that can be put in order is gone through. -/
lemma faultsIn_run {ks : List Container} (hks : src.containers = .ok ks)
    (hmovable : ∀ k ∈ ks, k.Movable src) : FaultsIn Fault.IsDigitLimit (run src c src.walk) := by
  unfold Source.containers at hks
  split at hks
  · cases hks
  · rename_i hfault
    cases hks
    obtain ⟨ks', hbalanced⟩ := Walk.visit_balanced hfault
    have hentered : ∀ k ∈ ks', k.Movable src := by
      intro k hk
      rw [← hbalanced.entered] at hk
      exact hmovable k hk
    refine (balanced_faultsIn hbalanced hentered _).bind fun st _ => ?_
    rw [hfault]
    exact faultsIn_pure _

end Checker

/-! ### Whole texts -/

/-- **A check of well-formed containers gives a result**, unless a number has too many digits. -/
theorem lint_completes {c : Configuration} {text : Text} {src : Source} {ks : List Container}
    (hsrc : Source.ofText text = .ok src) (hks : src.containers = .ok ks)
    (hmovable : ∀ k ∈ ks, k.Movable src) :
    (∃ report, lint c text = .ok report) ∨ ∃ f, lint c text = .error f ∧ f.IsDigitLimit := by
  have hlint : FaultsIn Fault.IsDigitLimit (lint c text) := by
    rw [lint, hsrc]
    exact (Checker.faultsIn_run hks hmovable).bind fun _ _ => faultsIn_pure _
  exact hlint.result_or_fault

/-- Not every program has its containers.  In `x⏎{}` with a lone `\r` for the line break the display
stands in line two, and the text has one line. -/
theorem verify_lone_return :
    (Node.ofText? ['x', '\r', '\x7b', '\x7d']).isSome = true ∧
      verify .null ['x', '\r', '\x7b', '\x7d'] = .error .noSuchLine := by
  refine ⟨by decide +kernel, ?_⟩
  have hfault : (match verify .null ['x', '\r', '\x7b', '\x7d'] with
      | .error .noSuchLine => true
      | _ => false) = true := by
    decide +kernel
  split at hfault
  · assumption
  · cases hfault

end KeyOrder
