import KeyOrder.Proofs.Completion
import KeyOrder.Proofs.Places

/-!
# The faults of a check

A check ends in a fault where the text is no program, its tokens cannot be told apart, a place lies
outside of it, tokens and tree do not fit together, a number has too many digits, or edits overlap.
It never ends in a fault of the options, of the name of an order, of a pass or of the input: those
arise before a text is looked at, or between the checks of a run.

Each function of a check has one lemma, here or, as for properties and reports, where it holds of
any faults.  `faultsIn_lint_ofText` is the result.
-/

namespace KeyOrder

open Outcome (FaultsIn faultsIn_ok faultsIn_pure faultsIn_error faultsIn_mapM)

/-- The faults that the check of a text may end in. -/
def Fault.OfText : Fault → Prop
  | .badOptions _ | .unknownOrder _ | .brokenFix _ | .noInput => False
  | _ => True

/-- A number with too many digits is a fault of the text. -/
lemma Fault.ofText_of_isDigitLimit (f : Fault) (h : f.IsDigitLimit) : f.OfText := by
  cases f with
  | tooManyDigits _ | integerTooLong => trivial
  | _ => exact h.elim

/-! ### Reading a text -/

namespace LineIndex

lemma faultsIn_charactersIn (t : Text) (bytes : Nat) :
    FaultsIn Fault.OfText (charactersIn t bytes) := by
  fun_induction charactersIn t bytes with
  | case1 | case2 => exact faultsIn_ok _
  | case3 => exact faultsIn_error trivial
  | case4 c cs bytes _ _ ih => exact ih.map _

lemma faultsIn_offset (index : LineIndex) (place : Place) :
    FaultsIn Fault.OfText (index.offset place) := by
  unfold offset
  split
  · split
    · exact faultsIn_ok _
    · exact faultsIn_error trivial
  · split
    · exact (faultsIn_charactersIn _ _).map _
    · exact faultsIn_error trivial

end LineIndex

namespace Scan

lemma faultsIn_scanStatement (line offset : Nat) (st : State) (text : Text) :
    FaultsIn Fault.OfText (scanStatement line offset st text) := by
  have hcolumns : ∀ column : Nat, FaultsIn Fault.OfText (columnsAt column st.columns) := by
    intro column
    unfold columnsAt
    split
    · exact faultsIn_ok _
    · split
      · exact faultsIn_ok _
      · split
        · exact faultsIn_ok _
        · exact faultsIn_error trivial
  unfold scanStatement
  dsimp only
  split
  · exact faultsIn_ok _
  · exact faultsIn_ok _
  · exact faultsIn_ok _
  · exact faultsIn_ok _
  · exact (hcolumns _).bind fun _ _ => faultsIn_pure _

lemma faultsIn_scanLine (line offset : Nat) (st : State) (text : Text) :
    FaultsIn Fault.OfText (scanLine line offset st text) := by
  unfold scanLine
  split
  · exact faultsIn_ok _
  · split
    · exact faultsIn_scanStatement line offset st text
    · exact faultsIn_ok _

lemma faultsIn_scanLines (line offset : Nat) (st : State) (ls : List Text) :
    FaultsIn Fault.OfText (scanLines line offset st ls) := by
  induction ls generalizing line offset st with
  | nil =>
    rw [scanLines]
    split
    · exact faultsIn_error trivial
    · exact faultsIn_ok _
  | cons l ls ih =>
    rw [scanLines]
    refine (faultsIn_scanLine line offset st l).bind fun r _ => ?_
    exact (ih _ _ r.2).bind fun _ _ => faultsIn_pure _

end Scan

namespace Source

lemma faultsIn_read (text : Text) : FaultsIn Fault.OfText (read text) := by
  unfold read
  split
  · exact faultsIn_error trivial
  · split
    · exact faultsIn_error trivial
    · exact (Scan.faultsIn_scanLines 1 0 .initial _).bind fun _ _ => faultsIn_pure _

lemma faultsIn_ofText (text : Text) : FaultsIn Fault.OfText (ofText text) := by
  refine (faultsIn_read text).bind fun src _ => ?_
  split
  · exact faultsIn_error trivial
  · exact faultsIn_pure _

lemma faultsIn_rangeOf (src : Source) (s : Span) : FaultsIn Fault.OfText (src.rangeOf s) :=
  (src.lines.faultsIn_offset s.start).bind fun _ _ =>
    (src.lines.faultsIn_offset s.stop).bind fun _ _ => faultsIn_pure _

lemma endsIn_walk (src : Source) : Walk.EndsIn Fault.OfText src.walk := by
  have hclosed : Walk.Closed src (fun _ => true) (Walk.EndsIn Fault.OfText) :=
    Walk.closed_endsIn fun path n _ =>
      Container.faultsIn_ofNode? trivial fun m _ => src.faultsIn_rangeOf m.span
  exact Walk.visit_closed hclosed [] src.tree src.tree.all_true

end Source

/-! ### Relocation -/

namespace Relocation

variable {src : Source} {s : Fault → Prop}

lemma faultsIn_move (hs : s .misplaced) (e slot : Entry) : FaultsIn s (move src e slot) := by
  have hleading : FaultsIn s (moveLeading src e slot) := by
    unfold moveLeading
    split
    · exact faultsIn_error hs
    · dsimp only
      split
      · exact faultsIn_ok _
      · split
        · exact faultsIn_error hs
        · exact faultsIn_ok _
  exact hleading.bind fun _ _ => faultsIn_pure _

/-- Nothing but a misplaced entry can go wrong when entries are moved. -/
lemma faultsIn_moveAll_of_misplaced (hs : s .misplaced) (ordered slots : List Named) :
    FaultsIn s (moveAll src ordered slots) := by
  induction ordered generalizing slots with
  | nil => exact faultsIn_ok _
  | cons x xs ih =>
    cases slots with
    | nil => exact faultsIn_ok _
    | cons t ts =>
      rw [moveAll]
      split
      · exact (faultsIn_ok _).bind fun _ _ => (ih ts).bind fun _ _ => faultsIn_pure _
      · exact (faultsIn_move hs _ _).bind fun _ _ => (ih ts).bind fun _ _ => faultsIn_pure _

lemma faultsIn_edits_ofText (o : Order) (c : Container) :
    FaultsIn Fault.OfText (edits src o c) := by
  refine (faultsIn_mapM fun segment _ => ?_).bind fun _ _ => faultsIn_pure _
  refine ((faultsIn_namedFrom 0 segment).imp Fault.ofText_of_isDigitLimit).bind fun slots _ => ?_
  exact ((faultsIn_ofDigits _).imp Fault.ofText_of_isDigitLimit).bind fun ordered _ =>
    faultsIn_moveAll_of_misplaced trivial ordered slots

end Relocation

/-! ### The checker -/

namespace Checker

variable {src : Source} {c : Configuration}

lemma faultsIn_fixOf {s : Fault → Prop} (hs : ∀ e, s (.unmergeable e)) (edits : List Edit) :
    FaultsIn s (fixOf src edits) := by
  unfold fixOf
  split
  · exact faultsIn_ok _
  · refine FaultsIn.map ?_ some
    cases Edit.merge edits src.text with
    | error e => exact faultsIn_error (hs e)
    | ok m => exact faultsIn_ok m

lemma faultsIn_attempt_ofText (o : Order) (k : Container) :
    FaultsIn Fault.OfText (Relocation.attempt src o k) :=
  (Relocation.faultsIn_edits_ofText o k).bind fun es _ => faultsIn_fixOf (fun _ => trivial) es

lemma faultsIn_step_ofText (st : State) (event : Event) :
    FaultsIn Fault.OfText (step src c st event) := by
  cases event with
  | enter k => exact faultsIn_ok _
  | leave k =>
    dsimp only [step]
    split
    · split
      · exact faultsIn_ok _
      · exact faultsIn_error trivial
    · exact faultsIn_error trivial
  | entry k e =>
    dsimp only [step]
    split
    · exact faultsIn_error trivial
    · split
      · exact faultsIn_ok _
      · split
        · exact faultsIn_property Fault.ofText_of_isDigitLimit fun _ _ =>
            faultsIn_attempt_ofText c.order k
        · exact faultsIn_error trivial

lemma faultsIn_foldlM_step (events : List Event) (st : State) :
    FaultsIn Fault.OfText (events.foldlM (step src c) st) := by
  induction events generalizing st with
  | nil => exact faultsIn_pure _
  | cons event events ih =>
    rw [List.foldlM_cons]
    exact (faultsIn_step_ofText st event).bind fun st' _ => ih st'

end Checker

/-- **A check ends in no fault but one of the text.** -/
theorem faultsIn_lint_ofText (c : Configuration) (text : Text) :
    FaultsIn Fault.OfText (lint c text) := by
  refine (Source.faultsIn_ofText text).bind fun src _ => ?_
  refine FaultsIn.bind ?_ fun _ _ => faultsIn_pure _
  refine (Checker.faultsIn_foldlM_step src.walk.events _).bind fun st _ => ?_
  split
  · exact faultsIn_error (src.endsIn_walk _ ‹_›)
  · exact faultsIn_pure _

end KeyOrder
