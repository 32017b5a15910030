import KeyOrder.Lint

/-!
# Fixing a text

Fixes are applied pass after pass until nothing is left to apply or the passes are used up.  The
fixes of nested containers overlap, so each pass applies the outermost ones and leaves the others
to the next.
-/

namespace KeyOrder

/-- What applies the fixes of a pass: it is given the number of passes before, the text and its
problems. -/
abbrev Applier := Nat → Text → List Problem → Edit.Applied

/-- Applies the fixes that problems carry. -/
def applyFixes (text : Text) (problems : List Problem) : Edit.Applied :=
  Edit.applyAll text (problems.filterMap Problem.fix)

/-- The applier of a normal run. -/
def Applier.standard : Applier := fun _ => applyFixes

/-- An applier that gives a fixed sequence of answers, and after that applies nothing. -/
def Applier.scripted (answers : List (Text × Nat)) : Applier := fun n text _ =>
  match answers[n]? with
  | some (output, count) => ⟨output, count, []⟩
  | none => ⟨text, 0, []⟩

/-- The result of fixing a text: the problems are those that the output still has. -/
structure FixResult where
  output : Text
  problems : List Problem
  passes : Nat
  log : List Record

/-- Whether anything was fixed. -/
def FixResult.fixed (r : FixResult) : Bool := r.passes != 0

/-- Goes through at most `n` more passes.  A text that is no program after a pass is a fault of
that pass; any other fault goes through. -/
def fixFrom (apply : Applier) (c : Configuration) : Nat → FixResult → Outcome FixResult
  | 0, r => .ok r
  | n + 1, r =>
    let a := apply r.passes r.output r.problems
    let deferrals := a.deferred.map Record.deferring
    if a.count = 0 then .ok { r with log := r.log ++ deferrals }
    else
      match lint c a.output with
      | .error .invalidSyntax => .error (.brokenFix (r.passes + 1))
      | .error f => .error f
      | .ok report =>
        fixFrom apply c n
          { output := a.output
            problems := report.problems
            passes := r.passes + 1
            log := r.log ++ deferrals ++
              .pass (r.passes + 1) a.count r.problems.length :: report.log }

/-- Fixes a text in at most `maxPasses` passes. -/
def fixText (apply : Applier) (c : Configuration) (maxPasses : Nat) (text : Text) :
    Outcome FixResult := do
  let report ← lint c text
  fixFrom apply c maxPasses ⟨text, report.problems, 0, report.log⟩

/-- The number of passes when none is given. -/
def defaultPasses : Nat := 10

/-- Fixes a text under options. -/
def verifyAndFix (apply : Applier) (options : Json.Value) (maxPasses : Nat) (text : Text) :
    Outcome FixResult := do
  let values ← Outcome.ofOptions (Options.validate options)
  fixText apply (Options.configuration values) maxPasses text

end KeyOrder
