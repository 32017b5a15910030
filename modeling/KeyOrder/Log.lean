import KeyOrder.Container.Basic

/-!
# The log

What a run tells about itself when it is asked to.
-/

namespace KeyOrder

/-- A record of the log. -/
inductive Record where
  /-- A text is about to be checked. -/
  | checking (configuration : Configuration)
  /-- An entry is out of order after an earlier one. -/
  | outOfOrder (entry previous : Entry)
  /-- The entries of a container are put in order by so many edits. -/
  | relocating (container : Container) (count : Nat)
  /-- A fix is left for a later pass. -/
  | deferring (range : Range)
  /-- A pass has applied so many fixes for so many problems. -/
  | pass (number applied problems : Nat)
deriving Repr

/-- A line of the log. -/
def Record.display : Record → String
  | checking c => "DEBUG:sort_keys_fix._rule:checking with " ++ c.display
  | outOfOrder e p =>
    "DEBUG:sort_keys_fix._rule:" ++ e.display ++ " is out of order after " ++ p.display
  | relocating c n =>
    "DEBUG:sort_keys_fix._relocate:relocating " ++ c.display ++ " with " ++ toString n ++ " edits"
  | deferring r =>
    "DEBUG:sort_keys_fix._linter:fix at " ++ r.display ++ " overlaps an earlier fix; deferring"
  | pass n applied problems =>
    "DEBUG:sort_keys_fix._linter:pass " ++ toString n ++ ": applied " ++ toString applied ++
      " of " ++ toString problems ++ " problems"

end KeyOrder
