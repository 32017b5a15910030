import KeyOrder.Edit
import KeyOrder.Options

/-!
# Faults

Everything that can end an operation before it has an answer, and the wording of each.
-/

namespace KeyOrder

/-- Why an operation has no answer. -/
inductive Fault where
  /-- The text is no valid program. -/
  | invalidSyntax
  /-- A string of the text names a character in an escape.  Names of characters are not looked
  up. -/
  | characterName
  /-- The options are refused. -/
  | badOptions (refusal : Options.Refusal)
  /-- There is no order of that name. -/
  | unknownOrder (name : CodePoints)
  /-- A run of digits is too long to be compared as a number. -/
  | tooManyDigits (count : Nat)
  /-- An integer key is too long to be written in decimal. -/
  | integerTooLong
  /-- The text after a pass is no valid program. -/
  | brokenFix (pass : Nat)
  /-- Edits of one fix overlap, or there are none. -/
  | unmergeable (error : Edit.MergeError)
  /-- A line number lies outside the text. -/
  | noSuchLine
  /-- A byte column lies inside a character. -/
  | insideCharacter
  /-- Tokens and tree do not fit together. -/
  | misplaced
  /-- The tokens of the text cannot be told apart. -/
  | unreadableTokens
  /-- The standard input is a terminal. -/
  | noInput
deriving Repr

namespace Fault

/-- The name of the kind of a value that is no sequence. -/
def kindName : Json.Value → String
  | .bool _ => "bool"
  | .number (.float _ _) => "float"
  | _ => "int"

/-- The wording of a fault, for those that have one. -/
def message? : Fault → Option CodePoints
  | invalidSyntax => none
  | characterName => none
  | badOptions (.notASequence v) =>
    some (codePoints ("'" ++ kindName v ++ "' object is not iterable"))
  | badOptions (.violation v) =>
    some (codePoints ("Invalid options for rule '" ++ ruleId ++ "': ") ++ v.message)
  | unknownOrder name => some (Quoted.string name)
  | tooManyDigits n =>
    some (codePoints ("Exceeds the limit (" ++ toString digitLimit ++
      " digits) for integer string conversion: value has " ++ toString n ++
      " digits; use sys.set_int_max_str_digits() to increase the limit"))
  | integerTooLong =>
    some (codePoints ("Exceeds the limit (" ++ toString digitLimit ++
      " digits) for integer string conversion; " ++
      "use sys.set_int_max_str_digits() to increase the limit"))
  | brokenFix n =>
    some (codePoints ("fix in pass " ++ toString n ++ " produced invalid source"))
  | unmergeable (.overlap range last) =>
    some (codePoints ("edit at " ++ range.display ++
      " overlaps an earlier edit ending at " ++ toString last))
  | unmergeable .empty => none
  | noSuchLine => none
  | insideCharacter => none
  | misplaced => none
  | unreadableTokens => none
  | noInput => some (codePoints "No input provided via stdin.")

end Fault

/-- The result of an operation that may end in a fault. -/
abbrev Outcome := Except Fault

namespace Outcome

/-- A result of a comparison of names. -/
def ofDigits {α : Type} : Except TooManyDigits α → Outcome α
  | .ok a => .ok a
  | .error e => .error (.tooManyDigits e.count)

/-- A result of a merge. -/
def ofMerge {α : Type} : Except Edit.MergeError α → Outcome α
  | .ok a => .ok a
  | .error e => .error (.unmergeable e)

/-- A result of a reading of options. -/
def ofOptions {α : Type} : Except Options.Refusal α → Outcome α
  | .ok a => .ok a
  | .error e => .error (.badOptions e)

end Outcome

/-- The order with a base name and flags. -/
def Order.lookup (base : CodePoints) (insensitive natural : Bool) : Outcome Order :=
  match Order.named? (Order.lookupName base insensitive natural) with
  | some o => .ok o
  | none => .error (.unknownOrder (Order.lookupName base insensitive natural))

end KeyOrder
