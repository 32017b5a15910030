import KeyOrder.Fix
import KeyOrder.Unicode.Decimal

/-!
# The command line

Arguments are read into settings, the last of several values of one option counting.  A run reads
one text, from a file or from the standard input, and prints the problems, or the fixed text and
the problems that are left.
-/

namespace KeyOrder

namespace CommandLine

/-! ### Numbers -/

/-- White space of ASCII around an integer. -/
def isSpace (c : CodePoint) : Bool := c == 0x20 || (0x09 ≤ c && c ≤ 0x0d)

/-- A character of an integer as one of ASCII: digits of all scripts and blanks of all kinds are
taken for the plain ones. -/
def plainPoint (c : CodePoint) : CodePoint :=
  if c < 0x7f then c
  else if Unicode.blanks.contains c then 0x20
  else
    match Unicode.decimalValue? c with
    | some d => '0'.toNat + d
    | none => '?'.toNat

/-- Digits with single underscores between them, and nothing else.  `fresh` tells that a digit has
to come. -/
def digits? (fresh : Bool) : CodePoints → Option CodePoints
  | [] => if fresh then none else some []
  | c :: cs =>
    if Natural.isDigit c then (digits? false cs).map (c :: ·)
    else if c = '_'.toNat ∧ !fresh then digits? true cs
    else none

/-- An integer between blanks. -/
def integer? (s : CodePoints) : Option Int :=
  let trim := fun (cs : CodePoints) => (cs.dropWhile isSpace).reverse
  let cs := trim (trim (s.map plainPoint))
  let (negative, cs) := match cs with
    | c :: rest =>
      if c = '-'.toNat then (true, rest)
      else if c = '+'.toNat then (false, rest)
      else (false, cs)
    | [] => (false, cs)
  (digits? true cs).bind fun ds =>
    if digitLimit < ds.length then none
    else some (if negative then -(Natural.value ds : Int) else Natural.value ds)

/-! ### Arguments -/

/-- The options that take a value. -/
inductive ValueOption where
  | order
  | minKeys
  | source
deriving DecidableEq

/-- The options that take none. -/
inductive FlagOption where
  | caseSensitive
  | natural
  | fix
  | verbose
  | version
deriving DecidableEq

/-- An option, as it is written. -/
inductive Switch where
  | value (option : ValueOption)
  | flag (option : FlagOption) (on : Bool)

/-- All options. -/
def switches : List (String × Switch) :=
  [("--order", .value .order), ("--min-keys", .value .minKeys), ("--source", .value .source),
   ("--case-sensitive", .flag .caseSensitive true),
   ("--case-insensitive", .flag .caseSensitive false),
   ("--natural", .flag .natural true), ("--no-natural", .flag .natural false),
   ("--fix", .flag .fix true), ("--no-fix", .flag .fix false),
   ("--verbose", .flag .verbose true), ("--no-verbose", .flag .verbose false),
   ("--version", .flag .version true), ("--no-version", .flag .version false)]

/-- The arguments, taken apart but not checked: the values of options and of flags, in order, and
what is neither. -/
structure Arguments where
  values : List (ValueOption × CodePoints)
  flags : List (FlagOption × Bool)
  extra : List CodePoints

/-- The part of an argument before the first equals sign, and the part after it. -/
def cutEquals (s : CodePoints) : CodePoints × Option CodePoints :=
  let before := s.takeWhile (· != '='.toNat)
  match s.drop before.length with
  | [] => (before, none)
  | _ :: after => (before, some after)

/-- Takes arguments apart.  An unknown option, a missing value and a value for a flag are usage
errors. -/
def takeApart (a : Arguments) : List CodePoints → Option Arguments
  | [] => some a
  | s :: rest =>
    if s = codePoints "--" then some { a with extra := a.extra ++ rest }
    else if s.head? = some '-'.toNat ∧ 1 < s.length then
      let (name, value) := cutEquals s
      match (switches.find? fun (n, _) => codePoints n = name).map Prod.snd, value, rest with
      | some (.flag f on), none, rest => takeApart { a with flags := a.flags ++ [(f, on)] } rest
      | some (.value o), some v, rest => takeApart { a with values := a.values ++ [(o, v)] } rest
      | some (.value o), none, v :: rest =>
        takeApart { a with values := a.values ++ [(o, v)] } rest
      | _, _, _ => none
    else takeApart { a with extra := a.extra ++ [s] } rest

/-- The last value of an option. -/
def Arguments.value? (a : Arguments) (o : ValueOption) : Option CodePoints :=
  (a.values.reverse.find? fun (p, _) => p = o).map Prod.snd

/-- The last setting of a flag. -/
def Arguments.flag (a : Arguments) (f : FlagOption) (default : Bool) : Bool :=
  ((a.flags.reverse.find? fun (p, _) => p = f).map Prod.snd).getD default

/-- The settings of a run. -/
structure Settings where
  configuration : Configuration
  fix : Bool
  verbose : Bool
  /-- The file to read; the standard input when there is none. -/
  source : Option CodePoints

/-- What the arguments ask for. -/
inductive Request where
  | usageError
  | version
  | run (settings : Settings)

/-- The direction that a value names. -/
def direction? (s : CodePoints) : Option Direction :=
  if s = codePoints "asc" then some .ascending
  else if s = codePoints "desc" then some .descending
  else none

/-- The least number of entries that a value names. -/
def minKeys? (s : CodePoints) : Option Int :=
  (integer? s).bind fun n => if n < 2 then none else some n

/-- The settings that arguments describe. -/
def Arguments.settings? (a : Arguments) : Option Settings := do
  let direction ← match a.value? .order with
    | some s => direction? s
    | none => some .ascending
  let minKeys ← match a.value? .minKeys with
    | some s => minKeys? s
    | none => some 2
  if !a.extra.isEmpty then none
  else
    return {
      configuration := ⟨direction, a.flag .caseSensitive true, a.flag .natural false,
        .integer minKeys⟩
      fix := a.flag .fix false
      verbose := a.flag .verbose false
      source := a.value? .source }

/-- What arguments ask for.  The version is told before any value is looked at. -/
def request (args : List CodePoints) : Request :=
  match takeApart ⟨[], [], []⟩ args with
  | none => .usageError
  | some a =>
    if a.flag .version false then .version
    else
      match a.settings? with
      | some s => .run s
      | none => .usageError

/-! ### Runs -/

/-- What a run reads from. -/
structure Surroundings where
  standardInput : Text
  /-- The standard input is a terminal. -/
  terminal : Bool
  /-- The content of a file, if it is there. -/
  file? : CodePoints → Option Text

/-- What a run prints, and its exit status. -/
structure Printed where
  exit : Nat
  output : CodePoints
  errors : CodePoints

/-- What a command line ends with. -/
inductive Ending where
  | usageError
  | printed (p : Printed)

/-- The text that a file or the standard input holds, with every line break written as `\n`. -/
def universal (text : Text) : Text := Lexeme.unifyBreaks text

/-- Drops a control sequence that sets the style of a terminal from the start of a text. -/
def skipStyle? : CodePoints → Option CodePoints
  | 0x1b :: 0x5b :: cs =>
    let rest := cs.dropWhile fun c => Natural.isDigit c || c == ';'.toNat || c == '?'.toNat
    match rest with
    | c :: rest => if (Char.ofNat c).isAlpha then some rest else none
    | [] => none
  | _ => none

/-- Drops control sequences that set the style of a terminal. -/
def plain : Nat → CodePoints → CodePoints
  | 0, cs => cs
  | _, [] => []
  | n + 1, c :: cs =>
    match skipStyle? (c :: cs) with
    | some rest => plain n rest
    | none => c :: plain n cs

/-- A text as it is printed. -/
def printed (cs : CodePoints) : CodePoints := plain cs.length cs

/-- A problem as it is printed. -/
def problemLine (source : CodePoints) (p : Problem) : CodePoints :=
  printed (source ++ codePoints (":" ++ toString p.line ++ ":" ++ toString p.column ++ ": ") ++
    p.message) ++ ['\n'.toNat]

/-- The log as it is printed. -/
def logLines (verbose : Bool) (log : List Record) : CodePoints :=
  if verbose then log.flatMap fun r => codePoints (r.display ++ "\n") else []

/-- The name and the text of what a run reads; nothing when there is no such file. -/
def input (around : Surroundings) (s : Settings) : Outcome (Option (CodePoints × Text)) :=
  let standard := codePoints "<stdin>"
  match s.source with
  | some f =>
    if f = codePoints "-" then .ok (some (standard, universal around.standardInput))
    else .ok ((around.file? f).map fun t => (f, universal t))
  | none =>
    if around.terminal then .error .noInput
    else .ok (some (standard, universal around.standardInput))

/-- Checks or fixes a text and prints what there is to tell. -/
def process (s : Settings) (name : CodePoints) (text : Text) : Outcome Printed := do
  if s.fix then
    let r ← fixText Applier.standard s.configuration defaultPasses text
    return {
      exit := if r.problems.isEmpty then 0 else 1
      output := printed (r.output.map Char.toNat)
      errors := logLines s.verbose r.log ++ r.problems.flatMap (problemLine name) }
  else
    let r ← lint s.configuration text
    return {
      exit := if r.problems.isEmpty then 0 else 1
      output := r.problems.flatMap (problemLine name)
      errors := logLines s.verbose r.log }

/-- The version of the program. -/
def version : String := "0.1.0"

/-- Runs a command line. -/
def run (around : Surroundings) (args : List CodePoints) : Outcome Ending :=
  match request args with
  | .usageError => .ok .usageError
  | .version => .ok (.printed ⟨0, codePoints (version ++ "\n"), []⟩)
  | .run s => do
    match ← input around s with
    | none => return .usageError
    | some (name, text) => return .printed (← process s name text)

end CommandLine

end KeyOrder
