import KeyOrder.Bisect

/-!
# Tables of code points

A property of code points, or a map on them, is given as a sequence of runs.  A run covers the
code points `first`, `first + step`, … up to `last`, and may carry an image.  Runs are disjoint
intervals in ascending order, so that a code point is looked up by bisection.

Tables are written as text.  A run is `first-last/step>a,b` in hexadecimal, where `-last`,
`/step` and `>a,b` are left out for a single code point, a step of one and an empty image, and
runs are separated by single spaces and line ends.
-/

namespace KeyOrder

/-- A Unicode code point.  Surrogates count: an escape in a string literal may denote one. -/
abbrev CodePoint := Nat

/-- A sequence of code points, surrogates included. -/
abbrev CodePoints := List CodePoint

/-- The code points of a string. -/
def codePoints (s : String) : CodePoints := s.toList.map Char.toNat

namespace Unicode

/-- A run of code points with a common image. -/
structure Run where
  first : CodePoint
  last : CodePoint
  step : Nat
  image : List CodePoint
deriving Repr, DecidableEq

namespace Run

/-- Whether the run covers `c`. -/
def covers (r : Run) (c : CodePoint) : Bool :=
  r.first ≤ c && c ≤ r.last && (c - r.first) % r.step == 0

/-- The image of `c` when the image of the run moves along with it: a single target is shifted
by the distance from the start of the run, and a longer one is taken as it is. -/
def imageAt (r : Run) (c : CodePoint) : List CodePoint :=
  match r.image with
  | [t] => [t + (c - r.first)]
  | ts => ts

end Run

/-- A table of runs in ascending order. -/
abbrev Table := Array Run

namespace Table

/-- The value of a hexadecimal digit in lower case. -/
def hexDigit (c : Char) : Nat :=
  if c.isDigit then c.toNat - '0'.toNat else c.toNat - 'a'.toNat + 10

/-- The value of a hexadecimal numeral in lower case. -/
def hexNumber (s : List Char) : Nat :=
  s.foldl (fun n c => 16 * n + hexDigit c) 0

/-- The part of `s` before the first `sep`, and the part after it if there is one. -/
def cut (s : List Char) (sep : Char) : List Char × Option (List Char) :=
  match s.splitOn sep with
  | [] => (s, none)
  | [a] => (a, none)
  | a :: b :: _ => (a, some b)

/-- Reads one run. -/
def readRun (s : List Char) : Run :=
  let (range, image) := cut s '>'
  let (ends, step) := cut range '/'
  let (first, last) := cut ends '-'
  { first := hexNumber first
    last := hexNumber (last.getD first)
    step := (step.map hexNumber).getD 1
    image := (image.map fun i => (i.splitOn ',').map hexNumber).getD [] }

/-- Reads the runs of one line. -/
def readLine (line : String) : List Run := (line.toList.splitOn ' ').map readRun

/-- Reads a table from its lines. -/
def ofLines (lines : List String) : Table := (lines.flatMap readLine).toArray

/-- The run that covers a code point. -/
def find? (t : Table) (c : CodePoint) : Option Run :=
  let i := bisectArray (fun r : Run => decide (c < r.first)) t
  if i = 0 then none else (t[i - 1]?).filter (·.covers c)

/-- Whether some run covers a code point. -/
def contains (t : Table) (c : CodePoint) : Bool := (t.find? c).isSome

end Table

end Unicode

end KeyOrder
