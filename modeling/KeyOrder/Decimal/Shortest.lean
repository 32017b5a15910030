import KeyOrder.Decimal.Binary64

/-!
# The shortest decimal of a double precision number

Among the decimals that read back as a given number, the ones with the fewest digits, and of
those the nearest.  For one digit, two digits and so on, the two neighbours of the value on the
grid of decimals with that many digits are tested against the interval of reals that round to it.
-/

namespace KeyOrder

/-- A positive decimal `0.d₁d₂… · 10 ^ point`, given by its digits. -/
structure Decimal where
  digits : List Char
  point : Int
deriving Repr, DecidableEq

namespace Binary64

/-- The reals that round to a number, in units of a common denominator: the ends and the value
are numerators over `den`, and the ends belong to the interval when `closed`. -/
structure Neighbourhood where
  low : Nat
  value : Nat
  high : Nat
  den : Nat
  closed : Bool

/-- The neighbourhood of `m · 2 ^ e`.  The gap below a power of two is half as wide. -/
def neighbourhood (m : Nat) (e : Int) : Neighbourhood :=
  let unit := if 0 ≤ e then Nat.pow 2 e.toNat else 1
  let den := if 0 ≤ e then 4 else 4 * Nat.pow 2 (-e).toNat
  let below := if m = Nat.pow 2 52 ∧ minExponent < e then 1 else 2
  { low := (4 * m - below) * unit
    value := 4 * m * unit
    high := (4 * m + 2) * unit
    den := den
    closed := m % 2 = 0 }

/-- Whether the decimal `d · 10 ^ g` lies in the neighbourhood. -/
def Neighbourhood.holds (i : Neighbourhood) (d : Nat) (g : Int) : Bool :=
  let num := if 0 ≤ g then d * Nat.pow 10 g.toNat * i.den else d * i.den
  let one := if 0 ≤ g then 1 else Nat.pow 10 (-g).toNat
  if i.closed then i.low * one ≤ num && num ≤ i.high * one
  else i.low * one < num && num < i.high * one

/-- The multiple of `10 ^ g` below the value, and whether the value is nearer to it than to the
next one, as a comparison of twice the remainder with the divisor. -/
def Neighbourhood.floor (i : Neighbourhood) (g : Int) : Nat × Ordering :=
  let num := if 0 ≤ g then i.value else i.value * Nat.pow 10 (-g).toNat
  let den := if 0 ≤ g then i.den * Nat.pow 10 g.toNat else i.den
  (num / den, compare (2 * (num % den)) den)

/-- The decimal of the grid `10 ^ g` that stands for the value, if one does. -/
def Neighbourhood.onGrid? (i : Neighbourhood) (g : Int) : Option Nat :=
  let (d, side) := i.floor g
  let lower := d != 0 && i.holds d g
  let upper := i.holds (d + 1) g
  match lower, upper with
  | true, true =>
    some (match side with
      | .lt => d
      | .gt => d + 1
      | .eq => if d % 2 = 0 then d else d + 1)
  | true, false => some d
  | false, true => some (d + 1)
  | false, false => none

/-- An exponent `k` with the value below `10 ^ k`, and at least `10 ^ (k - 1)`. -/
def Neighbourhood.magnitude (i : Neighbourhood) : Int :=
  let whole := i.value / i.den
  if whole ≠ 0 then decimalLength whole
  else
    -- The quotient of a large power of ten and the reciprocal has the missing digits.
    (decimalLength (i.value * Nat.pow 10 400 / i.den) : Int) - 400

/-- Looks for the coarsest grid with a decimal, from `n` digits on. -/
def Neighbourhood.search (i : Neighbourhood) (k : Int) (n : Nat) : Nat → Nat × Int
  | 0 => (0, 0)
  | fuel + 1 =>
    match i.onGrid? (k - n) with
    | some d => (d, k - n)
    | none => i.search k (n + 1) fuel

/-- The shortest decimal of a finite number; zero is a single digit before the point.  Seventeen
digits are enough for every number. -/
def shortest (m : Nat) (e : Int) : Decimal :=
  if m = 0 then ⟨['0'], 1⟩
  else
    let i := neighbourhood m e
    let (d, g) := i.search i.magnitude 1 17
    let digits := Nat.toDigits 10 d
    let trimmed := (digits.reverse.dropWhile (· == '0')).reverse
    ⟨trimmed, (digits.length : Int) + g⟩

end Binary64

end KeyOrder
