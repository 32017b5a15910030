/-!
# Double precision numbers

A double precision number without its sign, as an exact multiple of a power of two, and the
number nearest to a decimal.  All arithmetic is exact; nothing is rounded but the result.
-/

namespace KeyOrder

/-- The magnitude of a double precision number: `significand · 2 ^ exponent`, or infinity. -/
inductive Binary64 where
  | finite (significand : Nat) (exponent : Int)
  | infinite
deriving Repr, DecidableEq, Inhabited

namespace Binary64

/-- The least exponent: below it the significand loses digits. -/
def minExponent : Int := -1074

/-- The greatest exponent of a finite number. -/
def maxExponent : Int := 971

/-- The number zero. -/
def zero : Binary64 := finite 0 minExponent

/-- The quotient to the nearest integer, a half going to the even one. -/
def roundDiv (num den : Nat) : Nat :=
  let q := num / den
  let r := num % den
  if 2 * r < den then q else if den < 2 * r then q + 1 else if q % 2 = 0 then q else q + 1

/-- The number of binary digits. -/
def bitLength (n : Nat) : Nat := if n = 0 then 0 else n.log2 + 1

/-- The quotient `num / (den · 2 ^ e)` as a numerator and a denominator. -/
def scale (num den : Nat) (e : Int) : Nat × Nat :=
  if e < 0 then (num * Nat.pow 2 (-e).toNat, den) else (num, den * Nat.pow 2 e.toNat)

/-- The number nearest to `num / den`, a half going to the even significand. -/
def ofRatio (num den : Nat) : Binary64 :=
  if num = 0 then zero
  else
    let guess := max ((bitLength num : Int) - (bitLength den : Int) - 53) minExponent
    let (n, d) := scale num den guess
    let e := if Nat.pow 2 53 ≤ n / d then guess + 1 else guess
    let (n, d) := scale num den e
    let m := roundDiv n d
    let (m, e) := if m = Nat.pow 2 53 then (Nat.pow 2 52, e + 1) else (m, e)
    if maxExponent < e then infinite else finite m e

/-- The number of decimal digits of a positive number, and one for zero. -/
def decimalLength (n : Nat) : Nat := (Nat.toDigits 10 n).length

/-- The number nearest to `digits · 10 ^ exponent`.  Exponents far outside the range of double
precision are settled without computing the power. -/
def ofDecimal (digits : Nat) (exponent : Int) : Binary64 :=
  if digits = 0 then zero
  else
    let magnitude := (decimalLength digits : Int) + exponent
    if 310 < magnitude then infinite
    else if magnitude < -330 then zero
    else if exponent < 0 then ofRatio digits (Nat.pow 10 (-exponent).toNat)
    else ofRatio (digits * Nat.pow 10 exponent.toNat) 1

/-- The value when it is an integer. -/
def toNat? : Binary64 → Option Nat
  | infinite => none
  | finite m e =>
    if 0 ≤ e then some (m * Nat.pow 2 e.toNat)
    else if m % Nat.pow 2 (-e).toNat = 0 then some (m / Nat.pow 2 (-e).toNat)
    else none

end Binary64

end KeyOrder
