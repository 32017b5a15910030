import KeyOrder.Decimal.Shortest

/-!
# Written numbers

How integers and double precision numbers are written in messages and entry names.
-/

namespace KeyOrder

/-- The choices of a notation for double precision numbers. -/
structure FloatNotation where
  /-- The least position of the point that is written without an exponent. -/
  leastPoint : Int
  /-- The greatest position of the point that is written without an exponent. -/
  greatestPoint : Int
  /-- What follows an integral value written without an exponent. -/
  integralTail : String

namespace FloatNotation

/-- Numbers are positional from `0.0001` up to sixteen digits before the point, and an integral
one keeps a zero after the point. -/
def standard : FloatNotation := ⟨-3, 16, ".0"⟩

/-- The imaginary part of a complex number: as `standard`, and an integral one has no point. -/
def imaginary : FloatNotation := ⟨-3, 16, ""⟩

/-- An exponent: its sign and at least two digits. -/
def writeExponent (e : Int) : String :=
  let digits := toString e.natAbs
  (if e < 0 then "-" else "+") ++ (if digits.length < 2 then "0" ++ digits else digits)

/-- A decimal in the notation. -/
def writeDecimal (f : FloatNotation) (d : Decimal) : String :=
  let digits := String.ofList d.digits
  if f.leastPoint ≤ d.point ∧ d.point ≤ f.greatestPoint then
    if d.point ≤ 0 then
      "0." ++ String.ofList (List.replicate (-d.point).toNat '0') ++ digits
    else
      let n := d.point.toNat
      if d.digits.length ≤ n then
        digits ++ String.ofList (List.replicate (n - d.digits.length) '0') ++ f.integralTail
      else
        String.ofList (d.digits.take n) ++ "." ++ String.ofList (d.digits.drop n)
  else
    let mantissa := match d.digits with
      | [] => ""
      | [c] => String.ofList [c]
      | c :: cs => String.ofList (c :: '.' :: cs)
    mantissa ++ "e" ++ writeExponent (d.point - 1)

/-- A double precision number in the notation. -/
def write (f : FloatNotation) : Binary64 → String
  | .infinite => "inf"
  | .finite m e => f.writeDecimal (Binary64.shortest m e)

end FloatNotation

end KeyOrder
