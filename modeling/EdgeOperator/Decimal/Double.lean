set_option autoImplicit false

/-! # Doubles that decimals stand for

A number with a fraction or an exponent, or one that fits no integer type, is read as a double: its
leading digits, as many as fit 64 bits, times or divided by a power of ten, each step rounded to the
nearest double. A decimal beyond the largest double stands for none. -/

namespace EdgeOperator.Decimal

/-- Appends digits to a significand as long as it fits 64 bits. Gives the significand, and how many
of the digits were left out. -/
def appendDigits (significand : Nat) : List Char → Nat × Nat
  | [] => (significand, 0)
  | digit :: rest =>
    let longer := significand * 10 + (digit.toNat - '0'.toNat)
    if longer < 18446744073709551616 then appendDigits longer rest
    else (significand, rest.length + 1)

/-- The double nearest to a power of ten. -/
def powerOfTen (exponent : Nat) : Float :=
  .ofScientific 1 false exponent

/-- The exponent of the largest power of ten that is a finite double. -/
def maxExponent : Nat := 308

/-- A double divided by a power of ten, by at most the largest one at a time. -/
def shrink (value : Float) (places : Nat) : Float :=
  if places ≤ maxExponent then value / powerOfTen places
  else if value == 0 then value
  else shrink (value / powerOfTen maxExponent) (places - maxExponent)
termination_by places
decreasing_by simp only [maxExponent] at *; omega

/-- The double for a significand of 64 bits times a power of ten; `none` beyond the largest one. -/
def scale? (significand : Nat) (exponent : Int) : Option Float :=
  let value := significand.toUInt64.toFloat
  if exponent < 0 then some (shrink value exponent.natAbs)
  else if significand = 0 then some value
  else if exponent.toNat ≤ maxExponent then
    let scaled := value * powerOfTen exponent.toNat
    if scaled.isInf then none else some scaled
  else none

/-- The double that a decimal without a sign stands for, given the digits before and after its point
and its exponent. -/
def toDouble? (whole fraction : List Char) (exponent : Int) : Option Float :=
  let (significand, wholeRest) := appendDigits 0 whole
  let (significand, fractionRest) := appendDigits significand fraction
  scale? significand (exponent + wholeRest - (fraction.length - fractionRest))

end EdgeOperator.Decimal
