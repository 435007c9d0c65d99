import EdgeOperator.Decimal.Double

set_option autoImplicit false

/-! # The shortest decimal of a double

A positive double is a binary significand times a power of two, and it stands for every real number
that is nearer to it than to its neighbours; a number halfway between two doubles belongs to the one
whose significand is even. Of the decimals in that interval `shortest` takes one with the fewest
digits, of those the nearest one, and of two that are equally near the even one.

Comparisons are between natural numbers, so nothing is rounded on the way. -/

namespace EdgeOperator.Decimal

/-- A positive double: its significand times two to the power of its exponent. -/
structure Binary where
  significand : Nat
  exponent : Int
  /-- Whether the neighbour below is only half as far away as the one above. -/
  isNarrowBelow : Bool
deriving DecidableEq, Repr

/-- Digits times ten to the power of an exponent. -/
structure Scaled where
  digits : Nat
  exponent : Int
deriving DecidableEq, Repr

namespace Binary

/-- The parts of a positive double, from its bits. -/
def ofBits (bits : Nat) : Binary :=
  let power : Nat := bits / Nat.pow 2 52
  let fraction : Nat := bits % Nat.pow 2 52
  if power = 0 then ⟨fraction, -1074, false⟩
  else ⟨Nat.pow 2 52 + fraction, (power : Int) - 1075, fraction = 0 ∧ 1 < power⟩

/-- The multiple of a power of ten that a double is written as: one of the two around it that lie in
its interval. -/
def onGrid? (b : Binary) (exponent : Int) : Option Scaled :=
  let unit := Nat.pow 2 b.exponent.toNat * Nat.pow 10 (-exponent).toNat
  let step := Nat.pow 2 (-b.exponent).toNat * Nat.pow 10 exponent.toNat
  let below := b.significand * unit / step
  let gap := b.significand * unit % step
  let reaches (twice : Nat) : Bool :=
    if b.significand % 2 = 0 then twice ≤ unit else twice < unit
  let isBelow := reaches (if b.isNarrowBelow then 4 * gap else 2 * gap)
  let isAbove := reaches (2 * (step - gap))
  let isAboveBetter := step < 2 * gap ∨ step = 2 * gap ∧ below % 2 = 1
  if isAbove ∧ (isAboveBetter ∨ ¬isBelow) then some ⟨below + 1, exponent⟩
  else if isBelow then some ⟨below, exponent⟩
  else none

/-- The shortest decimal of a double, looked for from the coarsest grid to the finest. -/
def shortest (b : Binary) : Scaled :=
  ((List.range 634).findSome? fun (n : Nat) => b.onGrid? (309 - n)).getD ⟨b.significand, 0⟩

end Binary

namespace Scaled

/-- Zeros in a row. -/
def zeros (count : Nat) : String :=
  String.ofList (List.replicate count '0')

/-- A decimal as text. If its leading digit counts ten to the power of a number from -5 to 15, the
digits stand around a point, with a zero where it has none after it; else an exponent follows. -/
def toText (d : Scaled) : String :=
  let digits := toString d.digits
  let point := digits.length + d.exponent
  if 0 ≤ d.exponent ∧ point ≤ 16 then digits ++ zeros d.exponent.toNat ++ ".0"
  else if 0 < point ∧ point ≤ 16 then
    (digits.take point.toNat).copy ++ "." ++ (digits.drop point.toNat).copy
  else if -5 < point ∧ point ≤ 0 then "0." ++ zeros (-point).toNat ++ digits
  else
    let fraction := if digits.length = 1 then "" else "." ++ (digits.drop 1).copy
    (digits.take 1).copy ++ fraction ++ "e" ++ toString (point - 1)

end Scaled

/-- The shortest text of a finite double that is not below zero. -/
def text (value : Float) : String :=
  if value == 0 then "0.0"
  else (Binary.ofBits value.toBits.toNat).shortest.toText

end EdgeOperator.Decimal
