import EdgeOperator.Decimal.Shortest
import EdgeOperator.Json.Written
import EdgeOperator.Text.Digits

set_option autoImplicit false

/-! # Numbers in JSON text

A number is an integer if it has neither fraction nor exponent and fits 64 bits, without a sign or
with one; a zero with a sign is none. Every other number is a double, in its shortest text. A number
beyond the largest double is unreadable. -/

namespace EdgeOperator.Json.Written

/-- The digits at the head of a text, and the rest. -/
def spanDigits (cs : List Char) : List Char × List Char :=
  (cs.takeWhile Char.isDigit, cs.dropWhile Char.isDigit)

/-- The digits after the point at the head of a text, if there is one. -/
def scanFraction? : List Char → Option (List Char × List Char)
  | '.' :: rest =>
    let (digits, rest) := spanDigits rest
    if digits.isEmpty then none else some (digits, rest)
  | cs => some ([], cs)

/-- The exponent at the head of a text, if there is one. -/
def scanExponent? (cs : List Char) : Option (Option Int × List Char) :=
  match cs with
  | [] => some (none, [])
  | mark :: rest =>
    if mark = 'e' ∨ mark = 'E' then
      let sign := rest.takeWhile fun c => c = '+' || c = '-'
      let (digits, rest) := spanDigits (rest.drop sign.length)
      if digits.isEmpty ∨ 1 < sign.length then none
      else
        let magnitude : Int := Text.digitsValue digits
        some (some (if sign = ['-'] then -magnitude else magnitude), rest)
    else some (none, cs)

/-- The double that the parts of a number stand for. -/
def realOf (isNegative : Bool) (whole fraction : List Char) (exponent : Int) : Written :=
  match Decimal.toDouble? whole fraction exponent with
  | some magnitude => .real ((if isNegative then "-" else "") ++ Decimal.text magnitude)
  | none => .unreadable

/-- The number at the head of a text. -/
def scanNumber? (cs : List Char) : Option (Written × List Char) :=
  let isNegative := cs.head? = some '-'
  let (digits, rest) := spanDigits (if isNegative then cs.tail else cs)
  if digits.isEmpty ∨ (digits.head? = some '0' ∧ 1 < digits.length) then none
  else do
    let (fraction, rest) ← scanFraction? rest
    let (exponent?, rest) ← scanExponent? rest
    let magnitude := Text.digitsValue digits
    let isWhole := fraction.isEmpty ∧ exponent?.isNone
    if isWhole ∧ ¬isNegative ∧ magnitude < 18446744073709551616 then
      return (.int magnitude, rest)
    else if isWhole ∧ isNegative ∧ 0 < magnitude ∧ magnitude ≤ 9223372036854775808 then
      return (.int (-magnitude), rest)
    else return (realOf isNegative digits fraction (exponent?.getD 0), rest)

end EdgeOperator.Json.Written
