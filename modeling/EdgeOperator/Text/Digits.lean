set_option autoImplicit false

/-! # Decimal digits

Numbers as they are written with the digits from `0` to `9`. -/

namespace EdgeOperator.Text

/-- The number that decimal digits stand for. -/
def digitsValue (digits : List Char) : Nat :=
  digits.foldl (fun n c => n * 10 + (c.toNat - '0'.toNat)) 0

/-- The number that characters stand for; `none` unless there is at least one and all are
digits. -/
def number? (chars : List Char) : Option Nat :=
  if chars.isEmpty || !chars.all Char.isDigit then none else some (digitsValue chars)

end EdgeOperator.Text
