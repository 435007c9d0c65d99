import EdgeOperator.Text.Digits

set_option autoImplicit false

/-! # Points in time

A timestamp is a calendar date and a time of day in UTC. It is read from a date, a time and an
offset as in RFC 3339 (`2010-01-01T00:00:00.5+02:00`); blanks may stand between the parts, numbers
may have fewer digits, and a sixtieth second is a leap second. It is written with `Z` and without
the fraction of its second, which still counts where two timestamps are compared.

Since the parts are kept as they are written, the order is the lexicographic one, and a shift by an
offset crosses at most one midnight. -/

namespace EdgeOperator

/-- A point in time, by its calendar date and time of day in UTC. -/
structure Timestamp where
  year : Int
  month : Nat
  day : Nat
  hour : Nat
  minute : Nat
  second : Nat
  nanos : Nat
deriving DecidableEq, Repr

namespace Timestamp

/-! ## Order -/

/-- Earlier timestamps come first. -/
instance : Ord Timestamp where
  compare :=
    compareLex (compareOn year) <| compareLex (compareOn month) <| compareLex (compareOn day) <|
      compareLex (compareOn hour) <| compareLex (compareOn minute) <|
        compareLex (compareOn second) (compareOn nanos)

/-- The timestamp without the fraction of its second. -/
def wholeSecond (t : Timestamp) : Timestamp :=
  { t with nanos := 0 }

/-! ## The calendar -/

/-- Whether a year has a twenty-ninth of February. -/
def isLeapYear (year : Int) : Bool :=
  year % 4 = 0 && (year % 100 ≠ 0 || year % 400 = 0)

/-- The number of days of a month; zero if there is no such month. -/
def daysInMonth (year : Int) (month : Nat) : Nat :=
  match month with
  | 2 => if isLeapYear year then 29 else 28
  | 4 | 6 | 9 | 11 => 30
  | 1 | 3 | 5 | 7 | 8 | 10 | 12 => 31
  | _ => 0

/-- The years a timestamp may lie in. -/
def isYear (year : Int) : Bool :=
  -262143 ≤ year && year ≤ 262142

/-- The same time on the next day. -/
def nextDay (t : Timestamp) : Timestamp :=
  if t.day < daysInMonth t.year t.month then { t with day := t.day + 1 }
  else if t.month < 12 then { t with month := t.month + 1, day := 1 }
  else { t with year := t.year + 1, month := 1, day := 1 }

/-- The same time on the day before. -/
def previousDay (t : Timestamp) : Timestamp :=
  if 1 < t.day then { t with day := t.day - 1 }
  else if 1 < t.month then
    { t with month := t.month - 1, day := daysInMonth t.year (t.month - 1) }
  else { t with year := t.year - 1, month := 12, day := 31 }

/-- The timestamp some minutes earlier, given that they are fewer than those of a day. -/
def minusMinutes (t : Timestamp) (minutes : Int) : Timestamp :=
  let total : Int := t.hour * 60 + t.minute - minutes
  let atMinute (t : Timestamp) (minute : Int) : Timestamp :=
    { t with hour := minute.toNat / 60, minute := minute.toNat % 60 }
  if total < 0 then atMinute t.previousDay (total + 1440)
  else if 1440 ≤ total then atMinute t.nextDay (total - 1440)
  else atMinute t total

/-! ## Reading -/

/-- Whether a character may stand between the parts of a timestamp. -/
def isBlank (c : Char) : Bool :=
  (9 ≤ c.toNat && c.toNat ≤ 13) || c.toNat = 0x20 || c.toNat = 0x85 || c.toNat = 0xA0 ||
    c.toNat = 0x1680 || (0x2000 ≤ c.toNat && c.toNat ≤ 0x200A) || c.toNat = 0x2028 ||
    c.toNat = 0x2029 || c.toNat = 0x202F || c.toNat = 0x205F || c.toNat = 0x3000

/-- The text after its leading blanks. -/
def skipBlanks (cs : List Char) : List Char :=
  cs.dropWhile isBlank

/-- The digits at the head of a text, at most `width` of them, and the rest. -/
def takeDigits : Nat → List Char → List Char × List Char
  | 0, cs => ([], cs)
  | _, [] => ([], [])
  | width + 1, c :: cs =>
    if c.isDigit then
      let (digits, rest) := takeDigits width cs
      (c :: digits, rest)
    else ([], c :: cs)

/-- A number of at least one and at most `width` digits; blanks may stand before it. -/
def readNumber (width : Nat) (cs : List Char) : Option (Nat × List Char) :=
  let (digits, rest) := takeDigits width (skipBlanks cs)
  if digits.isEmpty then none else some (Text.digitsValue digits, rest)

/-- A year: four digits at most, or a sign and any number of digits. -/
def readYear (cs : List Char) : Option (Int × List Char) :=
  match skipBlanks cs with
  | '-' :: rest =>
    let (digits, rest) := takeDigits rest.length rest
    if digits.isEmpty then none else some (-Text.digitsValue digits, rest)
  | '+' :: rest =>
    let (digits, rest) := takeDigits rest.length rest
    if digits.isEmpty then none else some (Text.digitsValue digits, rest)
  | rest => (readNumber 4 rest).map fun r => ((r.1 : Int), r.2)

/-- The text after a sign that has to come next; blanks may stand before it. -/
def dropSign (sign : Char) (cs : List Char) : Option (List Char) :=
  match skipBlanks cs with
  | c :: rest => if c = sign then some rest else none
  | [] => none

/-- The text after what separates the date from the time. -/
def dropSeparator : List Char → Option (List Char)
  | c :: rest => if c = 'T' ∨ c = 't' ∨ c = ' ' then some rest else none
  | [] => none

/-- The fraction of a second in nanoseconds, if there is one; digits after the ninth do not
count. -/
def readFraction : List Char → Option (Nat × List Char)
  | '.' :: rest =>
    let (digits, rest) := takeDigits 9 rest
    if digits.isEmpty then none
    else some (Text.digitsValue digits * Nat.pow 10 (9 - digits.length),
      rest.dropWhile Char.isDigit)
  | cs => some (0, cs)

/-- Exactly two digits. -/
def readTwoDigits : List Char → Option (Nat × List Char)
  | a :: b :: rest =>
    if a.isDigit ∧ b.isDigit then some (Text.digitsValue [a, b], rest) else none
  | _ => none

/-- The offset of local time from UTC in minutes, less than a day. -/
def readOffset (cs : List Char) : Option (Int × List Char) :=
  match cs with
  | [] => none
  | c :: rest =>
    if c = 'Z' ∨ c = 'z' then some (0, rest)
    else if (cs.take 3).map Char.toUpper = ['U', 'T', 'C'] then some (0, cs.drop 3)
    else if c = '+' ∨ c = '-' ∨ c.toNat = 0x2212 then do
      let (hours, rest) ← readTwoDigits rest
      let (minutes, rest) ← readTwoDigits (rest.dropWhile fun c => c = ':' || isBlank c)
      if hours < 24 ∧ minutes < 60 then
        let offset : Int := hours * 60 + minutes
        return (if c = '+' then offset else -offset, rest)
      else none
    else none

/-- The timestamp a text stands for; `none` if it has another form or there is no such time. -/
def parse? (text : String) : Option Timestamp := do
  let (year, cs) ← readYear text.toList
  let cs ← dropSign '-' cs
  let (month, cs) ← readNumber 2 cs
  let cs ← dropSign '-' cs
  let (day, cs) ← readNumber 2 cs
  let cs ← dropSeparator cs
  let (hour, cs) ← readNumber 2 cs
  let cs ← dropSign ':' cs
  let (minute, cs) ← readNumber 2 cs
  let cs ← dropSign ':' cs
  let (second, cs) ← readNumber 2 cs
  let (nanos, cs) ← readFraction cs
  let (offset, cs) ← readOffset (skipBlanks cs)
  guard (skipBlanks cs).isEmpty
  guard (isYear year && 1 ≤ day && day ≤ daysInMonth year month)
  guard (hour < 24 && minute < 60 && second ≤ 60)
  let t := minusMinutes ⟨year, month, day, hour, minute, second, nanos⟩ offset
  guard (isYear t.year)
  return t

/-! ## Writing -/

/-- A number with leading zeros up to a width. -/
def padded (width n : Nat) : String :=
  let digits := toString n
  String.ofList (List.replicate (width - digits.length) '0') ++ digits

/-- A year in four digits, with a sign if it has more digits or lies before the year zero. -/
def yearText (year : Int) : String :=
  if year < 0 then "-" ++ padded 4 year.natAbs
  else if year < 10000 then padded 4 year.natAbs
  else "+" ++ padded 4 year.natAbs

/-- The timestamp in UTC, to the second. -/
def toText (t : Timestamp) : String :=
  yearText t.year ++ "-" ++ padded 2 t.month ++ "-" ++ padded 2 t.day ++ "T" ++
    padded 2 t.hour ++ ":" ++ padded 2 t.minute ++ ":" ++ padded 2 t.second ++ "Z"

end Timestamp

end EdgeOperator
