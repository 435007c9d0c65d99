import EdgeOperator.Timestamp
import Mathlib.Tactic.IntervalCases

set_option autoImplicit false

/-! # Timestamps that are read and written

What is read is a day of the calendar and a time of that day (`Timestamp.IsReal`), since a shift by
an offset crosses at most one midnight. Such a timestamp is read again from what is written for it,
but for the fraction of its second (`Timestamp.parse?_toText`), if its year has four digits: there is
no sign then, and the digits are as many as are read for a year. -/

namespace EdgeOperator

namespace Timestamp

/-! ## The calendar -/

/-- Whether a timestamp is a time of a day that there is. A sixtieth second is one too. -/
structure IsReal (t : Timestamp) : Prop where
  one_le_day : 1 ≤ t.day
  day_le : t.day ≤ daysInMonth t.year t.month
  hour_lt : t.hour < 24
  minute_lt : t.minute < 60
  second_le : t.second ≤ 60

theorem one_le_daysInMonth {year : Int} {month : Nat} (hlow : 1 ≤ month) (hhigh : month ≤ 12) :
    1 ≤ daysInMonth year month := by
  interval_cases month <;> simp only [daysInMonth]
  all_goals first | omega | (split <;> omega)

theorem daysInMonth_le (year : Int) (month : Nat) : daysInMonth year month ≤ 31 := by
  unfold daysInMonth
  split
  · split <;> omega
  all_goals omega

theorem IsReal.month_mem {t : Timestamp} (h : t.IsReal) : 1 ≤ t.month ∧ t.month ≤ 12 := by
  have hday := h.one_le_day
  have hdays := h.day_le
  unfold daysInMonth at hdays
  split at hdays <;> omega

theorem IsReal.nextDay {t : Timestamp} (h : t.IsReal) : t.nextDay.IsReal := by
  have hmonth := h.month_mem
  unfold Timestamp.nextDay
  by_cases hday : t.day < daysInMonth t.year t.month
  · rw [if_pos hday]
    exact ⟨by simp, hday, h.hour_lt, h.minute_lt, h.second_le⟩
  rw [if_neg hday]
  by_cases hyear : t.month < 12
  · rw [if_pos hyear]
    exact ⟨by simp, one_le_daysInMonth (by simp) hyear, h.hour_lt, h.minute_lt, h.second_le⟩
  · rw [if_neg hyear]
    exact ⟨by simp, one_le_daysInMonth (by simp) (by simp), h.hour_lt, h.minute_lt, h.second_le⟩

theorem IsReal.previousDay {t : Timestamp} (h : t.IsReal) : t.previousDay.IsReal := by
  have hmonth := h.month_mem
  have hdays := h.day_le
  unfold Timestamp.previousDay
  by_cases hday : 1 < t.day
  · rw [if_pos hday]
    refine ⟨?_, ?_, h.hour_lt, h.minute_lt, h.second_le⟩
    · show 1 ≤ t.day - 1
      omega
    · show t.day - 1 ≤ daysInMonth t.year t.month
      omega
  rw [if_neg hday]
  by_cases hyear : 1 < t.month
  · rw [if_pos hyear]
    have hlast : 1 ≤ daysInMonth t.year (t.month - 1) :=
      one_le_daysInMonth (by omega) (by omega)
    exact ⟨hlast, Nat.le_refl _, h.hour_lt, h.minute_lt, h.second_le⟩
  · rw [if_neg hyear]
    exact ⟨by simp, Nat.le_refl 31, h.hour_lt, h.minute_lt, h.second_le⟩

/-- A shift by less than a day leads to a time of a day that there is. -/
theorem IsReal.minusMinutes {t : Timestamp} (h : t.IsReal) {minutes : Int}
    (hlow : -1440 < minutes) (hhigh : minutes < 1440) : (t.minusMinutes minutes).IsReal := by
  have hhour := h.hour_lt
  have hminute := h.minute_lt
  have hat {t : Timestamp} (h : t.IsReal) {minute : Int} (hminute : minute < 1440) :
      ({ t with hour := minute.toNat / 60, minute := minute.toNat % 60 } : Timestamp).IsReal := by
    refine ⟨h.one_le_day, h.day_le, ?_, ?_, h.second_le⟩
    · show minute.toNat / 60 < 24
      omega
    · show minute.toNat % 60 < 60
      omega
  unfold Timestamp.minusMinutes
  dsimp only
  split
  · exact hat h.previousDay (by omega)
  · split
    · exact hat h.nextDay (by omega)
    · exact hat h (by omega)

/-- Where nothing is taken off, nothing changes. -/
theorem IsReal.minusMinutes_zero {t : Timestamp} (h : t.IsReal) : t.minusMinutes 0 = t := by
  have hhour := h.hour_lt
  have hminute := h.minute_lt
  unfold Timestamp.minusMinutes
  dsimp only
  rw [if_neg (by omega), if_neg (by omega)]
  have hhours : ((t.hour : Int) * 60 + t.minute - 0).toNat / 60 = t.hour := by omega
  have hminutes : ((t.hour : Int) * 60 + t.minute - 0).toNat % 60 = t.minute := by omega
  rw [hhours, hminutes]

/-! ## What is read -/

/-- An offset is less than a day. -/
theorem readOffset_lt {cs rest : List Char} {offset : Int}
    (h : readOffset cs = some (offset, rest)) : -1440 < offset ∧ offset < 1440 := by
  unfold readOffset at h
  split at h
  · cases h
  split at h
  · cases h
    omega
  split at h
  · cases h
    omega
  split at h
  · simp only [Option.bind_eq_bind, Option.bind_eq_some_iff] at h
    obtain ⟨⟨hours, _⟩, _, ⟨minutes, _⟩, _, h⟩ := h
    dsimp only at h
    split at h
    · next hlimits =>
      cases h
      split <;> omega
    · cases h
  · cases h

/-- What is read is a time of a day that there is. -/
theorem isReal_of_parse? {text : String} {t : Timestamp} (h : parse? text = some t) : t.IsReal := by
  unfold parse? at h
  obtain ⟨⟨year, _⟩, _, h⟩ := Option.bind_eq_some_iff.1 h
  obtain ⟨_, _, h⟩ := Option.bind_eq_some_iff.1 h
  obtain ⟨⟨month, _⟩, _, h⟩ := Option.bind_eq_some_iff.1 h
  obtain ⟨_, _, h⟩ := Option.bind_eq_some_iff.1 h
  obtain ⟨⟨day, _⟩, _, h⟩ := Option.bind_eq_some_iff.1 h
  obtain ⟨_, _, h⟩ := Option.bind_eq_some_iff.1 h
  obtain ⟨⟨hour, _⟩, _, h⟩ := Option.bind_eq_some_iff.1 h
  obtain ⟨_, _, h⟩ := Option.bind_eq_some_iff.1 h
  obtain ⟨⟨minute, _⟩, _, h⟩ := Option.bind_eq_some_iff.1 h
  obtain ⟨_, _, h⟩ := Option.bind_eq_some_iff.1 h
  obtain ⟨⟨second, _⟩, _, h⟩ := Option.bind_eq_some_iff.1 h
  obtain ⟨⟨nanos, _⟩, _, h⟩ := Option.bind_eq_some_iff.1 h
  obtain ⟨⟨offset, _⟩, hoffset, h⟩ := Option.bind_eq_some_iff.1 h
  obtain ⟨_, _, h⟩ := Option.bind_eq_some_iff.1 h
  obtain ⟨_, hday, h⟩ := Option.bind_eq_some_iff.1 h
  obtain ⟨_, htime, h⟩ := Option.bind_eq_some_iff.1 h
  obtain ⟨_, _, h⟩ := Option.bind_eq_some_iff.1 h
  obtain rfl := Option.some.inj h
  have hoffset := readOffset_lt hoffset
  simp only [Option.guard_eq_some', Bool.and_eq_true, decide_eq_true_eq] at hday htime
  have hlocal : IsReal ⟨year, month, day, hour, minute, second, nanos⟩ :=
    ⟨hday.1.2, hday.2, htime.1.1, htime.1.2, htime.2⟩
  exact hlocal.minusMinutes hoffset.1 hoffset.2

/-! ## What is written -/

/-- The digits of a number with leading zeros up to a width. -/
def paddedDigits (width n : Nat) : List Char :=
  List.replicate (width - (Nat.toDigits 10 n).length) '0' ++ Nat.toDigits 10 n

theorem toList_padded (width n : Nat) : (padded width n).toList = paddedDigits width n := by
  simp only [padded, paddedDigits, Nat.toString_eq_ofList_toDigits, String.toList_append,
    String.toList_ofList, String.length_ofList]

theorem isDigit_of_mem_paddedDigits {width n : Nat} {c : Char} (h : c ∈ paddedDigits width n) :
    c.isDigit = true := by
  rcases List.mem_append.1 h with h | h
  · rw [List.eq_of_mem_replicate h]
    rfl
  · exact Nat.isDigit_of_mem_toDigits (by decide) (by decide) h

theorem length_paddedDigits {width n : Nat} (hwidth : 0 < width) (h : n < 10 ^ width) :
    (paddedDigits width n).length = width := by
  have hlength := (Nat.length_toDigits_le_iff (by decide) hwidth).2 h
  simp only [paddedDigits, List.length_append, List.length_replicate]
  omega

theorem digitsValue_eq (digits : List Char) :
    Text.digitsValue digits = Nat.ofDigitChars 10 digits 0 := by
  rw [Nat.ofDigitChars_eq_foldl]
  simp only [Text.digitsValue, Nat.mul_comm]

/-- Leading zeros do not count. -/
theorem digitsValue_paddedDigits (width n : Nat) :
    Text.digitsValue (paddedDigits width n) = n := by
  rw [digitsValue_eq, paddedDigits, Nat.ofDigitChars_append, Nat.ofDigitChars_replicate_zero,
    Nat.mul_zero, Nat.ofDigitChars_ten_toDigits]

/-! ## What is read of what was written -/

theorem takeDigits_append {digits : List Char} (h : ∀ c ∈ digits, c.isDigit = true)
    (rest : List Char) : takeDigits digits.length (digits ++ rest) = (digits, rest) := by
  induction digits with
  | nil => rfl
  | cons c digits ih =>
    have hdigit : c.isDigit = true := h c (by simp)
    have hdigits := ih fun d hd => h d (by simp [hd])
    simp [takeDigits, hdigit, hdigits]

/-- No digit is a blank. -/
theorem isBlank_of_isDigit {c : Char} (h : c.isDigit = true) : isBlank c = false := by
  obtain ⟨hlow, hhigh⟩ := Char.isDigit_iff_toNat.1 h
  have hzero : '0'.toNat = 48 := rfl
  have hnine : '9'.toNat = 57 := rfl
  simp only [isBlank, Bool.or_eq_false_iff, Bool.and_eq_false_iff, decide_eq_false_iff_not]
  omega

theorem skipBlanks_cons {c : Char} (h : isBlank c = false) (rest : List Char) :
    skipBlanks (c :: rest) = c :: rest := by
  simp [skipBlanks, h]

theorem skipBlanks_digits {digits : List Char} (h : ∀ c ∈ digits, c.isDigit = true)
    (hne : digits ≠ []) (rest : List Char) : skipBlanks (digits ++ rest) = digits ++ rest := by
  cases digits with
  | nil => exact absurd rfl hne
  | cons c digits => exact skipBlanks_cons (isBlank_of_isDigit (h c (by simp))) _

theorem paddedDigits_ne_nil (width n : Nat) : paddedDigits width n ≠ [] := by
  simp [paddedDigits, Nat.toDigits_ne_nil]

/-- A number that is as long as it is read is read as it was written. -/
theorem readNumber_paddedDigits {width n : Nat} (hwidth : 0 < width) (h : n < 10 ^ width)
    (rest : List Char) : readNumber width (paddedDigits width n ++ rest) = some (n, rest) := by
  have hdigits : ∀ c ∈ paddedDigits width n, c.isDigit = true :=
    fun c => isDigit_of_mem_paddedDigits
  have htake := takeDigits_append hdigits rest
  rw [length_paddedDigits hwidth h] at htake
  unfold readNumber
  rw [skipBlanks_digits hdigits (paddedDigits_ne_nil width n), htake]
  simp [paddedDigits_ne_nil, digitsValue_paddedDigits]

/-- A year of four digits has no sign. -/
theorem readYear_paddedDigits {n : Nat} (h : n < 10000) (rest : List Char) :
    readYear (paddedDigits 4 n ++ rest) = some ((n : Int), rest) := by
  have hdigits : ∀ c ∈ paddedDigits 4 n, c.isDigit = true := fun c => isDigit_of_mem_paddedDigits
  have hread : readNumber 4 (paddedDigits 4 n ++ rest) = some (n, rest) :=
    readNumber_paddedDigits (by omega) h rest
  have hskip := skipBlanks_digits hdigits (paddedDigits_ne_nil 4 n) rest
  -- the first character is a digit, and so neither of the signs
  have hhead : ∀ c cs, paddedDigits 4 n ++ rest = c :: cs → c.isDigit = true := by
    intro c cs heq
    cases hcons : paddedDigits 4 n with
    | nil => exact absurd hcons (paddedDigits_ne_nil 4 n)
    | cons d digits =>
      rw [hcons, List.cons_append] at heq
      obtain ⟨rfl, -⟩ := List.cons.inj heq
      exact hdigits d (by simp [hcons])
  unfold readYear
  rw [hskip]
  split
  · next heq => exact absurd (hhead _ _ heq) (by decide)
  · next heq => exact absurd (hhead _ _ heq) (by decide)
  · simp [hread]

theorem dropSign_cons {sign : Char} (h : isBlank sign = false) (rest : List Char) :
    dropSign sign (sign :: rest) = some rest := by
  simp [dropSign, skipBlanks_cons h]

/-- What is written for a timestamp of a year with four digits. -/
theorem toList_toText {t : Timestamp} (hlow : 0 ≤ t.year) (hhigh : t.year ≤ 9999) :
    t.toText.toList = paddedDigits 4 t.year.toNat ++ '-' :: (paddedDigits 2 t.month ++ '-' ::
      (paddedDigits 2 t.day ++ 'T' :: (paddedDigits 2 t.hour ++ ':' ::
        (paddedDigits 2 t.minute ++ ':' :: (paddedDigits 2 t.second ++ ['Z']))))) := by
  have hyear : yearText t.year = padded 4 t.year.toNat := by
    unfold yearText
    rw [if_neg (by omega), if_pos (by omega)]
    congr 1
    omega
  have hdash : "-".toList = ['-'] := rfl
  have hcolon : ":".toList = [':'] := rfl
  have htime : "T".toList = ['T'] := rfl
  have hzone : "Z".toList = ['Z'] := rfl
  simp only [toText, hyear, String.toList_append, toList_padded, hdash, hcolon, htime, hzone,
    List.append_assoc, List.cons_append, List.nil_append]

/-- A timestamp of a year with four digits is read as it was written: without the fraction of its
second. -/
theorem parse?_toText {t : Timestamp} (h : t.IsReal) (hlow : 0 ≤ t.year) (hhigh : t.year ≤ 9999) :
    parse? t.toText = some t.wholeSecond := by
  have hmonth := h.month_mem
  have hday := Nat.le_trans h.day_le (daysInMonth_le t.year t.month)
  have hhour := h.hour_lt
  have hminute := h.minute_lt
  have hsecond := h.second_le
  have hnumber {n : Nat} (hn : n < 100) (rest : List Char) :
      readNumber 2 (paddedDigits 2 n ++ rest) = some (n, rest) :=
    readNumber_paddedDigits (by omega) hn rest
  have hyear := readYear_paddedDigits (show t.year.toNat < 10000 by omega)
  rw [show ((t.year.toNat : Nat) : Int) = t.year by omega] at hyear
  have hdash := @dropSign_cons '-' (by decide)
  have hcolon := @dropSign_cons ':' (by decide)
  have hreal : isYear t.year = true := by
    simp only [isYear, Bool.and_eq_true, decide_eq_true_eq]
    omega
  have hdate : (isYear t.year && 1 ≤ t.day && t.day ≤ daysInMonth t.year t.month) = true := by
    simp [hreal, h.one_le_day, h.day_le]
  have htime : (t.hour < 24 && t.minute < 60 && t.second ≤ 60 : Bool) = true := by
    simp [hhour, hminute, hsecond]
  have hshift : minusMinutes t.wholeSecond 0 = t.wholeSecond :=
    IsReal.minusMinutes_zero ⟨h.one_le_day, h.day_le, hhour, hminute, hsecond⟩
  unfold parse?
  rw [toList_toText hlow hhigh]
  -- part by part; what follows a part is left for the next
  refine Option.bind_eq_some_iff.2 ⟨_, hyear _, ?_⟩
  refine Option.bind_eq_some_iff.2 ⟨_, hdash _, ?_⟩
  refine Option.bind_eq_some_iff.2 ⟨_, hnumber (by omega) _, ?_⟩
  refine Option.bind_eq_some_iff.2 ⟨_, hdash _, ?_⟩
  refine Option.bind_eq_some_iff.2 ⟨_, hnumber (by omega) _, ?_⟩
  refine Option.bind_eq_some_iff.2 ⟨_, rfl, ?_⟩
  refine Option.bind_eq_some_iff.2 ⟨_, hnumber (by omega) _, ?_⟩
  refine Option.bind_eq_some_iff.2 ⟨_, hcolon _, ?_⟩
  refine Option.bind_eq_some_iff.2 ⟨_, hnumber (by omega) _, ?_⟩
  refine Option.bind_eq_some_iff.2 ⟨_, hcolon _, ?_⟩
  refine Option.bind_eq_some_iff.2 ⟨_, hnumber (by omega) _, ?_⟩
  refine Option.bind_eq_some_iff.2 ⟨(0, ['Z']), rfl, ?_⟩
  refine Option.bind_eq_some_iff.2 ⟨(0, []), rfl, ?_⟩
  refine Option.bind_eq_some_iff.2 ⟨(), if_pos rfl, ?_⟩
  refine Option.bind_eq_some_iff.2 ⟨(), if_pos hdate, ?_⟩
  refine Option.bind_eq_some_iff.2 ⟨(), if_pos htime, ?_⟩
  -- the offset of what was written is zero, so nothing is shifted
  show (guard (isYear (minusMinutes t.wholeSecond 0).year = true) >>= fun _ =>
    pure (minusMinutes t.wholeSecond 0)) = some t.wholeSecond
  rw [hshift]
  exact Option.bind_eq_some_iff.2 ⟨(), if_pos hreal, rfl⟩

/-- The fraction of a second is not written. -/
theorem toText_wholeSecond (t : Timestamp) : t.wholeSecond.toText = t.toText := rfl

end Timestamp

end EdgeOperator
