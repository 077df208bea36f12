import Mathlib.Data.List.Basic
import RecordQuery.Calendar.Literal
import RecordQuery.Calendar.Moment
import RecordQuery.Operand.Conversion

set_option autoImplicit false

/-!
# What a date literal denotes

A literal is read back part by part, as a date of the calendar and a time of day (`read?_literal`),
and the second that they name is the one that the instant falls in, or the one after it in a leap
second.  So on the clock of twenty-four hours two literals are equal if and only if their seconds
are; on the dial hours that differ by twelve coincide and nothing else does
(`literal_denotes_instant`).
-/

namespace RecordQuery.Calendar

/-! ## Reading a literal -/

/-- What a literal spells. -/
structure Spelling where
  date : Date
  hour : Nat
  minute : Nat
  second : Nat
  deriving DecidableEq, Repr

namespace Spelling

/-- The date is in the calendar and the time of day on the clock, a leap second included. -/
def Valid (s : Spelling) : Prop :=
  s.date.Valid ∧ s.hour < 24 ∧ s.minute < 60 ∧ s.second ≤ 60

instance (s : Spelling) : Decidable s.Valid := inferInstanceAs (Decidable (_ ∧ _ ∧ _ ∧ _))

/-- The seconds since 1970 up to a date and a time of day in universal time. -/
def universalSecond (s : Spelling) : Int :=
  86400 * s.date.dayNumber + 3600 * s.hour + 60 * s.minute + s.second

/-- The number that decimal digits spell. -/
def number? (digits : List Char) : Option Nat :=
  if digits ≠ [] ∧ digits.all Char.isDigit = true then some (Nat.ofDigitChars 10 digits 0) else none

/-- The sign of a year, if it has one, and what follows it. -/
def splitSign : List Char → Int × List Char
  | '-' :: rest => (-1, rest)
  | '+' :: rest => (1, rest)
  | rest => (1, rest)

/-- Reads a year of any length, and behind it five numbers of two digits with their marks. -/
def read? (text : List Char) : Option Spelling := do
  let (sign, body) := splitSign text
  let year ← number? (body.takeWhile Char.isDigit)
  match body.dropWhile Char.isDigit with
  | ['-', m₁, m₂, '-', d₁, d₂, ' ', h₁, h₂, ':', n₁, n₂, ':', s₁, s₂] =>
    let month ← number? [m₁, m₂]
    let day ← number? [d₁, d₂]
    let hour ← number? [h₁, h₂]
    let minute ← number? [n₁, n₂]
    let second ← number? [s₁, s₂]
    some ⟨⟨sign * year, month, day⟩, hour, minute, second⟩
  | _ => none

/-- The second that a literal names, if it spells a date of the calendar and a time of day. -/
def second? (text : List Char) : Option Int :=
  ((read? text).filter fun s => decide s.Valid).map universalSecond

end Spelling

/-! ## Numbers with zeros in front -/

theorem isDigit_of_mem_padded {width n : Nat} {c : Char} (h : c ∈ padded width n) :
    c.isDigit = true := by
  rw [padded, List.leftpad, List.mem_append] at h
  rcases h with hzero | hdigit
  · rw [List.eq_of_mem_replicate hzero]
    rfl
  · exact Nat.isDigit_of_mem_toDigits (by decide) (by decide) hdigit

theorem padded_ne_nil (width n : Nat) : padded width n ≠ [] := by
  rw [padded, List.leftpad]
  exact List.append_ne_nil_of_right_ne_nil _ Nat.toDigits_ne_nil

theorem ofDigitChars_padded (width n : Nat) : Nat.ofDigitChars 10 (padded width n) 0 = n := by
  rw [padded, List.leftpad, Nat.ofDigitChars_append, Nat.ofDigitChars_replicate_zero,
    Nat.mul_zero, Nat.ofDigitChars_ten_toDigits]

theorem number?_padded (width n : Nat) : Spelling.number? (padded width n) = some n := by
  have hdigits : (padded width n).all Char.isDigit = true :=
    List.all_eq_true.mpr fun c hc => isDigit_of_mem_padded hc
  rw [Spelling.number?, if_pos ⟨padded_ne_nil width n, hdigits⟩, ofDigitChars_padded]

/-- Numbers of no more digits than the width have that width. -/
theorem length_padded {width n : Nat} (hwidth : 0 < width) (h : n < Nat.pow 10 width) :
    (padded width n).length = width := by
  have hdigits : (Nat.toDigits 10 n).length ≤ width :=
    (Nat.length_toDigits_le_iff (by decide) hwidth).mpr h
  rw [padded, List.length_leftpad]
  omega

/-- Numbers below a hundred fill two places. -/
theorem exists_padded_two {n : Nat} (h : n < 100) :
    ∃ a b, padded 2 n = [a, b] ∧ Spelling.number? [a, b] = some n := by
  obtain ⟨a, b, hab⟩ := List.length_eq_two.mp (length_padded (by decide) h)
  exact ⟨a, b, hab, by rw [← hab, number?_padded]⟩

/-! ## Years -/

theorem splitSign_padded (width n : Nat) (rest : List Char) :
    Spelling.splitSign (padded width n ++ rest) = (1, padded width n ++ rest) := by
  obtain ⟨c, digits, hpadded⟩ := List.exists_cons_of_ne_nil (padded_ne_nil width n)
  have hdigit : c.isDigit = true :=
    isDigit_of_mem_padded (by rw [hpadded]; exact List.mem_cons_self)
  have hminus : c ≠ '-' := by
    rintro rfl
    cases hdigit
  have hplus : c ≠ '+' := by
    rintro rfl
    cases hdigit
  rw [hpadded, List.cons_append]
  unfold Spelling.splitSign
  split <;> simp_all

/-- The sign and the digits of a year are read back, and the digits end before the next mark. -/
theorem exists_splitSign_yearDigits (year : Int) (rest : List Char) :
    ∃ (sign : Int) (n : Nat), sign * n = year ∧
      Spelling.splitSign (yearDigits year ++ rest) = (sign, padded 4 n ++ rest) := by
  rw [yearDigits]
  by_cases hfour : 0 ≤ year ∧ year ≤ 9999
  · rw [if_pos hfour]
    exact ⟨1, year.toNat, by omega, splitSign_padded 4 year.toNat rest⟩
  · rw [if_neg hfour]
    by_cases hnegative : year < 0
    · rw [if_pos hnegative]
      exact ⟨-1, year.natAbs, by omega, rfl⟩
    · rw [if_neg hnegative]
      exact ⟨1, year.natAbs, by omega, rfl⟩

theorem takeWhile_isDigit_padded (width n : Nat) (rest : List Char) :
    (padded width n ++ '-' :: rest).takeWhile Char.isDigit = padded width n := by
  rw [List.takeWhile_append_of_pos fun c hc => isDigit_of_mem_padded hc]
  simp

theorem dropWhile_isDigit_padded (width n : Nat) (rest : List Char) :
    (padded width n ++ '-' :: rest).dropWhile Char.isDigit = '-' :: rest := by
  rw [List.dropWhile_append_of_pos fun c hc => isDigit_of_mem_padded hc]
  simp

/-! ## Literals of instants -/

namespace Instant

theorem date_valid (i : Instant) : i.date.Valid := Date.valid_ofDayNumber _

theorem timeOfDay_minute_lt (i : Instant) : i.timeOfDay.minute < 60 := by
  show (i.second % 86400).toNat / 60 % 60 < 60
  omega

theorem timeOfDay_second_lt (i : Instant) : i.timeOfDay.second < 60 := by
  show (i.second % 86400).toNat % 60 < 60
  omega

/-- One in a leap second, zero otherwise. -/
def leap (i : Instant) : Nat := i.nano / nanosPerSecond

theorem leap_le (i : Instant) : i.leap ≤ 1 := by
  have hnano := i.nano_lt
  unfold leap nanosPerSecond at *
  omega

/-- What the literal of an instant spells. -/
def spelling (clock : Clock) (i : Instant) : Spelling where
  date := i.date
  hour := clock.shows i.timeOfDay.hour
  minute := i.timeOfDay.minute
  second := i.timeOfDay.second + i.leap

end Instant

theorem monthLength_le (year : Int) (month : Nat) : monthLength year month ≤ 31 := by
  have hfebruary := february_eq year
  unfold monthLength
  split <;> omega

theorem Clock.shows_lt (clock : Clock) {hour : Nat} (h : hour < 24) : clock.shows hour < 24 := by
  cases clock with
  | twentyFour => exact h
  | twelve =>
    show (hour + 11) % 12 + 1 < 24
    omega

/-- A literal is read back part by part. -/
theorem read?_literal (clock : Clock) (i : Instant) :
    Spelling.read? (i.literal clock) = some (i.spelling clock) := by
  obtain ⟨-, hmonth, -, hday⟩ := i.date_valid
  have hlength := monthLength_le i.date.year i.date.month
  have hhour := clock.shows_lt i.timeOfDay_hour_lt
  have hminute := i.timeOfDay_minute_lt
  have hsecond := i.timeOfDay_second_lt
  have hleap := i.leap_le
  obtain ⟨m₁, m₂, hm, hmonth⟩ := exists_padded_two (n := i.date.month) (by omega)
  obtain ⟨d₁, d₂, hd, hday⟩ := exists_padded_two (n := i.date.day) (by omega)
  obtain ⟨h₁, h₂, hh, hhour⟩ :=
    exists_padded_two (n := clock.shows i.timeOfDay.hour) (by omega)
  obtain ⟨n₁, n₂, hn, hminute⟩ := exists_padded_two (n := i.timeOfDay.minute) (by omega)
  obtain ⟨s₁, s₂, hs, hsecond⟩ :=
    exists_padded_two (n := i.timeOfDay.second + i.leap) (by omega)
  have hliteral : i.literal clock = yearDigits i.date.year ++
      '-' :: [m₁, m₂, '-', d₁, d₂, ' ', h₁, h₂, ':', n₁, n₂, ':', s₁, s₂] := by
    show yearDigits i.date.year ++ '-' :: padded 2 i.date.month ++ '-' :: padded 2 i.date.day ++
      ' ' :: padded 2 (clock.shows i.timeOfDay.hour) ++ ':' :: padded 2 i.timeOfDay.minute ++
        ':' :: padded 2 (i.timeOfDay.second + i.leap) = _
    rw [hm, hd, hh, hn, hs]
    simp
  obtain ⟨sign, n, hyear, hsplit⟩ := exists_splitSign_yearDigits i.date.year
    ('-' :: [m₁, m₂, '-', d₁, d₂, ' ', h₁, h₂, ':', n₁, n₂, ':', s₁, s₂])
  rw [hliteral, Spelling.read?, hsplit]
  simp only [takeWhile_isDigit_padded, dropWhile_isDigit_padded, number?_padded, hmonth, hday,
    hhour, hminute, hsecond, bind, Option.bind, hyear]
  rfl

namespace Instant

/-- On the clock of twenty-four hours the second that a literal names is the one of the instant. -/
theorem universalSecond_spelling (i : Instant) :
    (i.spelling .twentyFour).universalSecond = i.second + i.leap := by
  have hday : i.date.dayNumber = i.second / 86400 := Date.dayNumber_ofDayNumber _
  have htime : 3600 * i.timeOfDay.hour + 60 * i.timeOfDay.minute + i.timeOfDay.second =
      (i.second % 86400).toNat := by
    show 3600 * ((i.second % 86400).toNat / 3600) + 60 * ((i.second % 86400).toNat / 60 % 60) +
      (i.second % 86400).toNat % 60 = _
    omega
  show 86400 * i.date.dayNumber + 3600 * (i.timeOfDay.hour : Int) + 60 * i.timeOfDay.minute +
    ((i.timeOfDay.second + i.leap : Nat) : Int) = _
  omega

theorem spelling_valid (clock : Clock) (i : Instant) : (i.spelling clock).Valid := by
  have hsecond := i.timeOfDay_second_lt
  have hleap := i.leap_le
  refine ⟨i.date_valid, clock.shows_lt i.timeOfDay_hour_lt, i.timeOfDay_minute_lt, ?_⟩
  show i.timeOfDay.second + i.leap ≤ 60
  omega

theorem second?_literal (i : Instant) :
    Spelling.second? (i.literal .twentyFour) = some (i.second + i.leap) := by
  have hvalid := i.spelling_valid .twentyFour
  rw [Spelling.second?, read?_literal, Option.filter_some_pos (by simpa using hvalid),
    Option.map_some, universalSecond_spelling]

/-- Literals are equal if they spell the same. -/
theorem literal_eq_literal_iff {clock : Clock} {i j : Instant} :
    i.literal clock = j.literal clock ↔ i.spelling clock = j.spelling clock := by
  constructor
  · intro h
    have hread : Spelling.read? (i.literal clock) = Spelling.read? (j.literal clock) := by rw [h]
    rw [read?_literal, read?_literal] at hread
    exact Option.some.inj hread
  · intro h
    obtain ⟨hdate, hhour, hminute, hsecond⟩ := Spelling.mk.inj h
    show yearDigits i.date.year ++ '-' :: padded 2 i.date.month ++ '-' :: padded 2 i.date.day ++
      ' ' :: padded 2 (clock.shows i.timeOfDay.hour) ++ ':' :: padded 2 i.timeOfDay.minute ++
        ':' :: padded 2 (i.timeOfDay.second + i.leap) = _
    rw [hdate, hhour, hminute, hsecond]
    rfl

theorem leap_of_lt {i : Instant} (h : i.nano < nanosPerSecond) : i.leap = 0 :=
  Nat.div_eq_of_lt h

/-- Outside leap seconds the clock of twenty-four hours tells all seconds apart. -/
theorem literal_twentyFour_eq_iff {i j : Instant} (hi : i.nano < nanosPerSecond)
    (hj : j.nano < nanosPerSecond) :
    i.literal .twentyFour = j.literal .twentyFour ↔ i.second = j.second := by
  rw [literal_eq_literal_iff]
  constructor
  · intro h
    have hsecond := i.universalSecond_spelling
    rw [h, j.universalSecond_spelling, leap_of_lt hi, leap_of_lt hj] at hsecond
    omega
  · intro h
    simp only [spelling, date, timeOfDay, leap_of_lt hi, leap_of_lt hj, h]

/-- Outside leap seconds the dial tells apart all seconds but those at hours that differ by
twelve. -/
theorem literal_twelve_eq_iff {i j : Instant} (hi : i.nano < nanosPerSecond)
    (hj : j.nano < nanosPerSecond) :
    i.literal .twelve = j.literal .twelve ↔
      i.date = j.date ∧ i.timeOfDay.minute = j.timeOfDay.minute ∧
        i.timeOfDay.second = j.timeOfDay.second ∧
          i.timeOfDay.hour % 12 = j.timeOfDay.hour % 12 := by
  have hhour : Clock.twelve.shows i.timeOfDay.hour = Clock.twelve.shows j.timeOfDay.hour ↔
      i.timeOfDay.hour % 12 = j.timeOfDay.hour % 12 := by
    show (i.timeOfDay.hour + 11) % 12 + 1 = (j.timeOfDay.hour + 11) % 12 + 1 ↔ _
    omega
  rw [literal_eq_literal_iff, spelling, spelling, Spelling.mk.injEq, leap_of_lt hi, leap_of_lt hj,
    hhour, Nat.add_zero, Nat.add_zero]
  constructor
  · rintro ⟨hdate, hhour, hminute, hsecond⟩
    exact ⟨hdate, hminute, hsecond, hhour⟩
  · rintro ⟨hdate, hminute, hsecond, hhour⟩
    exact ⟨hdate, hhour, hminute, hsecond⟩

end Instant

/-! ## The range of years -/

theorem daysBeforeYear_mono {year later : Int} (h : year ≤ later) :
    daysBeforeYear year ≤ daysBeforeYear later := by
  unfold daysBeforeYear
  omega

theorem daysBeforeMonth_add_monthLength_le (year : Int) {month : Nat} (hfirst : 1 ≤ month)
    (hlast : month ≤ 12) :
    daysBeforeMonth year month + monthLength year month ≤ 337 + february year := by
  have hcases : month = 1 ∨ month = 2 ∨ month = 3 ∨ month = 4 ∨ month = 5 ∨ month = 6 ∨
      month = 7 ∨ month = 8 ∨ month = 9 ∨ month = 10 ∨ month = 11 ∨ month = 12 := by omega
  rcases hcases with rfl | rfl | rfl | rfl | rfl | rfl | rfl | rfl | rfl | rfl | rfl | rfl <;>
    simp only [daysBeforeMonth, monthLength] <;> omega

/-- A date of the calendar is not before a year if its day is not before the first of the year. -/
theorem Date.Valid.le_year_iff {d : Date} (h : d.Valid) (year : Int) :
    year ≤ d.year ↔ daysBeforeYear year ≤ d.dayNumber + daysBeforeYear 1970 := by
  obtain ⟨hfirst, hlast, hone, hday⟩ := h
  have hmonth := daysBeforeMonth_add_monthLength_le d.year hfirst hlast
  have hsucc := daysBeforeYear_succ d.year
  have hnumber : d.dayNumber + daysBeforeYear 1970 =
      daysBeforeYear d.year + daysBeforeMonth d.year d.month + (d.day - 1) := by
    unfold Date.dayNumber
    omega
  constructor
  · intro hle
    have hmono := daysBeforeYear_mono hle
    omega
  · intro hle
    by_contra hlt
    have hmono := daysBeforeYear_mono (show d.year + 1 ≤ year by omega)
    omega

/-- An instant is in the range of years if its second is. -/
theorem yearInRange_date_iff (i : Instant) :
    yearInRange i.date.year ↔ Moment.firstSecond ≤ i.second ∧ i.second ≤ Moment.lastSecond := by
  have hday : i.date.dayNumber = i.second / 86400 := Date.dayNumber_ofDayNumber _
  have hfirst := i.date_valid.le_year_iff (-262143)
  have hlast := i.date_valid.le_year_iff 262143
  have hfirstSecond : Moment.firstSecond =
      86400 * (daysBeforeYear (-262143) - daysBeforeYear 1970) := by decide
  have hlastSecond : Moment.lastSecond =
      86400 * (daysBeforeYear 262143 - daysBeforeYear 1970) - 1 := by decide
  rw [yearInRange, hfirst, hfirstSecond, hlastSecond]
  omega

/-! ## Moments -/

theorem Instant.ofSecond?_eq_some_iff {second : Int} {nano : Nat} {i : Instant} :
    Instant.ofSecond? second nano = some i ↔
      (Moment.firstSecond ≤ second ∧ second ≤ Moment.lastSecond) ∧
        i.second = second ∧ i.nano = nano := by
  rw [Instant.ofSecond?, Option.dite_none_right_eq_some]
  constructor
  · rintro ⟨hnano, h⟩
    obtain ⟨hrange, hi⟩ := Option.ite_none_right_eq_some.mp h
    cases hi
    exact ⟨(yearInRange_date_iff _).mp hrange, rfl, rfl⟩
  · rintro ⟨hrange, rfl, rfl⟩
    exact ⟨i.nano_lt, if_pos ((yearInRange_date_iff i).mpr hrange)⟩

theorem Instant.ofLocal?_eq_some_iff {date : Date} {time : TimeOfDay} {offset : Int}
    {i : Instant} :
    Instant.ofLocal? date time offset = some i ↔
      (Moment.zoned date time offset).WellFormed ∧ (Moment.zoned date time offset).InRange ∧
        i.second = (Moment.zoned date time offset).second ∧ i.nano = time.nano := by
  rw [Instant.ofLocal?, Option.ite_none_right_eq_some, Instant.ofSecond?_eq_some_iff]
  rfl

namespace Moment

/-- A moment has an instant if it is on the calendar and the clock and in the range of years; the
instant begins in the second of the moment and keeps its fraction. -/
theorem instant?_eq_some_iff {m : Moment} {i : Instant} :
    m.instant? = some i ↔ m.WellFormed ∧ m.InRange ∧ i.second = m.second ∧ i.nano = m.nano := by
  cases m with
  | zoned date time offset => exact Instant.ofLocal?_eq_some_iff
  | universal date time =>
    rw [instant?, Instant.ofLocal?_eq_some_iff]
    simp [WellFormed, InRange, second, nano]
  | midnight date =>
    have hvalid : (⟨0, 0, 0, 0⟩ : TimeOfDay).Valid := by decide
    rw [instant?, Instant.ofLocal?_eq_some_iff]
    simp [WellFormed, InRange, second, nano, TimeOfDay.secondOfDay, hvalid]
  | counted second nano =>
    rw [instant?, Instant.ofTimestamp?, Option.ite_none_right_eq_some,
      Instant.ofSecond?_eq_some_iff]
    constructor
    · rintro ⟨⟨-, hleap⟩, hrange, hsecond, hnano⟩
      have hlt : nano < 2 * nanosPerSecond := by
        rw [← Int.toNat_natCast nano, ← hnano]
        exact i.nano_lt
      exact ⟨⟨hlt, fun h => hleap (Int.ofNat_le.mpr h)⟩, hrange, hsecond, hnano⟩
    · rintro ⟨⟨-, hleap⟩, hrange, hsecond, hnano⟩
      exact ⟨⟨Int.natCast_nonneg nano, fun h => hleap (Int.ofNat_le.mp h)⟩, hrange, hsecond, hnano⟩

theorem WellFormed.nano_lt {m : Moment} (h : m.WellFormed) : m.nano < 2 * nanosPerSecond := by
  cases m with
  | zoned date time offset =>
    obtain ⟨-, -, ⟨-, -, -, hnano, -⟩, -⟩ := h
    exact hnano
  | universal date time =>
    obtain ⟨-, -, -, -, -, hnano, -⟩ := h
    exact hnano
  | midnight date => show 0 < 2 * nanosPerSecond; decide
  | counted second nano => exact h.1

theorem exists_instant? {m : Moment} (hformed : m.WellFormed) (hrange : m.InRange) :
    ∃ i, m.instant? = some i :=
  ⟨⟨m.second, m.nano, hformed.nano_lt⟩, instant?_eq_some_iff.mpr ⟨hformed, hrange, rfl, rfl⟩⟩

end Moment

/-! ## Operands -/

theorem scalarText?_toOperand (clock : Clock) (i : Instant) :
    (toOperand i).scalarText? clock = some (String.ofList (i.literal clock)) := rfl

theorem scalarText?_toOperand_eq_iff {clock : Clock} {i j : Instant} :
    (toOperand i).scalarText? clock = (toOperand j).scalarText? clock ↔
      i.literal clock = j.literal clock := by
  rw [scalarText?_toOperand, scalarText?_toOperand, Option.some.injEq, String.ofList_inj]

/-- The literal of an instant, as an operand on the clock of twenty-four hours, names its second. -/
theorem exists_literal_second (i : Instant) :
    ∃ text, (toOperand i).scalarText? .twentyFour = some text ∧
      Spelling.second? text.toList =
        some (i.second + if nanosPerSecond ≤ i.nano then 1 else 0) := by
  have hleap : (i.leap : Int) = if nanosPerSecond ≤ i.nano then 1 else 0 := by
    have hnano := i.nano_lt
    unfold Instant.leap nanosPerSecond at *
    split <;> omega
  refine ⟨_, scalarText?_toOperand .twentyFour i, ?_⟩
  rw [String.toList_ofList, i.second?_literal, hleap]

/-- What the literal of a date operand denotes.

A moment on the calendar and in the range of years has an instant, and the literal of this operand
on the clock of twenty-four hours, read as a date and a time of day in universal time, names the
second of the moment, local time less its offset, or the one behind it in a leap second.  The same
holds of every instant, whatever it was made from.  So outside leap seconds two moments have one
literal if and only if they fall in one second; on the dial, if and only if they agree on the date,
the minute and the second, and their hours are equal or differ by twelve. -/
theorem literal_denotes_instant :
    (∀ m : Moment, m.WellFormed → m.InRange → ∃ i text, m.instant? = some i ∧
      (toOperand i).scalarText? .twentyFour = some text ∧
      Spelling.second? text.toList =
        some (m.second + if nanosPerSecond ≤ m.nano then 1 else 0)) ∧
    (∀ i : Instant, ∃ text, (toOperand i).scalarText? .twentyFour = some text ∧
      Spelling.second? text.toList =
        some (i.second + if nanosPerSecond ≤ i.nano then 1 else 0)) ∧
    (∀ (m m' : Moment) (i i' : Instant), m.instant? = some i → m'.instant? = some i' →
      m.nano < nanosPerSecond → m'.nano < nanosPerSecond →
      ((toOperand i).scalarText? .twentyFour = (toOperand i').scalarText? .twentyFour ↔
        m.second = m'.second) ∧
      ((toOperand i).scalarText? .twelve = (toOperand i').scalarText? .twelve ↔
        i.date = i'.date ∧ i.timeOfDay.minute = i'.timeOfDay.minute ∧
          i.timeOfDay.second = i'.timeOfDay.second ∧
            i.timeOfDay.hour % 12 = i'.timeOfDay.hour % 12)) := by
  refine ⟨?_, exists_literal_second, ?_⟩
  · intro m hformed hrange
    obtain ⟨i, hi⟩ := Moment.exists_instant? hformed hrange
    obtain ⟨-, -, hsecond, hnano⟩ := Moment.instant?_eq_some_iff.mp hi
    obtain ⟨text, htext, hread⟩ := exists_literal_second i
    rw [hsecond, hnano] at hread
    exact ⟨i, text, hi, htext, hread⟩
  · intro m m' i i' hi hi' hnano hnano'
    obtain ⟨-, -, hsecond, hkept⟩ := Moment.instant?_eq_some_iff.mp hi
    obtain ⟨-, -, hsecond', hkept'⟩ := Moment.instant?_eq_some_iff.mp hi'
    rw [← hkept] at hnano
    rw [← hkept'] at hnano'
    rw [scalarText?_toOperand_eq_iff, scalarText?_toOperand_eq_iff, ← hsecond, ← hsecond']
    exact ⟨Instant.literal_twentyFour_eq_iff hnano hnano',
      Instant.literal_twelve_eq_iff hnano hnano'⟩

/-- A leap second before the year 0 whose offset carries it over the end of the year, and two
moments in one hour of the dial, twelve hours apart. -/
theorem literal_denotes_instant_across_the_year :
    let leap : Moment := .zoned ⟨0, 1, 1⟩ ⟨0, 59, 59, 1500000000⟩ 3600
    let morning : Moment := .zoned ⟨2024, 2, 29⟩ ⟨23, 30, 5, 999999999⟩ (-1800)
    let noon : Moment := .counted 1709294405 0
    leap.WellFormed ∧ leap.InRange ∧
    (∃ i text, leap.instant? = some i ∧ (toOperand i).scalarText? .twentyFour = some text ∧
      Spelling.second? text.toList = some (-62167219200)) ∧
    ∃ i i', morning.instant? = some i ∧ noon.instant? = some i' ∧
      morning.nano < nanosPerSecond ∧ noon.nano < nanosPerSecond ∧
      (toOperand i).scalarText? .twentyFour ≠ (toOperand i').scalarText? .twentyFour ∧
      (toOperand i).scalarText? .twelve = (toOperand i').scalarText? .twelve := by
  intro leap morning noon
  obtain ⟨hdenotes, -, hequal⟩ := literal_denotes_instant
  have hformed : leap.WellFormed := ⟨by decide, by decide, by decide, by decide⟩
  have hrange : leap.InRange := ⟨by decide, by decide⟩
  refine ⟨hformed, hrange, hdenotes leap hformed hrange, ?_⟩
  obtain ⟨i, hi⟩ := Moment.exists_instant? (m := morning)
    ⟨by decide, by decide, by decide, by decide⟩ ⟨by decide, by decide⟩
  obtain ⟨i', hi'⟩ := Moment.exists_instant? (m := noon) ⟨by decide, by decide⟩
    ⟨by decide, by decide⟩
  have hnano : morning.nano < nanosPerSecond := by decide
  have hnano' : noon.nano < nanosPerSecond := by decide
  obtain ⟨htwentyFour, htwelve⟩ := hequal morning noon i i' hi hi' hnano hnano'
  refine ⟨i, i', hi, hi', hnano, hnano', mt htwentyFour.mp (by decide), htwelve.mpr ?_⟩
  cases hi
  cases hi'
  decide

end RecordQuery.Calendar
