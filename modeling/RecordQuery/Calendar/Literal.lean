import RecordQuery.Calendar.Clock
import RecordQuery.Calendar.Instant

set_option autoImplicit false

/-!
# Date literals

The literal of an instant is its date and its time of day in universal time, without the fraction.
Every part has a fixed width, with zeros in front; only years before 0 and after 9999 are longer,
and these carry a sign.
-/

namespace RecordQuery.Calendar

/-- Decimal digits, with zeros in front up to a width. -/
def padded (width n : Nat) : List Char := (Nat.toDigits 10 n).leftpad width '0'

/-- A year of four digits as they are, and any other with a sign and at least four digits. -/
def yearDigits (year : Int) : List Char :=
  if 0 ≤ year ∧ year ≤ 9999 then padded 4 year.toNat
  else (if year < 0 then '-' else '+') :: padded 4 year.natAbs

/-- The literal of an instant: `YYYY-MM-DD hh:mm:ss`.  A leap second is counted in the seconds, as
one more. -/
def Instant.literal (clock : Clock) (i : Instant) : List Char :=
  let date := i.date
  let time := i.timeOfDay
  yearDigits date.year ++ '-' :: padded 2 date.month ++ '-' :: padded 2 date.day ++
    ' ' :: padded 2 (clock.shows time.hour) ++ ':' :: padded 2 time.minute ++
    ':' :: padded 2 (time.second + time.nano / nanosPerSecond)

namespace Instant

/-- The part of a literal before the hour. -/
def beforeHour (i : Instant) : List Char :=
  yearDigits i.date.year ++ '-' :: padded 2 i.date.month ++ '-' :: padded 2 i.date.day ++ [' ']

/-- The part of a literal after the hour. -/
def afterHour (i : Instant) : List Char :=
  ':' :: padded 2 i.timeOfDay.minute ++
    ':' :: padded 2 (i.timeOfDay.second + i.timeOfDay.nano / nanosPerSecond)

/-- The clock has a say in the hour only, wherever the year pushes it. -/
theorem literal_eq (clock : Clock) (i : Instant) :
    i.literal clock = i.beforeHour ++ padded 2 (clock.shows i.timeOfDay.hour) ++ i.afterHour := by
  simp [literal, beforeHour, afterHour]

end Instant

/-- Every clock shows hours of two digits. -/
theorem length_padded_shows (clock : Clock) {hour : Nat} (h : hour < 24) :
    (padded 2 (clock.shows hour)).length = 2 := by
  cases clock <;> decide +revert

end RecordQuery.Calendar
