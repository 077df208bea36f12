import RecordQuery.Calendar.Date

set_option autoImplicit false

/-!
# Instants

An `Instant` is a whole second since 1970 in universal time and a fraction counted in nanoseconds.
A fraction of a second or more stands for a leap second and belongs to the second before it.  An
instant is made from a local date and time of day with their offset from universal time, or from a
count of seconds; either way its year has to be one of the calendar's range.
-/

namespace RecordQuery.Calendar

/-- Nanoseconds in a second. -/
def nanosPerSecond : Nat := 1000000000

/-- A second since 1 January 1970 in universal time, and a fraction of it. -/
structure Instant where
  second : Int
  nano : Nat
  /-- room for one leap second -/
  nano_lt : nano < 2 * nanosPerSecond
  deriving DecidableEq

/-- The years that dates and instants may have. -/
def yearInRange (year : Int) : Prop := -262143 ≤ year ∧ year ≤ 262142

instance (year : Int) : Decidable (yearInRange year) := inferInstanceAs (Decidable (_ ∧ _))

/-- A time of day. -/
structure TimeOfDay where
  hour : Nat
  minute : Nat
  second : Nat
  nano : Nat
  deriving DecidableEq, Repr

namespace TimeOfDay

/-- The time is on the clock; only the last second of a minute may carry a leap second. -/
def Valid (t : TimeOfDay) : Prop :=
  t.hour < 24 ∧ t.minute < 60 ∧ t.second < 60 ∧ t.nano < 2 * nanosPerSecond ∧
    (nanosPerSecond ≤ t.nano → t.second = 59)

instance (t : TimeOfDay) : Decidable t.Valid :=
  inferInstanceAs (Decidable (_ ∧ _ ∧ _ ∧ _ ∧ (_ → _)))

/-- Whole seconds since midnight. -/
def secondOfDay (t : TimeOfDay) : Nat := 3600 * t.hour + 60 * t.minute + t.second

end TimeOfDay

namespace Instant

/-- The date in universal time. -/
def date (i : Instant) : Date := Date.ofDayNumber (i.second / 86400)

/-- The time of day in universal time. -/
def timeOfDay (i : Instant) : TimeOfDay :=
  let second := (i.second % 86400).toNat
  ⟨second / 3600, second / 60 % 60, second % 60, i.nano⟩

theorem timeOfDay_hour_lt (i : Instant) : i.timeOfDay.hour < 24 := by
  show (i.second % 86400).toNat / 3600 < 24
  omega

/-- The instant of a second and a fraction, if its year is in range. -/
def ofSecond? (second : Int) (nano : Nat) : Option Instant :=
  if h : nano < 2 * nanosPerSecond then
    let i : Instant := ⟨second, nano, h⟩
    if yearInRange i.date.year then some i else none
  else none

/-- The instant of a local date and time of day at an offset east of universal time.  The local
date and the instant both have to be in range; the offset is shorter than a day and leaves the
fraction as it is. -/
def ofLocal? (date : Date) (time : TimeOfDay) (offset : Int) : Option Instant :=
  if date.Valid ∧ yearInRange date.year ∧ time.Valid ∧ offset.natAbs < 86400 then
    ofSecond? (date.dayNumber * 86400 + time.secondOfDay - offset) time.nano
  else none

/-- The instant of a count of seconds since 1970 and a fraction.  A leap second may only extend the
last second of a minute. -/
def ofTimestamp? (second nano : Int) : Option Instant :=
  if 0 ≤ nano ∧ (nanosPerSecond ≤ nano → second % 60 = 59) then ofSecond? second nano.toNat
  else none

end Instant

end RecordQuery.Calendar
