import RecordQuery.Calendar.Instant

set_option autoImplicit false

/-!
# Moments

What an instant can be given as: a local date and time of day with an offset, the same without an
offset, which are then in universal time, a date alone, which stands for its midnight, or a count of
seconds.
-/

namespace RecordQuery.Calendar

/-- What an instant is made from. -/
inductive Moment where
  /-- a local date and time of day, and their offset east of universal time in seconds -/
  | zoned (date : Date) (time : TimeOfDay) (offset : Int)
  /-- a date and a time of day in universal time -/
  | universal (date : Date) (time : TimeOfDay)
  /-- the midnight of a date in universal time -/
  | midnight (date : Date)
  /-- seconds since 1970 in universal time, and a fraction -/
  | counted (second : Int) (nano : Nat)
  deriving DecidableEq, Repr

namespace Moment

/-- The instant of a moment, if the moment is one of the calendar and in its range. -/
def instant? : Moment → Option Instant
  | zoned date time offset => Instant.ofLocal? date time offset
  | universal date time => Instant.ofLocal? date time 0
  | midnight date => Instant.ofLocal? date ⟨0, 0, 0, 0⟩ 0
  | counted second nano => Instant.ofTimestamp? second nano

/-- The second since 1970 in universal time: local time less its offset. -/
def second : Moment → Int
  | zoned date time offset => date.dayNumber * 86400 + time.secondOfDay - offset
  | universal date time => date.dayNumber * 86400 + time.secondOfDay
  | midnight date => date.dayNumber * 86400
  | counted second _ => second

/-- The fraction of the second, of a second or more in a leap second. -/
def nano : Moment → Nat
  | zoned _ time _ => time.nano
  | universal _ time => time.nano
  | midnight _ => 0
  | counted _ nano => nano

/-- The parts of the moment are on the calendar and on the clock. -/
def WellFormed : Moment → Prop
  | zoned date time offset =>
    date.Valid ∧ yearInRange date.year ∧ time.Valid ∧ offset.natAbs < 86400
  | universal date time => date.Valid ∧ yearInRange date.year ∧ time.Valid
  | midnight date => date.Valid ∧ yearInRange date.year
  | counted second nano =>
    nano < 2 * nanosPerSecond ∧ (nanosPerSecond ≤ nano → second % 60 = 59)

/-- The first second of the years that instants may have. -/
def firstSecond : Int := (⟨-262143, 1, 1⟩ : Date).dayNumber * 86400

/-- The last second of the years that instants may have. -/
def lastSecond : Int := (⟨262142, 12, 31⟩ : Date).dayNumber * 86400 + 86399

/-- The moment is in the range of years in universal time. -/
def InRange (m : Moment) : Prop := firstSecond ≤ m.second ∧ m.second ≤ lastSecond

end Moment

end RecordQuery.Calendar
