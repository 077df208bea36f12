set_option autoImplicit false

/-!
# Clocks

How the hour of a time of day is written: counted from midnight, or on a dial of twelve hours.
The dial carries no mark for the half of the day, so two hours that differ by twelve are written
alike on it.
-/

namespace RecordQuery.Calendar

/-- The convention for the hour of a date literal. -/
inductive Clock where
  /-- hours 0 to 23 -/
  | twentyFour
  /-- hours 1 to 12 -/
  | twelve
  deriving DecidableEq, Repr, Inhabited

/-- The hour that a clock shows for an hour counted from midnight. -/
def Clock.shows : Clock → Nat → Nat
  | twentyFour, hour => hour
  | twelve, hour => (hour + 11) % 12 + 1

end RecordQuery.Calendar
