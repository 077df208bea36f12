set_option autoImplicit false

/-!
# Calendar dates

The proleptic Gregorian calendar: the rule of leap years is applied to all years, a year 0 and
negative years included.  `Date.dayNumber` counts the days of whole years and months since
1 January 1970, and `Date.ofDayNumber` finds the date of a day: `dayNumber_ofDayNumber` and
`valid_ofDayNumber` say that it is a date of the calendar and the right one.
-/

namespace RecordQuery.Calendar

/-- Every fourth year, less every hundredth, and every four-hundredth. -/
def isLeap (year : Int) : Bool :=
  year % 4 == 0 && (year % 100 != 0 || year % 400 == 0)

/-- The length of February. -/
def february (year : Int) : Nat := if isLeap year then 29 else 28

/-- The number of days in a month, from 1 for January; no days where there is no such month. -/
def monthLength (year : Int) : Nat → Nat
  | 1 | 3 | 5 | 7 | 8 | 10 | 12 => 31
  | 4 | 6 | 9 | 11 => 30
  | 2 => february year
  | _ => 0

/-- The days of a year before the first of a month. -/
def daysBeforeMonth (year : Int) : Nat → Nat
  | 0 => 0
  | 1 => 0
  | month + 1 => daysBeforeMonth year month + monthLength year month

/-- The days from 1 January of year 1 to 1 January of a year; negative before year 1. -/
def daysBeforeYear (year : Int) : Int :=
  365 * (year - 1) + (year - 1) / 4 - (year - 1) / 100 + (year - 1) / 400

theorem february_eq (year : Int) :
    february year = 28 ∧ ¬ (year % 4 = 0 ∧ (year % 100 ≠ 0 ∨ year % 400 = 0)) ∨
      february year = 29 ∧ year % 4 = 0 ∧ (year % 100 ≠ 0 ∨ year % 400 = 0) := by
  unfold february isLeap
  split <;> rename_i h <;>
    simp only [Bool.and_eq_true, Bool.or_eq_true, beq_iff_eq, bne_iff_ne] at h
  · exact Or.inr ⟨rfl, h.1, h.2⟩
  · exact Or.inl ⟨rfl, h⟩

/-- A year is as long as its February asks for. -/
theorem daysBeforeYear_succ (year : Int) :
    daysBeforeYear (year + 1) = daysBeforeYear year + 337 + february year := by
  have h := february_eq year
  unfold daysBeforeYear
  omega

/-- A year, a month and a day of the month. -/
structure Date where
  year : Int
  month : Nat
  day : Nat
  deriving DecidableEq, Repr

namespace Date

/-- The date is in the calendar. -/
def Valid (d : Date) : Prop :=
  1 ≤ d.month ∧ d.month ≤ 12 ∧ 1 ≤ d.day ∧ d.day ≤ monthLength d.year d.month

instance (d : Date) : Decidable d.Valid := inferInstanceAs (Decidable (_ ∧ _ ∧ _ ∧ _))

/-- Days since 1 January 1970. -/
def dayNumber (d : Date) : Int :=
  daysBeforeYear d.year + daysBeforeMonth d.year d.month + (d.day - 1) - daysBeforeYear 1970

/-- The date of a day.  Years are counted from March, so that a leap day is the last of its year:
four hundred of them have 146097 days, a hundred 36524 or one more, four 1461 or one less, and one
365 or one more.  The day that is one more belongs to the last period, hence the two minima.  From
March on, five months have 153 days. -/
def ofDayNumber (number : Int) : Date :=
  let fromMarch := number + 719468
  let dayOfEra := (fromMarch % 146097).toNat
  let century := min (dayOfEra / 36524) 3
  let dayOfCentury := dayOfEra - 36524 * century
  let dayOfQuad := dayOfCentury % 1461
  let yearOfQuad := min (dayOfQuad / 365) 3
  let dayOfYear := dayOfQuad - 365 * yearOfQuad
  let month := (5 * dayOfYear + 2) / 153
  let day := dayOfYear - (153 * month + 2) / 5 + 1
  let year := 400 * (fromMarch / 146097) + 100 * century + 4 * (dayOfCentury / 1461) + yearOfQuad
  if month < 10 then ⟨year, month + 3, day⟩ else ⟨year + 1, month - 9, day⟩

/-- The year that began with the March before a day, and how far the day is from that March. -/
theorem march_before (number : Int) :
    let fromMarch := number + 719468
    let dayOfEra := (fromMarch % 146097).toNat
    let century := min (dayOfEra / 36524) 3
    let dayOfCentury := dayOfEra - 36524 * century
    let dayOfQuad := dayOfCentury % 1461
    let yearOfQuad := min (dayOfQuad / 365) 3
    let dayOfYear := dayOfQuad - 365 * yearOfQuad
    let year : Int :=
      400 * (fromMarch / 146097) + 100 * century + 4 * (dayOfCentury / 1461) + yearOfQuad
    number = daysBeforeYear year + 31 + february year + dayOfYear - daysBeforeYear 1970 ∧
      dayOfYear ≤ 336 + february (year + 1) := by
  intro fromMarch dayOfEra century dayOfCentury dayOfQuad yearOfQuad dayOfYear year
  have hsucc := daysBeforeYear_succ year
  have hfebruary := february_eq (year + 1)
  have hstart : daysBeforeYear (year + 1) = 365 * year + year / 4 - year / 100 + year / 400 := by
    unfold daysBeforeYear
    omega
  have hepoch : daysBeforeYear 1970 = 719162 := by decide
  have hquad : year / 4
      = 100 * (fromMarch / 146097) + 25 * century + (dayOfCentury / 1461 : Nat) := by omega
  have hcentury : year / 100 = 4 * (fromMarch / 146097) + century := by omega
  have hera : year / 400 = fromMarch / 146097 := by omega
  have hday₁ : fromMarch = 146097 * (fromMarch / 146097) + dayOfEra := by omega
  have hday₂ : dayOfEra = 36524 * century + dayOfCentury := by omega
  have hday₃ : dayOfCentury = 1461 * (dayOfCentury / 1461) + dayOfQuad := by omega
  have hday₄ : dayOfQuad = 365 * yearOfQuad + dayOfYear := by omega
  exact ⟨by omega, by omega⟩

/-- The twelve months from March on, each checked against its length. -/
theorem dayNumber_ofDayNumber_and_valid (number : Int) :
    (ofDayNumber number).dayNumber = number ∧ (ofDayNumber number).Valid := by
  have hmarch := march_before number
  simp only at hmarch
  unfold ofDayNumber
  simp only
  generalize (400 * ((number + 719468) / 146097) + 100 * _ + 4 * _ + _ : Int) = year at hmarch ⊢
  generalize _ - 365 * _ = dayOfYear at hmarch ⊢
  obtain ⟨hday, hlast⟩ := hmarch
  have hsucc := daysBeforeYear_succ year
  have hfebruary := february_eq (year + 1)
  have hbound : (5 * dayOfYear + 2) / 153 < 12 := by omega
  generalize hmonth : (5 * dayOfYear + 2) / 153 = month at *
  have hcases : month = 0 ∨ month = 1 ∨ month = 2 ∨ month = 3 ∨ month = 4 ∨ month = 5 ∨
      month = 6 ∨ month = 7 ∨ month = 8 ∨ month = 9 ∨ month = 10 ∨ month = 11 := by omega
  rcases hcases with rfl | rfl | rfl | rfl | rfl | rfl | rfl | rfl | rfl | rfl | rfl | rfl <;>
    simp only [Nat.reduceLT, ↓reduceIte, Nat.reduceAdd, Nat.reduceSub, dayNumber, Valid,
      daysBeforeMonth, monthLength] <;> omega

@[simp] theorem dayNumber_ofDayNumber (number : Int) :
    (ofDayNumber number).dayNumber = number :=
  (dayNumber_ofDayNumber_and_valid number).1

theorem valid_ofDayNumber (number : Int) : (ofDayNumber number).Valid :=
  (dayNumber_ofDayNumber_and_valid number).2

end Date

end RecordQuery.Calendar
