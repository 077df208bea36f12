import RecordQuery.Toml.Value

set_option autoImplicit false

/-!
# Dates and times in a document

A date of the calendar, a time of day, or both with a mark between them, and then also an offset
from universal time.
-/

namespace RecordQuery.Toml

open Calendar (Date TimeOfDay)

/-- The number of exactly `count` digits at the front of a text. -/
def readNumber (count : Nat) (text : List Char) : Option (Nat × List Char) :=
  let digits := text.take count
  if digits.length = count ∧ digits.all Char.isDigit then
    some (Nat.ofDigitChars 10 digits 0, text.drop count)
  else none

/-- A character that has to come next. -/
def expect (c : Char) : List Char → Option (List Char)
  | d :: rest => if c = d then some rest else none
  | [] => none

/-- A date of the calendar: `YYYY-MM-DD`. -/
def readDate (text : List Char) : Option (Date × List Char) := do
  let (year, text) ← readNumber 4 text
  let text ← expect '-' text
  let (month, text) ← readNumber 2 text
  let text ← expect '-' text
  let (day, text) ← readNumber 2 text
  let date : Date := ⟨year, month, day⟩
  if date.Valid then some (date, text) else none

/-- A fraction of a second in nanoseconds, where the text goes on with a point; digits beyond the
ninth are dropped. -/
def readNanos : List Char → Option (Nat × List Char)
  | '.' :: text =>
    let digits := text.takeWhile Char.isDigit
    if digits.isEmpty then none
    else some (Nat.ofDigitChars 10 ((digits.take 9).rightpad 9 '0') 0, text.dropWhile Char.isDigit)
  | text => some (0, text)

/-- A time of day: `hh:mm:ss` and a fraction.  A sixty-first second is allowed. -/
def readTime (text : List Char) : Option (TimeOfDay × List Char) := do
  let (hour, text) ← readNumber 2 text
  let text ← expect ':' text
  let (minute, text) ← readNumber 2 text
  let text ← expect ':' text
  let (second, text) ← readNumber 2 text
  let (nano, text) ← readNanos text
  if hour < 24 ∧ minute < 60 ∧ second ≤ 60 then some (⟨hour, minute, second, nano⟩, text)
  else none

/-- An offset from universal time in minutes: `Z`, or a sign, hours and minutes. -/
def offset? (text : List Char) : Option Int :=
  match text with
  | ['Z'] | ['z'] => some 0
  | sign :: text => do
    if sign ≠ '+' ∧ sign ≠ '-' then none
    let (hour, text) ← readNumber 2 text
    let (minute, text) ← readNumber 2 (← expect ':' text)
    let minutes : Int := 60 * hour + minute
    if text.isEmpty ∧ hour < 24 ∧ minute < 60 then
      some (if sign = '-' then -minutes else minutes)
    else none
  | [] => none

/-- A date, a time, or a date and a time with or without an offset. -/
def dateTime? (text : List Char) : Option DateTime :=
  match readDate text with
  | none =>
    match readTime text with
    | some (time, []) => some ⟨none, some time, none⟩
    | _ => none
  | some (date, []) => some ⟨some date, none, none⟩
  | some (date, mark :: text) => do
    if mark ≠ 'T' ∧ mark ≠ 't' ∧ mark ≠ ' ' then none
    let (time, text) ← readTime text
    if text.isEmpty then some ⟨some date, some time, none⟩
    else some ⟨some date, some time, some (← offset? text)⟩

end RecordQuery.Toml
