import RecordQuery.Calendar.Instant
import RecordQuery.Numeral.Decimal

set_option autoImplicit false

/-!
# TOML values

The values that a TOML document can hold, as trees.  Numbers are kept however large they
are.  The entries of a table are kept in the order of their keys, so that two tables with the same
entries are the same list whatever order they were written in.
-/

namespace RecordQuery.Toml

open Calendar (Date TimeOfDay)
open Numeral (Decimal)

/-- A floating-point value: a signed decimal number, an infinity, or not a number. -/
inductive FloatValue where
  | decimal (negative : Bool) (magnitude : Decimal)
  | infinity (negative : Bool)
  | notANumber (negative : Bool)
  deriving DecidableEq

/-- A date, a time of day, or both, and with both an offset in minutes east of universal time. -/
structure DateTime where
  date : Option Date
  time : Option TimeOfDay
  offset : Option Int
  deriving DecidableEq

/-- A value. -/
inductive Value where
  | text (value : String)
  | integer (value : Int)
  /-- a word in the form of an integer that spells none -/
  | misspelt (word : String)
  | float (value : FloatValue)
  | boolean (value : Bool)
  | dateTime (value : DateTime)
  | array (items : List Value)
  /-- in ascending order of the keys, each key once -/
  | table (entries : List (String × Value))

instance : Inhabited Value := ⟨.table []⟩

/-- A document is its outermost table. -/
abbrev Document : Type := List (String × Value)

end RecordQuery.Toml
