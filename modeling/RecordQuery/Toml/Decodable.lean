import RecordQuery.Toml.Value

set_option autoImplicit false

/-!
# Decodable values

A document may hold numbers that cannot be decoded.  An integer has to fit 128 bits, signed or
unsigned; a decimal number has to round to a finite double; and a misspelt integer is none at all.
Infinities and values that are not a number are no overflow.
-/

namespace RecordQuery.Toml

open Numeral (Format)

/-- Whether an integer fits 128 bits, signed or unsigned. -/
def fitsInteger (n : Int) : Bool := -(Nat.pow 2 127 : Nat) ≤ n && n < (Nat.pow 2 128 : Nat)

/-- Whether a floating-point value is one of the doubles. -/
def FloatValue.fits : FloatValue → Bool
  | decimal _ magnitude => magnitude.pattern .binary64 < Format.binary64.infinity
  | infinity _ | notANumber _ => true

mutual

/-- Whether every number in a value can be decoded. -/
def Value.decodable : Value → Bool
  | .integer n => fitsInteger n
  | .misspelt _ => false
  | .float x => x.fits
  | .array items => itemsDecodable items
  | .table entries => entriesDecodable entries
  | .text _ | .boolean _ | .dateTime _ => true

/-- Whether every number in the items of an array can be decoded. -/
def itemsDecodable : List Value → Bool
  | [] => true
  | item :: items => item.decodable && itemsDecodable items

/-- Whether every number in the entries of a table can be decoded. -/
def entriesDecodable : List (String × Value) → Bool
  | [] => true
  | (_, value) :: entries => value.decodable && entriesDecodable entries

end

end RecordQuery.Toml
