import RecordQuery.Numeral.Rounding

set_option autoImplicit false

/-!
# Decimals

A `Decimal` is a coefficient and a power of ten.  `Decimal.digits` writes it positionally, with as
many zeros as the power asks for and never an exponent; `Decimal.pattern` reads it into a binary
format, correctly rounded.
-/

namespace RecordQuery.Numeral

/-- The number `coefficient * 10 ^ exponent`. -/
structure Decimal where
  coefficient : Nat
  exponent : Int
  deriving DecidableEq, Repr

namespace Decimal

/-- Positional digits: a whole part of at least one digit, and a point only before a fraction. -/
def digits (d : Decimal) : List Char :=
  let places := (-d.exponent).toNat
  let all := (Nat.toDigits 10 d.coefficient ++ List.replicate d.exponent.toNat '0').leftpad
    (places + 1) '0'
  let whole := all.take (all.length - places)
  let fraction := all.drop (all.length - places)
  if fraction.isEmpty then whole else whole ++ '.' :: fraction

/-- The power of ten just above the number: it is below `10 ^ top` and, unless it is zero, at least
`10 ^ (top - 1)`. -/
def top (d : Decimal) : Int := (Nat.toDigits 10 d.coefficient).length + d.exponent

/-- The pattern nearest to the number, at least `F.infinity` when the format cannot hold it.  A
number that is surely below half of the least positive value, or surely above the greatest, is
recognised by its magnitude alone, so an exponent of any size is read at once. -/
def pattern (F : Format) (d : Decimal) : Nat :=
  if d.coefficient = 0 then 0
  else if d.top ≤ -(F.grain + 1 : Nat) then 0
  else if Nat.pow 2 (F.exponentBits - 1) < d.top then F.infinity
  else F.nearest (d.coefficient * Nat.pow 10 d.exponent.toNat * Nat.pow 2 F.grain)
    (Nat.pow 10 (-d.exponent).toNat)

end Decimal

/-- The value of the format nearest to a signed decimal, unless it is too large for one. -/
def Binary.ofDecimal? (F : Format) (negative : Bool) (d : Decimal) : Option (Binary F) :=
  if h : d.pattern F < F.infinity then some ⟨negative, d.pattern F, h⟩ else none

end RecordQuery.Numeral
