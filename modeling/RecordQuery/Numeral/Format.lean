set_option autoImplicit false

/-!
# Binary floating-point formats

A `Format` is the layout of a binary interchange format: the width of its fraction and of its
exponent.  A nonnegative finite value is named by its *pattern*, the number that its exponent and
fraction bits spell; patterns and values grow together.

Every finite value is a whole multiple of the least positive one.  `Format.units` is that
multiple, so all comparisons of values are comparisons of natural numbers, and no arithmetic in
this library is ever rounded except where a rounding is what is being computed.
-/

namespace RecordQuery.Numeral

/-- The layout of a binary interchange format. -/
structure Format where
  /-- width of the stored fraction -/
  fractionBits : Nat
  /-- width of the biased exponent -/
  exponentBits : Nat
  deriving DecidableEq, Repr

namespace Format

/-- Double precision. -/
def binary64 : Format := ⟨52, 11⟩

/-- Single precision. -/
def binary32 : Format := ⟨23, 8⟩

/-- How many patterns share one exponent. -/
def binade (F : Format) : Nat := Nat.pow 2 F.fractionBits

/-- The least positive value is two to the power of minus `grain`. -/
def grain (F : Format) : Nat := Nat.pow 2 (F.exponentBits - 1) - 2 + F.fractionBits

/-- The pattern of infinity: every finite pattern is below it. -/
def infinity (F : Format) : Nat := (Nat.pow 2 F.exponentBits - 1) * F.binade

/-- The value of a pattern, counted in least positive values.  A pattern with exponent zero is its
own value; any other has an implied leading bit and is shifted by its exponent less one. -/
def units (F : Format) (pattern : Nat) : Nat :=
  if pattern / F.binade = 0 then pattern
  else (F.binade + pattern % F.binade) * Nat.pow 2 (pattern / F.binade - 1)

@[simp] theorem units_zero (F : Format) : F.units 0 = 0 := by
  simp [units]

end Format

/-- A finite value of a format: a sign and the pattern of its magnitude.  Both zeros exist. -/
structure Binary (F : Format) where
  /-- whether the sign bit is set -/
  negative : Bool
  /-- the pattern of the absolute value -/
  magnitude : Nat
  /-- infinities and not-a-numbers are excluded -/
  finite : magnitude < F.infinity
  deriving DecidableEq

namespace Binary

/-- The value named by an encoding of one sign bit, the exponent and the fraction, most significant
bit first; `none` for infinities and not-a-numbers. -/
def ofBits? (F : Format) (bits : Nat) : Option (Binary F) :=
  let signBit := Nat.pow 2 (F.exponentBits + F.fractionBits)
  if h : bits % signBit < F.infinity then some ⟨bits / signBit % 2 == 1, bits % signBit, h⟩
  else none

/-- Comparison of values: the two zeros are equal, and otherwise sign and magnitude decide. -/
def same {F : Format} (x y : Binary F) : Bool :=
  x.magnitude == y.magnitude && (x.negative == y.negative || x.magnitude == 0)

end Binary

end RecordQuery.Numeral
