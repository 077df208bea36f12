import RecordQuery.Numeral.Format

set_option autoImplicit false

/-!
# Rounding to nearest

`Format.nearest` gives the pattern nearest to a ratio of natural numbers, and a tie goes to the
even pattern.  The ratio is counted in least positive values of the format, so the quotient alone
tells the binade: its bits beyond the significand are the shift, and one division by the shifted
denominator gives the rounded significand.  A significand that rounds up to the next power of two
carries into the exponent, because a pattern is exponent and fraction side by side.
-/

namespace RecordQuery.Numeral

/-- The whole number nearest to `num / den`; a half goes to the even neighbour. -/
def roundHalfEven (num den : Nat) : Nat :=
  let quotient := num / den
  let rest := 2 * (num % den)
  if rest < den then quotient
  else if den < rest then quotient + 1
  else quotient + quotient % 2

namespace Format

/-- How far the significand of `num / den` is shifted: the bits that its whole part has beyond an
implied one and the fraction. -/
def shift (F : Format) (num den : Nat) : Nat := (num / den).log2 - F.fractionBits

/-- The pattern nearest to `num / den` least positive values.  It is at least `F.infinity` when the
ratio is past the midpoint above the greatest finite value. -/
def nearest (F : Format) (num den : Nat) : Nat :=
  F.shift num den * F.binade + roundHalfEven num (den * Nat.pow 2 (F.shift num den))

end Format

/-- The ratios that round to one pattern, counted in `1 / unit` of a least positive value.  The ends
lie halfway to the neighbouring patterns and are stored doubled, so that they are whole. -/
structure Cell where
  /-- the value of the pattern itself -/
  centre : Nat
  /-- twice the lower end -/
  low : Nat
  /-- twice the upper end -/
  high : Nat
  /-- whether the ends belong to the cell: a tie goes to the even pattern -/
  closed : Bool
  deriving DecidableEq, Repr

namespace Cell

/-- The cell of a pattern, with every least positive value divided into `unit` parts. -/
def ofPattern (F : Format) (unit pattern : Nat) : Cell where
  centre := F.units pattern * unit
  low := (F.units (pattern - 1) + F.units pattern) * unit
  high := (F.units pattern + F.units (pattern + 1)) * unit
  closed := pattern % 2 == 0

/-- Whether `x` lies in the cell. -/
def holds (c : Cell) (x : Nat) : Bool :=
  if c.closed then c.low ≤ 2 * x && 2 * x ≤ c.high else c.low < 2 * x && 2 * x < c.high

end Cell

end RecordQuery.Numeral
