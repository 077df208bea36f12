import RecordQuery.Numeral.Decimal

set_option autoImplicit false

/-!
# Shortest decimals

The shortest decimal of a binary value has the fewest digits among the decimals that read back as
that value, and of those it is the nearest one; of two equally near ones it is the larger.

A value of a format with grain `g` is a whole number of parts of size `10 ^ -g`, because
`2 ^ -g = 5 ^ g * 10 ^ -g`.  On the grid of the multiples of `10 ^ n` of these parts only the two
neighbours of the value can be the nearest that reads back.  The grids are tried from coarse to
fine, and the finest one holds the value itself, so the search always ends with a decimal.
-/

namespace RecordQuery.Numeral

namespace Cell

/-- The multiple of `10 ^ n` nearest to the centre that lies in the cell, as a multiplier; a tie
goes up. -/
def onGrid? (c : Cell) (n : Nat) : Option Nat :=
  let step := Nat.pow 10 n
  let below := c.centre / step
  match c.holds (below * step), c.holds ((below + 1) * step) with
  | true, true => some (if 2 * (c.centre % step) < step then below else below + 1)
  | true, false => some below
  | false, true => some (below + 1)
  | false, false => none

/-- The coarsest grid, from `10 ^ n` down, that has a point in the cell: that point and the power.
The centre itself is the answer on the grid of ones. -/
def coarsest (c : Cell) : Nat → Nat × Nat
  | 0 => (c.centre, 0)
  | n + 1 =>
    match c.onGrid? (n + 1) with
    | some m => (m, n + 1)
    | none => c.coarsest n

end Cell

/-- The shortest decimal that reads back as the pattern; zero is its own. -/
def Format.shortest (F : Format) (pattern : Nat) : Decimal :=
  if pattern = 0 then ⟨0, 0⟩
  else
    let cell := Cell.ofPattern F (Nat.pow 5 F.grain) pattern
    let found := cell.coarsest (Nat.toDigits 10 cell.centre).length
    ⟨found.1, (found.2 : Int) - F.grain⟩

/-- The text of a value: the sign, also of a zero, and its shortest decimal written positionally. -/
def Binary.digits {F : Format} (x : Binary F) : List Char :=
  if x.negative then '-' :: (F.shortest x.magnitude).digits else (F.shortest x.magnitude).digits

end RecordQuery.Numeral
