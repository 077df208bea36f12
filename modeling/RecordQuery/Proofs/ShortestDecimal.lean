import Mathlib.Data.Rat.Floor
import RecordQuery.Proofs.CoarsestDecimal

set_option autoImplicit false

/-!
# Shortest decimals

The decimal that ends farthest left in a cell has the fewest digits, too, and is the nearest of those
with that many digits (`isShortest_shortest`).  Both hold because between it and a decimal of smaller
magnitude there would be a power of ten, which ends farther left.  One case needs a closer look: nine
tenths of a power of ten have as few digits as the power itself.  Only the cells of the least values
are wide enough to hold both, and there the power of ten is the nearer one (`TenIsNearer`).

A decimal of so few digits that the significands tell all of them apart is the shortest one of the
pattern that it is read as, in any format (`shortest_eq_of_coefficient_lt`).
-/

namespace RecordQuery.Numeral

namespace Format

variable {F : Format} {pattern : Nat} {d other : Decimal}

/-! ## How wide a cell is -/

/-- The least positive value. -/
def least (F : Format) : ℚ := 1 / 2 ^ F.grain

theorem least_pos (F : Format) : 0 < F.least := by
  unfold least
  positivity

theorem value_eq_units_mul (F : Format) (pattern : Nat) :
    F.value pattern = F.units pattern * F.least := by
  rw [value, least, mul_one_div]

theorem value_succ (F : Format) (pattern : Nat) :
    F.value (pattern + 1) = F.value pattern + F.gap pattern * F.least := by
  rw [value_eq_units_mul, value_eq_units_mul, units_succ]
  push_cast
  ring

theorem InCell.of_between {x y z : ℚ} (hx : F.InCell x pattern) (hz : F.InCell z pattern)
    (hxy : x ≤ y) (hyz : y ≤ z) : F.InCell y pattern := by
  refine ⟨hx.low_le.trans hxy, hyz.trans hz.le_high, fun h => ?_, fun h => ?_⟩
  · exact hx.even_of_low (le_antisymm (h ▸ hxy) hx.low_le)
  · exact hz.even_of_high (le_antisymm hz.le_high (h ▸ hyz))

/-- A value with an implied bit is at least as many gaps as there are fractions. -/
theorem binade_mul_gap_le_value (h : F.binade ≤ pattern) :
    F.binade * (F.gap pattern * F.least) ≤ F.value pattern := by
  rw [value_eq_units_mul, ← mul_assoc]
  exact mul_le_mul_of_nonneg_right (by exact_mod_cast F.binade_mul_gap_le_units h) F.least_pos.le

/-- A cell reaches no farther from its value than half of the gap above it. -/
theorem InCell.abs_sub_le {x : ℚ} (hx : F.InCell x pattern) :
    2 * |x - F.value pattern| ≤ F.gap pattern * F.least := by
  have hprevious : F.value pattern - F.value (pattern - 1) ≤ F.gap pattern * F.least := by
    rcases Nat.eq_zero_or_pos pattern with rfl | hpos
    · rw [Nat.zero_sub, sub_self]
      have := F.least_pos
      positivity
    · have hsucc := F.value_succ (pattern - 1)
      rw [Nat.sub_add_cancel hpos] at hsucc
      have hgap : (F.gap (pattern - 1) : ℚ) ≤ F.gap pattern := by
        exact_mod_cast F.gap_mono (Nat.sub_le _ _)
      have hmul := mul_le_mul_of_nonneg_right hgap F.least_pos.le
      linarith
  have hnext := F.value_succ pattern
  have hlow := hx.low_le
  have hhigh := hx.le_high
  unfold low at hlow
  unfold high at hhigh
  rcases abs_choice (x - F.value pattern) with habs | habs <;> linarith

/-- A cell is not wider than the gap above its value. -/
theorem InCell.sub_le_gap {x y : ℚ} (hx : F.InCell x pattern) (hy : F.InCell y pattern) :
    y - x ≤ F.gap pattern * F.least := by
  have habove := le_abs_self (y - F.value pattern)
  have hbelow := neg_le_abs (x - F.value pattern)
  have hx' := hx.abs_sub_le
  have hy' := hy.abs_sub_le
  linarith

theorem InCell.of_le_of_lt_high {x : ℚ} (hle : F.value pattern ≤ x) (hlt : x < F.high pattern)
    (hpos : 0 < pattern) : F.InCell x pattern := by
  have hprevious : F.value (pattern - 1) < F.value pattern := F.value_strictMono (by omega)
  refine ⟨?_, hlt.le, fun h => ?_, fun h => absurd h hlt.ne⟩
  · unfold low
    linarith
  · unfold low at h
    linarith

/-! ## Digits of the shortest decimal -/

theorem IsCoarsest.coefficient_pos (h : F.IsCoarsest pattern d) (hpos : 0 < pattern) :
    0 < d.coefficient := by
  have hvalue := (h.inCell.value_bounds hpos).1
  rcases Nat.eq_zero_or_pos d.coefficient with hzero | hpos'
  · rw [Decimal.value, hzero, Nat.cast_zero, zero_mul, mul_zero] at hvalue
    exact absurd (value_pos hpos) hvalue.not_gt
  · exact hpos'

/-- The last digit is no zero, as it would stand farther left otherwise. -/
theorem IsCoarsest.coefficient_mod_ten (h : F.IsCoarsest pattern d) : d.coefficient % 10 ≠ 0 := by
  intro hzero
  have hvalue : d.value = (⟨d.coefficient / 10, d.exponent + 1⟩ : Decimal).value := by
    have hsplit : (d.coefficient : ℚ) = (d.coefficient / 10 : Nat) * 10 := by
      exact_mod_cast (Nat.div_mul_cancel (Nat.dvd_of_mod_eq_zero hzero)).symm
    rw [Decimal.value, Decimal.value, zpow_add_one₀ (by norm_num)]
    nth_rewrite 1 [hsplit]
    ring
  have hle := h.exponent_le _ (hvalue ▸ h.inCell)
  exact absurd hle (by simp)

theorem shortest_zero (F : Format) : F.shortest 0 = ⟨0, 0⟩ := if_pos rfl

theorem inCell_shortest (F : Format) (pattern : Nat) :
    F.InCell (F.shortest pattern).value pattern := by
  rcases Nat.eq_zero_or_pos pattern with rfl | hpos
  · have hvalue : (F.shortest 0).value = F.value 0 := by
      rw [shortest_zero, Decimal.value, value_zero, Nat.cast_zero, zero_mul]
    rw [hvalue]
    exact F.inCell_value 0
  · exact (F.isCoarsest_shortest hpos).inCell

/-- A grid of steps less than half the gap has a point in the cell above the value. -/
theorem exists_inCell_of_step_lt (hpos : 0 < pattern) (exponent : Int)
    (hstep : 2 * (10 : ℚ) ^ exponent < F.gap pattern * F.least) :
    ∃ m : Nat, F.InCell (⟨m, exponent⟩ : Decimal).value pattern := by
  have hten : (0 : ℚ) < 10 ^ exponent := by positivity
  have hvalue := F.value_nonneg pattern
  refine ⟨⌊F.value pattern / 10 ^ exponent⌋₊ + 1, ?_⟩
  have hfloor : (⌊F.value pattern / 10 ^ exponent⌋₊ : ℚ) ≤ F.value pattern / 10 ^ exponent :=
    Nat.floor_le (by positivity)
  have hnext := Nat.lt_floor_add_one (F.value pattern / 10 ^ exponent)
  rw [le_div_iff₀ hten] at hfloor
  rw [div_lt_iff₀ hten] at hnext
  have hpoint : (⟨⌊F.value pattern / 10 ^ exponent⌋₊ + 1, exponent⟩ : Decimal).value =
      (⌊F.value pattern / 10 ^ exponent⌋₊ + 1) * 10 ^ exponent := by
    rw [Decimal.value]
    push_cast
    ring
  rw [hpoint]
  refine InCell.of_le_of_lt_high hnext.le ?_ hpos
  unfold high
  rw [value_succ]
  linarith

/-- The shortest decimal has no more digits than it takes to tell the significands apart. -/
theorem IsCoarsest.coefficient_le (h : F.IsCoarsest pattern d) (hpos : 0 < pattern) :
    d.coefficient ≤ 40 * F.binade := by
  have hten : (0 : ℚ) < 10 ^ d.exponent := by positivity
  have hcoarse : F.gap pattern * F.least ≤ 20 * 10 ^ d.exponent := by
    by_contra hlt
    rw [not_le] at hlt
    obtain ⟨m, hm⟩ := exists_inCell_of_step_lt hpos (d.exponent + 1) (by
      rw [zpow_add_one₀ (by norm_num)]
      linarith)
    exact absurd (h.exponent_le _ hm) (by simp)
  have hhigh : F.high pattern ≤ 2 * F.binade * (F.gap pattern * F.least) := by
    have hunits : (F.units pattern : ℚ) + F.gap pattern ≤ 2 * F.binade * F.gap pattern := by
      exact_mod_cast F.units_add_gap_le pattern
    have hmul := mul_le_mul_of_nonneg_right hunits F.least_pos.le
    have hleast := F.least_pos
    have hgap : 0 ≤ F.gap pattern * F.least := by positivity
    unfold high
    rw [value_succ, value_eq_units_mul]
    linarith
  have hbinade : (0 : ℚ) < F.binade := by exact_mod_cast F.binade_pos
  have hvalue : (d.coefficient : ℚ) * 10 ^ d.exponent ≤ (40 * F.binade : Nat) * 10 ^ d.exponent := by
    calc (d.coefficient : ℚ) * 10 ^ d.exponent ≤ F.high pattern := h.inCell.le_high
      _ ≤ 2 * F.binade * (F.gap pattern * F.least) := hhigh
      _ ≤ 2 * F.binade * (20 * 10 ^ d.exponent) :=
        mul_le_mul_of_nonneg_left hcoarse (by positivity)
      _ = (40 * F.binade : Nat) * 10 ^ d.exponent := by
        push_cast
        ring
  exact_mod_cast le_of_mul_le_mul_right hvalue hten

/-- Two points of the grid of a decimal lie farther apart than the cell that it lies in is wide, if its
digits are told apart by the significands. -/
theorem gap_lt_of_coefficient_lt (hlt : d.coefficient + 1 < F.binade) (hfull : F.binade ≤ pattern)
    (h : F.InCell d.value pattern) : F.gap pattern * F.least < 10 ^ d.exponent := by
  have hten : (0 : ℚ) < 10 ^ d.exponent := by positivity
  have hnonneg : (0 : ℚ) ≤ d.coefficient := d.coefficient.cast_nonneg
  have hcoefficient : (d.coefficient : ℚ) + 1 < F.binade := by exact_mod_cast hlt
  have hvalue := binade_mul_gap_le_value hfull
  have hnear := h.sub_le_gap (F.inCell_value pattern)
  by_contra hle
  rw [not_lt] at hle
  have hmul : (F.binade - 1 : ℚ) * 10 ^ d.exponent ≤ (F.binade - 1) * (F.gap pattern * F.least) :=
    mul_le_mul_of_nonneg_left hle (by linarith)
  have hless : (d.coefficient : ℚ) * 10 ^ d.exponent < (F.binade - 1) * 10 ^ d.exponent :=
    mul_lt_mul_of_pos_right (by linarith) hten
  unfold Decimal.value at hnear
  linarith

/-- A decimal is alone on its grid within one step, and is written there in one way only. -/
theorem eq_of_sub_lt_step (hlast : d.coefficient % 10 ≠ 0) (hle : d.exponent ≤ other.exponent)
    (habove : other.value - d.value < 10 ^ d.exponent)
    (hbelow : d.value - other.value < 10 ^ d.exponent) : other = d := by
  have hten : (0 : ℚ) < 10 ^ d.exponent := by positivity
  obtain ⟨k, hk⟩ : ∃ k : Nat, other.exponent = d.exponent + k :=
    ⟨(other.exponent - d.exponent).toNat, by omega⟩
  have hgrid : other.value = (other.coefficient * 10 ^ k : Nat) * 10 ^ d.exponent := by
    rw [Decimal.value, hk, zpow_add₀ (by norm_num), zpow_natCast]
    push_cast
    ring
  rw [hgrid, Decimal.value, ← sub_mul] at habove hbelow
  have hclose : ∀ m n : Nat, ((m : ℚ) - n) * 10 ^ d.exponent < 10 ^ d.exponent → m ≤ n := by
    intro m n hmn
    have hmul : ((m : ℚ) - n) * 10 ^ d.exponent < 1 * 10 ^ d.exponent := by rwa [one_mul]
    have hlt : (m : ℚ) < n + 1 := by linarith [lt_of_mul_lt_mul_right hmul hten.le]
    exact Nat.le_of_lt_succ (by exact_mod_cast hlt)
  have heq : other.coefficient * 10 ^ k = d.coefficient :=
    Nat.le_antisymm (hclose _ _ habove) (hclose _ _ hbelow)
  have hzero : k = 0 := by
    by_contra hne
    obtain ⟨j, rfl⟩ := Nat.exists_eq_succ_of_ne_zero hne
    rw [Nat.pow_succ, ← Nat.mul_assoc] at heq
    omega
  rw [hzero, Nat.pow_zero, Nat.mul_one] at heq
  rw [hzero, Nat.cast_zero, Int.add_zero] at hk
  cases other
  cases d
  simp_all

/-- A decimal whose digits are told apart by the significands is the shortest of the pattern that it
is read as. -/
theorem shortest_eq_of_coefficient_lt (hlast : d.coefficient % 10 ≠ 0)
    (hlt : d.coefficient + 1 < F.binade) (hfull : F.binade ≤ pattern)
    (h : F.InCell d.value pattern) : F.shortest pattern = d := by
  have hgap := gap_lt_of_coefficient_lt hlt hfull h
  have hshortest := F.isCoarsest_shortest (F.binade_pos.trans_le hfull)
  refine eq_of_sub_lt_step hlast (hshortest.exponent_le d h) ?_ ?_
  · exact (h.sub_le_gap hshortest.inCell).trans_lt hgap
  · exact (hshortest.inCell.sub_le_gap h).trans_lt hgap

/-! ## The fewest digits -/

/-- A decimal that is read as a pattern, of as few digits as there can be, and as near to its value as
one of that many digits can be. -/
structure IsShortest (F : Format) (pattern : Nat) (d : Decimal) : Prop where
  isNearest : F.IsNearest d.value pattern
  length_le : ∀ other : Decimal, F.IsNearest other.value pattern →
    (Nat.toDigits 10 d.coefficient).length ≤ (Nat.toDigits 10 other.coefficient).length
  nearest : ∀ other : Decimal, F.IsNearest other.value pattern →
    (Nat.toDigits 10 other.coefficient).length = (Nat.toDigits 10 d.coefficient).length →
      |d.value - F.value pattern| ≤ |other.value - F.value pattern|

/-- Where a power of ten and nine tenths of it lie in the cell of a smaller value, the power of ten is
the nearer one.  Only the cells of the least values are as wide as this. -/
def TenIsNearer (F : Format) : Prop :=
  ∀ (pattern : Nat) (exponent : Int), 0 < pattern → F.value pattern < 10 * 10 ^ exponent →
    F.InCell (10 * 10 ^ exponent) pattern → F.InCell (9 * 10 ^ exponent) pattern →
      19 * (10 : ℚ) ^ exponent ≤ 2 * F.value pattern

theorem inCell_iff_isNearest (d : Decimal) : F.InCell d.value pattern ↔ F.IsNearest d.value pattern :=
  (isNearest_iff_inCell d.value_nonneg).symm

/-- Below the power of ten that the shortest decimal reaches there are no others, unless it is of a
single digit: the power of ten would lie in the cell. -/
theorem IsCoarsest.power_of_top_lt (h : F.IsCoarsest pattern d) (hpos : 0 < pattern)
    (hother : F.InCell other.value pattern) (hlt : other.top < d.top) :
    (Nat.toDigits 10 d.coefficient).length = 1 ∧ other.value < 10 ^ d.exponent ∧
      F.InCell (10 ^ d.exponent) pattern := by
  have hle : (10 : ℚ) ^ (d.top - 1) ≤ d.value := Decimal.top_le_value (h.coefficient_pos hpos).ne'
  have hpower : other.value < 10 ^ (d.top - 1) :=
    other.value_lt_top.trans_le (zpow_le_zpow_right₀ (by norm_num) (by omega))
  have hbetween : F.InCell (10 ^ (d.top - 1)) pattern := hother.of_between h.inCell hpower.le hle
  have hexponent : d.top - 1 ≤ d.exponent := by
    refine h.exponent_le ⟨1, d.top - 1⟩ ?_
    rwa [Decimal.value, Nat.cast_one, one_mul]
  have hlength := List.length_pos_iff.mpr (Nat.toDigits_ne_nil (n := d.coefficient) (b := 10))
  have htop : d.top - 1 = d.exponent := by
    unfold Decimal.top at hexponent ⊢
    omega
  rw [htop] at hpower hbetween
  refine ⟨?_, hpower, hbetween⟩
  unfold Decimal.top at htop
  omega

theorem value_le_of_single_digit {exponent : Int}
    (hlength : (Nat.toDigits 10 other.coefficient).length = 1) (hle : other.exponent ≤ exponent) :
    other.value ≤ 9 * 10 ^ exponent := by
  have hdigit : other.coefficient < 10 ^ 1 :=
    (Nat.length_toDigits_le_iff (by decide) (by decide)).mp hlength.le
  have hnine : (other.coefficient : ℚ) ≤ 9 := by
    exact_mod_cast (show other.coefficient ≤ 9 by omega)
  calc other.value ≤ 9 * 10 ^ other.exponent :=
        mul_le_mul_of_nonneg_right hnine (by positivity)
    _ ≤ 9 * 10 ^ exponent :=
        mul_le_mul_of_nonneg_left (zpow_le_zpow_right₀ (by norm_num) hle) (by norm_num)

/-- Of the decimals of a single digit the one that ends farthest left is the nearest too. -/
theorem IsCoarsest.nearer_of_single_digit (hF : F.TenIsNearer) (h : F.IsCoarsest pattern d)
    (hpos : 0 < pattern) (hother : F.InCell other.value pattern)
    (hlength : (Nat.toDigits 10 other.coefficient).length = 1)
    (hlt : other.exponent < d.exponent) (hbelow : other.value < 10 ^ d.exponent)
    (hpower : F.InCell (10 ^ d.exponent) pattern) :
    |d.value - F.value pattern| ≤ |other.value - F.value pattern| := by
  have hten : (10 : ℚ) ^ d.exponent = 10 * 10 ^ (d.exponent - 1) := by
    rw [zpow_sub_one₀ (by norm_num)]
    ring
  have hnearest : |d.value - F.value pattern| ≤ |10 ^ d.exponent - F.value pattern| := by
    have hone : (⟨1, d.exponent⟩ : Decimal).value = 10 ^ d.exponent := by
      rw [Decimal.value, Nat.cast_one, one_mul]
    have := h.nearest ⟨1, d.exponent⟩ (hone ▸ hpower) rfl
    rwa [hone] at this
  have hfar : F.value pattern - other.value ≤ |other.value - F.value pattern| := by
    rw [abs_sub_comm]
    exact le_abs_self _
  refine hnearest.trans ?_
  rcases le_or_gt (10 ^ d.exponent) (F.value pattern) with hle | hgt
  · rw [abs_of_nonpos (by linarith)]
    linarith
  · have hnine := value_le_of_single_digit hlength (Int.le_sub_one_of_lt hlt)
    rw [hten] at hgt hpower hbelow ⊢
    have hstep : (0 : ℚ) < 10 ^ (d.exponent - 1) := by positivity
    have hcell : F.InCell (9 * 10 ^ (d.exponent - 1)) pattern :=
      hother.of_between hpower hnine (by linarith)
    have hhalf := hF pattern (d.exponent - 1) hpos hgt hpower hcell
    rw [abs_of_pos (by linarith)]
    linarith

theorem isShortest_shortest (hF : F.TenIsNearer) (pattern : Nat) :
    F.IsShortest pattern (F.shortest pattern) := by
  have hlength : ∀ n : Nat, 1 ≤ (Nat.toDigits 10 n).length :=
    fun n => List.length_pos_iff.mpr Nat.toDigits_ne_nil
  rcases Nat.eq_zero_or_pos pattern with rfl | hpos
  · refine ⟨(F.inCell_shortest 0).isNearest, fun other _ => ?_, fun other _ _ => ?_⟩
    · rw [shortest_zero]
      exact hlength _
    · rw [shortest_zero, Decimal.value, value_zero, Nat.cast_zero, zero_mul, sub_self, abs_zero]
      exact abs_nonneg _
  · have hcoarsest := F.isCoarsest_shortest hpos
    generalize F.shortest pattern = d at *
    refine ⟨hcoarsest.inCell.isNearest, fun other hother => ?_, fun other hother hequal => ?_⟩
    · rw [← inCell_iff_isNearest] at hother
      have hexponent := hcoarsest.exponent_le other hother
      by_contra hlt
      have htop : other.top < d.top := by
        unfold Decimal.top
        omega
      obtain ⟨hone, -, -⟩ := hcoarsest.power_of_top_lt hpos hother htop
      have := hlength other.coefficient
      omega
    · rw [← inCell_iff_isNearest] at hother
      rcases (hcoarsest.exponent_le other hother).lt_or_eq with hlt | heq
      · have htop : other.top < d.top := by
          unfold Decimal.top
          omega
        obtain ⟨hone, hbelow, hpower⟩ := hcoarsest.power_of_top_lt hpos hother htop
        exact hcoarsest.nearer_of_single_digit hF hpos hother (hequal.trans hone) hlt hbelow hpower
      · exact hcoarsest.nearest other hother heq

/-! ## The widest cells -/

/-- The cells that hold a power of ten and nine tenths of it, in multiples of the least value. -/
theorem ratio_of_wide_cell (hF : 10 ≤ F.binade) {exponent : Int} (hpos : 0 < pattern)
    (hlt : F.value pattern < 10 * 10 ^ exponent) (hten : F.InCell (10 * 10 ^ exponent) pattern)
    (hnine : F.InCell (9 * 10 ^ exponent) pattern) :
    F.value pattern = pattern * F.least ∧ (10 : ℚ) ^ exponent ≤ F.least ∧
      F.least ≤ 18 * 10 ^ exponent ∧
      20 * 10 ^ exponent ≤ (2 * pattern + 1) * F.least ∧
      (2 * pattern - 1) * F.least ≤ 18 * 10 ^ exponent := by
  have hleast := F.least_pos
  have hwidth := hnine.sub_le_gap hten
  have hsmall : pattern < F.binade := by
    by_contra hge
    rw [not_lt] at hge
    have hvalue := binade_mul_gap_le_value hge
    have hbinade : (10 : ℚ) ≤ F.binade := by exact_mod_cast hF
    have hmul := mul_le_mul_of_nonneg_right hbinade
      (show 0 ≤ F.gap pattern * F.least by positivity)
    linarith
  have hvalue : F.value pattern = pattern * F.least := by
    rw [value_eq_units_mul, units_of_lt F hsmall]
  have hgap : F.gap pattern = 1 := by
    rw [gap, Nat.div_eq_of_lt hsmall]
    rfl
  have hprevious : F.value (pattern - 1) = (pattern - 1) * F.least := by
    rw [value_eq_units_mul, units_of_lt F (by omega), Nat.cast_sub hpos, Nat.cast_one]
  have hnext := F.value_succ pattern
  have hhigh := hten.le_high
  have hlow := hnine.low_le
  rw [hgap, Nat.cast_one, one_mul] at hwidth hnext
  unfold high at hhigh
  unfold low at hlow
  rw [hnext, hvalue] at hhigh
  rw [hprevious, hvalue] at hlow
  have hone : (1 : ℚ) ≤ pattern := by exact_mod_cast hpos
  have hmul := mul_le_mul_of_nonneg_right hone hleast.le
  refine ⟨hvalue, by linarith, by linarith, by linarith, by linarith⟩

theorem least_bounds (F : Format) (low high k : Nat) (hlow : low * Nat.pow 2 F.grain ≤ 100 * Nat.pow 10 k)
    (hhigh : 100 * Nat.pow 10 k ≤ high * Nat.pow 2 F.grain) :
    low * (10 : ℚ) ^ (-k : Int) ≤ 100 * F.least ∧ 100 * F.least ≤ high * 10 ^ (-k : Int) := by
  have hbounds : ∀ n g : Nat, (n : ℚ) * (10 ^ k)⁻¹ = n * 2 ^ g / (10 ^ k * 2 ^ g) ∧
      (100 : ℚ) * (1 / 2 ^ g) = 100 * 10 ^ k / (10 ^ k * 2 ^ g) := by
    intro n g
    constructor <;> field_simp
  have hscale : (0 : ℚ) < 10 ^ k * 2 ^ F.grain := by positivity
  rw [zpow_neg, zpow_natCast, least, (hbounds low F.grain).1, (hbounds high F.grain).1,
    (hbounds low F.grain).2, div_le_div_iff_of_pos_right hscale, div_le_div_iff_of_pos_right hscale]
  exact ⟨by exact_mod_cast hlow, by exact_mod_cast hhigh⟩

theorem exponent_le_of_zpow_le (ratio : ℚ) {exponent k : Int} (hratio : ratio < 10)
    (h : (10 : ℚ) ^ exponent ≤ ratio * 10 ^ k) : exponent ≤ k := by
  have hten : (0 : ℚ) < 10 ^ k := by positivity
  have hlt : (10 : ℚ) ^ exponent < 10 ^ (k + 1) := by
    rw [zpow_add_one₀ (by norm_num), mul_comm]
    exact h.trans_lt (by linarith [mul_lt_mul_of_pos_right hratio hten])
  exact Int.le_of_lt_add_one ((zpow_lt_zpow_iff_right₀ (by norm_num)).mp hlt)

/-- The one wide cell of double precision is that of the pattern 2, nearly ten times a power of
ten. -/
theorem tenIsNearer_binary64 : binary64.TenIsNearer := by
  intro pattern exponent hpos hlt hten hnine
  obtain ⟨hvalue, hle, hge, hhigh, hlow⟩ :=
    ratio_of_wide_cell (F := binary64) (by decide) hpos hlt hten hnine
  -- the least positive double lies between 4.94 and 4.95 times ten to the power of minus 324
  obtain ⟨hleast, hleast'⟩ := least_bounds binary64 494 495 324 (by decide +kernel) (by decide +kernel)
  generalize (-(324 : Nat) : Int) = k at hleast hleast'
  have hstep : (0 : ℚ) < 10 ^ k := by positivity
  obtain rfl : exponent = k := by
    refine le_antisymm (exponent_le_of_zpow_le (495 / 100) (by norm_num) ?_)
      (exponent_le_of_zpow_le (1800 / 494) (by norm_num) ?_)
    · push_cast at hleast'
      linarith
    · push_cast at hleast
      linarith
  have hmul : ∀ {a b : ℚ}, a ≤ b → a * binary64.least ≤ b * binary64.least :=
    fun h => mul_le_mul_of_nonneg_right h binary64.least_pos.le
  push_cast at hleast hleast'
  have hpattern : pattern = 2 := by
    refine le_antisymm ?_ ?_
    · by_contra hgt
      have hthree : (3 : ℚ) ≤ pattern := by exact_mod_cast (show 3 ≤ pattern by omega)
      have := hmul (show (5 : ℚ) ≤ 2 * pattern - 1 by linarith)
      linarith
    · by_contra hless
      have hone : (pattern : ℚ) ≤ 1 := by exact_mod_cast (show pattern ≤ 1 by omega)
      have := hmul (show 2 * (pattern : ℚ) + 1 ≤ 3 by linarith)
      linarith
  rw [hvalue, hpattern]
  push_cast
  linarith

/-- Single precision has no such cell. -/
theorem tenIsNearer_binary32 : binary32.TenIsNearer := by
  intro pattern exponent hpos hlt hten hnine
  obtain ⟨hvalue, hle, hge, hhigh, hlow⟩ :=
    ratio_of_wide_cell (F := binary32) (by decide) hpos hlt hten hnine
  -- the least positive value lies between 1.40 and 1.41 times ten to the power of minus 45
  obtain ⟨hleast, hleast'⟩ := least_bounds binary32 140 141 45 (by decide +kernel) (by decide +kernel)
  generalize (-(45 : Nat) : Int) = k at hleast hleast'
  have hstep : (0 : ℚ) < 10 ^ k := by positivity
  have hmul : ∀ {a b : ℚ}, a ≤ b → a * binary32.least ≤ b * binary32.least :=
    fun h => mul_le_mul_of_nonneg_right h binary32.least_pos.le
  push_cast at hleast hleast'
  have hupper : exponent ≤ k :=
    exponent_le_of_zpow_le (141 / 100) (by norm_num) (by linarith)
  have hlower : k ≤ exponent + 1 := by
    refine exponent_le_of_zpow_le (180 / 140) (by norm_num) ?_
    rw [zpow_add_one₀ (by norm_num)]
    linarith
  exfalso
  rcases hupper.lt_or_eq with hless | heq
  · have hk : (10 : ℚ) ^ k = 10 ^ exponent * 10 := by
      rw [← zpow_add_one₀ (by norm_num)]
      congr 1
      omega
    rw [hk] at hleast hleast'
    have hone : (1 : ℚ) ≤ pattern := by exact_mod_cast hpos
    have := hmul hone
    linarith
  · subst heq
    rcases Nat.lt_or_ge pattern 7 with hless | hge
    · have hsix : (pattern : ℚ) ≤ 6 := by exact_mod_cast (show pattern ≤ 6 by omega)
      have := hmul (show 2 * (pattern : ℚ) + 1 ≤ 13 by linarith)
      linarith
    · have hseven : (7 : ℚ) ≤ pattern := by exact_mod_cast hge
      have := hmul (show (13 : ℚ) ≤ 2 * pattern - 1 by linarith)
      linarith

end Format

end RecordQuery.Numeral
