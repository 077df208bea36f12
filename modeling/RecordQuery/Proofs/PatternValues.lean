import Mathlib.Algebra.Order.Field.Rat
import Mathlib.Tactic.Linarith
import Mathlib.Tactic.Ring
import Mathlib.Tactic.FieldSimp
import Mathlib.Tactic.Positivity
import RecordQuery.Proofs.IntegerLiterals

set_option autoImplicit false

/-!
# Values of patterns

The value of a pattern is a multiple of the least positive value, and from one pattern to the next it
grows by a gap that is a power of two and the same for all patterns of one exponent (`units_succ`).
Zero and the values below the least full significand share the least exponent with it.

The *cell* of a pattern reaches halfway to the values of its neighbours.  Its two ends belong to it if
the pattern is even, so that the cells do not overlap (`InCell.le_of_le`), and a number lies in a cell
if and only if the pattern is the nearest one, the even one of two (`isNearest_iff_inCell`).  The
patterns go on beyond the finite ones here: the first of them is the pattern of infinity.
-/

namespace RecordQuery.Numeral

namespace Format

/-! ## Gaps between values -/

theorem binade_pos (F : Format) : 0 < F.binade := Nat.pow_pos (by decide)

theorem binade_le_two_pow_grain (F : Format) : F.binade ≤ 2 ^ F.grain :=
  Nat.pow_le_pow_right (by decide) (Nat.le_add_left _ _)

/-- Patterns of one exponent above the least. -/
theorem units_of_exponent (F : Format) (exponent : Nat) {fraction : Nat} (h : fraction < F.binade) :
    F.units ((exponent + 1) * F.binade + fraction) = (F.binade + fraction) * 2 ^ exponent := by
  have hpos := F.binade_pos
  have hdiv : ((exponent + 1) * F.binade + fraction) / F.binade = exponent + 1 := by
    rw [Nat.mul_comm, Nat.mul_add_div hpos, Nat.div_eq_of_lt h, Nat.add_zero]
  have hmod : ((exponent + 1) * F.binade + fraction) % F.binade = fraction := by
    rw [Nat.mul_comm, Nat.mul_add_mod, Nat.mod_eq_of_lt h]
  rw [units, hdiv, hmod, if_neg (Nat.succ_ne_zero _), Nat.add_sub_cancel]
  rfl

theorem units_of_lt (F : Format) {pattern : Nat} (h : pattern < F.binade) :
    F.units pattern = pattern := by
  rw [units, Nat.div_eq_of_lt h, if_pos rfl]

/-- Significands shifted by the exponent; one that is carried into the next exponent
included. -/
theorem units_shifted (F : Format) (shift : Nat) {significand : Nat}
    (hlow : shift = 0 ∨ F.binade ≤ significand) (hhigh : significand ≤ 2 * F.binade) :
    F.units (shift * F.binade + significand) = significand * 2 ^ shift := by
  have hpos := F.binade_pos
  obtain hsmall | ⟨fraction, rfl⟩ : significand < F.binade ∨ ∃ k, significand = F.binade + k := by
    rcases Nat.lt_or_ge significand F.binade with h | h
    · exact Or.inl h
    · exact Or.inr (Nat.exists_eq_add_of_le h)
  · have hzero : shift = 0 := by omega
    rw [hzero, Nat.zero_mul, Nat.zero_add, units_of_lt F hsmall, Nat.pow_zero, Nat.mul_one]
  · rcases Nat.lt_or_ge fraction F.binade with hlt | hge
    · rw [← Nat.add_assoc, ← Nat.succ_mul, units_of_exponent F shift hlt]
    · have htop : fraction = F.binade := by omega
      rw [htop, ← Nat.add_assoc, ← Nat.succ_mul, ← Nat.succ_mul, ← Nat.add_zero (_ * _),
        units_of_exponent F (shift + 1) hpos]
      ring

/-- How far the next value is from that of a pattern, in least positive values. -/
def gap (F : Format) (pattern : Nat) : Nat := 2 ^ (pattern / F.binade - 1)

theorem gap_pos (F : Format) (pattern : Nat) : 0 < F.gap pattern := Nat.two_pow_pos _

theorem gap_mono (F : Format) : Monotone F.gap := by
  intro pattern other h
  exact Nat.pow_le_pow_right (by decide) (Nat.sub_le_sub_right (Nat.div_le_div_right h) 1)

/-- Every pattern is that of a shifted significand, and the shift tells the gap. -/
theorem exists_shifted (F : Format) (pattern : Nat) :
    ∃ shift significand, pattern = shift * F.binade + significand ∧
      significand < 2 * F.binade ∧ (shift = 0 ∨ F.binade ≤ significand) ∧
        F.units pattern = significand * 2 ^ shift ∧ F.gap pattern = 2 ^ shift := by
  have hpos := F.binade_pos
  obtain hsmall | hlarge := Nat.lt_or_ge pattern F.binade
  · refine ⟨0, pattern, by simp, by omega, Or.inl rfl, ?_, ?_⟩
    · rw [units_of_lt F hsmall, Nat.pow_zero, Nat.mul_one]
    · rw [gap, Nat.div_eq_of_lt hsmall]
  · obtain ⟨shift, hshift⟩ : ∃ shift, pattern / F.binade = shift + 1 :=
      Nat.exists_eq_succ_of_ne_zero (Nat.div_pos hlarge hpos).ne'
    have hmod := Nat.mod_lt pattern hpos
    have hsplit : pattern = shift * F.binade + (F.binade + pattern % F.binade) := by
      calc pattern = F.binade * (shift + 1) + pattern % F.binade := by
            rw [← hshift, Nat.div_add_mod]
        _ = shift * F.binade + (F.binade + pattern % F.binade) := by ring
    have hfull : F.binade ≤ F.binade + pattern % F.binade := Nat.le_add_right _ _
    have hvalue := F.units_shifted shift (Or.inr hfull) (by omega)
    rw [← hsplit] at hvalue
    exact ⟨shift, _, hsplit, by omega, Or.inr hfull, hvalue, by
      rw [gap, hshift, Nat.add_sub_cancel]⟩

theorem units_succ (F : Format) (pattern : Nat) :
    F.units (pattern + 1) = F.units pattern + F.gap pattern := by
  obtain ⟨shift, significand, hpattern, hlt, hfull, hvalue, hgap⟩ := F.exists_shifted pattern
  have hnext := F.units_shifted shift (hfull.imp_right Nat.le_succ_of_le) hlt
  rw [hvalue, hgap, hpattern, Nat.add_assoc, hnext, Nat.succ_mul]

/-- The next value is at most as many gaps as there are significands. -/
theorem units_add_gap_le (F : Format) (pattern : Nat) :
    F.units pattern + F.gap pattern ≤ 2 * F.binade * F.gap pattern := by
  obtain ⟨shift, significand, -, hlt, -, hvalue, hgap⟩ := F.exists_shifted pattern
  rw [hvalue, hgap, ← Nat.succ_mul]
  exact Nat.mul_le_mul_right _ hlt

/-- A value with an implied bit is at least as many gaps as there are fractions. -/
theorem binade_mul_gap_le_units (F : Format) {pattern : Nat} (h : F.binade ≤ pattern) :
    F.binade * F.gap pattern ≤ F.units pattern := by
  obtain ⟨shift, significand, hpattern, -, hfull, hvalue, hgap⟩ := F.exists_shifted pattern
  rw [hvalue, hgap]
  refine Nat.mul_le_mul_right _ ?_
  rcases hfull with rfl | hfull
  · omega
  · exact hfull

theorem gap_le_units (F : Format) {pattern : Nat} (h : 0 < pattern) :
    F.gap pattern ≤ F.units pattern := by
  obtain ⟨shift, significand, hpattern, -, hfull, hvalue, hgap⟩ := F.exists_shifted pattern
  rw [hvalue, hgap]
  have hpos : 0 < significand := by
    have hbinade := F.binade_pos
    rcases hfull with rfl | hfull <;> omega
  exact Nat.le_mul_of_pos_left _ hpos

theorem units_strictMono (F : Format) : StrictMono F.units := by
  refine strictMono_nat_of_lt_succ fun pattern => ?_
  rw [units_succ]
  exact Nat.lt_add_of_pos_right (F.gap_pos pattern)

/-! ## Values -/

/-- The value of a pattern. -/
def value (F : Format) (pattern : Nat) : ℚ := F.units pattern / 2 ^ F.grain

@[simp] theorem value_zero (F : Format) : F.value 0 = 0 := by
  simp [value]

theorem value_strictMono (F : Format) : StrictMono F.value := by
  intro pattern other h
  have hunits : (F.units pattern : ℚ) < F.units other := by exact_mod_cast F.units_strictMono h
  exact div_lt_div_of_pos_right hunits (by positivity)

theorem value_nonneg (F : Format) (pattern : Nat) : 0 ≤ F.value pattern := by
  rw [value]
  positivity

/-! ## Cells -/

/-- No value is nearer to `x` than that of the pattern, and if another one is as near, then the
pattern is even.  The patterns go on beyond the finite ones. -/
structure IsNearest (F : Format) (x : ℚ) (pattern : Nat) : Prop where
  nearest : ∀ other, |x - F.value pattern| ≤ |x - F.value other|
  even : ∀ other, other ≠ pattern → |x - F.value other| = |x - F.value pattern| → pattern % 2 = 0

/-- Halfway from the pattern before. -/
def low (F : Format) (pattern : Nat) : ℚ := (F.value (pattern - 1) + F.value pattern) / 2

/-- Halfway to the pattern behind. -/
def high (F : Format) (pattern : Nat) : ℚ := (F.value pattern + F.value (pattern + 1)) / 2

/-- The cell of a pattern reaches halfway to its neighbours; its ends belong to it if it is even. -/
structure InCell (F : Format) (x : ℚ) (pattern : Nat) : Prop where
  low_le : F.low pattern ≤ x
  le_high : x ≤ F.high pattern
  even_of_low : x = F.low pattern → pattern % 2 = 0
  even_of_high : x = F.high pattern → pattern % 2 = 0

variable {F : Format} {x : ℚ} {pattern other : Nat}

theorem InCell.nonneg (h : F.InCell x pattern) : 0 ≤ x := by
  have hprevious := F.value_nonneg (pattern - 1)
  have hvalue := F.value_nonneg pattern
  have hlow := h.low_le
  unfold low at hlow
  linarith

theorem high_le_low (h : pattern < other) : F.high pattern ≤ F.low other := by
  have hprevious : F.value pattern ≤ F.value (other - 1) :=
    F.value_strictMono.monotone (by omega)
  have hnext : F.value (pattern + 1) ≤ F.value other := F.value_strictMono.monotone h
  unfold high low
  linarith

/-- Cells do not overlap. -/
theorem InCell.le_of_le {y : ℚ} (h : F.InCell x pattern) (hother : F.InCell y other) (hle : x ≤ y) :
    pattern ≤ other := by
  by_contra hlt
  have hends : F.high other ≤ F.low pattern := high_le_low (by omega)
  have hx := h.low_le
  have hy := hother.le_high
  have hxlow : x = F.low pattern := by linarith
  have hyhigh : y = F.high other := by linarith
  have heven := h.even_of_low hxlow
  have heven' := hother.even_of_high hyhigh
  -- two even patterns have an odd one between them, which leaves room between their cells
  have hbetween : F.high other < F.low pattern := by
    have hprevious : F.value other < F.value (pattern - 1) := F.value_strictMono (by omega)
    have hnext : F.value (other + 1) < F.value pattern := F.value_strictMono (by omega)
    unfold high low
    linarith
  linarith

theorem InCell.unique (h : F.InCell x pattern) (hother : F.InCell x other) : pattern = other :=
  Nat.le_antisymm (h.le_of_le hother le_rfl) (hother.le_of_le h le_rfl)

theorem InCell.nearer_of_lt (h : F.InCell x pattern) (hlt : pattern < other) :
    |x - F.value pattern| ≤ |x - F.value other| ∧
      (|x - F.value other| = |x - F.value pattern| → pattern % 2 = 0) := by
  have hnext : F.value (pattern + 1) ≤ F.value other := F.value_strictMono.monotone hlt
  have hgap : F.value pattern < F.value (pattern + 1) := F.value_strictMono (Nat.lt_succ_self _)
  have hhigh := h.le_high
  have heven := h.even_of_high
  unfold high at hhigh heven
  have hother : F.value other - x ≤ |x - F.value other| := by
    rw [abs_sub_comm]
    exact le_abs_self _
  have hbelow : |x - F.value pattern| ≤ F.value (pattern + 1) - x :=
    abs_le.mpr ⟨by linarith, by linarith⟩
  refine ⟨by linarith, fun heq => heven ?_⟩
  rcases abs_choice (x - F.value pattern) with habs | habs <;> linarith

theorem InCell.nearer_of_gt (h : F.InCell x pattern) (hlt : other < pattern) :
    |x - F.value pattern| ≤ |x - F.value other| ∧
      (|x - F.value other| = |x - F.value pattern| → pattern % 2 = 0) := by
  have hprevious : F.value other ≤ F.value (pattern - 1) := F.value_strictMono.monotone (by omega)
  have hgap : F.value (pattern - 1) < F.value pattern := F.value_strictMono (by omega)
  have hlow := h.low_le
  have heven := h.even_of_low
  unfold low at hlow heven
  have hother : x - F.value other ≤ |x - F.value other| := le_abs_self _
  have habove : |x - F.value pattern| ≤ x - F.value (pattern - 1) :=
    abs_le.mpr ⟨by linarith, by linarith⟩
  refine ⟨by linarith, fun heq => heven ?_⟩
  rcases abs_choice (x - F.value pattern) with habs | habs <;> linarith

theorem InCell.isNearest (h : F.InCell x pattern) : F.IsNearest x pattern := by
  constructor
  · intro other
    rcases Nat.lt_trichotomy pattern other with hlt | rfl | hgt
    · exact (h.nearer_of_lt hlt).1
    · exact le_rfl
    · exact (h.nearer_of_gt hgt).1
  · intro other hne
    rcases Nat.lt_or_gt_of_ne hne with hlt | hgt
    · exact (h.nearer_of_gt hlt).2
    · exact (h.nearer_of_lt hgt).2

/-- The nearest pattern is the one in whose cell the number lies. -/
theorem isNearest_iff_inCell (hx : 0 ≤ x) : F.IsNearest x pattern ↔ F.InCell x pattern := by
  refine ⟨fun h => ?_, InCell.isNearest⟩
  have hgap : F.value pattern < F.value (pattern + 1) := F.value_strictMono (Nat.lt_succ_self _)
  have hnext := h.nearest (pattern + 1)
  have hprevious := h.nearest (pattern - 1)
  have hle_high : x ≤ F.high pattern := by
    unfold high
    by_contra hlt
    rw [not_le] at hlt
    have hvalue : x - F.value pattern ≤ |x - F.value pattern| := le_abs_self _
    rcases abs_choice (x - F.value (pattern + 1)) with habs | habs <;> linarith
  have hlow_le : F.low pattern ≤ x := by
    unfold low
    rcases Nat.eq_zero_or_pos pattern with rfl | hpos
    · simpa using hx
    · have hgap' : F.value (pattern - 1) < F.value pattern := F.value_strictMono (by omega)
      by_contra hlt
      rw [not_le] at hlt
      have hvalue : F.value pattern - x ≤ |x - F.value pattern| := by
        rw [abs_sub_comm]
        exact le_abs_self _
      rcases abs_choice (x - F.value (pattern - 1)) with habs | habs <;> linarith
  refine ⟨hlow_le, hle_high, fun heq => ?_, fun heq => ?_⟩
  · rcases Nat.eq_zero_or_pos pattern with rfl | hpos
    · rfl
    · have hgap' : F.value (pattern - 1) < F.value pattern := F.value_strictMono (by omega)
      refine h.even (pattern - 1) (by omega) ?_
      rw [heq, low, abs_of_nonneg (by linarith), abs_of_nonpos (by linarith)]
      ring
  · refine h.even (pattern + 1) (by omega) ?_
    rw [heq, high, abs_of_nonpos (by linarith), abs_of_nonneg (by linarith)]
    ring

end Format

end RecordQuery.Numeral
