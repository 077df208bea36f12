import Mathlib.Algebra.Order.Field.Power
import RecordQuery.Proofs.PatternValues

set_option autoImplicit false

/-!
# What a decimal is read as

A ratio is rounded to the pattern in whose cell it lies (`Format.inCell_nearest`), whatever exponent
the quotient has and also where the rounded significand is carried into the next one.  A decimal is
such a ratio, unless its magnitude alone tells that it is below half of the least positive value or
beyond all finite ones; so it is read as a finite pattern if and only if it lies in the cell of this
pattern (`Decimal.pattern_eq_iff`).
-/

namespace RecordQuery.Numeral

/-! ## Ratios -/

theorem two_mul_le_of_roundHalfEven (num : Nat) {den : Nat} (hden : 0 < den) :
    2 * num ≤ (2 * roundHalfEven num den + 1) * den ∧
      2 * roundHalfEven num den * den ≤ 2 * num + den ∧
      (2 * num = (2 * roundHalfEven num den + 1) * den ∨
        2 * roundHalfEven num den * den = 2 * num + den → roundHalfEven num den % 2 = 0) := by
  have hsplit := Nat.div_add_mod num den
  have hrest := Nat.mod_lt num hden
  have hupper : ∀ n, (2 * n + 1) * den = 2 * (den * n) + den := fun n => by ring
  have hlower : ∀ n, 2 * n * den = 2 * (den * n) := fun n => by ring
  have hsucc : den * (num / den + 1) = den * (num / den) + den := by ring
  rw [hupper, hlower]
  simp only [roundHalfEven]
  rcases Nat.lt_trichotomy (2 * (num % den)) den with hlt | heq | hgt
  · rw [if_pos hlt]
    omega
  · rw [if_neg (by omega), if_neg (by omega)]
    rcases Nat.mod_two_eq_zero_or_one (num / den) with heven | hodd
    · rw [heven, Nat.add_zero]
      omega
    · rw [hodd, hsucc]
      omega
  · rw [if_neg (by omega), if_pos hgt, hsucc]
    omega

namespace Format

/-- A format that has room for fractions and for exponents of either sign. -/
structure IsProper (F : Format) : Prop where
  fraction : 0 < F.fractionBits
  exponent : 2 ≤ F.exponentBits

theorem isProper_binary64 : binary64.IsProper := ⟨by decide, by decide⟩

theorem isProper_binary32 : binary32.IsProper := ⟨by decide, by decide⟩

variable {F : Format}

theorem inCell_div_iff {num den pattern : Nat} (hden : 0 < den) :
    F.InCell (num / (den * 2 ^ F.grain)) pattern ↔
      (F.units (pattern - 1) + F.units pattern) * den ≤ 2 * num ∧
        2 * num ≤ (F.units pattern + F.units (pattern + 1)) * den ∧
        (2 * num = (F.units (pattern - 1) + F.units pattern) * den ∨
          2 * num = (F.units pattern + F.units (pattern + 1)) * den → pattern % 2 = 0) := by
  have hscale : (0 : ℚ) < 2 * (den * 2 ^ F.grain) := by positivity
  have hmiddle : ∀ m n : Nat, ((m : ℚ) / 2 ^ F.grain + n / 2 ^ F.grain) / 2 =
      ((m + n) * den : Nat) / (2 * (den * 2 ^ F.grain)) := by
    intro m n
    have hne : (den : ℚ) ≠ 0 := by positivity
    push_cast
    field_simp
  have hcentre : (num / (den * 2 ^ F.grain) : ℚ) = (2 * num : Nat) / (2 * (den * 2 ^ F.grain)) := by
    push_cast
    field_simp
  have hle : ∀ m n : Nat, (m : ℚ) / (2 * (den * 2 ^ F.grain)) ≤ n / (2 * (den * 2 ^ F.grain)) ↔
      m ≤ n := by
    intro m n
    rw [div_le_div_iff_of_pos_right hscale, Nat.cast_le]
  have heq : ∀ m n : Nat, (m : ℚ) / (2 * (den * 2 ^ F.grain)) = n / (2 * (den * 2 ^ F.grain)) ↔
      m = n := by
    intro m n
    rw [div_left_inj' hscale.ne', Nat.cast_inj]
  have hlow : F.low pattern = _ := hmiddle (F.units (pattern - 1)) (F.units pattern)
  have hhigh : F.high pattern = _ := hmiddle (F.units pattern) (F.units (pattern + 1))
  constructor
  · rintro ⟨hl, hh, hel, heh⟩
    rw [hcentre, hlow] at hl hel
    rw [hcentre, hhigh] at hh heh
    rw [hle] at hl hh
    rw [heq] at hel heh
    exact ⟨hl, hh, fun h => h.elim hel heh⟩
  · rintro ⟨hl, hh, heven⟩
    constructor
    · rwa [hcentre, hlow, hle]
    · rwa [hcentre, hhigh, hle]
    · rw [hcentre, hlow, heq]
      exact fun h => heven (Or.inl h)
    · rw [hcentre, hhigh, heq]
      exact fun h => heven (Or.inr h)

theorem shift_eq (F : Format) (num den : Nat) : F.shift num den = F.shift (num / den) 1 := by
  rw [shift, shift, Nat.div_one]

/-- The quotient that is rounded is a significand, a full one where it is shifted. -/
theorem shifted_bounds (F : Format) (num den : Nat) :
    num / (den * 2 ^ F.shift num den) < 2 * F.binade ∧
      (F.shift num den = 0 ∨ F.binade ≤ num / (den * 2 ^ F.shift num den)) := by
  rw [← Nat.div_div_eq_div_mul]
  constructor
  · rw [shift_eq]
    exact F.div_shift_lt (num / den)
  · by_cases hzero : F.shift num den = 0
    · exact Or.inl hzero
    · refine Or.inr ((Nat.le_div_iff_mul_le (Nat.two_pow_pos _)).mpr ?_)
      have hlog : (num / den).log2 = F.fractionBits + F.shift num den := by
        unfold shift at hzero ⊢
        omega
      have hne : num / den ≠ 0 := by
        intro h
        rw [h, Nat.log2_zero] at hlog
        omega
      calc F.binade * 2 ^ F.shift num den = 2 ^ (num / den).log2 := by
            rw [hlog, Nat.pow_add]
            rfl
        _ ≤ num / den := Nat.log2_self_le hne

theorem le_roundHalfEven (num den : Nat) : num / den ≤ roundHalfEven num den := by
  simp only [roundHalfEven]
  split
  · exact le_rfl
  · split <;> omega

theorem two_pow_le_gap {shift significand : Nat} (h : shift = 0 ∨ F.binade ≤ significand) :
    2 ^ shift ≤ F.gap (shift * F.binade + significand) := by
  refine Nat.pow_le_pow_right (by decide) ?_
  rcases h with rfl | hfull
  · exact Nat.zero_le _
  · have hexponent : shift + 1 ≤ (shift * F.binade + significand) / F.binade := by
      rw [Nat.le_div_iff_mul_le F.binade_pos]
      linarith
    omega

/-- Below a shifted significand the values lie as close as above it, except where it is the least
of its exponent. -/
theorem units_pred_of_shifted {shift significand : Nat} (hpos : 0 < significand)
    (hlow : shift = 0 ∨ F.binade < significand) (hhigh : significand ≤ 2 * F.binade) :
    F.units (shift * F.binade + significand - 1) = (significand - 1) * 2 ^ shift := by
  rw [Nat.add_sub_assoc hpos]
  exact F.units_shifted _ (by omega) (by omega)

theorem binade_mod_two (hF : F.IsProper) : F.binade % 2 = 0 := by
  obtain ⟨k, hk⟩ : ∃ k, F.fractionBits = k + 1 := Nat.exists_eq_succ_of_ne_zero hF.fraction.ne'
  have hpow : F.binade = 2 ^ k * 2 := by
    show 2 ^ F.fractionBits = _
    rw [hk, Nat.pow_succ]
  omega

/-- A ratio that is rounded down to a shifted significand is not above the cell of its pattern. -/
theorem le_high_of_shifted (den : Nat) {shift significand : Nat}
    (hfull : shift = 0 ∨ F.binade ≤ significand) (hhigh : significand ≤ 2 * F.binade) :
    (2 * significand + 1) * (den * 2 ^ shift) ≤
      (F.units (shift * F.binade + significand) +
        F.units (shift * F.binade + significand + 1)) * den := by
  have hgap := two_pow_le_gap hfull
  rw [units_succ, F.units_shifted _ hfull hhigh]
  calc (2 * significand + 1) * (den * 2 ^ shift)
      = (significand * 2 ^ shift + (significand * 2 ^ shift + 2 ^ shift)) * den := by ring
    _ ≤ _ := Nat.mul_le_mul_right _ (by omega)

/-- A ratio that is rounded up to a shifted significand is not below the cell of its pattern.  Where
the significand is the least of its exponent, the values below lie closer together, but then the ratio
is not below it. -/
theorem low_le_of_shifted {num den shift significand : Nat} (hden : 0 < den)
    (hfull : shift = 0 ∨ F.binade ≤ significand ∧ F.binade * (den * 2 ^ shift) ≤ num)
    (hhigh : significand ≤ 2 * F.binade)
    (hlower : 2 * significand * (den * 2 ^ shift) ≤ 2 * num + den * 2 ^ shift)
    (heven : 2 * significand * (den * 2 ^ shift) = 2 * num + den * 2 ^ shift →
      significand % 2 = 0) :
    (F.units (shift * F.binade + significand - 1) +
      F.units (shift * F.binade + significand)) * den ≤ 2 * num ∧
    (2 * num = (F.units (shift * F.binade + significand - 1) +
      F.units (shift * F.binade + significand)) * den → significand % 2 = 0) := by
  have hvalue : F.units (shift * F.binade + significand) = significand * 2 ^ shift :=
    F.units_shifted _ (hfull.imp_right And.left) hhigh
  rcases Nat.eq_zero_or_pos significand with hzero | hpos
  · have hshift : shift = 0 := by
      have hpos := F.binade_pos
      omega
    rw [hzero, hshift, Nat.zero_mul]
    simp
  · by_cases hleast : shift = 0 ∨ F.binade < significand
    · have hlow : (F.units (shift * F.binade + significand - 1) +
          F.units (shift * F.binade + significand)) * den + den * 2 ^ shift =
          2 * significand * (den * 2 ^ shift) := by
        obtain ⟨k, rfl⟩ := Nat.exists_eq_succ_of_ne_zero hpos.ne'
        rw [hvalue, units_pred_of_shifted hpos hleast hhigh, Nat.succ_sub_one, Nat.succ_eq_add_one]
        ring
      omega
    · have hbelow : F.units (shift * F.binade + significand - 1) <
          F.units (shift * F.binade + significand) := F.units_strictMono (by omega)
      have hcentre : significand * (den * 2 ^ shift) ≤ num := by
        have heq : significand = F.binade := by omega
        rw [heq]
        omega
      have hstrict : (F.units (shift * F.binade + significand - 1) +
          F.units (shift * F.binade + significand)) * den < 2 * num := by
        calc _ < (F.units (shift * F.binade + significand) +
              F.units (shift * F.binade + significand)) * den :=
              Nat.mul_lt_mul_of_pos_right (by omega) hden
          _ = 2 * (significand * (den * 2 ^ shift)) := by
              rw [hvalue]
              ring
          _ ≤ 2 * num := Nat.mul_le_mul_left _ hcentre
      omega

/-- A ratio lies in the cell of the significand that it is rounded to. -/
theorem inCell_shifted (hF : F.IsProper) {num den shift significand : Nat} (hden : 0 < den)
    (hfull : shift = 0 ∨ F.binade ≤ significand ∧ F.binade * (den * 2 ^ shift) ≤ num)
    (hhigh : significand ≤ 2 * F.binade)
    (hupper : 2 * num ≤ (2 * significand + 1) * (den * 2 ^ shift))
    (hlower : 2 * significand * (den * 2 ^ shift) ≤ 2 * num + den * 2 ^ shift)
    (heven : 2 * num = (2 * significand + 1) * (den * 2 ^ shift) ∨
      2 * significand * (den * 2 ^ shift) = 2 * num + den * 2 ^ shift → significand % 2 = 0) :
    F.InCell (num / (den * 2 ^ F.grain)) (shift * F.binade + significand) := by
  have hparity : (shift * F.binade + significand) % 2 = significand % 2 := by
    rw [Nat.add_mod, Nat.mul_mod, binade_mod_two hF, Nat.mul_zero, Nat.zero_mod, Nat.zero_add,
      Nat.mod_mod]
  have hnext := le_high_of_shifted den (hfull.imp_right And.left) hhigh
  obtain ⟨hprevious, hprevious'⟩ :=
    low_le_of_shifted hden hfull hhigh hlower fun h => heven (Or.inr h)
  rw [inCell_div_iff hden, hparity]
  refine ⟨hprevious, hupper.trans hnext, fun hend => ?_⟩
  rcases hend with hlow | hhigh
  · exact hprevious' hlow
  · exact heven (Or.inl (by omega))

/-- Rounding to nearest finds the cell in which a ratio lies. -/
theorem inCell_nearest (hF : F.IsProper) (num : Nat) {den : Nat} (hden : 0 < den) :
    F.InCell (num / (den * 2 ^ F.grain)) (F.nearest num den) := by
  obtain ⟨hlt, hfull⟩ := F.shifted_bounds num den
  have hround := le_roundHalfEven num (den * 2 ^ F.shift num den)
  have hround' := roundHalfEven_le num (den * 2 ^ F.shift num den)
  obtain ⟨hupper, hlower, heven⟩ := two_mul_le_of_roundHalfEven num
    (Nat.mul_pos hden (Nat.two_pow_pos (F.shift num den)))
  have hhigh : roundHalfEven num (den * 2 ^ F.shift num den) ≤ 2 * F.binade := by omega
  refine inCell_shifted hF hden ?_ hhigh hupper hlower heven
  exact hfull.imp_right fun h => ⟨h.trans hround, Nat.mul_le_of_le_div _ _ _ h⟩

/-! ## The least and the greatest cells -/

theorem inCell_value (F : Format) (pattern : Nat) : F.InCell (F.value pattern) pattern := by
  have hprevious : F.value (pattern - 1) ≤ F.value pattern :=
    F.value_strictMono.monotone (Nat.sub_le _ _)
  have hnext : F.value pattern < F.value (pattern + 1) := F.value_strictMono (Nat.lt_succ_self _)
  constructor
  · unfold low
    linarith
  · unfold high
    linarith
  · unfold low
    intro heq
    rcases Nat.eq_zero_or_pos pattern with rfl | hpos
    · rfl
    · have hlt : F.value (pattern - 1) < F.value pattern := F.value_strictMono (by omega)
      linarith
  · unfold high
    intro heq
    linarith

theorem high_zero (F : Format) : F.high 0 = (2 ^ (F.grain + 1))⁻¹ := by
  have hunits : F.units 1 = 1 := by
    rw [units_succ, gap, Nat.zero_div, units_zero]
    rfl
  rw [high, value_zero, value, hunits, pow_succ]
  push_cast
  field_simp
  ring

/-- The value that the pattern of infinity would stand for is a power of two. -/
theorem value_infinity (hF : F.IsProper) :
    F.value F.infinity = 2 ^ (2 ^ (F.exponentBits - 1)) := by
  obtain ⟨k, hk⟩ : ∃ k, F.exponentBits = k + 1 :=
    Nat.exists_eq_succ_of_ne_zero (by have := hF.exponent; omega)
  have hlarge : 2 ≤ 2 ^ k := by
    calc 2 = 2 ^ 1 := rfl
      _ ≤ 2 ^ k := Nat.pow_le_pow_right (by decide) (by have := hF.exponent; omega)
  have hpattern : F.infinity = (2 * 2 ^ k - 2 + 1) * F.binade + 0 := by
    show (2 ^ F.exponentBits - 1) * F.binade = _
    rw [hk, Nat.pow_succ, Nat.add_zero]
    congr 1
    omega
  have hgrain : 2 * 2 ^ k - 2 + F.fractionBits = 2 ^ k + F.grain := by
    show _ = 2 ^ k + (2 ^ (F.exponentBits - 1) - 2 + F.fractionBits)
    rw [hk, Nat.add_sub_cancel]
    omega
  have hunits : F.units F.infinity = 2 ^ (2 ^ k + F.grain) := by
    rw [hpattern, units_of_exponent F _ F.binade_pos, Nat.add_zero, ← hgrain, Nat.pow_add,
      Nat.mul_comm]
    rfl
  rw [value, hunits, hk, Nat.add_sub_cancel]
  push_cast
  rw [pow_add, mul_div_cancel_right₀ _ (by positivity)]

end Format

/-! ## Decimals -/

namespace Decimal

/-- The number that a decimal stands for. -/
def value (d : Decimal) : ℚ := d.coefficient * 10 ^ d.exponent

theorem value_nonneg (d : Decimal) : 0 ≤ d.value := by
  rw [value]
  positivity

theorem ten_zpow_eq (n : Int) : (10 : ℚ) ^ n = 10 ^ n.toNat / 10 ^ (-n).toNat := by
  obtain ⟨k, rfl | rfl⟩ := n.eq_nat_or_neg
  · simp
  · simp

/-- Decimals below a power of ten. -/
theorem value_lt_top (d : Decimal) : d.value < 10 ^ d.top := by
  have hlength : d.coefficient < 10 ^ (Nat.toDigits 10 d.coefficient).length :=
    (Nat.length_toDigits_le_iff (by decide) (List.length_pos_iff.mpr Nat.toDigits_ne_nil)).mp le_rfl
  rw [top, zpow_add₀ (by norm_num), zpow_natCast, value]
  exact mul_lt_mul_of_pos_right (by exact_mod_cast hlength) (by positivity)

theorem top_le_value {d : Decimal} (h : d.coefficient ≠ 0) : 10 ^ (d.top - 1) ≤ d.value := by
  obtain ⟨k, hk⟩ : ∃ k, (Nat.toDigits 10 d.coefficient).length = k + 1 :=
    Nat.exists_eq_succ_of_ne_zero (List.length_pos_iff.mpr Nat.toDigits_ne_nil).ne'
  have hlength : 10 ^ k ≤ d.coefficient := by
    rcases Nat.eq_zero_or_pos k with rfl | hpos
    · exact Nat.pos_of_ne_zero h
    · by_contra hlt
      have hshort := (Nat.length_toDigits_le_iff (by decide) hpos).mpr (Nat.lt_of_not_le hlt)
      omega
  have htop : d.top - 1 = k + d.exponent := by
    rw [top, hk]
    push_cast
    ring
  rw [htop, zpow_add₀ (by norm_num), zpow_natCast, value]
  exact mul_le_mul_of_nonneg_right (by exact_mod_cast hlength) (by positivity)

variable {F : Format} {d : Decimal} {pattern : Nat}

/-- The ratio that a decimal is rounded as is its value. -/
theorem value_eq_ratio (F : Format) (d : Decimal) :
    d.value = ((d.coefficient * Nat.pow 10 d.exponent.toNat * Nat.pow 2 F.grain : Nat) : ℚ) /
      ((Nat.pow 10 (-d.exponent).toNat : Nat) * 2 ^ F.grain) := by
  have hratio : ∀ c n m g : Nat, (c : ℚ) * (10 ^ n / 10 ^ m) =
      ((c * 10 ^ n * 2 ^ g : Nat) : ℚ) / ((10 ^ m : Nat) * 2 ^ g) := by
    intro c n m g
    push_cast
    field_simp
  rw [value, ten_zpow_eq]
  exact hratio _ _ _ _

/-- Decimals of a magnitude below all values are rounded to zero. -/
theorem inCell_zero_of_top_le (h : d.top ≤ -(F.grain + 1 : Nat)) : F.InCell d.value 0 := by
  have hlt : d.value < F.high 0 := by
    calc d.value < 10 ^ d.top := d.value_lt_top
      _ ≤ 10 ^ (-(F.grain + 1 : Nat) : Int) := zpow_le_zpow_right₀ (by norm_num) h
      _ = ((10 : ℚ) ^ (F.grain + 1))⁻¹ := by rw [zpow_neg, zpow_natCast]
      _ ≤ (2 ^ (F.grain + 1))⁻¹ :=
        inv_anti₀ (by positivity) (pow_le_pow_left₀ (by norm_num) (by norm_num) _)
      _ = F.high 0 := F.high_zero.symm
  have hlow : F.low 0 = 0 := by
    simp [Format.low]
  exact ⟨hlow.le.trans d.value_nonneg, hlt.le, fun _ => rfl, fun _ => rfl⟩

/-- Decimals of a magnitude above all finite values are not less than infinity. -/
theorem value_infinity_le_of_lt_top (hF : F.IsProper) (hne : d.coefficient ≠ 0)
    (h : Nat.pow 2 (F.exponentBits - 1) < d.top) : F.value F.infinity ≤ d.value := by
  have hexponent : ((2 ^ (F.exponentBits - 1) : Nat) : Int) ≤ d.top - 1 := by
    show ((Nat.pow 2 (F.exponentBits - 1) : Nat) : Int) ≤ _
    omega
  calc F.value F.infinity = 2 ^ (2 ^ (F.exponentBits - 1)) := Format.value_infinity hF
    _ ≤ 10 ^ (2 ^ (F.exponentBits - 1)) := pow_le_pow_left₀ (by norm_num) (by norm_num) _
    _ = 10 ^ ((2 ^ (F.exponentBits - 1) : Nat) : Int) := (zpow_natCast _ _).symm
    _ ≤ 10 ^ (d.top - 1) := zpow_le_zpow_right₀ (by norm_num) hexponent
    _ ≤ d.value := top_le_value hne

/-- Every decimal lies in a cell. -/
theorem exists_inCell (hF : F.IsProper) (d : Decimal) : ∃ pattern, F.InCell d.value pattern := by
  rw [value_eq_ratio F d]
  exact ⟨_, Format.inCell_nearest hF _ (Nat.pow_pos (by decide))⟩

/-- A decimal is read as the pattern in whose cell it lies, as long as this is a finite one. -/
theorem pattern_eq_iff (hF : F.IsProper) (h : pattern < F.infinity) :
    d.pattern F = pattern ↔ F.InCell d.value pattern := by
  have hunique : ∀ {found}, F.InCell d.value found →
      (found = pattern ↔ F.InCell d.value pattern) :=
    fun hfound => ⟨fun heq => heq ▸ hfound, hfound.unique⟩
  unfold Decimal.pattern
  split
  · next hzero =>
    refine hunique ?_
    have hvalue : d.value = F.value 0 := by simp [value, hzero]
    rw [hvalue]
    exact F.inCell_value 0
  · next hne =>
    split
    · next hsmall => exact hunique (inCell_zero_of_top_le hsmall)
    · split
      · next hlarge =>
        constructor
        · intro heq
          omega
        · intro hcell
          have hle := (F.inCell_value F.infinity).le_of_le hcell
            (value_infinity_le_of_lt_top hF hne hlarge)
          omega
      · refine hunique ?_
        rw [value_eq_ratio F d]
        exact Format.inCell_nearest hF _ (Nat.pow_pos (by decide))

end Decimal

end RecordQuery.Numeral
