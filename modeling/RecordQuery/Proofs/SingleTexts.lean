import RecordQuery.Proofs.DoubleTexts

set_option autoImplicit false

/-!
# Texts of single-precision values

A single-precision value is given as the double nearest to its own shortest decimal, and the text of
that operand is the shortest decimal of the double.  The two decimals are one
(`Binary.exists_double_of_single`): a shortest decimal of single precision has no more than forty times
as many values for its digits as there are significands of single precision, far fewer than a double
has, and its magnitude is one at which doubles have all their bits.  Hence `single_texts_kept`.
-/

namespace RecordQuery

open Calendar (Clock)

namespace Numeral

namespace Format

variable {pattern found : Nat}

/-! ## The double nearest to a single-precision decimal -/

theorem value_binade_eq (F : Format) :
    F.value F.binade * 2 ^ (2 ^ (F.exponentBits - 1) - 2) = 1 := by
  have hunits : F.units F.binade = 2 ^ F.fractionBits := by
    have hshifted := F.units_shifted 0 (Or.inl rfl) (show F.binade ≤ 2 * F.binade by omega)
    rwa [Nat.zero_mul, Nat.zero_add, Nat.pow_zero, Nat.mul_one] at hshifted
  have hgrain : F.grain = 2 ^ (F.exponentBits - 1) - 2 + F.fractionBits := rfl
  rw [value, hunits, hgrain, pow_add, Nat.cast_pow, Nat.cast_ofNat]
  field_simp

/-- The cells of single precision lie between half of its least value and twice the least power of two
above all its values. -/
theorem InCell.binary32_bounds {x : ℚ} (hx : binary32.InCell x pattern) (hpos : 0 < pattern)
    (hfinite : pattern < binary32.infinity) : 1 ≤ x * 2 ^ 150 ∧ x < 2 ^ 129 := by
  obtain ⟨hge, hle⟩ := hx.value_bounds hpos
  have hgrain : binary32.grain = 149 := by decide
  have hinfinity : binary32.value binary32.infinity = 2 ^ 128 := value_infinity isProper_binary32
  have hless := binary32.value_strictMono hfinite
  rw [hinfinity] at hless
  have hleast : binary32.value 1 ≤ binary32.value pattern :=
    binary32.value_strictMono.monotone hpos
  rw [value, units_of_lt _ (by decide), hgrain, Nat.cast_one, div_le_iff₀ (by positivity)] at hleast
  constructor
  · linarith
  · linarith

/-- In the range of single precision a double has all bits of its significand. -/
theorem InCell.binary64_bounds {x : ℚ} (hx : binary64.InCell x pattern) (hge : 1 ≤ x * 2 ^ 150)
    (hlt : x < 2 ^ 129) : binary64.binade ≤ pattern ∧ pattern < binary64.infinity := by
  constructor
  · refine (binary64.inCell_value _).le_of_le hx ?_
    have hbinade : binary64.value binary64.binade * 2 ^ 1022 = 1 := binary64.value_binade_eq
    have hscale : (2 : ℚ) ^ 150 ≤ 2 ^ 1022 := pow_le_pow_right₀ (by norm_num) (by norm_num)
    refine le_of_mul_le_mul_right ?_ (show (0 : ℚ) < 2 ^ 1022 by positivity)
    rw [hbinade]
    exact hge.trans (mul_le_mul_of_nonneg_left hscale hx.nonneg)
  · by_contra hle
    rw [not_lt] at hle
    have hinfinity : binary64.value binary64.infinity = 2 ^ 1024 := value_infinity isProper_binary64
    have hvalue := binary64.value_strictMono.monotone hle
    have hpos : 0 < binary64.infinity := by decide
    have htwice := (hx.value_bounds (hpos.trans_le hle)).1
    have hscale : (2 : ℚ) ^ 130 ≤ 2 ^ 1024 := pow_le_pow_right₀ (by norm_num) (by norm_num)
    have hlarge : (2 : ℚ) ^ 130 ≤ 2 * x := by
      calc (2 : ℚ) ^ 130 ≤ 2 ^ 1024 := hscale
        _ = binary64.value binary64.infinity := hinfinity.symm
        _ ≤ binary64.value pattern := hvalue
        _ ≤ 2 * x := htwice
    linarith only [hlarge, hlt]

end Format

namespace Binary

/-- The double nearest to the shortest decimal of a single-precision value has that shortest decimal
too: it has few enough digits to be the only one of them in the cell. -/
theorem exists_double_of_single (x : Binary .binary32) :
    ∃ y : Binary .binary64,
      ofDecimal? .binary64 x.negative (Format.binary32.shortest x.magnitude) = some y ∧
        y.negative = x.negative ∧
        Format.binary64.shortest y.magnitude = Format.binary32.shortest x.magnitude := by
  obtain ⟨y, hcell, hfinite, hshortest⟩ : ∃ pattern,
      Format.binary64.InCell (Format.binary32.shortest x.magnitude).value pattern ∧
        pattern < Format.binary64.infinity ∧
          Format.binary64.shortest pattern = Format.binary32.shortest x.magnitude := by
    rcases Nat.eq_zero_or_pos x.magnitude with hzero | hpos
    · rw [hzero, Format.shortest_zero]
      exact ⟨0, Format.binary64.inCell_shortest 0, by decide, Format.shortest_zero _⟩
    · have hcoarsest := Format.binary32.isCoarsest_shortest hpos
      obtain ⟨hge, hlt⟩ := hcoarsest.inCell.binary32_bounds hpos x.finite
      obtain ⟨pattern, hcell⟩ := Decimal.exists_inCell Format.isProper_binary64
        (Format.binary32.shortest x.magnitude)
      obtain ⟨hfull, hfinite⟩ := hcell.binary64_bounds hge hlt
      refine ⟨pattern, hcell, hfinite, ?_⟩
      have hle := hcoarsest.coefficient_le hpos
      have hbinades : 40 * Format.binary32.binade + 1 < Format.binary64.binade := by decide
      exact Format.shortest_eq_of_coefficient_lt hcoarsest.coefficient_mod_ten (by omega) hfull hcell
  refine ⟨⟨x.negative, y, hfinite⟩, ?_, rfl, hshortest⟩
  rw [ofDecimal?_eq_some_iff Format.isProper_binary64]
  exact ⟨rfl, hcell.isNearest⟩

end Binary

end Numeral

/-! ## Operands -/

open Numeral

/-- A single-precision value is given as the double nearest to its own text, and written as it. -/
theorem Operand.exists_ofBits32 {bits : Nat} {x : Binary .binary32}
    (h : Binary.ofBits? .binary32 bits = some x) :
    ∃ y : Binary .binary64, ofBits32 bits = number (.float y) ∧ y.digits = x.digits ∧
      Format.binary64.IsNearest (Format.binary32.shortest x.magnitude).value y.magnitude := by
  obtain ⟨y, hy, hnegative, hshortest⟩ := x.exists_double_of_single
  refine ⟨y, ?_, ?_, ((Binary.ofDecimal?_eq_some_iff Format.isProper_binary64).mp hy).2⟩
  · rw [ofBits32, Number.ofBits32?, h]
    simp only [Option.bind_eq_bind, Option.bind_some, hy]
    rfl
  · rw [Binary.digits, Binary.digits, hnegative, hshortest]

theorem Operand.ofBits32_of_not_encodesFinite {bits : Nat}
    (h : ¬ Binary.EncodesFinite .binary32 bits) : ofBits32 bits = null := by
  rw [ofBits32, Number.ofBits32?, Binary.ofBits?_eq_none h]
  rfl

/-- Single-precision values keep their own texts.

A finite value is given as a double, which is what its text is read as in double precision.  That text
is a sign and the positional digits of the shortest decimal that is read as the value, and the double
is written by it as well, though its own shortest decimal is looked for among those that are read as
the double.  As the text is read back as the value, no two values have one text.  An infinity or a
not-a-number is null. -/
theorem single_texts_kept (clock : Clock) :
    (∀ bits : UInt32, Binary.EncodesFinite .binary32 bits.toNat →
      ∃ (x : Binary .binary32) (y : Binary .binary64) (d : Decimal), x.bits = bits.toNat ∧
        Format.binary32.IsShortest x.magnitude d ∧
        x.digits = (if x.negative then ['-'] else []) ++ d.digits ∧
        Binary.read? .binary32 x.digits = some x ∧
        Binary.read? .binary64 x.digits = some y ∧
        Format.binary64.IsNearest d.value y.magnitude ∧
        Operand.ofBits32 bits.toNat = .number (.float y) ∧
        (Operand.ofBits32 bits.toNat).scalarText? clock = some (String.ofList x.digits)) ∧
    (∀ bits other : UInt32, Binary.EncodesFinite .binary32 bits.toNat →
      Binary.EncodesFinite .binary32 other.toNat →
      (Operand.ofBits32 bits.toNat).scalarText? clock =
        (Operand.ofBits32 other.toNat).scalarText? clock → bits = other) ∧
    (∀ bits : UInt32, ¬ Binary.EncodesFinite .binary32 bits.toNat →
      Operand.ofBits32 bits.toNat = .null) := by
  have htext : ∀ bits : UInt32, Binary.EncodesFinite .binary32 bits.toNat →
      ∃ (x : Binary .binary32) (y : Binary .binary64), x.bits = bits.toNat ∧
        Operand.ofBits32 bits.toNat = .number (.float y) ∧ y.digits = x.digits ∧
        Format.binary64.IsNearest (Format.binary32.shortest x.magnitude).value y.magnitude := by
    intro bits hbits
    obtain ⟨x, hx⟩ := Binary.exists_ofBits?_iff.mpr hbits
    obtain ⟨y, hoperand, hdigits, hnearest⟩ := Operand.exists_ofBits32 hx
    exact ⟨x, y, Binary.bits_of_ofBits? bits.toNat_lt hx, hoperand, hdigits, hnearest⟩
  refine ⟨?_, ?_, fun bits => Operand.ofBits32_of_not_encodesFinite⟩
  · intro bits hbits
    obtain ⟨x, y, hx, hoperand, hdigits, hnearest⟩ := htext bits hbits
    refine ⟨x, y, Format.binary32.shortest x.magnitude, hx,
      Format.isShortest_shortest Format.tenIsNearer_binary32 _, ?_,
      Binary.read?_digits Format.isProper_binary32 x, ?_, hnearest, hoperand, ?_⟩
    · rw [Binary.digits]
      cases x.negative <;> rfl
    · rw [← hdigits]
      exact Binary.read?_digits Format.isProper_binary64 y
    · rw [hoperand, ← hdigits]
      rfl
  · intro bits other hbits hother htexts
    obtain ⟨x, x', hx, hoperand, hdigits, -⟩ := htext bits hbits
    obtain ⟨y, y', hy, hoperand', hdigits', -⟩ := htext other hother
    rw [hoperand, hoperand'] at htexts
    have hboth : x'.digits = y'.digits := String.ofList_injective (Option.some.inj htexts)
    rw [hdigits, hdigits'] at hboth
    rw [← Binary.digits_injective Format.isProper_binary32 hboth, hx] at hy
    exact UInt32.toNat_inj.mp hy

/-- A tenth, the greatest value, the two zeros, and a value that is not a number. -/
theorem single_texts_kept_samples :
    (∃ x : Binary .binary32, x.bits = 0x3DCCCCCD ∧ String.ofList x.digits = "0.1" ∧
      (Operand.ofBits32 0x3DCCCCCD).scalarText? .twelve = some (String.ofList x.digits)) ∧
    (∃ (x : Binary .binary32) (y : Binary .binary64), x.bits = 0x7F7FFFFF ∧
      String.ofList x.digits = "340282350000000000000000000000000000000" ∧
      Operand.ofBits32 0x7F7FFFFF = .number (.float y) ∧
      Binary.read? .binary64 x.digits = some y) ∧
    (Operand.ofBits32 0).scalarText? .twelve ≠ (Operand.ofBits32 0x80000000).scalarText? .twelve ∧
    Operand.ofBits32 0x7FC00000 = .null := by
  obtain ⟨hfinite, hdistinct, hnull⟩ := single_texts_kept .twelve
  refine ⟨?_, ?_, ?_, hnull 0x7FC00000 (by decide)⟩
  · obtain ⟨x, y, d, hx, -, -, -, -, -, -, htext⟩ := hfinite 0x3DCCCCCD (by decide)
    have htenth : (Operand.ofBits32 0x3DCCCCCD).scalarText? .twelve = some "0.1" := by
      decide +kernel
    exact ⟨x, hx, Option.some.inj (htext.symm.trans htenth), htext⟩
  · obtain ⟨x, y, d, hx, -, -, -, hread, -, hoperand, htext⟩ := hfinite 0x7F7FFFFF (by decide)
    have hgreatest : (Operand.ofBits32 0x7F7FFFFF).scalarText? .twelve =
        some "340282350000000000000000000000000000000" := by decide +kernel
    exact ⟨x, y, hx, Option.some.inj (htext.symm.trans hgreatest), hoperand, hread⟩
  · intro heq
    exact absurd (hdistinct 0 0x80000000 (by decide) (by decide) heq) (by decide)

end RecordQuery
