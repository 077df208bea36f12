import RecordQuery.Operand.Conversion
import RecordQuery.Proofs.Encoding
import RecordQuery.Proofs.History
import RecordQuery.Proofs.PositionalDigits

set_option autoImplicit false

/-!
# Texts of doubles

Every encoding of 64 bits is that of a finite double with a sign, or of an infinity or a not-a-number
(`Binary.exists_ofBits?_iff`).  A finite double is written as the shortest decimal that is read as it.
An integer that needs no more bits than a significand has is its own shortest decimal
(`Format.shortest_of_value_eq`), so that its text is that of the integer operand.  The theorem
`double_texts_lossless` collects what follows for operands.
-/

namespace RecordQuery

open Calendar (Clock)

namespace Numeral

namespace Binary

variable {F : Format}

/-! ## Encodings -/

/-- Where the sign of an encoding stands. -/
def signBit (F : Format) : Nat := 2 ^ (F.exponentBits + F.fractionBits)

/-- The encoding of a value. -/
def bits (x : Binary F) : Nat := (if x.negative then signBit F else 0) + x.magnitude

/-- Encodings of finite values: the exponent bits are not all set. -/
def EncodesFinite (F : Format) (bits : Nat) : Prop :=
  bits / F.binade % 2 ^ F.exponentBits ≠ 2 ^ F.exponentBits - 1

instance (F : Format) (bits : Nat) : Decidable (EncodesFinite F bits) :=
  inferInstanceAs (Decidable (_ ≠ _))

theorem signBit_eq (F : Format) : signBit F = F.binade * 2 ^ F.exponentBits := by
  rw [signBit, Nat.add_comm, Nat.pow_add]
  rfl

theorem infinity_lt_signBit (F : Format) : F.infinity < signBit F := by
  rw [signBit_eq, Nat.mul_comm]
  exact Nat.mul_lt_mul_of_pos_right (Nat.sub_lt (Nat.two_pow_pos _) Nat.one_pos) F.binade_pos

theorem mod_signBit_lt_iff {bits : Nat} :
    bits % signBit F < F.infinity ↔ EncodesFinite F bits := by
  have hlt : bits / F.binade % 2 ^ F.exponentBits < 2 ^ F.exponentBits :=
    Nat.mod_lt _ (Nat.two_pow_pos _)
  have hinfinity : F.infinity = (2 ^ F.exponentBits - 1) * F.binade := rfl
  rw [EncodesFinite, hinfinity, ← Nat.div_lt_iff_lt_mul F.binade_pos, signBit_eq,
    Nat.mod_mul_right_div_self]
  omega

theorem exists_ofBits?_iff {bits : Nat} :
    (∃ x, ofBits? F bits = some x) ↔ EncodesFinite F bits := by
  rw [← mod_signBit_lt_iff]
  constructor
  · rintro ⟨x, hx⟩
    exact (Option.dite_none_right_eq_some.mp hx).1
  · intro h
    exact ⟨_, dif_pos h⟩

theorem ofBits?_eq_none {bits : Nat} (h : ¬ EncodesFinite F bits) : ofBits? F bits = none :=
  Option.eq_none_iff_forall_ne_some.mpr fun x hx => h (exists_ofBits?_iff.mp ⟨x, hx⟩)

theorem bits_of_ofBits? {bits : Nat} {x : Binary F} (hbits : bits < 2 * signBit F)
    (h : ofBits? F bits = some x) : x.bits = bits := by
  obtain ⟨hfinite, hx⟩ := Option.dite_none_right_eq_some.mp h
  rw [← Option.some.inj hx]
  show (if (bits / signBit F % 2 == 1) = true then signBit F else 0) + bits % signBit F = bits
  have hpos : 0 < signBit F := Nat.two_pow_pos _
  have hsplit := Nat.div_add_mod bits (signBit F)
  have hdiv : bits / signBit F < 2 := Nat.div_lt_of_lt_mul (by rwa [Nat.mul_comm])
  generalize bits / signBit F = quotient at *
  obtain rfl | rfl : quotient = 0 ∨ quotient = 1 := by omega
  · simpa using hsplit
  · simpa using hsplit

/-- Every value has an encoding. -/
theorem ofBits?_bits (x : Binary F) : ofBits? F x.bits = some x := by
  have hlt : x.magnitude < signBit F := x.finite.trans (infinity_lt_signBit F)
  have hpos : 0 < signBit F := Nat.zero_lt_of_lt hlt
  have hmod : x.bits % signBit F = x.magnitude := by
    unfold bits
    split
    · rw [Nat.add_mod_left, Nat.mod_eq_of_lt hlt]
    · rw [Nat.zero_add, Nat.mod_eq_of_lt hlt]
  have hdiv : (x.bits / signBit F % 2 == 1) = x.negative := by
    unfold bits
    cases x.negative with
    | true => rw [if_pos rfl, Nat.add_div_left _ hpos, Nat.div_eq_of_lt hlt]; rfl
    | false => rw [if_neg Bool.false_ne_true, Nat.zero_add, Nat.div_eq_of_lt hlt]; rfl
  refine Option.dite_none_right_eq_some.mpr ⟨?_, congrArg some ?_⟩
  · exact hmod ▸ x.finite
  · cases x
    exact (Binary.mk.injEq ..).mpr ⟨hdiv, hmod⟩

theorem bits_lt (x : Binary F) : x.bits < 2 * signBit F := by
  have hlt : x.magnitude < signBit F := x.finite.trans (infinity_lt_signBit F)
  unfold bits
  split <;> omega

/-! ## Values -/

/-- The number that a value is. -/
def value (x : Binary F) : ℚ := if x.negative then -F.value x.magnitude else F.value x.magnitude

theorem abs_value (x : Binary F) : |x.value| = F.value x.magnitude := by
  unfold value
  split
  · rw [abs_neg, abs_of_nonneg (F.value_nonneg _)]
  · rw [abs_of_nonneg (F.value_nonneg _)]

end Binary

namespace Format

variable {pattern n : Nat}

/-! ## Integers -/

/-- A significand that has all its bits, shifted from an integer. -/
theorem exists_shift_of_le (hpos : 0 < n) (h : n ≤ 2 ^ 53) :
    ∃ k ≤ 52, 2 ^ 52 ≤ n * 2 ^ k ∧ n * 2 ^ k ≤ 2 * 2 ^ 52 := by
  rcases Nat.lt_or_eq_of_le h with hlt | rfl
  · have hlog : n.log2 < 53 := (Nat.log2_lt hpos.ne').mpr hlt
    refine ⟨52 - n.log2, Nat.sub_le _ _, ?_, ?_⟩
    · calc 2 ^ 52 = 2 ^ n.log2 * 2 ^ (52 - n.log2) := by
            rw [← Nat.pow_add, Nat.add_sub_cancel' (by omega)]
        _ ≤ n * 2 ^ (52 - n.log2) := Nat.mul_le_mul_right _ (Nat.log2_self_le hpos.ne')
    · calc n * 2 ^ (52 - n.log2) ≤ 2 ^ (n.log2 + 1) * 2 ^ (52 - n.log2) :=
            Nat.mul_le_mul_right _ Nat.lt_log2_self.le
        _ = 2 * 2 ^ 52 := by
            rw [← Nat.pow_add, ← Nat.pow_succ']
            congr 1
            omega
  · exact ⟨0, by decide, by decide, by decide⟩

/-- Up to twice the number of significands every integer is a value. -/
theorem exists_value_eq (h : n ≤ 2 ^ 53) :
    ∃ pattern < binary64.infinity, binary64.value pattern = n := by
  rcases Nat.eq_zero_or_pos n with rfl | hpos
  · exact ⟨0, by decide, by simp⟩
  · obtain ⟨k, hk, hlow, hhigh⟩ := exists_shift_of_le hpos h
    have hbinade : binary64.binade = 2 ^ 52 := rfl
    have hinfinity : binary64.infinity = 2047 * binary64.binade := rfl
    have hgrain : binary64.grain = 1074 := by decide
    have hunits : binary64.units ((binary64.grain - k) * binary64.binade + n * 2 ^ k) =
        n * 2 ^ k * 2 ^ (binary64.grain - k) := binary64.units_shifted _ (Or.inr hlow) hhigh
    have hpower : n * 2 ^ k * 2 ^ (binary64.grain - k) = n * 2 ^ binary64.grain := by
      rw [Nat.mul_assoc, ← Nat.pow_add, Nat.add_sub_cancel' (by omega)]
    refine ⟨(binary64.grain - k) * binary64.binade + n * 2 ^ k, ?_, ?_⟩
    · rw [hinfinity, hbinade, hgrain]
      omega
    · rw [value, hunits, hpower]
      push_cast
      exact mul_div_cancel_right₀ _ (by positivity)

/-- The cell of an integer reaches from it no farther than a part in `2 ^ 53`. -/
theorem InCell.abs_sub_natCast_le {x : ℚ} (hx : binary64.InCell x pattern)
    (hpos : 0 < n) (hvalue : binary64.value pattern = n) : |x - n| ≤ n / 2 ^ 53 := by
  have hfull : binary64.binade ≤ pattern := by
    by_contra hlt
    rw [not_le] at hlt
    rw [value, units_of_lt _ hlt, div_eq_iff (by positivity)] at hvalue
    have hvalue' : pattern = n * 2 ^ binary64.grain := by exact_mod_cast hvalue
    have hscale := binary64.binade_le_two_pow_grain
    have hmul : 2 ^ binary64.grain ≤ n * 2 ^ binary64.grain := Nat.le_mul_of_pos_left _ hpos
    omega
  have hbinade : (binary64.binade : ℚ) = 2 ^ 52 := by exact_mod_cast (rfl : binary64.binade = 2 ^ 52)
  have hwide := binade_mul_gap_le_value hfull
  have hnear := hx.abs_sub_le
  rw [hvalue] at hnear hwide
  rw [hbinade] at hwide
  rw [le_div_iff₀ (by positivity)]
  linarith

/-- An integer that ends in a zero and lies that close to `n` is `n`: below `2 ^ 53` the distance is less
than one, and at `2 ^ 53` the integers one away end in a one and in a three. -/
theorem mul_ten_eq_of_abs_sub_le {m : Nat} (h : n ≤ 2 ^ 53)
    (hnear : |((m * 10 : Nat) : ℚ) - n| ≤ n / 2 ^ 53) : m * 10 = n := by
  rcases h.eq_or_lt with rfl | hless
  · have hle : ((2 ^ 53 : Nat) : ℚ) ≤ 2 ^ 53 := by norm_num
    obtain ⟨hbelow, habove⟩ := abs_le.mp (hnear.trans (div_le_one_of_le₀ hle (by positivity)))
    have hm : m * 10 ≤ 2 ^ 53 + 1 := by
      exact_mod_cast (show ((m * 10 : Nat) : ℚ) ≤ (2 ^ 53 : Nat) + 1 by linarith)
    have hn : 2 ^ 53 ≤ m * 10 + 1 := by
      exact_mod_cast (show ((2 ^ 53 : Nat) : ℚ) ≤ (m * 10 : Nat) + 1 by linarith)
    omega
  · have hclose : |((m * 10 : Nat) : ℚ) - n| < 1 :=
      hnear.trans_lt ((div_lt_one (by positivity)).mpr (by exact_mod_cast hless))
    obtain ⟨hbelow, habove⟩ := abs_lt.mp hclose
    have hm : m * 10 < n + 1 := by exact_mod_cast (show ((m * 10 : Nat) : ℚ) < n + 1 by linarith)
    have hn : n < m * 10 + 1 := by exact_mod_cast (show (n : ℚ) < (m * 10 : Nat) + 1 by linarith)
    omega

/-- Up to twice the number of significands the shortest decimal of an integer is that integer. -/
theorem shortest_of_value_eq (hpos : 0 < n) (h : n ≤ 2 ^ 53) (hvalue : binary64.value pattern = n) :
    0 ≤ (binary64.shortest pattern).exponent ∧ (binary64.shortest pattern).value = n := by
  have hpattern : 0 < pattern := by
    rcases Nat.eq_zero_or_pos pattern with rfl | hpattern
    · rw [value_zero] at hvalue
      exact absurd (Nat.cast_eq_zero.mp hvalue.symm) hpos.ne'
    · exact hpattern
  have hcoarsest := binary64.isCoarsest_shortest hpattern
  have hself : (⟨n, 0⟩ : Decimal).value = n := by
    rw [Decimal.value, zpow_zero, mul_one]
  have hcell : binary64.InCell (⟨n, 0⟩ : Decimal).value pattern := by
    rw [hself, ← hvalue]
    exact binary64.inCell_value pattern
  have hexponent : 0 ≤ (binary64.shortest pattern).exponent := hcoarsest.exponent_le _ hcell
  refine ⟨hexponent, ?_⟩
  rcases hexponent.eq_or_lt with hzero | hlt
  · have hnear := hcoarsest.nearest _ hcell hzero
    rw [hself, hvalue, sub_self, abs_zero] at hnear
    exact sub_eq_zero.mp (abs_nonpos_iff.mp hnear)
  · have hnear := hcoarsest.inCell.abs_sub_natCast_le hpos hvalue
    generalize binary64.shortest pattern = d at *
    obtain ⟨k, hk⟩ : ∃ k : Nat, d.exponent = k + 1 := ⟨(d.exponent - 1).toNat, by omega⟩
    have hten : d.value = (d.coefficient * 10 ^ k * 10 : Nat) := by
      rw [Decimal.value, hk, zpow_add_one₀ (by norm_num), zpow_natCast]
      push_cast
      ring
    rw [hten] at hnear ⊢
    exact_mod_cast mul_ten_eq_of_abs_sub_le h hnear

theorem digits_of_value_eq (h : n ≤ 2 ^ 53) (hvalue : binary64.value pattern = n) :
    (binary64.shortest pattern).digits = Nat.toDigits 10 n := by
  rcases Nat.eq_zero_or_pos n with rfl | hpos
  · have hzero : pattern = 0 := by
      refine binary64.value_strictMono.injective ?_
      rw [hvalue, value_zero, Nat.cast_zero]
    rw [hzero, shortest_zero]
    decide
  · obtain ⟨hexponent, hshortest⟩ := shortest_of_value_eq hpos h hvalue
    generalize binary64.shortest pattern = d at *
    have hten : (10 : ℚ) ^ d.exponent = (10 ^ d.exponent.toNat : Nat) := by
      rw [Nat.cast_pow, ← zpow_natCast, Int.toNat_of_nonneg hexponent, Nat.cast_ofNat]
    rw [Decimal.value, hten, ← Nat.cast_mul, Nat.cast_inj] at hshortest
    rw [Decimal.digits_of_nonneg hexponent, hshortest]
    intro hzero
    rw [hzero, Nat.zero_mul] at hshortest
    exact absurd hshortest hpos.ne

end Format

namespace Binary

/-- A double that is an integer of no more bits than a significand has is written as that integer. -/
theorem ofList_digits_of_value_eq {x : Binary .binary64} {n : Int} (h : n.natAbs ≤ 2 ^ 53)
    (hvalue : x.value = n) (hzero : n = 0 → x.negative = false) :
    String.ofList x.digits = n.repr := by
  have hmagnitude : Format.binary64.value x.magnitude = n.natAbs := by
    rw [← abs_value, hvalue, Nat.cast_natAbs, Int.cast_abs]
  have hnonneg := Format.binary64.value_nonneg x.magnitude
  have hnegative : x.negative = decide (n < 0) := by
    unfold value at hvalue
    cases hsign : x.negative with
    | true =>
      rw [hsign, if_pos rfl] at hvalue
      have hle : (n : ℚ) ≤ 0 := by linarith
      have hne : n ≠ 0 := fun heq => Bool.false_ne_true ((hzero heq).symm.trans hsign)
      have hle' : n ≤ 0 := by exact_mod_cast hle
      exact (decide_eq_true (by omega)).symm
    | false =>
      rw [hsign, if_neg Bool.false_ne_true] at hvalue
      have hge : (0 : ℚ) ≤ n := by linarith
      have hge' : 0 ≤ n := by exact_mod_cast hge
      exact (decide_eq_false (by omega)).symm
  refine String.toList_injective ?_
  rw [String.toList_ofList, toList_repr, digits, Format.digits_of_value_eq h hmagnitude, hnegative]
  by_cases hneg : n < 0
  · rw [if_pos hneg, decide_eq_true hneg]
    rfl
  · rw [if_neg hneg, decide_eq_false hneg]
    rfl

/-- Every integer of no more bits than a significand has is a double. -/
theorem exists_value_eq {n : Int} (h : n.natAbs ≤ 2 ^ 53) :
    ∃ x : Binary .binary64, x.value = n ∧ x.negative = decide (n < 0) := by
  obtain ⟨pattern, hfinite, hvalue⟩ := Format.exists_value_eq h
  refine ⟨⟨decide (n < 0), pattern, hfinite⟩, ?_, rfl⟩
  unfold value
  rw [hvalue]
  rcases Int.lt_or_le n 0 with hneg | hnonneg
  · rw [if_pos (decide_eq_true hneg), Nat.cast_natAbs, Int.cast_abs,
      abs_of_neg (by exact_mod_cast hneg), neg_neg]
  · rw [if_neg (by simpa using hnonneg), Nat.cast_natAbs, Int.cast_abs,
      abs_of_nonneg (by exact_mod_cast hnonneg)]

end Binary

end Numeral

/-! ## Operands -/

open Numeral

namespace Operand

theorem ofBits64_of_encodesFinite {bits : UInt64} (h : Binary.EncodesFinite .binary64 bits.toNat) :
    ∃ x : Binary .binary64, x.bits = bits.toNat ∧ ofBits64 bits.toNat = number (.float x) := by
  obtain ⟨x, hx⟩ := Binary.exists_ofBits?_iff.mpr h
  refine ⟨x, Binary.bits_of_ofBits? bits.toNat_lt hx, ?_⟩
  rw [ofBits64, Number.ofBits64?, hx]
  rfl

theorem ofBits64_bits (x : Binary .binary64) : ofBits64 x.bits = number (.float x) := by
  rw [ofBits64, Number.ofBits64?, x.ofBits?_bits]
  rfl

theorem ofBits64_of_not_encodesFinite {bits : Nat} (h : ¬ Binary.EncodesFinite .binary64 bits) :
    ofBits64 bits = null := by
  rw [ofBits64, Number.ofBits64?, Binary.ofBits?_eq_none h]
  rfl

end Operand

namespace Query

/-- What has no text is no part of a condition that a draft takes. -/
theorem Draft.exists_fault_of_part {d : Draft} {c : Condition} {v : Operand} (hpart : v ∈ c.parts)
    (h : v.scalarText? d.settings.clock = none) : ∃ fault, d.require c = .error fault := by
  cases hrequire : d.require c with
  | error fault => exact ⟨fault, rfl⟩
  | ok next =>
    obtain ⟨_, _, _, -, hencode, -⟩ := Draft.require_eq_ok_iff.mp hrequire
    obtain ⟨texts, hrenders, -⟩ := c.exists_texts_of_encode hencode
    obtain ⟨s, -, hs⟩ := exists_of_mem_right hrenders.flip hpart
    rw [h] at hs
    cases hs

/-- Doubles are written without loss, and integers among them as integers are.

The text of a finite double is a literal without an exponent and without superfluous zeros, of the
shortest decimal that is nearest to that double, and it is read as it, sign and all; so no two of them
have one text.  Up to
the power of two that has one bit more than a significand, every integer is a double, and every
double that is the integer is written as the integer operand is, minus zero excepted.  An infinity
or a not-a-number is null, which no draft takes as a part of a condition. -/
theorem double_texts_lossless (clock : Clock) :
    (∀ bits : UInt64, Binary.EncodesFinite .binary64 bits.toNat →
      ∃ x : Binary .binary64, x.bits = bits.toNat ∧
        Operand.ofBits64 bits.toNat = .number (.float x) ∧
        (Operand.ofBits64 bits.toNat).scalarText? clock = some (String.ofList x.digits) ∧
        ∃ (l : Literal) (d : Decimal), l.IsPositional ∧ x.digits = l.positional ∧
          Literal.read? x.digits = some l ∧ l.negative = x.negative ∧
          l.decimal.value = d.value ∧ Format.binary64.IsShortest x.magnitude d ∧
          Format.binary64.IsNearest l.decimal.value x.magnitude ∧
          Binary.read? .binary64 x.digits = some x) ∧
    (∀ bits other : UInt64, Binary.EncodesFinite .binary64 bits.toNat →
      Binary.EncodesFinite .binary64 other.toNat →
      (Operand.ofBits64 bits.toNat).scalarText? clock =
        (Operand.ofBits64 other.toNat).scalarText? clock → bits = other) ∧
    (∀ n : Int, n.natAbs ≤ 2 ^ 53 →
      (∃ (bits : UInt64) (x : Binary .binary64), Operand.ofBits64 bits.toNat = .number (.float x) ∧
        x.value = n ∧ x.negative = decide (n < 0)) ∧
      ∀ (bits : UInt64) (x : Binary .binary64), Operand.ofBits64 bits.toNat = .number (.float x) →
        x.value = n → (n = 0 → x.negative = false) →
        (Operand.ofBits64 bits.toNat).scalarText? clock = (Operand.ofInt n).scalarText? clock) ∧
    (∀ bits : UInt64, ¬ Binary.EncodesFinite .binary64 bits.toNat →
      Operand.ofBits64 bits.toNat = .null ∧
      ∀ (d : Draft) (c : Condition), Operand.null ∈ c.parts → ∃ fault, d.require c = .error fault) := by
  refine ⟨?_, ?_, ?_, ?_⟩
  · intro bits hbits
    obtain ⟨x, hx, hoperand⟩ := Operand.ofBits64_of_encodesFinite hbits
    obtain ⟨l, hl, hnegative, hdigits, hvalue⟩ := x.exists_positional
    refine ⟨x, hx, hoperand, by rw [hoperand]; rfl, l, Format.binary64.shortest x.magnitude, hl,
      hdigits, ?_, hnegative, hvalue, Format.isShortest_shortest Format.tenIsNearer_binary64 _, ?_,
      ?_⟩
    · rw [hdigits, Literal.read?_positional hl]
    · rw [hvalue]
      exact (Format.binary64.inCell_shortest x.magnitude).isNearest
    · exact Binary.read?_digits Format.isProper_binary64 x
  · intro bits other hbits hother htexts
    obtain ⟨x, hx, hoperand⟩ := Operand.ofBits64_of_encodesFinite hbits
    obtain ⟨y, hy, hoperand'⟩ := Operand.ofBits64_of_encodesFinite hother
    rw [hoperand, hoperand'] at htexts
    have hdigits : x.digits = y.digits := String.ofList_injective (Option.some.inj htexts)
    rw [← Binary.digits_injective Format.isProper_binary64 hdigits, hx] at hy
    exact UInt64.toNat_inj.mp hy
  · intro n hn
    constructor
    · obtain ⟨x, hvalue, hnegative⟩ := Binary.exists_value_eq hn
      have hsize : x.bits < UInt64.size := x.bits_lt
      refine ⟨UInt64.ofNat x.bits, x, ?_, hvalue, hnegative⟩
      rw [UInt64.toNat_ofNat_of_lt' hsize, Operand.ofBits64_bits]
    · intro bits x hoperand hvalue hzero
      rw [hoperand]
      exact congrArg some (Binary.ofList_digits_of_value_eq hn hvalue hzero)
  · intro bits hbits
    exact ⟨Operand.ofBits64_of_not_encodesFinite hbits, fun d c hpart =>
      Draft.exists_fault_of_part hpart rfl⟩

/-- A tenth below zero, the two zeros, the last integer, and an infinity. -/
theorem double_texts_lossless_samples :
    (∃ x : Binary .binary64, x.bits = 0xBFB999999999999A ∧
      (Operand.ofBits64 0xBFB999999999999A).scalarText? .twelve = some "-0.1" ∧
      Binary.read? .binary64 "-0.1".toList = some x) ∧
    (Operand.ofBits64 0).scalarText? .twelve ≠
      (Operand.ofBits64 0x8000000000000000).scalarText? .twelve ∧
    (∃ (bits : UInt64) (x : Binary .binary64), x.value = (2 ^ 53 : Int) ∧
      Operand.ofBits64 bits.toNat = .number (.float x) ∧
      (Operand.ofBits64 bits.toNat).scalarText? .twelve = some "9007199254740992") ∧
    ∃ fault, ({ field := some "a" } : Draft).require
      (.between (.ofInt 1) (.ofBits64 0x7FF0000000000000)) = .error fault := by
  obtain ⟨hfinite, hdistinct, hinteger, hnull⟩ := double_texts_lossless .twelve
  refine ⟨?_, ?_, ?_, ?_⟩
  · obtain ⟨x, hx, -, htext, -, -, -, -, -, -, -, -, -, hread⟩ :=
      hfinite 0xBFB999999999999A (by decide +kernel)
    have htenth : (Operand.ofBits64 0xBFB999999999999A).scalarText? .twelve = some "-0.1" := by
      decide +kernel
    have hdigits : String.ofList x.digits = "-0.1" := Option.some.inj (htext.symm.trans htenth)
    refine ⟨x, hx, htenth, ?_⟩
    rw [← hdigits, String.toList_ofList]
    exact hread
  · intro heq
    exact absurd (hdistinct 0 0x8000000000000000 (by decide) (by decide) heq) (by decide)
  · obtain ⟨⟨bits, x, hoperand, hvalue, hnegative⟩, htext⟩ := hinteger (2 ^ 53) (by decide)
    refine ⟨bits, x, hvalue, hoperand, ?_⟩
    rw [htext bits x hoperand hvalue fun _ => hnegative]
    decide +kernel
  · obtain ⟨hoperand, hrejected⟩ := hnull 0x7FF0000000000000 (by decide)
    exact hrejected _ _ (hoperand ▸ List.mem_cons_of_mem _ List.mem_cons_self)

end Query

end RecordQuery
