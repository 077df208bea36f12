import RecordQuery.Number

set_option autoImplicit false

/-!
# Integers as literals

The digits of an integer are a literal without a fraction and an exponent (`read?_repr`).  One that
does not fit 64 bits is read as the nearest double, and there is one for every integer of less than
a thousand bits or so (`exists_read?_repr`).
-/

namespace RecordQuery

namespace Numeral

/-! ## Rounding integers -/

theorem roundHalfEven_le (num den : Nat) : roundHalfEven num den ≤ num / den + 1 := by
  simp only [roundHalfEven]
  split
  · omega
  · split <;> omega

/-- A shifted integer has no more bits than a significand. -/
theorem Format.div_shift_lt (F : Format) (num : Nat) :
    num / Nat.pow 2 (F.shift num 1) < 2 * F.binade := by
  apply Nat.div_lt_of_lt_mul
  have hbits : num.log2 + 1 ≤ F.shift num 1 + (F.fractionBits + 1) := by
    rw [shift, Nat.div_one]
    omega
  calc num < 2 ^ (num.log2 + 1) := Nat.lt_log2_self
    _ ≤ 2 ^ (F.shift num 1 + (F.fractionBits + 1)) := Nat.pow_le_pow_right (by decide) hbits
    _ = Nat.pow 2 (F.shift num 1) * (2 * F.binade) := by
      rw [Nat.pow_add, Nat.pow_succ, Nat.mul_comm (2 ^ F.fractionBits)]
      rfl

theorem Format.nearest_le (F : Format) (num : Nat) :
    F.nearest num 1 ≤ (F.shift num 1 + 2) * F.binade := by
  have hround := roundHalfEven_le num (1 * Nat.pow 2 (F.shift num 1))
  have hquotient := F.div_shift_lt num
  rw [Nat.one_mul] at hround
  rw [nearest, Nat.add_mul, Nat.one_mul]
  omega

/-- An integer of as many bits as the format has exponents above zero is no overflow. -/
theorem Decimal.pattern_lt_infinity {n bits : Nat} (hbits : bits ≤ 1023)
    (h : n < Nat.pow 2 bits) :
    (⟨n, 0⟩ : Decimal).pattern .binary64 < Format.binary64.infinity := by
  by_cases hzero : n = 0
  · rw [pattern, if_pos hzero]
    decide
  · have htop : (⟨n, 0⟩ : Decimal).top = (Nat.toDigits 10 n).length := Int.add_zero _
    have hlength : (Nat.toDigits 10 n).length ≤ bits + 1 := by
      rw [Nat.length_toDigits_le_iff (by decide) (Nat.succ_pos bits)]
      calc n < 2 ^ bits := h
        _ ≤ 10 ^ bits := Nat.pow_le_pow_left (by decide) bits
        _ ≤ 10 ^ (bits + 1) := Nat.pow_le_pow_right (by decide) (Nat.le_succ bits)
    have hgrain : Format.binary64.grain = 1074 := by decide
    have hexponents : Nat.pow 2 (Format.binary64.exponentBits - 1) = 1024 := by decide
    rw [pattern, if_neg hzero, htop, hexponents, if_neg (by omega), if_neg (by omega)]
    show Format.binary64.nearest (n * 1 * Nat.pow 2 Format.binary64.grain) 1 < _
    generalize Format.binary64.grain = grain at hgrain ⊢
    rw [Nat.mul_one]
    generalize hnum : n * Nat.pow 2 grain = num
    have hlog : num.log2 < bits + grain := by
      have hscale : ∀ power, 0 < Nat.pow 2 power := fun _ => Nat.pow_pos (by decide)
      have hpos : 0 < num := hnum ▸ Nat.mul_pos (Nat.pos_of_ne_zero hzero) (hscale _)
      rw [Nat.log2_lt (Nat.ne_of_gt hpos), Nat.pow_add, ← hnum]
      exact Nat.mul_lt_mul_of_pos_right h (hscale _)
    have hshift : Format.binary64.shift num 1 + 2 ≤ 2046 := by
      have hfraction : Format.binary64.fractionBits = 52 := rfl
      rw [Format.shift, Nat.div_one, hfraction]
      omega
    calc Format.binary64.nearest num 1
        ≤ (Format.binary64.shift num 1 + 2) * Format.binary64.binade := Format.nearest_le _ _
      _ ≤ 2046 * Format.binary64.binade := Nat.mul_le_mul_right _ hshift
      _ < Format.binary64.infinity := by decide

/-! ## Digits -/

theorem head?_toDigits {n : Nat} (h : n ≠ 0) : (Nat.toDigits 10 n).head? ≠ some '0' := by
  induction n using Nat.strongRecOn with
  | ind n ih =>
    by_cases hlt : n < 10
    · rw [Nat.toDigits_of_lt_base hlt, List.head?_cons, ne_eq, Option.some.injEq,
        Nat.digitChar_eq_zero]
      exact h
    · rw [Nat.toDigits_of_base_le (by decide) (by omega),
        List.head?_append, Option.or_of_isSome (by simp [Nat.toDigits_ne_nil])]
      exact ih (n / 10) (by omega) (by omega)

namespace Literal

theorem readDigits?_toDigits (n : Nat) :
    readDigits? (Nat.toDigits 10 n) = some (Nat.toDigits 10 n, []) := by
  have hdigits : ∀ c ∈ Nat.toDigits 10 n, c.isDigit = true :=
    fun c hc => Nat.isDigit_of_mem_toDigits (by decide) (by decide) hc
  have htake : (Nat.toDigits 10 n).takeWhile Char.isDigit = Nat.toDigits 10 n := by
    simpa using @List.takeWhile_append_of_pos _ _ _ [] hdigits
  have hdrop : (Nat.toDigits 10 n).dropWhile Char.isDigit = [] := by
    simpa using @List.dropWhile_append_of_pos _ _ _ [] hdigits
  rw [readDigits?, htake, hdrop]
  simp [Nat.toDigits_ne_nil]

/-- The digits of a number have no superfluous zero in front. -/
theorem readWhole?_toDigits (n : Nat) :
    readWhole? (Nat.toDigits 10 n) = some (Nat.toDigits 10 n, []) := by
  rw [readWhole?, readDigits?_toDigits]
  by_cases hzero : n = 0
  · rw [hzero]
    rfl
  · simp [head?_toDigits hzero]

end Literal

end Numeral

/-- An integer is written with its digits, behind a minus sign if it is negative. -/
theorem toList_repr (n : Int) :
    n.repr.toList = (if n < 0 then ['-'] else []) ++ Nat.toDigits 10 n.natAbs := by
  cases n with
  | ofNat n => simp [Int.repr]
  | negSucc n => simp [Int.repr, Int.negSucc_lt_zero]

namespace Number

open Numeral

/-- The literal that the digits of an integer spell. -/
def integerLiteral (n : Int) : Literal where
  negative := decide (n < 0)
  whole := Nat.toDigits 10 n.natAbs
  fraction := none
  exponent := none

theorem decimal_integerLiteral (n : Int) : (integerLiteral n).decimal = ⟨n.natAbs, 0⟩ := by
  rw [Literal.decimal]
  simp [integerLiteral]

/-- An integer is written as a literal without a fraction and an exponent. -/
theorem literal_read?_repr (n : Int) :
    Literal.read? n.repr.toList = some (integerLiteral n) := by
  rw [toList_repr, integerLiteral]
  by_cases hneg : n < 0
  · rw [if_pos hneg, Literal.read?]
    simp only [List.cons_append, List.nil_append, List.head?_cons, List.tail_cons, if_true,
      Literal.readWhole?_toDigits, hneg, decide_true]
    rfl
  · have hhead : (Nat.toDigits 10 n.natAbs).head? ≠ some '-' := by
      intro hhead
      have hdigit : '-'.isDigit = true :=
        Nat.isDigit_of_mem_toDigits (by decide) (by decide) (List.mem_of_head? hhead)
      cases hdigit
    rw [if_neg hneg, List.nil_append, Literal.read?]
    simp only [hhead, if_false, Literal.readWhole?_toDigits, hneg, decide_false]
    rfl

theorem exists_floatOfLiteral? {bits : Nat} (hbits : bits ≤ 1023) {n : Int}
    (h : n.natAbs < Nat.pow 2 bits) : ∃ x, floatOfLiteral? (integerLiteral n) = some x := by
  rw [floatOfLiteral?, decimal_integerLiteral, Binary.ofDecimal?,
    dif_pos (Decimal.pattern_lt_infinity hbits h)]
  exact ⟨_, rfl⟩

/-- The digits of an integer that is not too large for a double stand for a number. -/
theorem exists_read?_repr {bits : Nat} (hbits : bits ≤ 1023) {n : Int}
    (h : n.natAbs < Nat.pow 2 bits) : ∃ x, read? n.repr.toList = some x := by
  have hfloat := exists_floatOfLiteral? hbits h
  have hwhole : (integerLiteral n).isWhole = true := rfl
  rw [read?, literal_read?_repr, Option.bind_some, ofLiteral?, if_pos hwhole]
  split
  · split
    · exact ⟨_, rfl⟩
    · exact hfloat
  · split
    · exact ⟨_, rfl⟩
    · exact hfloat

end Number

end RecordQuery
