import RecordQuery.Proofs.Literals
import RecordQuery.Proofs.ShortestDecimal

set_option autoImplicit false

/-!
# Positional digits

The text of a decimal is a literal without an exponent, whose whole part has no superfluous zero in
front and whose fraction has none at its end (`Decimal.exists_positional`).  Such a literal is read
back part by part (`Literal.read?_positional`), and so the text of a value is read as that value with
its sign (`Binary.read?_digits`) and belongs to no other (`Binary.digits_injective`).
-/

namespace RecordQuery.Numeral

open Calendar (padded isDigit_of_mem_padded ofDigitChars_padded)

/-- Decimal digits, at least one. -/
def IsDigits (text : List Char) : Prop := text ≠ [] ∧ ∀ c ∈ text, c.isDigit = true

/-! ## Literals without an exponent -/

namespace Literal

/-- A literal of digits only: the whole part has no superfluous zero in front, the fraction, if there
is one, none at its end, and there is no exponent. -/
structure IsPositional (l : Literal) : Prop where
  whole_digits : IsDigits l.whole
  whole_head : l.whole.head? = some '0' → l.whole = ['0']
  fraction_digits : ∀ digits ∈ l.fraction, IsDigits digits
  fraction_last : ∀ digits ∈ l.fraction, digits.getLast? ≠ some '0'
  exponent_eq : l.exponent = none

/-- The fraction of a literal with its point. -/
def pointed (l : Literal) : List Char :=
  match l.fraction with
  | none => []
  | some digits => '.' :: digits

/-- The text of a literal without an exponent. -/
def positional (l : Literal) : List Char :=
  (if l.negative then ['-'] else []) ++ (l.whole ++ l.pointed)

theorem readDigits?_append {digits : List Char} (h : IsDigits digits) (rest : List Char)
    (hrest : ∀ c ∈ rest.head?, c.isDigit = false) :
    readDigits? (digits ++ rest) = some (digits, rest) := by
  have htake : rest.takeWhile Char.isDigit = [] ∧ rest.dropWhile Char.isDigit = rest := by
    cases rest with
    | nil => exact ⟨rfl, rfl⟩
    | cons c rest =>
      have hc := hrest c rfl
      simp [hc]
  rw [readDigits?, List.takeWhile_append_of_pos h.2, List.dropWhile_append_of_pos h.2, htake.1,
    htake.2, List.append_nil]
  simp [h.1]

theorem readFraction?_pointed {l : Literal} (h : l.IsPositional) :
    readFraction? l.pointed = some (l.fraction, []) := by
  cases hfraction : l.fraction with
  | none =>
    rw [pointed, hfraction]
    rfl
  | some digits =>
    have hdigits := readDigits?_append (h.fraction_digits digits hfraction) [] (by simp)
    rw [List.append_nil] at hdigits
    rw [pointed, hfraction]
    simp only [readFraction?, hdigits]
    rfl

theorem readWhole?_pointed {l : Literal} (h : l.IsPositional) :
    readWhole? (l.whole ++ l.pointed) = some (l.whole, l.pointed) := by
  have hpoint : ∀ c ∈ l.pointed.head?, c.isDigit = false := by
    unfold pointed
    split
    · simp
    · intro c hc
      cases hc
      rfl
  have hzero : ¬ (l.whole.head? = some '0' ∧ l.whole.length ≠ 1) := by
    rintro ⟨hhead, hlength⟩
    rw [h.whole_head hhead] at hlength
    exact hlength rfl
  rw [readWhole?, readDigits?_append h.whole_digits _ hpoint]
  simp only [Option.bind_eq_bind, Option.bind_some]
  rw [if_neg hzero]

/-- Such a literal is read back. -/
theorem read?_positional {l : Literal} (h : l.IsPositional) : read? l.positional = some l := by
  have hbody : (if l.positional.head? = some '-' then l.positional.tail else l.positional) =
      l.whole ++ l.pointed ∧ decide (l.positional.head? = some '-') = l.negative := by
    obtain ⟨c, digits, hwhole⟩ := List.exists_cons_of_ne_nil h.whole_digits.1
    have hdigit : c.isDigit = true := h.whole_digits.2 c (by rw [hwhole]; exact List.mem_cons_self)
    have hminus : c ≠ '-' := by
      rintro rfl
      cases hdigit
    cases hnegative : l.negative <;> simp [positional, hnegative, hwhole, hminus]
  rw [read?]
  simp only [hbody.1, hbody.2, readWhole?_pointed h, Option.bind_eq_bind, Option.bind_some,
    readFraction?_pointed h]
  obtain ⟨negative, whole, fraction, exponent⟩ := l
  obtain rfl : exponent = none := h.exponent_eq
  rfl

end Literal

/-! ## Digits of decimals -/

/-- A zero behind the digits is a factor of ten. -/
theorem toDigits_mul_ten_pow {n : Nat} (h : n ≠ 0) (k : Nat) :
    Nat.toDigits 10 (n * 10 ^ k) = Nat.toDigits 10 n ++ List.replicate k '0' := by
  induction k with
  | zero => simp
  | succ k ih =>
    have hpos : 0 < n * 10 ^ k := Nat.mul_pos (Nat.pos_of_ne_zero h) (Nat.pow_pos (by decide))
    rw [Nat.pow_succ, ← Nat.mul_assoc, Nat.toDigits_of_base_le (by decide) (by omega),
      Nat.mul_div_cancel _ (by decide), Nat.mul_mod_left, ih, List.replicate_succ',
      List.append_assoc]
    rfl

theorem getLast?_toDigits (n : Nat) :
    (Nat.toDigits 10 n).getLast? = some (Nat.digitChar (n % 10)) := by
  by_cases hlt : n < 10
  · rw [Nat.toDigits_of_lt_base hlt, Nat.mod_eq_of_lt hlt]
    rfl
  · rw [Nat.toDigits_of_base_le (by decide) (by omega), List.getLast?_concat]

theorem isDigits_toDigits (n : Nat) : IsDigits (Nat.toDigits 10 n) :=
  ⟨Nat.toDigits_ne_nil, fun _ hc => Nat.isDigit_of_mem_toDigits (by decide) (by decide) hc⟩

theorem leftpad_toDigits {n width : Nat} (h : width ≤ (Nat.toDigits 10 n).length) :
    (Nat.toDigits 10 n).leftpad width '0' = Nat.toDigits 10 n := by
  rw [List.leftpad, Nat.sub_eq_zero_of_le h, List.replicate_zero, List.nil_append]

namespace Decimal

variable {d : Decimal}

/-- A decimal without places behind the point is written as an integer. -/
theorem digits_of_nonneg (h : 0 ≤ d.exponent) (hzero : d.coefficient = 0 → d.exponent = 0) :
    d.digits = Nat.toDigits 10 (d.coefficient * 10 ^ d.exponent.toNat) := by
  have hplaces : (-d.exponent).toNat = 0 := by omega
  have hall : Nat.toDigits 10 d.coefficient ++ List.replicate d.exponent.toNat '0' =
      Nat.toDigits 10 (d.coefficient * 10 ^ d.exponent.toNat) := by
    by_cases hne : d.coefficient = 0
    · rw [hne, hzero hne]
      rfl
    · exact (toDigits_mul_ten_pow hne _).symm
  have hlength := List.length_pos_iff.mpr
    (Nat.toDigits_ne_nil (n := d.coefficient * 10 ^ d.exponent.toNat) (b := 10))
  simp only [digits]
  rw [hplaces, hall, leftpad_toDigits hlength, Nat.sub_zero, List.take_length, List.drop_length]
  rfl

/-- The digits of the coefficient, with zeros in front up to one place before the point. -/
def allDigits (d : Decimal) : List Char := padded ((-d.exponent).toNat + 1) d.coefficient

/-- The literal that a decimal with places behind the point is written as. -/
def pointedLiteral (d : Decimal) (negative : Bool) : Literal :=
  let places := d.allDigits.length - (-d.exponent).toNat
  ⟨negative, d.allDigits.take places, some (d.allDigits.drop places), none⟩

theorem length_allDigits (d : Decimal) :
    d.allDigits.length = max ((-d.exponent).toNat + 1) (Nat.toDigits 10 d.coefficient).length :=
  List.length_leftpad

theorem digits_of_neg (h : d.exponent < 0) (negative : Bool) :
    d.digits = (d.pointedLiteral negative).whole ++ (d.pointedLiteral negative).pointed := by
  have hzeros : d.exponent.toNat = 0 := by omega
  have hlength := d.length_allDigits
  have hpoint : (d.allDigits.drop (d.allDigits.length - (-d.exponent).toNat)).isEmpty = false := by
    rw [List.isEmpty_eq_false_iff, ne_eq, List.drop_eq_nil_iff]
    omega
  simp only [digits, hzeros, List.replicate_zero, List.append_nil]
  exact if_neg (Bool.eq_false_iff.mp hpoint)

/-- The digit before the point is a zero only if it stands there alone. -/
theorem take_allDigits_eq (hne : d.coefficient ≠ 0)
    (hzero : (d.allDigits.take (d.allDigits.length - (-d.exponent).toNat)).head? = some '0') :
    d.allDigits.take (d.allDigits.length - (-d.exponent).toNat) = ['0'] := by
  have hlength := d.length_allDigits
  rcases Nat.lt_or_ge (-d.exponent).toNat (Nat.toDigits 10 d.coefficient).length with hlt | hge
  · have hall : d.allDigits = Nat.toDigits 10 d.coefficient := leftpad_toDigits hlt
    rw [List.head?_take, if_neg (by omega), hall] at hzero
    exact absurd hzero (head?_toDigits hne)
  · obtain ⟨c, hc⟩ : ∃ c, d.allDigits.take (d.allDigits.length - (-d.exponent).toNat) = [c] := by
      rw [← List.length_eq_one_iff, List.length_take]
      omega
    rw [hc] at hzero ⊢
    rw [Option.some.inj hzero]

theorem isPositional_pointedLiteral (hlast : d.coefficient % 10 ≠ 0) (h : d.exponent < 0)
    (negative : Bool) : (d.pointedLiteral negative).IsPositional := by
  have hall : ∀ c ∈ d.allDigits, c.isDigit = true := fun _ hc => isDigit_of_mem_padded hc
  have hend : d.allDigits.getLast? ≠ some '0' := by
    rw [allDigits, padded, List.leftpad, List.getLast?_append_of_ne_nil _ Nat.toDigits_ne_nil,
      getLast?_toDigits, ne_eq, Option.some.injEq, Nat.digitChar_eq_zero]
    exact hlast
  have hlength := d.length_allDigits
  constructor
  · refine ⟨?_, fun c hc => hall c (List.mem_of_mem_take hc)⟩
    rw [← List.length_pos_iff, pointedLiteral, List.length_take]
    omega
  · exact take_allDigits_eq (by omega)
  · rintro digits ⟨⟩
    refine ⟨?_, fun c hc => hall c (List.mem_of_mem_drop hc)⟩
    rw [← List.length_pos_iff, List.length_drop]
    omega
  · rintro digits ⟨⟩
    rw [List.getLast?_drop, if_neg (by omega)]
    exact hend
  · rfl

theorem decimal_pointedLiteral (h : d.exponent < 0) (negative : Bool) :
    (d.pointedLiteral negative).decimal = d := by
  have hlength := d.length_allDigits
  have hvalue : Nat.ofDigitChars 10 d.allDigits 0 = d.coefficient := ofDigitChars_padded _ _
  obtain ⟨coefficient, exponent⟩ := d
  simp only [Literal.decimal, pointedLiteral, Option.getD_some, Option.getD_none,
    List.take_append_drop, List.length_drop, Decimal.mk.injEq]
  refine ⟨hvalue, ?_⟩
  simp only at h hlength
  omega

/-- The literal that a decimal without places behind the point is written as. -/
def wholeLiteral (d : Decimal) (negative : Bool) : Literal :=
  ⟨negative, Nat.toDigits 10 (d.coefficient * 10 ^ d.exponent.toNat), none, none⟩

theorem isPositional_wholeLiteral (d : Decimal) (negative : Bool) :
    (d.wholeLiteral negative).IsPositional := by
  refine ⟨isDigits_toDigits _, fun hzero => ?_, fun _ h => (by cases h), fun _ h => (by cases h), rfl⟩
  by_cases hne : d.coefficient * 10 ^ d.exponent.toNat = 0
  · rw [wholeLiteral, hne]
    rfl
  · exact absurd hzero (head?_toDigits hne)

theorem value_wholeLiteral (h : 0 ≤ d.exponent) (negative : Bool) :
    (d.wholeLiteral negative).decimal.value = d.value := by
  have hexponent : (10 : ℚ) ^ d.exponent = 10 ^ d.exponent.toNat := by
    rw [← zpow_natCast, Int.toNat_of_nonneg h]
  simp only [Literal.decimal, wholeLiteral, Option.getD_none, List.append_nil,
    Nat.ofDigitChars_ten_toDigits, value, hexponent]
  simp

/-- The digits of a decimal are those of a literal of its value, if it ends neither in a zero nor left
of the point. -/
theorem exists_positional (hlast : d.coefficient % 10 ≠ 0 ∨ d = ⟨0, 0⟩) (negative : Bool) :
    ∃ l : Literal, l.IsPositional ∧ l.negative = negative ∧ d.digits = l.whole ++ l.pointed ∧
      l.decimal.value = d.value := by
  rcases Int.lt_or_le d.exponent 0 with hneg | hnonneg
  · have hlast' : d.coefficient % 10 ≠ 0 := by
      rcases hlast with hlast | rfl
      · exact hlast
      · cases hneg
    exact ⟨d.pointedLiteral negative, isPositional_pointedLiteral hlast' hneg negative, rfl,
      digits_of_neg hneg negative, by rw [decimal_pointedLiteral hneg]⟩
  · have hzero : d.coefficient = 0 → d.exponent = 0 := by
      rcases hlast with hlast | rfl
      · omega
      · exact fun _ => rfl
    refine ⟨d.wholeLiteral negative, d.isPositional_wholeLiteral negative, rfl, ?_,
      value_wholeLiteral hnonneg negative⟩
    rw [digits_of_nonneg hnonneg hzero]
    exact (List.append_nil _).symm

end Decimal

/-! ## Texts of values -/

namespace Binary

variable {F : Format}

/-- The value that a text stands for: a sign, and the magnitude nearest to the digits. -/
def read? (F : Format) (text : List Char) : Option (Binary F) :=
  (Literal.read? text).bind fun l => Binary.ofDecimal? F l.negative l.decimal

/-- A value is written as a literal that is read as it. -/
theorem exists_positional (x : Binary F) :
    ∃ l : Literal, l.IsPositional ∧ l.negative = x.negative ∧ x.digits = l.positional ∧
      l.decimal.value = (F.shortest x.magnitude).value := by
  have hlast : (F.shortest x.magnitude).coefficient % 10 ≠ 0 ∨ F.shortest x.magnitude = ⟨0, 0⟩ := by
    rcases Nat.eq_zero_or_pos x.magnitude with hzero | hpos
    · rw [hzero]
      exact Or.inr F.shortest_zero
    · exact Or.inl (F.isCoarsest_shortest hpos).coefficient_mod_ten
  obtain ⟨l, hl, hnegative, hdigits, hvalue⟩ := Decimal.exists_positional hlast x.negative
  refine ⟨l, hl, hnegative, ?_, hvalue⟩
  rw [digits, Literal.positional, ← hdigits, hnegative]
  cases x.negative <;> rfl

theorem ofDecimal?_eq_some_iff (hF : F.IsProper) {negative : Bool} {d : Decimal} {x : Binary F} :
    Binary.ofDecimal? F negative d = some x ↔
      x.negative = negative ∧ F.IsNearest d.value x.magnitude := by
  rw [← Format.inCell_iff_isNearest, ← Decimal.pattern_eq_iff hF x.finite, Binary.ofDecimal?,
    Option.dite_none_right_eq_some]
  constructor
  · rintro ⟨hfinite, heq⟩
    rw [← Option.some.inj heq]
    exact ⟨rfl, rfl⟩
  · rintro ⟨rfl, hpattern⟩
    have hfinite : d.pattern F < F.infinity := hpattern ▸ x.finite
    refine ⟨hfinite, congrArg some ?_⟩
    cases x
    simp_all

theorem read?_digits (hF : F.IsProper) (x : Binary F) : read? F x.digits = some x := by
  obtain ⟨l, hl, hnegative, hdigits, hvalue⟩ := x.exists_positional
  rw [read?, hdigits, Literal.read?_positional hl, Option.bind_some, ofDecimal?_eq_some_iff hF, hvalue]
  exact ⟨hnegative.symm, (F.inCell_shortest x.magnitude).isNearest⟩

theorem digits_injective (hF : F.IsProper) : Function.Injective (digits : Binary F → List Char) := by
  intro x y h
  have hread := read?_digits hF x
  rw [h, read?_digits hF y] at hread
  exact (Option.some.inj hread).symm

end Binary

end RecordQuery.Numeral
