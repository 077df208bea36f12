import RecordQuery.Operand

set_option autoImplicit false

/-!
# The characters of numbers and dates

A text is written as it is, so it can hold any character.  A number or a date is written with digits
and a few signs only (`isRendered_scalarText`): however small, large or distant it is, no mark of a
query can come from it.
-/

namespace RecordQuery

open Calendar Numeral

/-- The characters that numbers and dates are written with. -/
def isRenderedChar (c : Char) : Bool :=
  c.isDigit || c == '-' || c == '+' || c == '.' || c == ':' || c == ' '

/-- A text with no other characters. -/
def IsRendered (text : List Char) : Prop := ∀ c ∈ text, isRenderedChar c = true

@[simp] theorem isRendered_append {left right : List Char} :
    IsRendered (left ++ right) ↔ IsRendered left ∧ IsRendered right :=
  List.forall_mem_append

@[simp] theorem isRendered_cons {c : Char} {text : List Char} :
    IsRendered (c :: text) ↔ isRenderedChar c = true ∧ IsRendered text :=
  List.forall_mem_cons

theorem IsRendered.of_sublist {part text : List Char} (h : IsRendered text)
    (hpart : part.Sublist text) : IsRendered part :=
  fun c hc => h c (hpart.subset hc)

theorem isRendered_zeros (n : Nat) : IsRendered (List.replicate n '0') := by
  intro c hc
  rw [List.eq_of_mem_replicate hc]
  decide

theorem isRendered_toDigits (n : Nat) : IsRendered (Nat.toDigits 10 n) := by
  intro c hc
  have hdigit : c.isDigit = true := Nat.isDigit_of_mem_toDigits (by decide) (by decide) hc
  simp [isRenderedChar, hdigit]

theorem IsRendered.leftpad {text : List Char} (h : IsRendered text) (width : Nat) :
    IsRendered (text.leftpad width '0') :=
  isRendered_append.mpr ⟨isRendered_zeros _, h⟩

/-! ## Numbers -/

theorem isRendered_digits (d : Decimal) : IsRendered d.digits := by
  have hall : IsRendered
      ((Nat.toDigits 10 d.coefficient ++ List.replicate d.exponent.toNat '0').leftpad
        ((-d.exponent).toNat + 1) '0') :=
    IsRendered.leftpad
      (isRendered_append.mpr ⟨isRendered_toDigits _, isRendered_zeros _⟩) _
  rw [Decimal.digits]
  split
  · exact hall.of_sublist (List.take_sublist _ _)
  · refine isRendered_append.mpr ⟨hall.of_sublist (List.take_sublist _ _), ?_⟩
    exact isRendered_cons.mpr ⟨by decide, hall.of_sublist (List.drop_sublist _ _)⟩

theorem isRendered_float {F : Format} (x : Binary F) : IsRendered x.digits := by
  rw [Binary.digits]
  split
  · exact isRendered_cons.mpr ⟨by decide, isRendered_digits _⟩
  · exact isRendered_digits _

theorem isRendered_integer (n : Int) : IsRendered n.repr.toList := by
  cases n with
  | ofNat n => simpa [Int.repr, Nat.repr] using isRendered_toDigits n
  | negSucc n =>
    have hsign : isRenderedChar '-' = true := by decide
    simpa [Int.repr, Nat.repr, hsign] using isRendered_toDigits (n + 1)

theorem isRendered_number (n : Number) : IsRendered n.text.toList := by
  cases n with
  | integer n => exact isRendered_integer n
  | float x => simpa [Number.text] using isRendered_float x

/-! ## Dates -/

theorem isRendered_padded (width n : Nat) : IsRendered (padded width n) :=
  (isRendered_toDigits n).leftpad width

theorem isRendered_yearDigits (year : Int) : IsRendered (yearDigits year) := by
  rw [yearDigits]
  split
  · exact isRendered_padded _ _
  · refine isRendered_cons.mpr ⟨?_, isRendered_padded _ _⟩
    split <;> decide

theorem isRendered_literal (clock : Clock) (i : Instant) : IsRendered (i.literal clock) := by
  simp only [Instant.literal, isRendered_append, isRendered_cons, isRendered_padded,
    isRendered_yearDigits]
  decide

/-! ## Operands -/

/-- An operand that is no text itself is written with rendered characters. -/
theorem isRendered_scalarText {clock : Clock} {operand : Operand} {s : String}
    (hne : ∀ value, operand ≠ .text value) (h : operand.scalarText? clock = some s) :
    IsRendered s.toList := by
  cases operand with
  | text value => exact absurd rfl (hne value)
  | number n =>
    cases h
    exact isRendered_number n
  | date i =>
    cases h
    rw [String.toList_ofList]
    exact isRendered_literal clock i
  | list items => cases h
  | boolean value => cases h
  | object fields => cases h
  | null => cases h

/-- Any other character that an operand is written with comes from a text. -/
theorem not_mem_scalarText {clock : Clock} {operand : Operand} {s : String} {c : Char}
    (hc : isRenderedChar c = false) (htext : ∀ value, operand = .text value → c ∉ value.toList)
    (h : operand.scalarText? clock = some s) : c ∉ s.toList := by
  intro hmem
  have hne : ∀ value, operand ≠ .text value := by
    rintro value rfl
    cases h
    exact htext _ rfl hmem
  have hrendered : isRenderedChar c = true := isRendered_scalarText hne h c hmem
  rw [hc] at hrendered
  cases hrendered

end RecordQuery
