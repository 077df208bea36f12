import RecordQuery.Proofs.OrderedTables
import RecordQuery.Proofs.TwoFormats

set_option autoImplicit false

/-!
# Numbers in range

Whether a value can be decoded is computed by going down its arrays and tables.  It is the same as a
fact about the numbers that stand in the value at any depth: each of them is in range.
-/

namespace RecordQuery.Toml

/-! ## Values within values -/

/-- The values that stand somewhere in a value, itself among them. -/
inductive Value.Within (part : Value) : Value → Prop where
  | self : Within part part
  | item {items : List Value} {item : Value} (hitem : item ∈ items) (h : Within part item) :
      Within part (.array items)
  | entry {entries : List (String × Value)} {entry : String × Value} (hentry : entry ∈ entries)
      (h : Within part entry.2) : Within part (.table entries)

theorem Value.eq_of_within_scalar {part value : Value} (hscalar : value.isScalar = true)
    (h : part.Within value) : part = value := by
  cases h with
  | self => rfl
  | item => nomatch hscalar
  | entry => nomatch hscalar

/-! ## Ranges -/

/-- What a value must be in order to be decoded, apart from what it holds: a number has to be one,
and in range. -/
def Value.InRange : Value → Prop
  | integer n => Settings.Tree.Fits n
  | float x => x.fits = true
  | misspelt _ => False
  | text _ | boolean _ | dateTime _ | array _ | table _ => True

/-- Every number in a value is in range. -/
def Value.AllInRange (value : Value) : Prop := ∀ part : Value, part.Within value → part.InRange

theorem Value.allInRange_iff_of_isScalar {value : Value} (h : value.isScalar = true) :
    value.AllInRange ↔ value.InRange := by
  constructor
  · intro hall
    exact hall value .self
  · intro hvalue part hpart
    rwa [eq_of_within_scalar h hpart]

theorem Value.allInRange_array_iff {items : List Value} :
    (array items).AllInRange ↔ ∀ item ∈ items, item.AllInRange := by
  constructor
  · intro h item hitem part hpart
    exact h part (.item hitem hpart)
  · intro h part hpart
    cases hpart with
    | self => trivial
    | item hitem hwithin => exact h _ hitem part hwithin

theorem Value.allInRange_table_iff {entries : List (String × Value)} :
    (table entries).AllInRange ↔ ∀ entry ∈ entries, entry.2.AllInRange := by
  constructor
  · intro h entry hentry part hpart
    exact h part (.entry hentry hpart)
  · intro h part hpart
    cases hpart with
    | self => trivial
    | entry hentry hwithin => exact h _ hentry part hwithin

mutual

/-- A value can be decoded if and only if every number in it is in range. -/
theorem Value.decodable_iff : ∀ value : Value, value.decodable = true ↔ value.AllInRange
  | .text _ | .boolean _ | .dateTime _ => by
    rw [Value.allInRange_iff_of_isScalar rfl]
    simp [Value.decodable, Value.InRange]
  | .integer n => by
    rw [Value.allInRange_iff_of_isScalar rfl]
    exact Settings.Tree.fitsInteger_iff
  | .misspelt _ => by
    rw [Value.allInRange_iff_of_isScalar rfl]
    simp [Value.decodable, Value.InRange]
  | .float x => by
    rw [Value.allInRange_iff_of_isScalar rfl, Value.decodable, Value.InRange]
  | .array items => (itemsDecodable_iff items).trans Value.allInRange_array_iff.symm
  | .table entries => (entriesDecodable_iff entries).trans Value.allInRange_table_iff.symm

theorem itemsDecodable_iff : ∀ items : List Value,
    itemsDecodable items = true ↔ ∀ item ∈ items, item.AllInRange
  | [] => by simp [itemsDecodable]
  | item :: items => by
    rw [itemsDecodable, Bool.and_eq_true, item.decodable_iff, itemsDecodable_iff items,
      List.forall_mem_cons]

theorem entriesDecodable_iff : ∀ entries : List (String × Value),
    entriesDecodable entries = true ↔ ∀ entry ∈ entries, entry.2.AllInRange
  | [] => by simp [entriesDecodable]
  | (_, value) :: entries => by
    rw [entriesDecodable, Bool.and_eq_true, value.decodable_iff, entriesDecodable_iff entries,
      List.forall_mem_cons]

end

/-! ## Texts that are documents -/

end RecordQuery.Toml
