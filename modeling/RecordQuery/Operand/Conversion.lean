import RecordQuery.Operand

set_option autoImplicit false

/-!
# Conversions to operands

What can be given where an operand is expected: texts, machine integers of every width, floats,
booleans, instants and dates, JSON trees, and options, lists and arrays of what can be given, be
their length known from their type or not.  A
float that is infinite or not a number has no text and becomes `null`, as does an absent option.
-/

namespace RecordQuery

open Calendar

namespace Operand

/-- The operand of a double given by its bits. -/
def ofBits64 (bits : Nat) : Operand := ((Number.ofBits64? bits).map number).getD null

/-- The operand of a single-precision value given by its bits. -/
def ofBits32 (bits : Nat) : Operand := ((Number.ofBits32? bits).map number).getD null

/-- The operand of an integer. -/
def ofInt (n : Int) : Operand := number (.integer n)

mutual

/-- The operand of a JSON tree: an array becomes a list of operands, an object stays a tree. -/
def ofJson : Json → Operand
  | .null => null
  | .boolean b => boolean b
  | .number n => number n
  | .text s => text s
  | .array items => list (ofItems items)
  | .object fields => object fields

/-- The operands of the items of an array. -/
def ofItems : List Json → List Operand
  | [] => []
  | item :: items => ofJson item :: ofItems items

end

end Operand

/-- The types whose values can be given as operands. -/
class ToOperand (α : Type) where
  /-- the operand of a value -/
  toOperand : α → Operand

export ToOperand (toOperand)

instance : ToOperand Operand := ⟨id⟩
instance : ToOperand String := ⟨.text⟩
instance : ToOperand Number := ⟨.number⟩
instance : ToOperand Bool := ⟨.boolean⟩
instance : ToOperand Json := ⟨.ofJson⟩
instance : ToOperand Int8 := ⟨fun n => .ofInt n.toInt⟩
instance : ToOperand Int16 := ⟨fun n => .ofInt n.toInt⟩
instance : ToOperand Int32 := ⟨fun n => .ofInt n.toInt⟩
instance : ToOperand Int64 := ⟨fun n => .ofInt n.toInt⟩
instance : ToOperand ISize := ⟨fun n => .ofInt n.toInt⟩
instance : ToOperand UInt8 := ⟨fun n => .ofInt n.toNat⟩
instance : ToOperand UInt16 := ⟨fun n => .ofInt n.toNat⟩
instance : ToOperand UInt32 := ⟨fun n => .ofInt n.toNat⟩
instance : ToOperand UInt64 := ⟨fun n => .ofInt n.toNat⟩
instance : ToOperand USize := ⟨fun n => .ofInt n.toNat⟩
instance : ToOperand Float := ⟨fun x => .ofBits64 x.toBits.toNat⟩
instance : ToOperand Float32 := ⟨fun x => .ofBits32 x.toBits.toNat⟩
instance : ToOperand Instant := ⟨.date⟩

instance {α : Type} [ToOperand α] : ToOperand (Option α) :=
  ⟨fun value => (value.map toOperand).getD .null⟩

instance {α : Type} [ToOperand α] : ToOperand (List α) :=
  ⟨fun items => .list (items.map toOperand)⟩

instance {α : Type} [ToOperand α] : ToOperand (Array α) :=
  ⟨fun items => .list (items.toList.map toOperand)⟩

instance {α : Type} {n : Nat} [ToOperand α] : ToOperand (Vector α n) :=
  ⟨fun items => .list (items.toList.map toOperand)⟩

end RecordQuery
