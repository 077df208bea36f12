import Mathlib.Data.List.Forall2
import RecordQuery.Operand.Conversion
import RecordQuery.Proofs.IntegerLiterals
import RecordQuery.Query.Draft

set_option autoImplicit false

/-!
# One operand in many forms

A JSON tree of texts, numbers, booleans, nulls and arrays can be given as it is, or as a value of
one of many types: an integer of every width that has room for it, an array as a list, an array or
a vector of values that are themselves given in some form, and any value inside an option.
`StandsFor` says which values stand for a tree.  All of them are converted to the operand of the
tree (`StandsFor.toOperand_eq`), so that no call, no fault and no query tells the forms apart
(`every_form_gives_one_operand`).
-/

namespace RecordQuery

/-- A value that can be given stands for a JSON tree. -/
inductive StandsFor : {α : Type} → [ToOperand α] → α → Json → Prop where
  | json (tree : Json) : StandsFor tree tree
  | text (s : String) : StandsFor s (.text s)
  | boolean (b : Bool) : StandsFor b (.boolean b)
  | int8 (n : Int8) : StandsFor n (.number (.integer n.toInt))
  | int16 (n : Int16) : StandsFor n (.number (.integer n.toInt))
  | int32 (n : Int32) : StandsFor n (.number (.integer n.toInt))
  | int64 (n : Int64) : StandsFor n (.number (.integer n.toInt))
  | isize (n : ISize) : StandsFor n (.number (.integer n.toInt))
  | uint8 (n : UInt8) : StandsFor n (.number (.integer n.toNat))
  | uint16 (n : UInt16) : StandsFor n (.number (.integer n.toNat))
  | uint32 (n : UInt32) : StandsFor n (.number (.integer n.toNat))
  | uint64 (n : UInt64) : StandsFor n (.number (.integer n.toNat))
  | usize (n : USize) : StandsFor n (.number (.integer n.toNat))
  /-- a finite double -/
  | float {x : Float} {n : Number} (finite : Number.ofBits64? x.toBits.toNat = some n) :
      StandsFor x (.number n)
  /-- a finite double given by its bits -/
  | bits {bits : Nat} {n : Number} (finite : Number.ofBits64? bits = some n) :
      StandsFor (Operand.ofBits64 bits) (.number n)
  | absent (α : Type) [ToOperand α] : StandsFor (none : Option α) .null
  | present {α : Type} [ToOperand α] {value : α} {tree : Json} (h : StandsFor value tree) :
      StandsFor (some value) tree
  | nil (α : Type) [ToOperand α] : StandsFor ([] : List α) (.array [])
  | cons {α : Type} [ToOperand α] {head : α} {tail : List α} {tree : Json} {trees : List Json}
      (hhead : StandsFor head tree) (htail : StandsFor tail (.array trees)) :
      StandsFor (head :: tail) (.array (tree :: trees))
  | array {α : Type} [ToOperand α] {items : Array α} {trees : List Json}
      (h : StandsFor items.toList (.array trees)) : StandsFor items (.array trees)
  | vector {α : Type} [ToOperand α] {n : Nat} {items : Vector α n} {trees : List Json}
      (h : StandsFor items.toList (.array trees)) : StandsFor items (.array trees)
  /-- an operand that is converted already, so that the items of a list may differ in type -/
  | converted {α : Type} [ToOperand α] {value : α} {tree : Json} (h : StandsFor value tree) :
      StandsFor (toOperand value) tree

/-- Whatever stands for a tree is converted to the operand of the tree. -/
theorem StandsFor.toOperand_eq {α : Type} [ToOperand α] {value : α} {tree : Json}
    (h : StandsFor value tree) : toOperand value = .ofJson tree := by
  induction h with
  | json tree => rfl
  | text s => rfl
  | boolean b => rfl
  | int8 n | int16 n | int32 n | int64 n | isize n => rfl
  | uint8 n | uint16 n | uint32 n | uint64 n | usize n => rfl
  | @float x n finite =>
    show ((Number.ofBits64? x.toBits.toNat).map Operand.number).getD .null = .number n
    rw [finite]
    rfl
  | @bits bits n finite =>
    show ((Number.ofBits64? bits).map Operand.number).getD .null = .number n
    rw [finite]
    rfl
  | absent α => rfl
  | present h ih => exact ih
  | nil α => rfl
  | @cons α _ head tail tree trees hhead htail ihhead ihtail =>
    have hitems : tail.map toOperand = Operand.ofItems trees := Operand.list.inj ihtail
    show Operand.list (toOperand head :: tail.map toOperand) = _
    rw [ihhead, hitems]
    rfl
  | array h ih => exact ih
  | vector h ih => exact ih
  | converted h ih => exact ih

theorem StandsFor.operand_eq {v : Operand} {tree : Json} (h : StandsFor v tree) :
    v = .ofJson tree := h.toOperand_eq

/-- An integer is written with its decimal digits, behind a minus sign if it is negative. -/
theorem Number.text_integer (n : Int) :
    (Number.integer n).text =
      String.ofList ((if n < 0 then ['-'] else []) ++ Nat.toDigits 10 n.natAbs) := by
  rw [← toList_repr, String.ofList_toList]
  rfl

namespace Query

/-! ## Chains with operands in several forms -/

/-- One condition asked twice, with operands that are given for the same trees. -/
inductive Condition.GivenAlike : Condition → Condition → Prop where
  | refl (c : Condition) : GivenAlike c c
  | single (ask : Operand → Condition) {v w : Operand} {tree : Json} (hv : StandsFor v tree)
      (hw : StandsFor w tree) : GivenAlike (ask v) (ask w)
  | range {start finish start' finish' : Operand} {first last : Json}
      (hstart : StandsFor start first) (hstart' : StandsFor start' first)
      (hfinish : StandsFor finish last) (hfinish' : StandsFor finish' last) :
      GivenAlike (.between start finish) (.between start' finish')

/-- One call made twice, with operands that are given for the same trees. -/
inductive Call.GivenAlike : Call → Call → Prop where
  | refl (call : Call) : GivenAlike call call
  | require {c c' : Condition} (h : c.GivenAlike c') : GivenAlike (.require c) (.require c')

theorem Condition.GivenAlike.eq {c c' : Condition} (h : c.GivenAlike c') : c = c' := by
  cases h with
  | refl => rfl
  | single ask hv hw => rw [hv.operand_eq, hw.operand_eq]
  | range hstart hstart' hfinish hfinish' =>
    rw [hstart.operand_eq, hstart'.operand_eq, hfinish.operand_eq, hfinish'.operand_eq]

theorem Call.GivenAlike.eq {call call' : Call} (h : call.GivenAlike call') : call = call' := by
  cases h with
  | refl => rfl
  | require h => rw [h.eq]

end Query

/-- Values of all forms stand for one operand.

A value that stands for a tree is converted as the tree itself is; an integer in any form is written
with its exact digits; and calls whose operands are given for the same trees leave the same draft,
fail in the same call for the same reason, and compose the same query. -/
theorem every_form_gives_one_operand :
    (∀ {α : Type} [ToOperand α] (value : α) (tree : Json), StandsFor value tree →
      toOperand value = toOperand tree) ∧
    (∀ {α : Type} [ToOperand α] (value : α) (n : Int), StandsFor value (.number (.integer n)) →
      ∀ clock, (toOperand value).scalarText? clock =
        some (String.ofList ((if n < 0 then ['-'] else []) ++ Nat.toDigits 10 n.natAbs))) ∧
    (∀ calls calls' : List Query.Call, List.Forall₂ Query.Call.GivenAlike calls calls' →
      (∀ d : Query.Draft, d.attemptAll calls = d.attemptAll calls' ∧
        d.performAll calls = d.performAll calls') ∧
      ∀ settings, Query.compose settings calls = Query.compose settings calls') := by
  refine ⟨fun _ _ h => h.toOperand_eq, ?_, ?_⟩
  · intro α _ value n h clock
    rw [h.toOperand_eq]
    exact congrArg some (Number.text_integer n)
  · intro calls calls' h
    have heq : calls = calls' := List.forall₂_eq_eq_eq ▸ h.imp fun _ _ h => h.eq
    rw [heq]
    exact ⟨fun _ => ⟨rfl, rfl⟩, fun _ => rfl⟩

/-- The least and the greatest integer, a null and some options around them, in a list of arrays and
as a tree. -/
theorem every_form_gives_one_operand_nested :
    let low : List (Option Int64) := [some Int64.minValue, none]
    let high : Vector UInt64 1 := #v[18446744073709551615]
    let value : Option (Array Operand) := some #[toOperand low, toOperand high]
    let tree : Json := .array [.array [.number (.integer (-9223372036854775808)), .null],
      .array [.number (.integer 18446744073709551615)]]
    StandsFor value tree ∧ toOperand value = toOperand tree ∧
    StandsFor (18446744073709551615 : UInt64) (.number (.integer 18446744073709551615)) ∧
    (toOperand (18446744073709551615 : UInt64)).scalarText? .twelve =
      some "18446744073709551615" ∧
    ∀ d : Query.Draft,
      d.performAll [.select "a", .require (.isOneOf (toOperand value))] =
        d.performAll [.select "a", .require (.isOneOf (toOperand tree))] := by
  intro low high value tree
  have hmin : StandsFor Int64.minValue (.number (.integer (-9223372036854775808))) := .int64 _
  have hmax : StandsFor (18446744073709551615 : UInt64)
    (.number (.integer 18446744073709551615)) := .uint64 _
  have hlow : StandsFor low (.array [.number (.integer (-9223372036854775808)), .null]) :=
    .cons (.present hmin) (.cons (.absent Int64) (.nil _))
  have hhigh : StandsFor high (.array [.number (.integer 18446744073709551615)]) :=
    .vector (.cons hmax (.nil _))
  have hvalue : StandsFor value tree :=
    .present (.array (.cons (.converted hlow) (.cons (.converted hhigh) (.nil _))))
  obtain ⟨hforms, hdigits, hcalls⟩ := every_form_gives_one_operand
  have halike : List.Forall₂ Query.Call.GivenAlike
      [.select "a", .require (.isOneOf (toOperand value))]
      [.select "a", .require (.isOneOf (toOperand tree))] :=
    .cons (.refl _) (.cons (.require (.single .isOneOf (.converted hvalue)
      (.converted (.json tree)))) .nil)
  exact ⟨hvalue, hforms value tree hvalue, hmax, hdigits _ _ hmax .twelve,
    fun d => ((hcalls _ _ halike).1 d).2⟩

end RecordQuery
