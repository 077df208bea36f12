import Mathlib.Data.List.Forall2
import RecordQuery.Query.Condition

set_option autoImplicit false

/-!
# What an encoded operand is made of

A condition takes the texts of its parts, which are its operands or the items of a list, and writes
them with one mark between each two: an at sign in a range, a comma in a list
(`Condition.exists_texts_of_encode`).  The clock has a say in these texts only: whether a condition
is encoded, by which operator, and with which fault otherwise does not depend on it
(`Condition.map_fst_encode`).
-/

namespace RecordQuery

open Calendar (Clock)

/-- What an operand is written from: the items of a list, and otherwise the operand itself. -/
def Operand.parts : Operand → List Operand
  | list items => items
  | operand => [operand]

/-- Whether an operand has a text of its own. -/
def Operand.isScalar : Operand → Bool
  | text _ => true
  | number _ => true
  | date _ => true
  | _ => false

theorem Operand.isSome_scalarText? (clock : Clock) (operand : Operand) :
    (operand.scalarText? clock).isSome = operand.isScalar := by
  cases operand <;> rfl

theorem Operand.exists_scalarText? (clock : Clock) {operand : Operand}
    (h : operand.isScalar = true) : ∃ s, operand.scalarText? clock = some s := by
  rw [← operand.isSome_scalarText? clock] at h
  exact Option.isSome_iff_exists.mp h

theorem Operand.isScalar_of_scalarText? {clock : Clock} {operand : Operand} {s : String}
    (h : operand.scalarText? clock = some s) : operand.isScalar = true := by
  rw [← operand.isSome_scalarText? clock, h]
  rfl

theorem Operand.parts_of_scalarText? {clock : Clock} {operand : Operand} {s : String}
    (h : operand.scalarText? clock = some s) : operand.parts = [operand] := by
  cases operand with
  | list items => cases h
  | _ => rfl

namespace Query

/-- What a condition is written from. -/
def Condition.parts : Condition → List Operand
  | isEmpty => []
  | isNotEmpty => []
  | isAnything => []
  | isEmptyString => []
  | between start finish => [start, finish]
  | startsWith v => v.parts
  | endsWith v => v.parts
  | contains v => v.parts
  | doesNotContain v => v.parts
  | equals v => v.parts
  | notEquals v => v.parts
  | isOneOf v => v.parts
  | greaterThan v => v.parts
  | atLeast v => v.parts
  | lessThan v => v.parts
  | atMost v => v.parts

/-- What is written between two parts. -/
def Condition.mark : Condition → String
  | between _ _ => "@"
  | _ => ","

/-- The texts of operands, one by one. -/
def Renders (clock : Clock) : List Operand → List String → Prop :=
  List.Forall₂ fun operand text => operand.scalarText? clock = some text

/-! ## The texts of an encoding -/

section Texts

variable {clock : Clock} {operand : Operand} {s : String}

theorem encodeText_eq_ok_iff : encodeText operand = .ok s ↔ operand = .text s := by
  cases operand <;> simp [encodeText]

theorem encodeComparable_eq_ok_iff :
    encodeComparable clock operand = .ok s ↔ operand.scalarText? clock = some s := by
  rw [encodeComparable]
  cases operand.scalarText? clock <;> simp

theorem encodeItem_eq_ok_iff :
    encodeItem clock operand = .ok s ↔ operand.scalarText? clock = some s := by
  rw [encodeItem]
  cases operand.scalarText? clock <;> simp

/-- A list is encoded item by item. -/
theorem encodeItems_eq_ok_iff {items : List Operand} {texts : List String} :
    encodeItems clock items = .ok texts ↔ Renders clock items texts := by
  induction items generalizing texts with
  | nil =>
    rw [encodeItems, Renders, List.forall₂_nil_left_iff]
    simp [eq_comm]
  | cons item items ih =>
    have hcons : encodeItems clock (item :: items) = .ok texts ↔
        ∃ head, encodeItem clock item = .ok head ∧
          ∃ tail, encodeItems clock items = .ok tail ∧ head :: tail = texts := by
      rw [encodeItems, bind_eq_ok_iff]
      simp only [bind_eq_ok_iff, Except.ok.injEq]
    rw [hcons, Renders, List.forall₂_cons_left_iff]
    simp only [encodeItem_eq_ok_iff, ih, ← exists_and_left]
    simp only [Renders, eq_comm]

end Texts

/-- A list is encoded as the texts of its items with commas between them. -/
theorem encodeList_eq_ok_iff {clock : Clock} {items : List Operand} {s : String} :
    encodeList clock items = .ok s ↔
      ∃ texts, Renders clock items texts ∧ s = String.intercalate "," texts := by
  rw [encodeList, map_eq_ok_iff]
  simp only [encodeItems_eq_ok_iff]
  simp only [eq_comm]

theorem encodeMembership_eq_ok_iff {clock : Clock} {operand : Operand} {s : String} :
    encodeMembership clock operand = .ok s ↔
      ∃ items, operand = .list items ∧ encodeList clock items = .ok s := by
  cases operand <;> simp [encodeMembership]

/-- The texts of the one operand of a condition, which is no list. -/
theorem exists_texts_of_scalarText? {clock : Clock} {operand : Operand} {s : String}
    (h : operand.scalarText? clock = some s) :
    ∃ texts, Renders clock operand.parts texts ∧ s = String.intercalate "," texts := by
  refine ⟨[s], ?_, String.intercalate_singleton.symm⟩
  rw [Operand.parts_of_scalarText? h]
  exact .cons h .nil

theorem exists_texts_of_encodeText {clock : Clock} {operand : Operand} {s : String}
    (h : encodeText operand = .ok s) :
    ∃ texts, Renders clock operand.parts texts ∧ s = String.intercalate "," texts := by
  obtain rfl := encodeText_eq_ok_iff.mp h
  exact exists_texts_of_scalarText? rfl

theorem exists_texts_of_encodeEquality {clock : Clock} {single many operator : Operator}
    {operand : Operand} {s : String}
    (h : encodeEquality clock single many operand = .ok (operator, s)) :
    ∃ texts, Renders clock operand.parts texts ∧ s = String.intercalate "," texts := by
  cases operand with
  | text value =>
    cases h
    exact exists_texts_of_scalarText? rfl
  | number n =>
    cases h
    exact exists_texts_of_scalarText? rfl
  | list items =>
    obtain ⟨text, htext, hpair⟩ := map_eq_ok_iff.mp h
    cases hpair
    exact encodeList_eq_ok_iff.mp htext
  | date i => cases h
  | boolean value => cases h
  | object fields => cases h
  | null => cases h

/-- The operand of an encoded condition consists of the texts of its parts, in their order, with
marks between them. -/
theorem Condition.exists_texts_of_encode {clock : Clock} {condition : Condition}
    {operator : Operator} {operand : String}
    (h : condition.encode clock = .ok (operator, operand)) :
    ∃ texts, Renders clock condition.parts texts ∧ operand = condition.mark.intercalate texts := by
  cases condition with
  | isEmpty => cases h; exact ⟨[], .nil, rfl⟩
  | isNotEmpty => cases h; exact ⟨[], .nil, rfl⟩
  | isAnything => cases h; exact ⟨[], .nil, rfl⟩
  | isEmptyString => cases h; exact ⟨[], .nil, rfl⟩
  | equals v => exact exists_texts_of_encodeEquality h
  | notEquals v => exact exists_texts_of_encodeEquality h
  | isOneOf v =>
    obtain ⟨s, hs, hpair⟩ := map_eq_ok_iff.mp h
    cases hpair
    obtain ⟨items, rfl, hitems⟩ := encodeMembership_eq_ok_iff.mp hs
    exact encodeList_eq_ok_iff.mp hitems
  | between start finish =>
    obtain ⟨s, hs, hpair⟩ := map_eq_ok_iff.mp h
    cases hpair
    obtain ⟨first, last, hfirst, hlast, -, rfl⟩ := encodeRange_eq_ok_iff.mp hs
    refine ⟨[first, last], .cons hfirst (.cons hlast .nil), ?_⟩
    rw [String.intercalate_cons_cons, String.intercalate_singleton]
    rfl
  | startsWith v | endsWith v | contains v | doesNotContain v =>
    obtain ⟨s, hs, hpair⟩ := map_eq_ok_iff.mp h
    cases hpair
    exact exists_texts_of_encodeText hs
  | greaterThan v | atLeast v | lessThan v | atMost v =>
    obtain ⟨s, hs, hpair⟩ := map_eq_ok_iff.mp h
    cases hpair
    exact exists_texts_of_scalarText? (encodeComparable_eq_ok_iff.mp hs)

/-! ## What does not depend on the clock -/

section Clocks

variable {α : Type} (clock other : Clock)

theorem map_fst_pair (result : Except Fault String) (operator : Operator) :
    (result.map (operator, ·)).map (·.1) = result.map fun _ => operator := by
  cases result <;> rfl

/-- Whether an operand can be compared depends on its kind only. -/
theorem map_const_encodeComparable (a : α) (operand : Operand) :
    (encodeComparable clock operand).map (fun _ => a) =
      if operand.isScalar then .ok a
      else .error (.unexpectedKind [.number, .string, .date] operand.kind) := by
  rw [encodeComparable, ← operand.isSome_scalarText? clock]
  cases operand.scalarText? clock <;> rfl

/-- Whether an operand can stand in a list depends on its kind only. -/
theorem map_const_encodeItem (a : α) (item : Operand) :
    (encodeItem clock item).map (fun _ => a) =
      if item.isScalar then .ok a
      else .error (.unexpectedKind [.string, .number, .date] item.kind) := by
  rw [encodeItem, ← item.isSome_scalarText? clock]
  cases item.scalarText? clock <;> rfl

/-- Whether two operands bound a range depends on their kinds only. -/
theorem map_const_encodeRange (a : α) (start finish : Operand) :
    (encodeRange clock start finish).map (fun _ => a) =
      if start.isScalar ∧ finish.isScalar ∧ start.kind = finish.kind then .ok a
      else .error (.unexpectedBounds start.kind finish.kind) := by
  rw [encodeRange, ← start.isSome_scalarText? clock, ← finish.isSome_scalarText? clock]
  cases start.scalarText? clock with
  | none => simp [Except.map]
  | some first =>
    cases finish.scalarText? clock with
    | none => simp [Except.map]
    | some last => by_cases hkind : start.kind = finish.kind <;> simp [hkind, Except.map]

theorem map_const_encodeItems_cons (a : α) (item : Operand) (items : List Operand) :
    (encodeItems clock (item :: items)).map (fun _ => a) =
      (encodeItem clock item).map (fun _ => ()) >>= fun _ =>
        (encodeItems clock items).map fun _ => a := by
  rw [encodeItems]
  cases encodeItem clock item with
  | error fault => rfl
  | ok head => cases encodeItems clock items <;> rfl

theorem map_const_encodeItems (a : α) (items : List Operand) :
    (encodeItems clock items).map (fun _ => a) = (encodeItems other items).map (fun _ => a) := by
  induction items with
  | nil => rfl
  | cons item items ih =>
    rw [map_const_encodeItems_cons, map_const_encodeItems_cons, map_const_encodeItem,
      map_const_encodeItem, ih]

theorem map_const_encodeList_eq (a : α) (items : List Operand) :
    (encodeList clock items).map (fun _ => a) = (encodeItems clock items).map (fun _ => a) := by
  rw [encodeList]
  cases encodeItems clock items <;> rfl

theorem map_const_encodeList (a : α) (items : List Operand) :
    (encodeList clock items).map (fun _ => a) = (encodeList other items).map (fun _ => a) := by
  rw [map_const_encodeList_eq, map_const_encodeList_eq, map_const_encodeItems clock other]

theorem map_const_encodeMembership (a : α) (operand : Operand) :
    (encodeMembership clock operand).map (fun _ => a) =
      (encodeMembership other operand).map (fun _ => a) := by
  cases operand with
  | list items => exact map_const_encodeList clock other a items
  | _ => rfl

theorem map_fst_encodeEquality (single many : Operator) (operand : Operand) :
    (encodeEquality clock single many operand).map (·.1) =
      (encodeEquality other single many operand).map (·.1) := by
  cases operand with
  | list items =>
    rw [encodeEquality, encodeEquality, map_fst_pair, map_fst_pair]
    exact map_const_encodeList clock other many items
  | _ => rfl

/-- A fault of a condition can be told without its operand. -/
theorem encode_eq_error_iff_map_fst {condition : Condition} {fault : Fault} :
    condition.encode clock = .error fault ↔
      (condition.encode clock).map (·.1) = .error fault := by
  cases condition.encode clock <;> simp [Except.map]

/-- The operator of a condition, or the fault in it, is the same on every clock. -/
theorem Condition.map_fst_encode (condition : Condition) :
    (condition.encode clock).map (·.1) = (condition.encode other).map (·.1) := by
  cases condition with
  | equals v => exact map_fst_encodeEquality clock other _ _ v
  | notEquals v => exact map_fst_encodeEquality clock other _ _ v
  | isOneOf v =>
    rw [encode, encode, map_fst_pair, map_fst_pair]
    exact map_const_encodeMembership clock other _ v
  | greaterThan v | atLeast v | lessThan v | atMost v =>
    rw [encode, encode, map_fst_pair, map_fst_pair, map_const_encodeComparable,
      map_const_encodeComparable]
  | between start finish =>
    rw [encode, encode, map_fst_pair, map_fst_pair, map_const_encodeRange, map_const_encodeRange]
  | _ => rfl

theorem Condition.encode_eq_error_iff (condition : Condition) (fault : Fault) :
    condition.encode clock = .error fault ↔ condition.encode other = .error fault := by
  rw [encode_eq_error_iff_map_fst, encode_eq_error_iff_map_fst, condition.map_fst_encode clock other]

end Clocks

end Query

end RecordQuery
