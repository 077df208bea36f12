import RecordQuery.Query.Fault

set_option autoImplicit false

/-!
# Conditions

What can be asked of a field, and how the question is encoded: as an operator and the text of its
operand.  Each condition accepts some kinds of operands and refuses the others by name.

* the four conditions on the inside of a text accept a text;
* the four that look for a value have no operand;
* equality accepts a text, a number or a list, and a list turns it into membership;
* the four comparisons accept a number, a text or a date;
* a range accepts two bounds of one of these kinds.

The items of a list are texts, numbers or dates.
-/

namespace RecordQuery.Query

open Calendar (Clock)

/-- A question about a field. -/
inductive Condition where
  | startsWith (operand : Operand)
  | endsWith (operand : Operand)
  | contains (operand : Operand)
  | doesNotContain (operand : Operand)
  | isEmpty
  | isNotEmpty
  | isAnything
  | isEmptyString
  | equals (operand : Operand)
  | notEquals (operand : Operand)
  | isOneOf (operand : Operand)
  | greaterThan (operand : Operand)
  | atLeast (operand : Operand)
  | lessThan (operand : Operand)
  | atMost (operand : Operand)
  | between (start finish : Operand)

/-- The text of an operand that has to be a text. -/
def encodeText : Operand → Except Fault String
  | .text s => .ok s
  | other => .error (.unexpectedKind [.string] other.kind)

/-- The text of an operand that has to be a number, a text or a date. -/
def encodeComparable (clock : Clock) (operand : Operand) : Except Fault String :=
  match operand.scalarText? clock with
  | some s => .ok s
  | none => .error (.unexpectedKind [.number, .string, .date] operand.kind)

/-- The text of an item of a list. -/
def encodeItem (clock : Clock) (item : Operand) : Except Fault String :=
  match item.scalarText? clock with
  | some s => .ok s
  | none => .error (.unexpectedKind [.string, .number, .date] item.kind)

/-- The texts of the items of a list; the first item that has none is the fault. -/
def encodeItems (clock : Clock) : List Operand → Except Fault (List String)
  | [] => .ok []
  | item :: items => do
    let head ← encodeItem clock item
    let tail ← encodeItems clock items
    .ok (head :: tail)

/-- The text of a list: the texts of its items with commas between them. -/
def encodeList (clock : Clock) (items : List Operand) : Except Fault String :=
  (encodeItems clock items).map (String.intercalate ",")

/-- Equality with a text or a number by the operator `single`, with a list by `many`. -/
def encodeEquality (clock : Clock) (single many : Operator) :
    Operand → Except Fault (Operator × String)
  | .text s => .ok (single, s)
  | .number n => .ok (single, n.text)
  | .list items => (encodeList clock items).map (many, ·)
  | other => .error (.unexpectedKind [.string, .number, .array] other.kind)

/-- Membership in a list. -/
def encodeMembership (clock : Clock) : Operand → Except Fault String
  | .list items => encodeList clock items
  | other => .error (.unexpectedKind [.array] other.kind)

/-- The text of a range: its two bounds with an at sign between them. -/
def encodeRange (clock : Clock) (start finish : Operand) : Except Fault String :=
  match start.scalarText? clock, finish.scalarText? clock with
  | some first, some last =>
    if start.kind = finish.kind then .ok (first ++ "@" ++ last)
    else .error (.unexpectedBounds start.kind finish.kind)
  | _, _ => .error (.unexpectedBounds start.kind finish.kind)

/-- The operator of a condition and the text of its operand. -/
def Condition.encode (clock : Clock) : Condition → Except Fault (Operator × String)
  | startsWith v => (encodeText v).map (.startsWith, ·)
  | endsWith v => (encodeText v).map (.endsWith, ·)
  | contains v => (encodeText v).map (.like, ·)
  | doesNotContain v => (encodeText v).map (.notLike, ·)
  | isEmpty => .ok (.isEmpty, "")
  | isNotEmpty => .ok (.isNotEmpty, "")
  | isAnything => .ok (.anything, "")
  | isEmptyString => .ok (.emptyString, "")
  | equals v => encodeEquality clock .equal .oneOf v
  | notEquals v => encodeEquality clock .notEqual .noneOf v
  | isOneOf v => (encodeMembership clock v).map (.oneOf, ·)
  | greaterThan v => (encodeComparable clock v).map (.greater, ·)
  | atLeast v => (encodeComparable clock v).map (.greaterOrEqual, ·)
  | lessThan v => (encodeComparable clock v).map (.less, ·)
  | atMost v => (encodeComparable clock v).map (.lessOrEqual, ·)
  | between start finish => (encodeRange clock start finish).map (.between, ·)

/-! ## Texts that were encoded -/

theorem map_eq_ok_iff {α β : Type} {result : Except Fault α} {f : α → β} {b : β} :
    result.map f = .ok b ↔ ∃ a, result = .ok a ∧ f a = b := by
  cases result <;> simp [Except.map]

theorem bind_eq_ok_iff {α β : Type} {result : Except Fault α} {f : α → Except Fault β} {b : β} :
    result >>= f = .ok b ↔ ∃ a, result = .ok a ∧ f a = .ok b := by
  cases result <;> simp [bind, Except.bind]

/-- Equality is encoded by one of its two operators. -/
theorem operator_of_encodeEquality {clock : Clock} {single many operator : Operator}
    {operand : Operand} {s : String}
    (h : encodeEquality clock single many operand = .ok (operator, s)) :
    operator = single ∨ operator = many := by
  cases operand with
  | text => cases h; exact .inl rfl
  | number => cases h; exact .inl rfl
  | list items =>
    obtain ⟨_, -, hpair⟩ := map_eq_ok_iff.mp h
    cases hpair
    exact .inr rfl
  | date => cases h
  | boolean => cases h
  | object => cases h
  | null => cases h

/-- A range is encoded if its bounds are scalars of one kind. -/
theorem encodeRange_eq_ok_iff {clock : Clock} {start finish : Operand} {s : String} :
    encodeRange clock start finish = .ok s ↔
      ∃ first last, start.scalarText? clock = some first ∧ finish.scalarText? clock = some last ∧
        start.kind = finish.kind ∧ s = first ++ "@" ++ last := by
  rw [encodeRange]
  cases start.scalarText? clock with
  | none => simp
  | some first =>
    cases finish.scalarText? clock with
    | none => simp
    | some last =>
      by_cases hkind : start.kind = finish.kind
      · simp [hkind, eq_comm]
      · simp [hkind]

end RecordQuery.Query
