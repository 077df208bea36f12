import RecordQuery.Proofs.Folds
import RecordQuery.Query.Draft

set_option autoImplicit false

/-!
# One step of a draft

A call that succeeds selects a field or adds one token, and which of the two can be told from the
call (`perform_eq_ok_iff`).  Everything that holds of whole runs is derived from this case
distinction; no later module unfolds a call.
-/

namespace RecordQuery.Query

open Calendar (Clock)

/-- The field that a call selects. -/
def Call.selected? : Call → Option String
  | select field => some field
  | _ => none

/-- The token that a call adds when `field` was selected last: a condition on that field, a
separator, or an ordering by that field or by none. -/
inductive Call.Adds (clock : Clock) (field : Option String) : Call → Token → Prop where
  | condition {name : String} {condition : Condition} {operator : Operator} {operand : String}
      (selected : field = some name)
      (encoded : condition.encode clock = .ok (operator, operand)) :
      Adds clock field (.require condition) (.condition name operator operand)
  | separator (connective : Connective) :
      Adds clock field (.join connective) (.separator connective)
  | ordering (direction : Direction) :
      Adds clock field (.order direction) (.ordering direction (field.getD ""))

theorem Call.Adds.selected?_eq_none {clock : Clock} {field : Option String} {call : Call}
    {token : Token} (h : call.Adds clock field token) : call.selected? = none := by
  cases h <;> rfl

/-- What a condition call needs to succeed, and what it then does. -/
theorem Draft.require_eq_ok_iff {d next : Draft} {condition : Condition} :
    d.require condition = .ok next ↔
      ∃ name operator operand, d.field = some name ∧
        condition.encode d.settings.clock = .ok (operator, operand) ∧
          next = d.push (.condition name operator operand) := by
  rw [Draft.require]
  cases d.field with
  | none => simp
  | some name =>
    cases condition.encode d.settings.clock with
    | error fault => simp [Except.map]
    | ok encoded =>
      constructor
      · intro h
        exact ⟨name, encoded.1, encoded.2, rfl, rfl, (Except.ok.inj h).symm⟩
      · rintro ⟨_, _, _, hname, hencoded, rfl⟩
        cases hname
        cases hencoded
        rfl

/-- How a condition call fails: before it looks at its operand if there is no field, and otherwise
as the encoding of the condition does. -/
theorem Draft.require_eq_error_iff {d : Draft} {condition : Condition} {fault : Fault} :
    d.require condition = .error fault ↔
      (d.field = none ∧ fault = .missingField) ∨
      ((∃ name, d.field = some name) ∧ condition.encode d.settings.clock = .error fault) := by
  rw [Draft.require]
  cases d.field with
  | none => simp [eq_comm]
  | some name => cases condition.encode d.settings.clock <;> simp [Except.map]

/-- A call that succeeds selects a field or adds a token. -/
theorem Draft.perform_eq_ok_iff {d next : Draft} {call : Call} :
    d.perform call = .ok next ↔
      (∃ field, call = .select field ∧ next = d.select field) ∨
      (∃ token, call.Adds d.settings.clock d.field token ∧ next = d.push token) := by
  constructor
  · intro h
    cases call with
    | select field => exact .inl ⟨field, rfl, (Except.ok.inj h).symm⟩
    | require condition =>
      obtain ⟨name, operator, operand, hfield, hencode, rfl⟩ := require_eq_ok_iff.mp h
      exact .inr ⟨_, .condition hfield hencode, rfl⟩
    | join connective => exact .inr ⟨_, .separator connective, (Except.ok.inj h).symm⟩
    | order direction => exact .inr ⟨_, .ordering direction, (Except.ok.inj h).symm⟩
  · rintro (⟨field, rfl, rfl⟩ | ⟨token, hadds, rfl⟩)
    · rfl
    · cases hadds with
      | condition hfield hencode => exact require_eq_ok_iff.mpr ⟨_, _, _, hfield, hencode, rfl⟩
      | separator connective => rfl
      | ordering direction => rfl

/-- Only a condition call can fail. -/
theorem Draft.perform_eq_error_iff {d : Draft} {call : Call} {fault : Fault} :
    d.perform call = .error fault ↔
      ∃ condition, call = .require condition ∧ d.require condition = .error fault := by
  cases call <;> simp [Draft.perform]

/-- No call changes the settings. -/
theorem Draft.perform_settings {d next : Draft} {call : Call} (h : d.perform call = .ok next) :
    next.settings = d.settings := by
  rcases perform_eq_ok_iff.mp h with ⟨field, rfl, rfl⟩ | ⟨token, -, rfl⟩ <;> rfl

/-- Calls that stop at a fault stop at the first call that fails. -/
theorem Draft.performAll_eq_error_iff {d : Draft} {calls : List Call} {fault : Fault} :
    d.performAll calls = .error fault ↔
      ∃ before call after middle, calls = before ++ call :: after ∧
        d.performAll before = .ok middle ∧ middle.perform call = .error fault :=
  foldlM_eq_error_iff

theorem Draft.attemptAll_settings (d : Draft) (calls : List Call) :
    (d.attemptAll calls).settings = d.settings :=
  attemptAll_induction (fun _ _ _ h hperform => (perform_settings hperform).trans h) calls rfl

end RecordQuery.Query
