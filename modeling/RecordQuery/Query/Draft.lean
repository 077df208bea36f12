import RecordQuery.Query.Condition
import RecordQuery.Settings

set_option autoImplicit false

/-!
# Drafts

A `Draft` is a query being built: its settings, the field that was last selected, and the tokens so
far.  A call selects a field or appends one token; a call that fails leaves no draft behind.  A
draft is built into the text of its tokens, after a check of their placement where the settings ask
for one.
-/

namespace RecordQuery.Query

/-- A query being built. -/
structure Draft where
  settings : Settings := {}
  /-- the field that conditions and orderings refer to -/
  field : Option String := none
  /-- the tokens in the order in which they were appended -/
  tokens : List Token := []
  deriving DecidableEq, Repr, Inhabited

/-- One step of building a query. -/
inductive Call where
  /-- select a field -/
  | select (field : String)
  /-- add a condition on the selected field -/
  | require (condition : Condition)
  /-- add a separator -/
  | join (connective : Connective)
  /-- order by the selected field -/
  | order (direction : Direction)

namespace Draft

/-- Appends a token. -/
def push (d : Draft) (token : Token) : Draft := { d with tokens := d.tokens ++ [token] }

/-- Selects a field. -/
def select (d : Draft) (field : String) : Draft := { d with field := some field }

/-- Adds a condition on the selected field.  Without a field nothing is asked of the operand. -/
def require (d : Draft) (condition : Condition) : Except Fault Draft :=
  match d.field with
  | none => .error .missingField
  | some field => (condition.encode d.settings.clock).map fun (operator, operand) =>
      d.push (.condition field operator operand)

/-- Adds a separator. -/
def join (d : Draft) (connective : Connective) : Draft := d.push (.separator connective)

/-- Adds an ordering by the selected field; without one the ordering has an empty field. -/
def order (d : Draft) (direction : Direction) : Draft :=
  d.push (.ordering direction (d.field.getD ""))

/-- Performs a call. -/
def perform (d : Draft) : Call → Except Fault Draft
  | .select field => .ok (d.select field)
  | .require condition => d.require condition
  | .join connective => .ok (d.join connective)
  | .order direction => .ok (d.order direction)

@[simp] theorem push_settings (d : Draft) (token : Token) :
    (d.push token).settings = d.settings := rfl

@[simp] theorem push_field (d : Draft) (token : Token) : (d.push token).field = d.field := rfl

@[simp] theorem push_tokens (d : Draft) (token : Token) :
    (d.push token).tokens = d.tokens ++ [token] := rfl

@[simp] theorem select_settings (d : Draft) (field : String) :
    (d.select field).settings = d.settings := rfl

@[simp] theorem select_field (d : Draft) (field : String) :
    (d.select field).field = some field := rfl

@[simp] theorem select_tokens (d : Draft) (field : String) :
    (d.select field).tokens = d.tokens := rfl

/-- Performs calls until one fails. -/
def performAll (d : Draft) (calls : List Call) : Except Fault Draft := calls.foldlM perform d

/-- Performs a call if it succeeds, and otherwise stays as it is. -/
def attempt (d : Draft) (call : Call) : Draft :=
  match d.perform call with
  | .ok next => next
  | .error _ => d

/-- Attempts calls one after the other. -/
def attemptAll (d : Draft) (calls : List Call) : Draft := calls.foldl attempt d

theorem attempt_of_ok {d next : Draft} {call : Call} (h : d.perform call = .ok next) :
    d.attempt call = next := by
  rw [attempt, h]

theorem attempt_of_error {d : Draft} {call : Call} {fault : Fault}
    (h : d.perform call = .error fault) : d.attempt call = d := by
  rw [attempt, h]

@[simp] theorem attemptAll_nil (d : Draft) : d.attemptAll [] = d := rfl

@[simp] theorem attemptAll_cons (d : Draft) (call : Call) (calls : List Call) :
    d.attemptAll (call :: calls) = (d.attempt call).attemptAll calls := rfl

theorem attemptAll_append (d : Draft) (before after : List Call) :
    d.attemptAll (before ++ after) = (d.attemptAll before).attemptAll after :=
  List.foldl_append

theorem attemptAll_concat (d : Draft) (calls : List Call) (call : Call) :
    d.attemptAll (calls ++ [call]) = (d.attemptAll calls).attempt call :=
  d.attemptAll_append calls [call]

/-- What the draft has at the start and every call that succeeds keeps, every run of attempts
keeps. -/
theorem attemptAll_induction {motive : Draft → Prop}
    (step : ∀ d call next, motive d → d.perform call = .ok next → motive next)
    (calls : List Call) : ∀ {d : Draft}, motive d → motive (d.attemptAll calls) := by
  induction calls with
  | nil => exact fun h => h
  | cons call calls ih =>
    intro d h
    rw [attemptAll_cons]
    cases hperform : d.perform call with
    | ok next =>
      rw [attempt_of_ok hperform]
      exact ih (step d call next h hperform)
    | error fault =>
      rw [attempt_of_error hperform]
      exact ih h

@[simp] theorem performAll_nil (d : Draft) : d.performAll [] = .ok d := rfl

theorem performAll_cons (d : Draft) (call : Call) (calls : List Call) :
    d.performAll (call :: calls) = d.perform call >>= (·.performAll calls) := by
  rw [performAll, List.foldlM_cons]
  rfl

theorem performAll_of_perform {d middle : Draft} {call : Call} {calls : List Call}
    (h : d.perform call = .ok middle) :
    d.performAll (call :: calls) = middle.performAll calls := by
  rw [performAll_cons, h]
  rfl

theorem performAll_append (d : Draft) (before after : List Call) :
    d.performAll (before ++ after) = d.performAll before >>= (·.performAll after) :=
  List.foldlM_append

/-- A run in which no call fails is a run of attempts. -/
theorem attemptAll_of_performAll {calls : List Call} :
    ∀ {d final : Draft}, d.performAll calls = .ok final → d.attemptAll calls = final := by
  induction calls with
  | nil =>
    intro d final h
    exact Except.ok.inj h
  | cons call calls ih =>
    intro d final h
    cases hperform : d.perform call with
    | ok next =>
      rw [performAll_of_perform hperform] at h
      rw [attemptAll_cons, attempt_of_ok hperform]
      exact ih h
    | error fault =>
      rw [performAll_cons, hperform] at h
      cases h

/-- The text of the tokens so far. -/
def text (d : Draft) : String := textOf d.tokens

/-- The built query: the text of the tokens, if there are any and their placement is right. -/
def build (d : Draft) : Except Fault String :=
  if d.tokens.isEmpty then .error .emptyQuery
  else if d.settings.isStrict then
    match violation? d.tokens with
    | some v => .error (.malformed v)
    | none => .ok d.text
  else .ok d.text

theorem build_of_nil {d : Draft} (h : d.tokens = []) : d.build = .error .emptyQuery := by
  rw [build, h]
  rfl

theorem build_permissive {d : Draft} (hne : d.tokens ≠ []) (h : d.settings.isStrict = false) :
    d.build = .ok d.text := by
  rw [build, if_neg (by simpa using hne), h]
  rfl

theorem build_strict {d : Draft} (hne : d.tokens ≠ []) (h : d.settings.isStrict = true) :
    d.build = match violation? d.tokens with
      | some violation => .error (.malformed violation)
      | none => .ok d.text := by
  rw [build, if_neg (by simpa using hne), if_pos h]

/-- Whatever is built is the text. -/
theorem eq_text_of_build {d : Draft} {query : String} (h : d.build = .ok query) :
    query = d.text := by
  by_cases hne : d.tokens = []
  · rw [build_of_nil hne] at h
    cases h
  · cases hstrict : d.settings.isStrict with
    | false =>
      rw [build_permissive hne hstrict] at h
      exact (Except.ok.inj h).symm
    | true =>
      rw [build_strict hne hstrict] at h
      cases hviolation : violation? d.tokens with
      | some violation =>
        rw [hviolation] at h
        cases h
      | none =>
        rw [hviolation] at h
        exact (Except.ok.inj h).symm

end Draft

/-- The query that calls build under some settings. -/
def compose (settings : Settings) (calls : List Call) : Except Fault String := do
  let draft ← ({ settings } : Draft).performAll calls
  draft.build

end RecordQuery.Query
