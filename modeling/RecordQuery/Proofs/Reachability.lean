import RecordQuery.Proofs.Step

set_option autoImplicit false

/-!
# The drafts that calls reach

Before a field is selected a draft holds separators and orderings without a field.  From then on it
holds tokens of every shape, and of a condition only this is known: an operator that asks for no
value has no operand, and the operand of a range has the mark of a range in it.  These are exactly
the drafts that runs from a new draft reach, with or without failing calls (`reachable_iff`).
-/

namespace RecordQuery.Query

open Calendar (Clock)

/-! ## What a reached draft looks like -/

/-- The operands that an operator can have. -/
def Operator.Takes : Operator → String → Prop
  | isEmpty, operand => operand = ""
  | isNotEmpty, operand => operand = ""
  | anything, operand => operand = ""
  | emptyString, operand => operand = ""
  | between, operand => '@' ∈ operand.toList
  | _, _ => True

/-- What a token can be before a field is selected. -/
def Token.IsFieldless : Token → Prop
  | condition _ _ _ => False
  | separator _ => True
  | ordering _ field => field = ""

/-- What a token can be in any draft. -/
def Token.IsEncoded : Token → Prop
  | condition _ operator operand => operator.Takes operand
  | separator _ => True
  | ordering _ _ => True

/-- The tokens of a draft agree with its current field. -/
def Draft.IsConsistent (d : Draft) : Prop :=
  match d.field with
  | none => ∀ token ∈ d.tokens, token.IsFieldless
  | some _ => ∀ token ∈ d.tokens, token.IsEncoded

theorem Token.IsFieldless.isEncoded {token : Token} (h : token.IsFieldless) :
    token.IsEncoded := by
  cases token with
  | condition field operator operand => exact False.elim h
  | separator connective => trivial
  | ordering direction field => trivial

theorem Draft.IsConsistent.isEncoded {d : Draft} (h : d.IsConsistent) :
    ∀ token ∈ d.tokens, token.IsEncoded := by
  unfold IsConsistent at h
  split at h
  · exact fun token hmem => (h token hmem).isEncoded
  · exact h

/-! ## Every run stays within the shape -/

/-- A condition is encoded with an operand that its operator takes. -/
theorem Condition.takes_of_encode {clock : Clock} {condition : Condition} {operator : Operator}
    {operand : String} (h : condition.encode clock = .ok (operator, operand)) :
    operator.Takes operand := by
  cases condition with
  | isEmpty => cases h; rfl
  | isNotEmpty => cases h; rfl
  | isAnything => cases h; rfl
  | isEmptyString => cases h; rfl
  | equals v => rcases operator_of_encodeEquality h with rfl | rfl <;> trivial
  | notEquals v => rcases operator_of_encodeEquality h with rfl | rfl <;> trivial
  | between start finish =>
    obtain ⟨s, hs, hpair⟩ := map_eq_ok_iff.mp h
    cases hpair
    obtain ⟨first, last, -, -, -, rfl⟩ := encodeRange_eq_ok_iff.mp hs
    show '@' ∈ (first ++ "@" ++ last).toList
    simp
  | _ =>
    -- the other operators take every operand
    obtain ⟨s, -, hpair⟩ := map_eq_ok_iff.mp h
    cases hpair
    trivial

theorem Call.Adds.isEncoded {clock : Clock} {field : Option String} {call : Call} {token : Token}
    (h : call.Adds clock field token) : token.IsEncoded := by
  cases h with
  | condition _ hencode => exact Condition.takes_of_encode hencode
  | separator connective => trivial
  | ordering direction => trivial

theorem Call.Adds.isFieldless {clock : Clock} {call : Call} {token : Token}
    (h : call.Adds clock none token) : token.IsFieldless := by
  cases h with
  | condition hselected _ => cases hselected
  | separator connective => trivial
  | ordering direction => rfl

theorem Draft.IsConsistent.perform {d next : Draft} {call : Call} (h : d.IsConsistent)
    (hperform : d.perform call = .ok next) : next.IsConsistent := by
  rcases perform_eq_ok_iff.mp hperform with ⟨field, rfl, rfl⟩ | ⟨token, hadds, rfl⟩
  · exact h.isEncoded
  · unfold IsConsistent at h ⊢
    rw [push_field, push_tokens]
    cases hfield : d.field with
    | none =>
      rw [hfield] at h hadds
      intro other hmem
      rcases List.mem_append.mp hmem with hmem | hmem
      · exact h other hmem
      · cases List.mem_singleton.mp hmem
        exact hadds.isFieldless
    | some field =>
      rw [hfield] at h
      intro other hmem
      rcases List.mem_append.mp hmem with hmem | hmem
      · exact h other hmem
      · cases List.mem_singleton.mp hmem
        exact hadds.isEncoded

theorem Draft.isConsistent_attemptAll (settings : Settings) (calls : List Call) :
    (({ settings } : Draft).attemptAll calls).IsConsistent :=
  attemptAll_induction (fun _ _ _ h hperform => h.perform hperform) calls
    (fun _ hmem => absurd hmem List.not_mem_nil)

/-! ## Every draft of the shape is reached -/

/-- An operand that an operator takes is the encoding of a condition, on any clock. -/
theorem Operator.Takes.exists_condition {operator : Operator} {operand : String}
    (h : operator.Takes operand) :
    ∃ condition : Condition, ∀ clock, condition.encode clock = .ok (operator, operand) := by
  cases operator with
  | startsWith => exact ⟨.startsWith (.text operand), fun _ => rfl⟩
  | endsWith => exact ⟨.endsWith (.text operand), fun _ => rfl⟩
  | like => exact ⟨.contains (.text operand), fun _ => rfl⟩
  | notLike => exact ⟨.doesNotContain (.text operand), fun _ => rfl⟩
  | isEmpty => cases h; exact ⟨.isEmpty, fun _ => rfl⟩
  | isNotEmpty => cases h; exact ⟨.isNotEmpty, fun _ => rfl⟩
  | anything => cases h; exact ⟨.isAnything, fun _ => rfl⟩
  | emptyString => cases h; exact ⟨.isEmptyString, fun _ => rfl⟩
  | equal => exact ⟨.equals (.text operand), fun _ => rfl⟩
  | notEqual => exact ⟨.notEquals (.text operand), fun _ => rfl⟩
  | oneOf => exact ⟨.isOneOf (.list [.text operand]), fun _ => rfl⟩
  | noneOf => exact ⟨.notEquals (.list [.text operand]), fun _ => rfl⟩
  | greater => exact ⟨.greaterThan (.text operand), fun _ => rfl⟩
  | greaterOrEqual => exact ⟨.atLeast (.text operand), fun _ => rfl⟩
  | less => exact ⟨.lessThan (.text operand), fun _ => rfl⟩
  | lessOrEqual => exact ⟨.atMost (.text operand), fun _ => rfl⟩
  | between =>
    -- the bounds are the two sides of a mark
    obtain ⟨left, right, hsplit⟩ := List.append_of_mem h
    have hoperand : operand = String.ofList left ++ "@" ++ String.ofList right := by
      apply String.toList_inj.mp
      simp [hsplit]
    subst hoperand
    exact ⟨.between (.text (String.ofList left)) (.text (String.ofList right)), fun _ => rfl⟩

namespace Draft

/-- Without a current field, tokens that need none can be added one by one. -/
theorem exists_calls_of_isFieldless :
    ∀ {tokens : List Token} {d : Draft}, d.field = none → (∀ token ∈ tokens, token.IsFieldless) →
      ∃ calls, d.performAll calls = .ok { d with tokens := d.tokens ++ tokens }
  | [], d, _, _ => ⟨[], by simp⟩
  | token :: rest, d, hfield, h => by
    have hcall : ∃ call, d.perform call = .ok (d.push token) := by
      have htoken : token.IsFieldless := h token List.mem_cons_self
      cases token with
      | condition field operator operand => exact False.elim htoken
      | separator connective => exact ⟨.join connective, rfl⟩
      | ordering direction field =>
        cases htoken
        refine ⟨.order direction, ?_⟩
        rw [perform, order, hfield]
        rfl
    obtain ⟨call, hcall⟩ := hcall
    obtain ⟨calls, hcalls⟩ := exists_calls_of_isFieldless (d := d.push token) hfield
      fun other hmem => h other (List.mem_cons_of_mem _ hmem)
    refine ⟨call :: calls, ?_⟩
    rw [performAll_of_perform hcall, hcalls]
    simp [push]

/-- A token of any draft can be added, if a field may be selected first. -/
theorem exists_calls_of_isEncoded {token : Token} (h : token.IsEncoded) (d : Draft) :
    ∃ calls field, d.performAll calls = .ok { d.push token with field } := by
  cases token with
  | condition field operator operand =>
    obtain ⟨condition, hencode⟩ := Operator.Takes.exists_condition h
    have hselect : d.perform (.select field) = .ok (d.select field) := rfl
    have hrequire : (d.select field).perform (.require condition) =
        .ok ((d.select field).push (.condition field operator operand)) :=
      perform_eq_ok_iff.mpr (.inr ⟨_, .condition rfl (hencode _), rfl⟩)
    refine ⟨[.select field, .require condition], some field, ?_⟩
    rw [performAll_of_perform hselect, performAll_of_perform hrequire]
    rfl
  | separator connective => exact ⟨[.join connective], d.field, rfl⟩
  | ordering direction field => exact ⟨[.select field, .order direction], some field, rfl⟩

theorem exists_calls_of_forall_isEncoded :
    ∀ {tokens : List Token} (d : Draft), (∀ token ∈ tokens, token.IsEncoded) →
      ∃ calls field, d.performAll calls = .ok { d with field, tokens := d.tokens ++ tokens }
  | [], d, _ => ⟨[], d.field, by simp⟩
  | token :: rest, d, h => by
    obtain ⟨calls, field, hcalls⟩ := exists_calls_of_isEncoded (h token List.mem_cons_self) d
    obtain ⟨more, field', hmore⟩ := exists_calls_of_forall_isEncoded { d.push token with field }
      fun other hmem => h other (List.mem_cons_of_mem _ hmem)
    refine ⟨calls ++ more, field', ?_⟩
    rw [performAll_append, hcalls]
    refine hmore.trans ?_
    simp

theorem exists_calls_of_isConsistent {d : Draft} (h : d.IsConsistent) :
    ∃ calls, ({ settings := d.settings } : Draft).performAll calls = .ok d := by
  obtain ⟨settings, field, tokens⟩ := d
  cases field with
  | none => simpa using exists_calls_of_isFieldless (d := { settings }) rfl h
  | some field =>
    obtain ⟨calls, field', hcalls⟩ := exists_calls_of_forall_isEncoded { settings } h
    refine ⟨calls ++ [.select field], ?_⟩
    rw [performAll_append, hcalls]
    simp only [List.nil_append]
    rfl

end Draft

/-- The drafts that runs from a new draft reach are those with its settings whose tokens agree with
their current field.  No call has to fail on the way, and none that fails leads anywhere else. -/
theorem reachable_iff (settings : Settings) (d : Draft) :
    ((∃ calls, ({ settings } : Draft).attemptAll calls = d) ↔
      d.settings = settings ∧ d.IsConsistent) ∧
    ((∃ calls, ({ settings } : Draft).performAll calls = .ok d) ↔
      d.settings = settings ∧ d.IsConsistent) := by
  have hsound : (∃ calls, ({ settings } : Draft).attemptAll calls = d) →
      d.settings = settings ∧ d.IsConsistent := by
    rintro ⟨calls, rfl⟩
    exact ⟨Draft.attemptAll_settings _ calls, Draft.isConsistent_attemptAll settings calls⟩
  have hcomplete : d.settings = settings ∧ d.IsConsistent →
      ∃ calls, ({ settings } : Draft).performAll calls = .ok d := by
    rintro ⟨rfl, h⟩
    exact Draft.exists_calls_of_isConsistent h
  have hattempt : (∃ calls, ({ settings } : Draft).performAll calls = .ok d) →
      ∃ calls, ({ settings } : Draft).attemptAll calls = d := by
    rintro ⟨calls, hcalls⟩
    exact ⟨calls, Draft.attemptAll_of_performAll hcalls⟩
  exact ⟨⟨hsound, fun h => hattempt (hcomplete h)⟩, ⟨fun h => hsound (hattempt h), hcomplete⟩⟩

end RecordQuery.Query
