import RecordQuery.Proofs.Grammar
import RecordQuery.Proofs.Step

set_option autoImplicit false

/-!
# One run under two policies

No call looks at the policy.  A draft that is put under another policy performs the same calls,
fails in the same ones with the same faults, and comes to the same field and tokens
(`attemptAll_withPolicy`).  Only building looks at it, and there the strict policy checks what the
permissive one would build and hands it on as it is (`build_withPolicy_strict`).  So the strict
policy validates and never rewrites (`strict_policy_only_validates`).
-/

namespace RecordQuery.Query

open Calendar (Clock)

namespace Draft

/-- The draft under another policy. -/
def withPolicy (d : Draft) (policy : Policy) : Draft :=
  { d with settings := { d.settings with policy } }

@[simp] theorem withPolicy_field (d : Draft) (policy : Policy) :
    (d.withPolicy policy).field = d.field := rfl

@[simp] theorem withPolicy_tokens (d : Draft) (policy : Policy) :
    (d.withPolicy policy).tokens = d.tokens := rfl

/-! ## Calls -/

theorem require_withPolicy (d : Draft) (policy : Policy) (condition : Condition) :
    (d.withPolicy policy).require condition =
      (d.require condition).map (·.withPolicy policy) := by
  have hclock : (d.withPolicy policy).settings.clock = d.settings.clock := rfl
  rw [require, require, withPolicy_field, hclock]
  cases d.field with
  | none => rfl
  | some name => cases condition.encode d.settings.clock <;> rfl

/-- A call does the same under every policy. -/
theorem perform_withPolicy (d : Draft) (policy : Policy) (call : Call) :
    (d.withPolicy policy).perform call = (d.perform call).map (·.withPolicy policy) := by
  cases call with
  | select field => rfl
  | require condition => exact d.require_withPolicy policy condition
  | join connective => rfl
  | order direction => rfl

theorem attempt_withPolicy (d : Draft) (policy : Policy) (call : Call) :
    (d.withPolicy policy).attempt call = (d.attempt call).withPolicy policy := by
  rw [attempt, attempt, perform_withPolicy]
  cases d.perform call <;> rfl

/-- A run comes to the same draft under every policy, but for the policy. -/
theorem attemptAll_withPolicy (d : Draft) (policy : Policy) (calls : List Call) :
    (d.withPolicy policy).attemptAll calls = (d.attemptAll calls).withPolicy policy := by
  induction calls generalizing d with
  | nil => rfl
  | cons call calls ih => rw [attemptAll_cons, attemptAll_cons, attempt_withPolicy, ih]

/-! ## Building -/

theorem build_withPolicy_permissive (d : Draft) :
    (d.withPolicy .permissive).build =
      if d.tokens = [] then .error .emptyQuery else .ok d.text := by
  by_cases hne : d.tokens = []
  · rw [if_pos hne]
    exact build_of_nil hne
  · rw [if_neg hne]
    exact build_permissive hne rfl

/-- The strict policy checks what the permissive one builds. -/
theorem build_withPolicy_strict (d : Draft) :
    (d.withPolicy .strict).build =
      ((d.withPolicy .permissive).build >>= fun query =>
        match violation? d.tokens with
        | some violation => .error (.malformed violation)
        | none => .ok query) := by
  rw [build_withPolicy_permissive]
  by_cases hne : d.tokens = []
  · rw [if_pos hne]
    exact build_of_nil hne
  · rw [if_neg hne]
    exact build_strict hne rfl

theorem build_permissive_of_build_strict {d : Draft} {query : String}
    (h : (d.withPolicy .strict).build = .ok query) :
    (d.withPolicy .permissive).build = .ok query := by
  rw [build_withPolicy_strict, bind_eq_ok_iff] at h
  obtain ⟨built, hbuilt, hchecked⟩ := h
  cases hviolation : violation? d.tokens with
  | some violation =>
    rw [hviolation] at hchecked
    cases hchecked
  | none =>
    rw [hviolation] at hchecked
    cases hchecked
    exact hbuilt

theorem build_permissive_eq_error_iff {d : Draft} {fault : Fault} :
    (d.withPolicy .permissive).build = .error fault ↔ d.tokens = [] ∧ fault = .emptyQuery := by
  rw [build_withPolicy_permissive]
  by_cases hne : d.tokens = [] <;> simp [hne, eq_comm]

end Draft

/-- The same calls under the two policies, from new drafts with one clock, at every point of the
run.  The two drafts have one field and the same tokens, and the next call succeeds on both and
keeps it so, or fails on both with one fault.  What the strict draft is built into, the permissive
one is built into as well; both are empty or neither is; and there is nothing else that keeps a
permissive draft from being built. -/
theorem strict_policy_only_validates (clock : Clock) (calls : List Call) (position : Nat) :
    let permissive :=
      ({ settings := { clock, policy := .permissive } } : Draft).attemptAll (calls.take position)
    let strict :=
      ({ settings := { clock, policy := .strict } } : Draft).attemptAll (calls.take position)
    permissive.field = strict.field ∧
    permissive.tokens = strict.tokens ∧
    (∀ call, calls[position]? = some call →
      (∃ next next', permissive.perform call = .ok next ∧ strict.perform call = .ok next' ∧
        next.field = next'.field ∧ next.tokens = next'.tokens) ∨
      ∃ fault, permissive.perform call = .error fault ∧ strict.perform call = .error fault) ∧
    (∀ query, strict.build = .ok query → permissive.build = .ok query) ∧
    (strict.build = .error .emptyQuery ↔ permissive.build = .error .emptyQuery) ∧
    (∀ fault, permissive.build = .error fault → fault = .emptyQuery) := by
  intro permissive strict
  -- both runs are one run with its policy set afterwards
  let run := ({ settings := { clock } } : Draft).attemptAll (calls.take position)
  have hpermissive : permissive = run.withPolicy .permissive :=
    Draft.attemptAll_withPolicy { settings := { clock } } .permissive (calls.take position)
  have hstrict : strict = run.withPolicy .strict :=
    Draft.attemptAll_withPolicy { settings := { clock } } .strict (calls.take position)
  rw [hpermissive, hstrict]
  refine ⟨rfl, rfl, ?_, ?_, ?_, ?_⟩
  · intro call _
    rw [run.perform_withPolicy, run.perform_withPolicy]
    cases run.perform call with
    | ok next => exact .inl ⟨_, _, rfl, rfl, rfl, rfl⟩
    | error fault => exact .inr ⟨fault, rfl, rfl⟩
  · intro query
    exact Draft.build_permissive_of_build_strict
  · rw [Draft.build_strict_eq_emptyQuery_iff rfl, Draft.build_permissive_eq_error_iff]
    simp
  · intro fault hbuild
    exact (Draft.build_permissive_eq_error_iff.mp hbuild).2

/-- A run that is well placed after three calls and refuses the fifth; a doubled separator and an
ordering without a field stand in it later. -/
theorem strict_policy_only_validates_doubled_separator :
    let calls : List Call :=
      [.require .isEmpty, .select "a", .require (.equals (.text "1")), .join .conjunction,
        .require (.contains (.number (.integer 1))), .join .disjunction, .select "",
        .order .ascending]
    let permissive (n : Nat) : Draft :=
      ({ settings := { policy := .permissive } } : Draft).attemptAll (calls.take n)
    let strict (n : Nat) : Draft :=
      ({ settings := { policy := .strict } } : Draft).attemptAll (calls.take n)
    (strict 3).build = .ok "a=1" ∧ (permissive 3).build = .ok "a=1" ∧
    calls[4]? = some (.require (.contains (.number (.integer 1)))) ∧
    (∃ fault, (permissive 4).perform (.require (.contains (.number (.integer 1)))) = .error fault ∧
      (strict 4).perform (.require (.contains (.number (.integer 1)))) = .error fault) ∧
    (strict 1).build = .error .emptyQuery ∧ (permissive 1).build = .error .emptyQuery ∧
    (strict 8).build = .error (.malformed (.adjacent .conjunction .disjunction)) ∧
    (permissive 8).build = .ok "a=1^^ORORDERBY" := by
  intro calls permissive strict
  have hbuild : (strict 3).build = .ok "a=1" := rfl
  have hempty : (permissive 1).build = .error .emptyQuery := rfl
  obtain ⟨-, -, -, hthird, -, -⟩ := strict_policy_only_validates .twentyFour calls 3
  obtain ⟨-, -, hfifth, -, -, -⟩ := strict_policy_only_validates .twentyFour calls 4
  obtain ⟨-, -, -, -, hfirst, -⟩ := strict_policy_only_validates .twentyFour calls 1
  refine ⟨hbuild, hthird _ hbuild, rfl, ?_, hfirst.mpr hempty, hempty, rfl, rfl⟩
  rcases hfifth _ rfl with ⟨next, -, hnext, -⟩ | hfault
  · cases hnext
  · exact hfault

end RecordQuery.Query
