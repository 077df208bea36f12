import Mathlib.Data.List.Basic
import RecordQuery.Proofs.Grammar
import RecordQuery.Proofs.Reachability

set_option autoImplicit false

/-!
# What a strict draft can still become

Calls only add tokens behind those that are there, so a strict draft can still be built into a query
when its tokens are the front of a word of the grammar.  A front of a word is empty, a word, or a
word with one separator behind it (`IsQuery.front`), and a condition completes each of these.  In
every other draft the fault is there to stay: later calls can change which rule is reported, but no
call makes the draft buildable (`build_after_calls_iff`).
-/

namespace RecordQuery.Query

/-! ## Fronts of words -/

/-- Tokens that some calls complete: none at all, a well placed query, or a well placed query with
one separator behind it. -/
def IsCompletable (tokens : List Token) : Prop :=
  tokens = [] ∨ violation? tokens = none ∨
    ∃ query connective, query ≠ [] ∧ violation? query = none ∧
      tokens = query ++ [.separator connective]

/-- Two words with a separator between them are a word. -/
theorem IsQuery.join_query {left right : List Token} (hleft : IsQuery left)
    (connective : Connective) (hright : IsQuery right) :
    IsQuery (left ++ .separator connective :: right) := by
  induction hleft with
  | segment h => exact .join connective h hright
  | join other h _ ih =>
    rw [List.append_assoc, List.cons_append]
    exact .join other h ih

/-- A word goes on with conditions. -/
theorem IsQuery.append_conditions {left right : List Token} (hleft : IsQuery left)
    (hright : IsConditions right) : IsQuery (left ++ right) := by
  induction hleft with
  | segment h => exact .segment (h.append hright)
  | join connective h _ ih =>
    rw [List.append_assoc, List.cons_append]
    exact .join connective h ih

/-- A front that ends with no separator breaks no rule if the whole breaks none. -/
theorem IsQuery.of_append {left right : List Token} (h : IsQuery (left ++ right))
    (hne : left ≠ [])
    (hlast : ∀ token, left.getLast? = some token → token.isSeparator = false) :
    IsQuery left := by
  obtain ⟨hhead, -, hinner⟩ := violation?_eq_none_iff.mp h.violation?_eq_none
  refine isQuery_iff.mpr ⟨hne, violation?_eq_none_iff.mpr ⟨?_, hlast, ?_⟩⟩
  · rwa [List.head?_append_of_ne_nil _ hne] at hhead
  · exact (innerViolation?_append_eq_none_iff.mp hinner).1

/-- The tokens before a separator of a word are a word. -/
theorem IsQuery.before_separator {left right : List Token} {connective : Connective}
    (h : IsQuery (left ++ .separator connective :: right)) : IsQuery left := by
  obtain ⟨hhead, -, hinner⟩ := violation?_eq_none_iff.mp h.violation?_eq_none
  have hne : left ≠ [] := by
    rintro rfl
    cases hhead _ rfl
  have hseparator := (innerViolation?_append_eq_none_iff.mp hinner).2
  rw [Option.or_none, innerViolation?_cons_eq_none_iff,
    Token.violation?_separator_eq_none_iff] at hseparator
  exact h.of_append hne hseparator.1

/-- A front of a word is empty, a word, or a word and a separator. -/
theorem IsQuery.front {left right : List Token} (h : IsQuery (left ++ right)) :
    IsCompletable left := by
  rcases List.eq_nil_or_concat' left with rfl | ⟨front, last, rfl⟩
  · exact .inl rfl
  · cases last with
    | separator connective =>
      rw [List.append_assoc, List.singleton_append] at h
      obtain ⟨hne, hfront⟩ := isQuery_iff.mp h.before_separator
      exact .inr (.inr ⟨front, connective, hne, hfront, rfl⟩)
    | condition field operator operand =>
      have hquery := h.of_append (by simp) (by simp [Token.isSeparator])
      exact .inr (.inl hquery.violation?_eq_none)
    | ordering direction field =>
      have hquery := h.of_append (by simp) (by simp [Token.isSeparator])
      exact .inr (.inl hquery.violation?_eq_none)

/-- A condition completes every front of a word. -/
theorem IsCompletable.isQuery_concat {tokens : List Token} (h : IsCompletable tokens)
    (field : String) (operator : Operator) (operand : String) :
    IsQuery (tokens ++ [.condition field operator operand]) := by
  have hcondition : IsQuery [.condition field operator operand] :=
    .segment (.condition field operator operand .nil)
  by_cases hne : tokens = []
  · subst hne
    exact hcondition
  · rcases h with hnil | hviolation | ⟨query, connective, hquery, hviolation, rfl⟩
    · exact absurd hnil hne
    · exact (isQuery_iff.mpr ⟨hne, hviolation⟩).append_conditions
        (.cons field operator operand .nil)
    · rw [List.append_assoc, List.singleton_append]
      exact (isQuery_iff.mpr ⟨hquery, hviolation⟩).join_query connective hcondition

/-- A list that can be completed breaks no rule or ends with a separator. -/
theorem IsCompletable.violation?_eq {tokens : List Token} (h : IsCompletable tokens)
    {violation : Violation} (hviolation : violation? tokens = some violation) :
    ∃ connective, violation = .trailing connective := by
  rcases h with rfl | hnone | ⟨query, connective, hne, hquery, rfl⟩
  · cases hviolation
  · rw [hnone] at hviolation
    cases hviolation
  · refine ⟨connective, ?_⟩
    have hhead := (violation?_eq_none_iff.mp hquery).1
    have hleading :
        endViolation? .leading (query ++ [Token.separator connective]).head? = none := by
      rw [List.head?_append_of_ne_nil _ hne, endViolation?_eq_none_iff]
      exact hhead
    rw [violation?, hleading, List.getLast?_concat] at hviolation
    exact (Option.some.inj hviolation).symm

/-! ## Calls after calls -/

namespace Draft

/-- Calls leave the tokens that are there in their place. -/
theorem exists_attemptAll_tokens (d : Draft) (calls : List Call) :
    ∃ added, (d.attemptAll calls).tokens = d.tokens ++ added := by
  refine attemptAll_induction (motive := fun final => ∃ added, final.tokens = d.tokens ++ added)
    ?_ calls ⟨[], (List.append_nil _).symm⟩
  rintro middle call next ⟨added, hadded⟩ hperform
  rcases perform_eq_ok_iff.mp hperform with ⟨field, rfl, rfl⟩ | ⟨token, -, rfl⟩
  · exact ⟨added, hadded⟩
  · refine ⟨added ++ [token], ?_⟩
    rw [push_tokens, hadded, List.append_assoc]

/-- Calls complete what can be completed, none of them failing. -/
theorem exists_performAll_of_isCompletable {d : Draft} (hstrict : d.settings.isStrict = true)
    (h : IsCompletable d.tokens) :
    ∃ calls final query, d.performAll calls = .ok final ∧ final.build = .ok query := by
  have htoken : (Token.condition "" .anything "").IsEncoded := rfl
  obtain ⟨calls, field, hcalls⟩ := exists_calls_of_isEncoded htoken d
  refine ⟨calls, _, _, hcalls, (build_strict_eq_ok_iff ?_).mpr ⟨?_, rfl⟩⟩
  · exact hstrict
  · exact h.isQuery_concat "" .anything ""

/-- What calls build was there to be completed. -/
theorem isCompletable_of_attemptAll {d : Draft} (hstrict : d.settings.isStrict = true)
    {calls : List Call} {query : String} (h : (d.attemptAll calls).build = .ok query) :
    IsCompletable d.tokens := by
  have hstrict' : (d.attemptAll calls).settings.isStrict = true := by
    rwa [attemptAll_settings]
  obtain ⟨added, hadded⟩ := d.exists_attemptAll_tokens calls
  have hquery := ((build_strict_eq_ok_iff hstrict').mp h).1
  rw [hadded] at hquery
  exact hquery.front

/-- Without tokens that can be completed, the draft is malformed after all calls. -/
theorem build_attemptAll_of_not_isCompletable {d : Draft}
    (hstrict : d.settings.isStrict = true) (h : ¬ IsCompletable d.tokens) (calls : List Call) :
    ∃ violation, (d.attemptAll calls).build = .error (.malformed violation) := by
  have hstrict' : (d.attemptAll calls).settings.isStrict = true := by
    rwa [attemptAll_settings]
  obtain ⟨added, hadded⟩ := d.exists_attemptAll_tokens calls
  refine (build_strict_eq_malformed_iff hstrict').mpr ⟨?_, ?_⟩
  · intro hnil
    rw [hadded] at hnil
    exact h (.inl (List.append_eq_nil_iff.mp hnil).1)
  · intro hquery
    rw [hadded] at hquery
    exact h hquery.front

end Draft

/-- A strict draft can still be built after some calls, be it that none of them or that some of them
fail, exactly when it has no tokens, breaks no rule, or breaks none but for one separator behind a
query.  So a draft that is malformed in any other way than by the separator at its end is malformed
after all calls. -/
theorem build_after_calls_iff (clock : Calendar.Clock) (field : Option String)
    (tokens : List Token) :
    let d : Draft := { settings := { clock, policy := .strict }, field, tokens }
    ((∃ calls query, (d.attemptAll calls).build = .ok query) ↔ IsCompletable tokens) ∧
    ((∃ calls final query, d.performAll calls = .ok final ∧ final.build = .ok query) ↔
      IsCompletable tokens) ∧
    (∀ violation, d.build = .error (.malformed violation) →
      (∀ connective, violation ≠ .trailing connective) →
        ∀ calls, ∃ later, (d.attemptAll calls).build = .error (.malformed later)) := by
  intro d
  have hstrict : d.settings.isStrict = true := rfl
  have hcomplete : IsCompletable tokens →
      ∃ calls final query, d.performAll calls = .ok final ∧ final.build = .ok query :=
    Draft.exists_performAll_of_isCompletable hstrict
  have hattempt : (∃ calls final query, d.performAll calls = .ok final ∧
      final.build = .ok query) → ∃ calls query, (d.attemptAll calls).build = .ok query := by
    rintro ⟨calls, final, query, hcalls, hbuild⟩
    exact ⟨calls, query, by rwa [Draft.attemptAll_of_performAll hcalls]⟩
  have hsound : (∃ calls query, (d.attemptAll calls).build = .ok query) →
      IsCompletable tokens := by
    rintro ⟨calls, query, hbuild⟩
    exact Draft.isCompletable_of_attemptAll hstrict hbuild
  refine ⟨⟨hsound, fun h => hattempt (hcomplete h)⟩, ⟨fun h => hsound (hattempt h), hcomplete⟩, ?_⟩
  intro violation hbuild htrailing calls
  refine Draft.build_attemptAll_of_not_isCompletable hstrict ?_ calls
  intro hcompletable
  have hne : tokens ≠ [] := by
    intro hnil
    rw [Draft.build_of_nil hnil] at hbuild
    cases hbuild
  have hviolation : violation? tokens = some violation := by
    rw [Draft.build_strict hne hstrict] at hbuild
    cases hcheck : violation? tokens with
    | none =>
      rw [show violation? d.tokens = none from hcheck] at hbuild
      cases hbuild
    | some other =>
      rw [show violation? d.tokens = some other from hcheck] at hbuild
      cases hbuild
      rfl
  obtain ⟨connective, heq⟩ := hcompletable.violation?_eq hviolation
  exact htrailing connective heq

/-- Two separators side by side are reported no longer once another one ends the query, and no calls
mend them. -/
theorem build_after_calls_iff_adjacent_separators :
    let d : Draft :=
      { settings := { policy := .strict }
        tokens := [.condition "a" .equal "1", .separator .conjunction, .separator .disjunction,
          .condition "b" .equal "2"] }
    d.build = .error (.malformed (.adjacent .conjunction .disjunction)) ∧
    (d.attemptAll [.join .newGroup]).build = .error (.malformed (.trailing .newGroup)) ∧
    ∀ calls, ∃ later, (d.attemptAll calls).build = .error (.malformed later) := by
  intro d
  have hbuild : d.build = .error (.malformed (.adjacent .conjunction .disjunction)) := rfl
  refine ⟨hbuild, rfl, ?_⟩
  exact (build_after_calls_iff .twentyFour none d.tokens).2.2 _ hbuild (by intro _ h; cases h)

end RecordQuery.Query
