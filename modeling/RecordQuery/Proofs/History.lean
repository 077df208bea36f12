import Mathlib.Data.List.Forall2
import Mathlib.Data.List.Induction
import RecordQuery.Proofs.Step

set_option autoImplicit false

/-!
# What a run leaves behind

A run attempts calls one after the other.  Some of them add a token, each one token; the others,
which fail or select a field, add none.  The tokens at the end are those of the calls of the first
kind, in the order of the calls, and the field in a token is the one that was selected last before
its call, however long ago (`attemptAll_history`).
-/

namespace RecordQuery.Query

open Calendar (Clock)

/-! ## Positions in a run -/

/-- The field that calls select last. -/
def lastSelected? (calls : List Call) : Option String := (calls.filterMap Call.selected?).getLast?

/-- Whether the call at a position of a run from `d` adds a token: it selects no field, and the
draft that the calls before it leave performs it. -/
def Draft.addsAt (d : Draft) (calls : List Call) (position : Nat) : Bool :=
  match calls[position]? with
  | some call =>
    call.selected?.isNone && ((d.attemptAll (calls.take position)).perform call).isOk
  | none => false

/-- The positions of the calls of a run that add a token. -/
def Draft.additions (d : Draft) (calls : List Call) : List Nat :=
  (List.range calls.length).filter (d.addsAt calls)

/-- In lists related element by element, every element on the right has one on the left. -/
theorem exists_of_mem_right {α β : Type} {R : α → β → Prop} {left : List α} {right : List β}
    (h : List.Forall₂ R left right) {b : β} (hb : b ∈ right) : ∃ a ∈ left, R a b := by
  induction h with
  | nil => cases hb
  | @cons a other left right hhead _ ih =>
    rcases List.mem_cons.mp hb with rfl | hb
    · exact ⟨a, List.mem_cons_self, hhead⟩
    · obtain ⟨a, ha, hrel⟩ := ih hb
      exact ⟨a, List.mem_cons_of_mem _ ha, hrel⟩

/-- The token that the call at a position of a run adds. -/
def AddedAt (clock : Clock) (calls : List Call) (position : Nat) (token : Token) : Prop :=
  ∃ call, calls[position]? = some call ∧
    call.Adds clock (lastSelected? (calls.take position)) token

theorem lastSelected?_concat (calls : List Call) (call : Call) :
    lastSelected? (calls ++ [call]) = call.selected?.or (lastSelected? calls) := by
  cases h : call.selected? <;> simp [lastSelected?, List.filterMap_append, h]

theorem AddedAt.concat {clock : Clock} {calls : List Call} {position : Nat} {token : Token}
    (h : AddedAt clock calls position token) (call : Call) :
    AddedAt clock (calls ++ [call]) position token := by
  obtain ⟨added, hadded, hadds⟩ := h
  have hlt : position < calls.length := (List.getElem?_eq_some_iff.mp hadded).1
  refine ⟨added, ?_, ?_⟩
  · rw [List.getElem?_append_left hlt, hadded]
  · rwa [List.take_append_of_le_length (Nat.le_of_lt hlt)]

namespace Draft

variable {d : Draft} {calls : List Call} {call : Call}

theorem mem_additions_iff {position : Nat} :
    position ∈ d.additions calls ↔
      ∃ call next, calls[position]? = some call ∧ call.selected? = none ∧
        (d.attemptAll (calls.take position)).perform call = .ok next := by
  have hok : ∀ result : Except Fault Draft, result.isOk = true ↔ ∃ next, result = .ok next := by
    intro result
    cases result <;> simp [Except.isOk, Except.toBool]
  rw [additions, List.mem_filter, List.mem_range, addsAt]
  cases h : calls[position]? with
  | none => simp
  | some call =>
    have hlt : position < calls.length := (List.getElem?_eq_some_iff.mp h).1
    simp [hlt, hok]

theorem pairwise_additions (d : Draft) (calls : List Call) :
    (d.additions calls).Pairwise (· < ·) :=
  List.Pairwise.filter _ List.pairwise_lt_range

theorem addsAt_concat_of_lt {position : Nat} (h : position < calls.length) :
    d.addsAt (calls ++ [call]) position = d.addsAt calls position := by
  rw [addsAt, addsAt, List.getElem?_append_left h, List.take_append_of_le_length (Nat.le_of_lt h)]

/-- One more call adds its own position to the list or nothing. -/
theorem additions_concat :
    d.additions (calls ++ [call]) =
      d.additions calls ++ if d.addsAt (calls ++ [call]) calls.length then [calls.length] else [] := by
  rw [additions, additions, List.length_append, List.length_singleton, List.range_succ,
    List.filter_append, List.filter_singleton, Bool.cond_eq_ite]
  congr 1
  exact List.filter_congr fun position h => addsAt_concat_of_lt (List.mem_range.mp h)

theorem addsAt_concat_length :
    d.addsAt (calls ++ [call]) calls.length =
      (call.selected?.isNone && ((d.attemptAll calls).perform call).isOk) := by
  rw [addsAt, List.getElem?_concat_length, List.take_left]

end Draft

/-! ## Runs from a new draft -/

section Runs

variable {settings : Settings} {calls : List Call} {call : Call}

/-- The current field is the field selected last. -/
theorem attemptAll_field (settings : Settings) (calls : List Call) :
    (({ settings } : Draft).attemptAll calls).field = lastSelected? calls := by
  induction calls using List.reverseRecOn with
  | nil => rfl
  | append_singleton calls call ih =>
    rw [Draft.attemptAll_concat, lastSelected?_concat]
    cases hperform : (({ settings } : Draft).attemptAll calls).perform call with
    | ok next =>
      rw [Draft.attempt_of_ok hperform]
      rcases Draft.perform_eq_ok_iff.mp hperform with ⟨field, rfl, rfl⟩ | ⟨token, hadds, rfl⟩
      · rfl
      · rw [Draft.push_field, hadds.selected?_eq_none, Option.none_or, ih]
    | error fault =>
      obtain ⟨condition, rfl, -⟩ := Draft.perform_eq_error_iff.mp hperform
      rw [Draft.attempt_of_error hperform, ih]
      rfl

/-- The tokens of a run belong to its additions, position by position. -/
theorem attemptAll_tokens (settings : Settings) (calls : List Call) :
    List.Forall₂ (AddedAt settings.clock calls) (({ settings } : Draft).additions calls)
      (({ settings } : Draft).attemptAll calls).tokens := by
  induction calls using List.reverseRecOn with
  | nil => exact .nil
  | append_singleton calls call ih =>
    have hbefore := ih.imp fun _ _ h => h.concat call
    rw [Draft.attemptAll_concat, Draft.additions_concat, Draft.addsAt_concat_length]
    cases hperform : (({ settings } : Draft).attemptAll calls).perform call with
    | ok next =>
      rw [Draft.attempt_of_ok hperform]
      rcases Draft.perform_eq_ok_iff.mp hperform with ⟨field, rfl, rfl⟩ | ⟨token, hadds, rfl⟩
      · simpa [Call.selected?] using hbefore
      · rw [Draft.attemptAll_settings, attemptAll_field] at hadds
        have hadded : AddedAt settings.clock (calls ++ [call]) calls.length token :=
          ⟨call, List.getElem?_concat_length, by rwa [List.take_left]⟩
        simpa [hadds.selected?_eq_none, Except.isOk, Except.toBool] using
          List.rel_append hbefore (.cons hadded .nil)
    | error fault =>
      rw [Draft.attempt_of_error hperform]
      simpa [Except.isOk, Except.toBool] using hbefore

/-- Every token of a run belongs to one of its additions. -/
theorem exists_addedAt_of_mem {token : Token}
    (h : token ∈ (({ settings } : Draft).attemptAll calls).tokens) :
    ∃ position ∈ ({ settings } : Draft).additions calls,
      AddedAt settings.clock calls position token :=
  exists_of_mem_right (attemptAll_tokens settings calls) h

/-- A call that adds no token changes nothing but the current field. -/
theorem attemptAll_of_not_mem_additions {position : Nat} (hcall : calls[position]? = some call)
    (h : position ∉ ({ settings } : Draft).additions calls) :
    ({ settings } : Draft).attemptAll (calls.take (position + 1)) =
      { ({ settings } : Draft).attemptAll (calls.take position) with
        field := lastSelected? (calls.take (position + 1)) } := by
  have hfield := attemptAll_field settings (calls.take (position + 1))
  have htake : calls.take (position + 1) = calls.take position ++ [call] := by
    rw [List.take_add_one, hcall, Option.toList_some]
  rw [← hfield, htake, Draft.attemptAll_concat]
  cases hperform : (({ settings } : Draft).attemptAll (calls.take position)).perform call with
  | error fault => rw [Draft.attempt_of_error hperform]
  | ok next =>
    rw [Draft.attempt_of_ok hperform]
    rcases Draft.perform_eq_ok_iff.mp hperform with ⟨field, rfl, rfl⟩ | ⟨token, hadds, rfl⟩
    · rfl
    · exact absurd (Draft.mem_additions_iff.mpr
        ⟨call, _, hcall, hadds.selected?_eq_none, hperform⟩) h

theorem attemptAll_tokens_eq_nil_iff :
    (({ settings } : Draft).attemptAll calls).tokens = [] ↔
      ({ settings } : Draft).additions calls = [] := by
  have hlength := (attemptAll_tokens settings calls).length_eq
  rw [← List.length_eq_zero_iff, ← List.length_eq_zero_iff, hlength]

end Runs

/-- What a run from a new draft leaves behind.  The positions that add a token are those of the
calls that select no field and succeed where they stand.  Each adds one token, which is the one of
its call with the field selected last before it; every other call leaves the draft as it was, the
current field apart.  The settings stay, the text is that of the tokens with nothing between them,
and a permissive draft is built into this text unless nothing was added. -/
theorem attemptAll_history (settings : Settings) (calls : List Call) :
    let start : Draft := { settings }
    let final := start.attemptAll calls
    let positions := start.additions calls
    positions.Pairwise (· < ·) ∧
    (∀ position, position ∈ positions ↔
      ∃ call next, calls[position]? = some call ∧ call.selected? = none ∧
        (start.attemptAll (calls.take position)).perform call = .ok next) ∧
    List.Forall₂ (AddedAt settings.clock calls) positions final.tokens ∧
    (∀ position call, calls[position]? = some call → position ∉ positions →
      start.attemptAll (calls.take (position + 1)) =
        { start.attemptAll (calls.take position) with
          field := lastSelected? (calls.take (position + 1)) }) ∧
    final.settings = settings ∧
    final.field = lastSelected? calls ∧
    final.text.toList = final.tokens.flatMap (·.text.toList) ∧
    (settings.policy = .permissive →
      final.build = if positions = [] then .error .emptyQuery else .ok final.text) := by
  intro start final positions
  refine ⟨start.pairwise_additions calls, fun _ => Draft.mem_additions_iff,
    attemptAll_tokens settings calls, fun _ _ => attemptAll_of_not_mem_additions,
    start.attemptAll_settings calls, attemptAll_field settings calls, toList_textOf final.tokens, ?_⟩
  intro hpolicy
  have hstrict : final.settings.isStrict = false := by
    rw [start.attemptAll_settings calls, Settings.isStrict, hpolicy]
    rfl
  by_cases hpositions : positions = []
  · rw [if_pos hpositions]
    exact Draft.build_of_nil (attemptAll_tokens_eq_nil_iff.mpr hpositions)
  · rw [if_neg hpositions]
    exact Draft.build_permissive (mt attemptAll_tokens_eq_nil_iff.mp hpositions) hstrict

/-- A run with two calls that fail, an ordering before any field and a condition on a list. -/
theorem attemptAll_history_mixed_run :
    let calls : List Call :=
      [.require (.equals (.text "1")), .order .ascending, .select "a",
        .require (.contains (.number (.integer 1))),
        .require (.equals (.list [.text "x", .number (.integer 2)])), .join .disjunction,
        .select "b", .order .descending]
    ({} : Settings).policy = .permissive ∧
      (({} : Draft).attemptAll calls).build = .ok "ORDERBYaINx,2^ORORDERBYDESCb" := by
  intro calls
  refine ⟨rfl, ?_⟩
  have h := (attemptAll_history {} calls).2.2.2.2.2.2.2 rfl
  exact h.trans rfl

end RecordQuery.Query
