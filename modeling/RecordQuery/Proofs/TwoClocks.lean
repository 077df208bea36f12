import RecordQuery.Proofs.Encoding
import RecordQuery.Proofs.History

set_option autoImplicit false

/-!
# One run on two clocks

The same calls are attempted from two new drafts that differ in their clock.  Step by step the same
calls fail, with the same faults, and the tokens differ in the operands of conditions alone, there
in the literals of dates, and in a literal in the two digits of its hour
(`run_on_both_clocks`).  So both drafts are built, into queries of one length, or neither is.
-/

namespace RecordQuery

open Calendar (Clock Instant padded)

/-! ## Texts on both clocks -/

/-- The two texts of a part: one text, but for the two digits of the hour in the literal of a date,
which is `(hour + 11) % 12 + 1` on the dial. -/
inductive Operand.SameButHour : Operand → String → String → Prop where
  | text (s : String) : SameButHour (.text s) s s
  | number (n : Number) : SameButHour (.number n) n.text n.text
  | date (i : Instant) {a b c d : Char} (counted : padded 2 i.timeOfDay.hour = [a, b])
      (dialled : padded 2 ((i.timeOfDay.hour + 11) % 12 + 1) = [c, d]) :
      SameButHour (.date i) (String.ofList (i.beforeHour ++ [a, b] ++ i.afterHour))
        (String.ofList (i.beforeHour ++ [c, d] ++ i.afterHour))

theorem Operand.sameButHour_of_scalarText? {operand : Operand} {s t : String}
    (hs : operand.scalarText? .twentyFour = some s) (ht : operand.scalarText? .twelve = some t) :
    operand.SameButHour s t := by
  cases operand with
  | text value => cases hs; cases ht; exact .text s
  | number n => cases hs; cases ht; exact .number n
  | date i =>
    cases hs
    cases ht
    obtain ⟨a, b, hab⟩ :=
      List.length_eq_two.mp (Calendar.length_padded_shows .twentyFour i.timeOfDay_hour_lt)
    obtain ⟨c, d, hcd⟩ :=
      List.length_eq_two.mp (Calendar.length_padded_shows .twelve i.timeOfDay_hour_lt)
    rw [i.literal_eq, i.literal_eq, hab, hcd]
    exact .date i hab hcd
  | list items => cases hs
  | boolean value => cases hs
  | object fields => cases hs
  | null => cases hs

theorem Operand.SameButHour.length_eq {operand : Operand} {s t : String}
    (h : operand.SameButHour s t) : s.length = t.length := by
  cases h with
  | text s => rfl
  | number n => rfl
  | date i counted dialled => simp [← String.length_toList]

theorem Operand.SameButHour.eq {operand : Operand} {s t : String} (h : operand.SameButHour s t)
    (hdate : ∀ i, operand ≠ .date i) : s = t := by
  cases h with
  | text s => rfl
  | number n => rfl
  | date i counted dialled => exact absurd rfl (hdate i)

namespace Query

/-- The two operands of a condition: the two texts of each part with the same marks between them. -/
def Condition.SameButHours (condition : Condition) (s t : String) : Prop :=
  ∃ texts : List (String × String),
    List.Forall₂ (fun part pair => part.SameButHour pair.1 pair.2) condition.parts texts ∧
      s = condition.mark.intercalate (texts.map (·.1)) ∧
        t = condition.mark.intercalate (texts.map (·.2))

/-- The two tokens that a call adds: of one kind and with the same field, operator, connective and
direction. -/
inductive Call.AddsOnBoth : Call → Token → Token → Prop where
  | condition {condition : Condition} {s t : String} (name : String) (operator : Operator)
      (operands : condition.SameButHours s t) :
      AddsOnBoth (.require condition) (.condition name operator s) (.condition name operator t)
  | separator (connective : Connective) :
      AddsOnBoth (.join connective) (.separator connective) (.separator connective)
  | ordering (direction : Direction) (name : String) :
      AddsOnBoth (.order direction) (.ordering direction name) (.ordering direction name)

/-- Two lists that are related to one list, element by element, side by side. -/
theorem forall₂_zip_right {α β γ : Type} {R : α → β → Prop} {S : α → γ → Prop} {l : List α}
    {left : List β} {right : List γ} (hleft : List.Forall₂ R l left)
    (hright : List.Forall₂ S l right) :
    List.Forall₂ (fun a pair => R a pair.1 ∧ S a pair.2) l (left.zip right) := by
  induction hleft generalizing right with
  | nil =>
    cases hright
    exact .nil
  | cons hhead _ ih =>
    cases hright with
    | cons hhead' htail' => exact .cons ⟨hhead, hhead'⟩ (ih htail')

theorem Condition.sameButHours_of_encode {condition : Condition} {operator other : Operator}
    {s t : String} (hs : condition.encode .twentyFour = .ok (operator, s))
    (ht : condition.encode .twelve = .ok (other, t)) : condition.SameButHours s t := by
  obtain ⟨texts, htexts, rfl⟩ := exists_texts_of_encode hs
  obtain ⟨texts', htexts', rfl⟩ := exists_texts_of_encode ht
  have hlength : texts.length = texts'.length := htexts.length_eq.symm.trans htexts'.length_eq
  refine ⟨texts.zip texts', ?_, ?_, ?_⟩
  · exact (forall₂_zip_right htexts htexts').imp fun _ _ h =>
      Operand.sameButHour_of_scalarText? h.1 h.2
  · rw [List.map_fst_zip (Nat.le_of_eq hlength)]
  · rw [List.map_snd_zip (Nat.le_of_eq hlength.symm)]

theorem length_intercalate_of_forall₂ {parts : List Operand} {texts : List (String × String)}
    (mark : String)
    (h : List.Forall₂ (fun part pair => part.SameButHour pair.1 pair.2) parts texts) :
    (mark.intercalate (texts.map (·.1))).length = (mark.intercalate (texts.map (·.2))).length := by
  induction h with
  | nil => rfl
  | @cons part pair parts texts hpair _ ih =>
    cases texts with
    | nil => simpa using hpair.length_eq
    | cons next texts =>
      simp only [List.map_cons, String.intercalate_cons_cons, String.length_append] at ih ⊢
      rw [hpair.length_eq, ih]

theorem Condition.SameButHours.length_eq {condition : Condition} {s t : String}
    (h : condition.SameButHours s t) : s.length = t.length := by
  obtain ⟨texts, htexts, rfl, rfl⟩ := h
  exact length_intercalate_of_forall₂ _ htexts

theorem Condition.SameButHours.eq {condition : Condition} {s t : String}
    (h : condition.SameButHours s t) (hdate : ∀ i, Operand.date i ∉ condition.parts) : s = t := by
  obtain ⟨texts, htexts, rfl, rfl⟩ := h
  have heq : texts.map (·.1) = texts.map (·.2) := by
    generalize condition.parts = parts at htexts hdate
    induction htexts with
    | nil => rfl
    | @cons part pair parts texts hpair _ ih =>
      rw [List.map_cons, List.map_cons, ih fun i hi => hdate i (List.mem_cons_of_mem _ hi),
        hpair.eq fun i heq => hdate i (heq ▸ List.mem_cons_self)]
  rw [heq]

/-! ## Placement without operands -/

/-- A token without its operand. -/
def Token.outline : Token → Token
  | condition field operator _ => .condition field operator ""
  | separator connective => .separator connective
  | ordering direction field => .ordering direction field

theorem Token.violation?_outline (previous : Option Token) (token : Token) :
    token.outline.violation? (previous.map Token.outline) = token.violation? previous := by
  rcases previous with _ | (_ | _ | _) <;> cases token <;> rfl

theorem innerViolation?_outline (previous : Option Token) (tokens : List Token) :
    innerViolation? (previous.map Token.outline) (tokens.map Token.outline) =
      innerViolation? previous tokens := by
  induction tokens generalizing previous with
  | nil => rfl
  | cons token rest ih =>
    have hrest : innerViolation? (some token.outline) (rest.map Token.outline) =
        innerViolation? (some token) rest := ih (some token)
    rw [List.map_cons, innerViolation?, innerViolation?, Token.violation?_outline, hrest]

theorem endViolation?_outline (atEnd : Connective → Violation) (token : Option Token) :
    endViolation? atEnd (token.map Token.outline) = endViolation? atEnd token := by
  rcases token with _ | (_ | _ | _) <;> rfl

/-- No operand has a part in a broken rule. -/
theorem violation?_outline (tokens : List Token) :
    violation? (tokens.map Token.outline) = violation? tokens := by
  have hinner : innerViolation? none (tokens.map Token.outline) = innerViolation? none tokens :=
    innerViolation?_outline none tokens
  rw [violation?, violation?, List.head?_map, List.getLast?_map, endViolation?_outline,
    endViolation?_outline, hinner]

/-! ## Tokens on both clocks -/

namespace Call.AddsOnBoth

variable {call : Call} {token other : Token}

theorem length_text (h : call.AddsOnBoth token other) :
    token.text.toList.length = other.text.toList.length := by
  cases h with
  | condition name operator operands => simp [Token.text, String.length_toList, operands.length_eq]
  | separator connective => rfl
  | ordering direction name => rfl

theorem outline_eq (h : call.AddsOnBoth token other) : token.outline = other.outline := by
  cases h <;> rfl

theorem eq (h : call.AddsOnBoth token other)
    (hdate : ∀ condition, call = .require condition → ∀ i, Operand.date i ∉ condition.parts) :
    token = other := by
  cases h with
  | condition name operator operands => rw [operands.eq (hdate _ rfl)]
  | separator connective => rfl
  | ordering direction name => rfl

end Call.AddsOnBoth

/-- A call that adds tokens with the same field selected adds tokens that differ in hours only. -/
theorem Call.Adds.addsOnBoth {field : Option String} {call : Call} {token other : Token}
    (h : call.Adds .twentyFour field token) (hother : call.Adds .twelve field other) :
    call.AddsOnBoth token other := by
  cases h with
  | @condition name condition operator operand hname hencode =>
    cases hother with
    | @condition name' _ operator' operand' hname' hencode' =>
      have hoperator := condition.map_fst_encode .twentyFour .twelve
      rw [hencode, hencode'] at hoperator
      cases hoperator
      cases hname.symm.trans hname'
      exact .condition name operator (Condition.sameButHours_of_encode hencode hencode')
  | separator connective =>
    cases hother
    exact .separator connective
  | ordering direction =>
    cases hother
    exact .ordering direction _

/-! ## Runs under two settings -/

namespace Draft

/-- Drafts with the same field selected fail in the same calls. -/
theorem perform_eq_error_iff_of_field_eq {d other : Draft} (hfield : d.field = other.field)
    (call : Call) (fault : Fault) :
    d.perform call = .error fault ↔ other.perform call = .error fault := by
  have hencode := Condition.encode_eq_error_iff d.settings.clock other.settings.clock
  simp only [perform_eq_error_iff, require_eq_error_iff, hfield, hencode]

theorem isOk_perform_of_field_eq {d other : Draft} (hfield : d.field = other.field)
    (call : Call) : (d.perform call).isOk = (other.perform call).isOk := by
  have h := perform_eq_error_iff_of_field_eq hfield call
  cases hd : d.perform call with
  | error fault => rw [(h fault).mp hd]
  | ok next =>
    cases hother : other.perform call with
    | error fault =>
      rw [(h fault).mpr hother] at hd
      cases hd
    | ok next => rfl

end Draft

section Runs

variable (settings other : Settings) (calls : List Call)

theorem attemptAll_field_eq :
    (({ settings } : Draft).attemptAll calls).field =
      (({ settings := other } : Draft).attemptAll calls).field :=
  (attemptAll_field settings calls).trans (attemptAll_field other calls).symm

/-- The same calls add tokens under all settings. -/
theorem additions_eq :
    ({ settings } : Draft).additions calls = ({ settings := other } : Draft).additions calls := by
  refine List.filter_congr fun position _ => ?_
  rw [Draft.addsAt, Draft.addsAt]
  cases calls[position]? with
  | none => rfl
  | some call =>
    have hisOk := Draft.isOk_perform_of_field_eq
      (attemptAll_field_eq settings other (calls.take position)) call
    simp only [hisOk]

variable {settings other calls}

/-- The tokens of two runs side by side, if the clocks are the two that there are. -/
theorem attemptAll_tokens_on_both (hclock : settings.clock = .twentyFour)
    (hother : other.clock = .twelve) :
    List.Forall₂
      (fun position pair => ∃ call, calls[position]? = some call ∧ call.AddsOnBoth pair.1 pair.2)
      (({ settings } : Draft).additions calls)
      ((({ settings } : Draft).attemptAll calls).tokens.zip
        (({ settings := other } : Draft).attemptAll calls).tokens) := by
  have hleft := attemptAll_tokens settings calls
  have hright := attemptAll_tokens other calls
  rw [hclock] at hleft
  rw [hother, ← additions_eq settings other] at hright
  refine (forall₂_zip_right hleft hright).imp ?_
  rintro position pair ⟨⟨call, hcall, hadds⟩, ⟨call', hcall', hadds'⟩⟩
  cases hcall.symm.trans hcall'
  exact ⟨call, hcall, hadds.addsOnBoth hadds'⟩

theorem attemptAll_tokens_length_eq :
    (({ settings } : Draft).attemptAll calls).tokens.length =
      (({ settings := other } : Draft).attemptAll calls).tokens.length := by
  have hleft := (attemptAll_tokens settings calls).length_eq
  have hright := (attemptAll_tokens other calls).length_eq
  rw [← additions_eq settings other] at hright
  exact hleft.symm.trans hright

end Runs

/-! ## Building on both clocks -/

section Pairs

variable {pairs : List (Token × Token)}

theorem length_textOf_pairs
    (h : ∀ pair ∈ pairs, pair.1.text.toList.length = pair.2.text.toList.length) :
    (textOf (pairs.map (·.1))).length = (textOf (pairs.map (·.2))).length := by
  have hlengths : pairs.map (fun pair => pair.1.text.toList.length) =
      pairs.map (fun pair => pair.2.text.toList.length) := List.map_congr_left h
  rw [← String.length_toList, ← String.length_toList, toList_textOf, toList_textOf,
    List.length_flatMap, List.length_flatMap, List.map_map, List.map_map]
  exact congrArg List.sum hlengths

theorem violation?_pairs (h : ∀ pair ∈ pairs, pair.1.outline = pair.2.outline) :
    violation? (pairs.map (·.1)) = violation? (pairs.map (·.2)) := by
  have houtlines : pairs.map (fun pair => pair.1.outline) =
      pairs.map (fun pair => pair.2.outline) := List.map_congr_left h
  rw [← violation?_outline (pairs.map (·.1)), ← violation?_outline (pairs.map (·.2)),
    List.map_map, List.map_map]
  exact congrArg violation? houtlines

end Pairs

namespace Draft

variable {d other : Draft}

/-- Building looks at the policy and at the tokens. -/
theorem build_eq_of_tokens_eq (hstrict : d.settings.isStrict = other.settings.isStrict)
    (htokens : d.tokens = other.tokens) : d.build = other.build := by
  rw [build, build, text, text, hstrict, htokens]

/-- Drafts whose tokens have the same outlines and lengths are built into queries of one length, or
fail to be built in the same way. -/
theorem build_of_pairs (hstrict : d.settings.isStrict = other.settings.isStrict)
    (hlength : d.tokens.length = other.tokens.length)
    (hpairs : ∀ pair ∈ d.tokens.zip other.tokens, pair.1.outline = pair.2.outline ∧
      pair.1.text.toList.length = pair.2.text.toList.length) :
    (∃ query query', d.build = .ok query ∧ other.build = .ok query' ∧
      query.length = query'.length) ∨
    ∃ fault, d.build = .error fault ∧ other.build = .error fault := by
  have hfst : (d.tokens.zip other.tokens).map (·.1) = d.tokens :=
    List.map_fst_zip (Nat.le_of_eq hlength)
  have hsnd : (d.tokens.zip other.tokens).map (·.2) = other.tokens :=
    List.map_snd_zip (Nat.le_of_eq hlength.symm)
  have htext : d.text.length = other.text.length := by
    have := length_textOf_pairs fun pair hpair => (hpairs pair hpair).2
    rwa [hfst, hsnd] at this
  have hviolation : violation? d.tokens = violation? other.tokens := by
    have := violation?_pairs fun pair hpair => (hpairs pair hpair).1
    rwa [hfst, hsnd] at this
  by_cases hne : d.tokens = []
  · have hne' : other.tokens = [] := by
      rw [hne] at hlength
      exact List.length_eq_zero_iff.mp hlength.symm
    exact .inr ⟨.emptyQuery, build_of_nil hne, build_of_nil hne'⟩
  · have hne' : other.tokens ≠ [] := by
      intro h
      rw [h] at hlength
      exact hne (List.length_eq_zero_iff.mp hlength)
    cases hpolicy : d.settings.isStrict with
    | false =>
      exact .inl ⟨_, _, build_permissive hne hpolicy,
        build_permissive hne' (hstrict.symm.trans hpolicy), htext⟩
    | true =>
      rw [build_strict hne hpolicy, build_strict hne' (hstrict.symm.trans hpolicy), ← hviolation]
      cases violation? d.tokens with
      | none => exact .inl ⟨_, _, rfl, rfl, htext⟩
      | some violation => exact .inr ⟨_, rfl, rfl⟩

end Draft

/-- The same calls on the two clocks, from new drafts with one policy.  At every position a call
fails in both runs or in neither, and for the same reason; the same calls add tokens, with the same
field selected at the end; and the tokens of a call differ in the hours of date literals alone.
Both drafts are built into queries of one length or fail alike; if no condition that was added has
a date among its parts, the tokens are equal and so are the queries. -/
theorem run_on_both_clocks (policy : Policy) (calls : List Call) :
    let start : Draft := { settings := { clock := .twentyFour, policy } }
    let other : Draft := { settings := { clock := .twelve, policy } }
    let final := start.attemptAll calls
    let final' := other.attemptAll calls
    let positions := start.additions calls
    (∀ position call fault, calls[position]? = some call →
      ((start.attemptAll (calls.take position)).perform call = .error fault ↔
        (other.attemptAll (calls.take position)).perform call = .error fault)) ∧
    other.additions calls = positions ∧
    final.field = final'.field ∧
    final.tokens.length = final'.tokens.length ∧
    List.Forall₂
      (fun position pair => ∃ call, calls[position]? = some call ∧ call.AddsOnBoth pair.1 pair.2)
      positions (final.tokens.zip final'.tokens) ∧
    ((∃ query query', final.build = .ok query ∧ final'.build = .ok query' ∧
        query.length = query'.length) ∨
      ∃ fault, final.build = .error fault ∧ final'.build = .error fault) ∧
    ((∀ position ∈ positions, ∀ condition, calls[position]? = some (.require condition) →
        ∀ i, Operand.date i ∉ condition.parts) →
      final.tokens = final'.tokens ∧ final.build = final'.build) := by
  intro start other final final' positions
  have htokens : List.Forall₂
      (fun position pair => ∃ call, calls[position]? = some call ∧ call.AddsOnBoth pair.1 pair.2)
      positions (final.tokens.zip final'.tokens) := attemptAll_tokens_on_both rfl rfl
  have hlength : final.tokens.length = final'.tokens.length := attemptAll_tokens_length_eq
  have hstrict : final.settings.isStrict = final'.settings.isStrict := by
    rw [start.attemptAll_settings calls, other.attemptAll_settings calls]
    rfl
  refine ⟨?_, (additions_eq _ _ calls).symm, attemptAll_field_eq _ _ calls, hlength, htokens,
    ?_, ?_⟩
  · intro position call fault _
    exact Draft.perform_eq_error_iff_of_field_eq (attemptAll_field_eq _ _ _) call fault
  · refine Draft.build_of_pairs hstrict hlength fun pair hpair => ?_
    obtain ⟨position, -, call, -, hadds⟩ := exists_of_mem_right htokens hpair
    exact ⟨hadds.outline_eq, hadds.length_text⟩
  · intro hdate
    have hpairs : ∀ pair ∈ final.tokens.zip final'.tokens, pair.1 = pair.2 := by
      intro pair hpair
      obtain ⟨position, hposition, call, hcall, hadds⟩ := exists_of_mem_right htokens hpair
      refine hadds.eq fun condition hcondition => ?_
      rw [hcondition] at hcall
      exact hdate position hposition condition hcall
    have heq : final.tokens = final'.tokens := by
      rw [← List.map_fst_zip (Nat.le_of_eq hlength), List.map_congr_left hpairs,
        List.map_snd_zip (Nat.le_of_eq hlength.symm)]
    exact ⟨heq, Draft.build_eq_of_tokens_eq hstrict heq⟩

/-- A strict run in which the one date is refused, so that nothing in the query depends on it. -/
theorem run_on_both_clocks_refused_date :
    let date : Operand := .date ⟨1735689598, 0, by decide⟩
    let list : Operand := .list [.text "x", .number (.integer 2)]
    let calls : List Call :=
      [.select "a", .require (.equals date), .require (.equals list), .join .conjunction,
        .order .ascending]
    let start : Draft := { settings := { clock := .twentyFour, policy := .strict } }
    let other : Draft := { settings := { clock := .twelve, policy := .strict } }
    (∀ position ∈ start.additions calls, ∀ condition, calls[position]? = some (.require condition) →
      ∀ i, Operand.date i ∉ condition.parts) ∧
    (start.attemptAll calls).build = .ok "aINx,2^ORDERBYa" ∧
    (other.attemptAll calls).build = .ok "aINx,2^ORDERBYa" := by
  intro date list calls start other
  have hpositions : start.additions calls = [2, 3, 4] := rfl
  have hdate : ∀ position ∈ start.additions calls, ∀ condition,
      calls[position]? = some (.require condition) → ∀ i, Operand.date i ∉ condition.parts := by
    intro position hposition condition hcondition i
    rw [hpositions] at hposition
    simp only [List.mem_cons, List.not_mem_nil, or_false] at hposition
    rcases hposition with rfl | rfl | rfl
    · cases hcondition
      simp [Condition.parts, Operand.parts, list]
    · cases hcondition
    · cases hcondition
  have hbuild : (start.attemptAll calls).build = .ok "aINx,2^ORDERBYa" := rfl
  have hboth := (run_on_both_clocks .strict calls).2.2.2.2.2.2 hdate
  exact ⟨hdate, hbuild, hboth.2.symm.trans hbuild⟩

-- with the date in a range the two queries differ in the hours of its literals
example :
    let late : Operand := .date ⟨1735689598, 0, by decide⟩
    let distant : Operand := .date ⟨317269749600, 0, by decide⟩
    let calls : List Call := [.select "a", .require (.between late distant)]
    (({ settings := { clock := .twentyFour } } : Draft).attemptAll calls).text =
      "aBETWEEN2024-12-31 23:59:58@+12023-11-17 14:00:00" ∧
    (({ settings := { clock := .twelve } } : Draft).attemptAll calls).text =
      "aBETWEEN2024-12-31 11:59:58@+12023-11-17 02:00:00" := by
  decide +kernel

end Query

end RecordQuery
