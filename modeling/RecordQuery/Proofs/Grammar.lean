import RecordQuery.Query.Draft

set_option autoImplicit false

/-!
# The grammar of strict queries

    query   := segment (separator segment)*
    segment := condition condition* | ordering condition*

where the ordering of a segment names a field.  The placement check does not follow this grammar:
it looks at both ends of a list and then reads it once, with one token of memory.  The two agree
(`isQuery_iff`), so that a strict draft is built exactly when its tokens are a
word of the grammar, and what is built is the text of that word.
-/

namespace RecordQuery.Query

/-! ## The words -/

/-- Conditions, any number of them. -/
inductive IsConditions : List Token → Prop where
  | nil : IsConditions []
  | cons (field : String) (operator : Operator) (operand : String) {rest : List Token}
      (conditions : IsConditions rest) :
      IsConditions (.condition field operator operand :: rest)

/-- Conditions, at least one, or an ordering with a field and any number of conditions. -/
inductive IsSegment : List Token → Prop where
  | condition (field : String) (operator : Operator) (operand : String) {rest : List Token}
      (conditions : IsConditions rest) :
      IsSegment (.condition field operator operand :: rest)
  | ordering (direction : Direction) {field : String} {rest : List Token} (named : field ≠ "")
      (conditions : IsConditions rest) :
      IsSegment (.ordering direction field :: rest)

/-- Segments with single separators between them. -/
inductive IsQuery : List Token → Prop where
  | segment {tokens : List Token} (segment : IsSegment tokens) : IsQuery tokens
  | join (connective : Connective) {first rest : List Token} (segment : IsSegment first)
      (query : IsQuery rest) : IsQuery (first ++ .separator connective :: rest)

theorem IsConditions.append {left right : List Token} (hleft : IsConditions left)
    (hright : IsConditions right) : IsConditions (left ++ right) := by
  induction hleft with
  | nil => exact hright
  | cons field operator operand _ ih => exact .cons field operator operand ih

theorem IsSegment.append {left right : List Token} (hleft : IsSegment left)
    (hright : IsConditions right) : IsSegment (left ++ right) := by
  cases hleft with
  | condition field operator operand h => exact .condition field operator operand (h.append hright)
  | ordering direction named h => exact .ordering direction named (h.append hright)

theorem IsConditions.isSeparator_eq_false {tokens : List Token} (h : IsConditions tokens) :
    ∀ token ∈ tokens, token.isSeparator = false := by
  induction h with
  | nil => simp
  | cons field operator operand _ ih => simpa [Token.isSeparator] using ih

/-- No separator stands inside a segment. -/
theorem IsSegment.isSeparator_eq_false {tokens : List Token} (h : IsSegment tokens) :
    ∀ token ∈ tokens, token.isSeparator = false := by
  cases h with
  | condition field operator operand h => simpa [Token.isSeparator] using h.isSeparator_eq_false
  | ordering direction named h => simpa [Token.isSeparator] using h.isSeparator_eq_false

theorem IsSegment.ne_nil {tokens : List Token} (h : IsSegment tokens) : tokens ≠ [] := by
  cases h <;> exact List.cons_ne_nil _ _

theorem IsQuery.ne_nil {tokens : List Token} (h : IsQuery tokens) : tokens ≠ [] := by
  cases h with
  | segment h => exact h.ne_nil
  | join connective h _ => simp

/-! ## Words break no rule -/

theorem IsConditions.innerViolation?_eq_none {tokens : List Token} (h : IsConditions tokens) :
    ∀ previous : Option Token, innerViolation? previous tokens = none := by
  induction h with
  | nil => exact fun _ => rfl
  | cons field operator operand _ ih =>
    intro previous
    rw [innerViolation?_cons_eq_none_iff]
    exact ⟨rfl, ih _⟩

theorem IsSegment.innerViolation?_eq_none {tokens : List Token} (h : IsSegment tokens)
    {previous : Option Token} (hprevious : BeginsPart previous) :
    innerViolation? previous tokens = none := by
  cases h with
  | condition field operator operand h =>
    rw [innerViolation?_cons_eq_none_iff]
    exact ⟨rfl, h.innerViolation?_eq_none _⟩
  | ordering direction named h =>
    rw [innerViolation?_cons_eq_none_iff, Token.violation?_ordering_eq_none_iff]
    exact ⟨⟨named, hprevious⟩, h.innerViolation?_eq_none _⟩

theorem IsQuery.head?_isSeparator {tokens : List Token} (h : IsQuery tokens) :
    ∀ token, tokens.head? = some token → token.isSeparator = false := by
  intro token hhead
  cases h with
  | segment h => exact h.isSeparator_eq_false token (List.mem_of_head? hhead)
  | join connective h _ =>
    obtain ⟨first, rest, rfl⟩ := List.exists_cons_of_ne_nil h.ne_nil
    exact h.isSeparator_eq_false token (List.mem_of_head? hhead)

theorem IsQuery.getLast?_isSeparator {tokens : List Token} (h : IsQuery tokens) :
    ∀ token, tokens.getLast? = some token → token.isSeparator = false := by
  induction h with
  | segment h => exact fun token hlast => h.isSeparator_eq_false token (List.mem_of_getLast? hlast)
  | @join connective first rest h hquery ih =>
    intro token hlast
    obtain ⟨token', rest', rfl⟩ := List.exists_cons_of_ne_nil hquery.ne_nil
    rw [List.getLast?_append, List.getLast?_cons_cons, List.getLast?_cons, Option.some_or,
      ← List.getLast?_cons] at hlast
    exact ih token hlast

theorem IsQuery.innerViolation?_eq_none {tokens : List Token} (h : IsQuery tokens) :
    ∀ {previous : Option Token}, BeginsPart previous → innerViolation? previous tokens = none := by
  induction h with
  | segment h => exact fun hprevious => h.innerViolation?_eq_none hprevious
  | @join connective first rest h _ ih =>
    intro previous hprevious
    rw [innerViolation?_append_eq_none_iff, innerViolation?_cons_eq_none_iff,
      Token.violation?_separator_eq_none_iff]
    refine ⟨h.innerViolation?_eq_none hprevious, ?_, ih (beginsPart_separator connective)⟩
    -- the token before the separator is the last one of a segment
    intro token htoken
    rw [List.getLast?_eq_some_getLast h.ne_nil, Option.some_or] at htoken
    cases htoken
    exact h.isSeparator_eq_false _ (List.getLast_mem h.ne_nil)

theorem IsQuery.violation?_eq_none {tokens : List Token} (h : IsQuery tokens) :
    violation? tokens = none :=
  violation?_eq_none_iff.mpr
    ⟨h.head?_isSeparator, h.getLast?_isSeparator, h.innerViolation?_eq_none beginsPart_none⟩

/-! ## Lists that break no rule are words

The check remembers one token, the grammar a whole segment.  What joins them is that after a token
that is no separator the rest of the list continues *any* segment, whatever the check has
forgotten of it. -/

/-- Tokens that go on from a segment to the end of a query. -/
def ContinuesSegment (tokens : List Token) : Prop :=
  ∀ segment, IsSegment segment → IsQuery (segment ++ tokens)

/-- A token that breaks no rule and is no separator begins a segment. -/
theorem isSegment_singleton {previous : Option Token} {token : Token}
    (hseparator : token.isSeparator = false) (h : token.violation? previous = none) :
    IsSegment [token] := by
  cases token with
  | condition field operator operand => exact .condition field operator operand .nil
  | separator connective => cases hseparator
  | ordering direction field =>
    exact .ordering direction (Token.violation?_ordering_eq_none_iff.mp h).1 .nil

/-- What may follow a separator is no separator. -/
theorem isSeparator_eq_false_after_separator {connective : Connective} {token : Token}
    (h : token.violation? (some (.separator connective)) = none) : token.isSeparator = false := by
  cases token with
  | separator other => cases Token.violation?_separator_eq_none_iff.mp h _ rfl
  | condition field operator operand => rfl
  | ordering direction field => rfl

/-- A list that does not end with a separator ends so without its first token too. -/
theorem getLast?_isSeparator_tail {token : Token} {rest : List Token}
    (h : ∀ last, (token :: rest).getLast? = some last → last.isSeparator = false) :
    ∀ last, rest.getLast? = some last → last.isSeparator = false := by
  intro last hlast
  exact h last (by rw [List.getLast?_cons, hlast]; rfl)

theorem continuesSegment_of_innerViolation?_eq_none :
    ∀ {tokens : List Token} {previous : Token}, previous.isSeparator = false →
      (∀ token, tokens.getLast? = some token → token.isSeparator = false) →
      innerViolation? (some previous) tokens = none → ContinuesSegment tokens
  | [], _, _, _, _ => by
    intro segment hsegment
    rw [List.append_nil]
    exact .segment hsegment
  | .condition field operator operand :: rest, previous, _, hlast, h => by
    have hrest : ContinuesSegment rest :=
      continuesSegment_of_innerViolation?_eq_none rfl (getLast?_isSeparator_tail hlast)
        (innerViolation?_cons_eq_none_iff.mp h).2
    intro segment hsegment
    have := hrest _ (hsegment.append (.cons field operator operand .nil))
    rwa [List.append_assoc] at this
  | .ordering direction field :: rest, previous, hprevious, _, h => by
    -- an ordering would have to begin a part, and the token before it is no separator
    have hbegins : BeginsPart (some previous) :=
      (Token.violation?_ordering_eq_none_iff.mp (innerViolation?_cons_eq_none_iff.mp h).1).2
    rw [hbegins previous rfl] at hprevious
    cases hprevious
  | [.separator connective], _, _, hlast, _ => by
    have := hlast _ rfl
    cases this
  | .separator connective :: token :: rest, previous, _, hlast, h => by
    obtain ⟨_, h⟩ := innerViolation?_cons_eq_none_iff.mp h
    obtain ⟨htoken, h⟩ := innerViolation?_cons_eq_none_iff.mp h
    have hseparator : token.isSeparator = false := isSeparator_eq_false_after_separator htoken
    have hfirst : IsSegment [token] := isSegment_singleton hseparator htoken
    have hrest : ContinuesSegment rest :=
      continuesSegment_of_innerViolation?_eq_none hseparator
        (getLast?_isSeparator_tail (getLast?_isSeparator_tail hlast)) h
    intro segment hsegment
    exact .join connective hsegment (hrest [token] hfirst)

theorem isQuery_of_violation?_eq_none {tokens : List Token} (hne : tokens ≠ [])
    (h : violation? tokens = none) : IsQuery tokens := by
  obtain ⟨hhead, hlast, hinner⟩ := violation?_eq_none_iff.mp h
  obtain ⟨token, rest, rfl⟩ := List.exists_cons_of_ne_nil hne
  obtain ⟨htoken, hinner⟩ := innerViolation?_cons_eq_none_iff.mp hinner
  have hseparator : token.isSeparator = false := hhead token rfl
  have hrest : ContinuesSegment rest :=
    continuesSegment_of_innerViolation?_eq_none hseparator (getLast?_isSeparator_tail hlast) hinner
  exact hrest [token] (isSegment_singleton hseparator htoken)

/-- The placement check and the grammar agree. -/
theorem isQuery_iff {tokens : List Token} :
    IsQuery tokens ↔ tokens ≠ [] ∧ violation? tokens = none :=
  ⟨fun h => ⟨h.ne_nil, h.violation?_eq_none⟩,
    fun h => isQuery_of_violation?_eq_none h.1 h.2⟩

/-! ## Positions in a word -/

/-- An ordering in a word names its field and stands first in its segment. -/
theorem IsQuery.ordering_beginsPart {left right : List Token} {direction : Direction}
    {field : String} (h : IsQuery (left ++ .ordering direction field :: right)) :
    field ≠ "" ∧ BeginsPart left.getLast? := by
  have hinner := (violation?_eq_none_iff.mp h.violation?_eq_none).2.2
  rw [innerViolation?_append_eq_none_iff, innerViolation?_cons_eq_none_iff,
    Token.violation?_ordering_eq_none_iff, Option.or_none] at hinner
  exact hinner.2.1

/-- After a condition the check has forgotten which one it was. -/
theorem innerViolation?_after_condition {field field' : String} {operator operator' : Operator}
    {operand operand' : String} {tokens : List Token} :
    innerViolation? (some (.condition field operator operand)) tokens =
      innerViolation? (some (.condition field' operator' operand')) tokens := by
  rcases tokens with _ | ⟨_ | _ | _, _⟩ <;> rfl

/-- A condition can be added behind any condition of a word. -/
theorem IsQuery.insert_condition {left right : List Token} {field field' : String}
    {operator operator' : Operator} {operand operand' : String}
    (h : IsQuery (left ++ .condition field operator operand :: right)) :
    IsQuery (left ++ .condition field operator operand ::
      .condition field' operator' operand' :: right) := by
  obtain ⟨-, hviolation⟩ := isQuery_iff.mp h
  obtain ⟨hhead, hlast, hinner⟩ := violation?_eq_none_iff.mp hviolation
  refine isQuery_iff.mpr ⟨by simp, violation?_eq_none_iff.mpr ⟨?_, ?_, ?_⟩⟩
  · simpa using hhead
  · cases right with
    | nil => simp [Token.isSeparator]
    | cons token rest => simpa using hlast
  · rw [innerViolation?_append_eq_none_iff, innerViolation?_cons_eq_none_iff] at hinner ⊢
    obtain ⟨hleft, hcondition, hright⟩ := hinner
    rw [innerViolation?_cons_eq_none_iff]
    exact ⟨hleft, hcondition, rfl, innerViolation?_after_condition.trans hright⟩

/-! ## Strict drafts -/

namespace Draft

variable {d : Draft}

theorem build_strict_eq_ok_iff (hstrict : d.settings.isStrict = true) {query : String} :
    d.build = .ok query ↔ IsQuery d.tokens ∧ query = d.text := by
  by_cases hne : d.tokens = []
  · simp [build_of_nil hne, isQuery_iff, hne]
  · rw [build_strict hne hstrict, isQuery_iff]
    cases violation? d.tokens with
    | none => simp [hne, eq_comm]
    | some violation => simp

theorem build_strict_eq_emptyQuery_iff (hstrict : d.settings.isStrict = true) :
    d.build = .error .emptyQuery ↔ d.tokens = [] := by
  by_cases hne : d.tokens = []
  · simp [build_of_nil hne, hne]
  · rw [build_strict hne hstrict]
    cases violation? d.tokens <;> simp [hne]

theorem build_strict_eq_malformed_iff (hstrict : d.settings.isStrict = true) :
    (∃ violation, d.build = .error (.malformed violation)) ↔
      d.tokens ≠ [] ∧ ¬ IsQuery d.tokens := by
  by_cases hne : d.tokens = []
  · simp [build_of_nil hne, hne]
  · rw [build_strict hne hstrict, isQuery_iff]
    cases violation? d.tokens <;> simp [hne]

end Draft

/-- A strict draft is built if and only if its tokens are a word of the grammar, and then into the
texts of its tokens in order.  Without tokens there is nothing to build; all other lists that are no
words are malformed.

The last two parts say which lists the grammar is about: conditions may follow each other, and an
ordering may neither stand behind a token of its segment nor lack a field. -/
theorem strict_build_iff_grammar (clock : Calendar.Clock) (field : Option String)
    (tokens : List Token) :
    let d : Draft := { settings := { clock, policy := .strict }, field, tokens }
    (∀ query, d.build = .ok query ↔
      IsQuery tokens ∧ query = String.join (tokens.map Token.text)) ∧
    (d.build = .error .emptyQuery ↔ tokens = []) ∧
    ((∃ violation, d.build = .error (.malformed violation)) ↔ tokens ≠ [] ∧ ¬ IsQuery tokens) ∧
    (∀ left right field operator operand field' operator' operand',
      tokens = left ++ .condition field operator operand :: right → IsQuery tokens →
        IsQuery (left ++ .condition field operator operand ::
          .condition field' operator' operand' :: right)) ∧
    (∀ left right direction name, tokens = left ++ .ordering direction name :: right →
      (name = "" ∨ ∃ token, left.getLast? = some token ∧ token.isSeparator = false) →
        ¬ IsQuery tokens) := by
  intro d
  have hstrict : d.settings.isStrict = true := rfl
  refine ⟨fun query => Draft.build_strict_eq_ok_iff hstrict,
    Draft.build_strict_eq_emptyQuery_iff hstrict, Draft.build_strict_eq_malformed_iff hstrict,
    ?_, ?_⟩
  · rintro left right field operator operand field' operator' operand' rfl hquery
    exact hquery.insert_condition
  · rintro left right direction name rfl hfault hquery
    obtain ⟨hnamed, hbegins⟩ := hquery.ordering_beginsPart
    rcases hfault with hname | ⟨token, htoken, hseparator⟩
    · exact hnamed hname
    · rw [hbegins token htoken] at hseparator
      cases hseparator

end RecordQuery.Query
