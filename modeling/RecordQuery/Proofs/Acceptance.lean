import RecordQuery.Proofs.Encoding
import RecordQuery.Proofs.Step

set_option autoImplicit false

/-!
# Which operands a condition accepts

A condition asks first for a field, then for the kind of its operand, and last for the kinds of the
items of a list.  `Condition.IsAcceptable` says which operands it takes and `Condition.Refuses` what
is said of the others; neither looks at a text.  A draft behaves so whatever its clock, its field
and its tokens are (`require_outcomes`).

A date is no operand of an equality, but it may be an item of its list.
-/

namespace RecordQuery

open Calendar (Clock)

theorem Operand.isScalar_iff {operand : Operand} :
    operand.isScalar = true ↔
      (∃ s, operand = .text s) ∨ (∃ n, operand = .number n) ∨ ∃ i, operand = .date i := by
  cases operand <;> simp [Operand.isScalar]

namespace Query

/-! ## The rules -/

/-- A list of texts, numbers and dates. -/
def IsPlainList (operand : Operand) : Prop :=
  ∃ items, operand = .list items ∧ ∀ item ∈ items, item.isScalar = true

/-- The operands that a condition takes. -/
def Condition.IsAcceptable : Condition → Prop
  | startsWith v | endsWith v | contains v | doesNotContain v => ∃ s, v = .text s
  | isEmpty | isNotEmpty | isAnything | isEmptyString => True
  | equals v | notEquals v => (∃ s, v = .text s) ∨ (∃ n, v = .number n) ∨ IsPlainList v
  | isOneOf v => IsPlainList v
  | greaterThan v | atLeast v | lessThan v | atMost v =>
    (∃ s, v = .text s) ∨ (∃ n, v = .number n) ∨ ∃ i, v = .date i
  | between start finish =>
    (∃ s t, start = .text s ∧ finish = .text t) ∨
      (∃ m n, start = .number m ∧ finish = .number n) ∨
        ∃ i j, start = .date i ∧ finish = .date j

/-- The conditions on the inside of a text. -/
def textConditions : List (Operand → Condition) :=
  [.startsWith, .endsWith, .contains, .doesNotContain]

/-- The conditions that take one value, or a list of values. -/
def equalities : List (Operand → Condition) := [.equals, .notEquals]

/-- The conditions that take a list. -/
def listConditions : List (Operand → Condition) := [.equals, .notEquals, .isOneOf]

/-- The conditions on the order of values. -/
def comparisons : List (Operand → Condition) := [.greaterThan, .atLeast, .lessThan, .atMost]

/-- What a condition expects and what it is given instead.  A list, where one is taken, is refused
for its first item that is no text, number or date. -/
inductive Condition.Refuses : Condition → String → String → Prop where
  | text {ask : Operand → Condition} {v : Operand} (hask : ask ∈ textConditions)
      (hkind : v.kind ≠ .string) : Refuses (ask v) "string" v.kind.name
  | equality {ask : Operand → Condition} {v : Operand} (hask : ask ∈ equalities)
      (hkind : v.kind ∉ [Kind.string, .number, .array]) :
      Refuses (ask v) "string, number or array" v.kind.name
  | membership {v : Operand} (hkind : v.kind ≠ .array) : Refuses (.isOneOf v) "array" v.kind.name
  | item {ask : Operand → Condition} {before after : List Operand} {item : Operand}
      (hask : ask ∈ listConditions) (hbefore : ∀ other ∈ before, other.isScalar = true)
      (hitem : item.isScalar = false) :
      Refuses (ask (.list (before ++ item :: after))) "string, number or date" item.kind.name
  | comparison {ask : Operand → Condition} {v : Operand} (hask : ask ∈ comparisons)
      (hscalar : v.isScalar = false) : Refuses (ask v) "number, string or date" v.kind.name
  | range {start finish : Operand}
      (hkinds : ¬ (start.isScalar = true ∧ finish.isScalar = true ∧ start.kind = finish.kind)) :
      Refuses (.between start finish) "two numbers, two strings or two dates"
        (start.kind.name ++ " and " ++ finish.kind.name)

/-! ## Texts that are not encoded -/

theorem map_eq_error_iff {α β : Type} {result : Except Fault α} {f : α → β} {fault : Fault} :
    result.map f = .error fault ↔ result = .error fault := by
  cases result <;> simp [Except.map]

section Faults

variable {clock : Clock} {operand : Operand} {items : List Operand} {fault : Fault}

theorem encodeText_eq_error_iff :
    encodeText operand = .error fault ↔
      operand.kind ≠ .string ∧ fault = .unexpectedKind [.string] operand.kind := by
  cases operand <;> simp [encodeText, Operand.kind, eq_comm]

theorem encodeComparable_eq_error_iff :
    encodeComparable clock operand = .error fault ↔
      operand.isScalar = false ∧
        fault = .unexpectedKind [.number, .string, .date] operand.kind := by
  rw [encodeComparable, ← operand.isSome_scalarText? clock]
  cases operand.scalarText? clock <;> simp [eq_comm]

theorem encodeItem_eq_error_iff :
    encodeItem clock operand = .error fault ↔
      operand.isScalar = false ∧
        fault = .unexpectedKind [.string, .number, .date] operand.kind := by
  rw [encodeItem, ← operand.isSome_scalarText? clock]
  cases operand.scalarText? clock <;> simp [eq_comm]

theorem encodeItem_of_isScalar (h : operand.isScalar = true) :
    ∃ s, encodeItem clock operand = .ok s := by
  obtain ⟨s, hs⟩ := operand.exists_scalarText? clock h
  exact ⟨s, encodeItem_eq_ok_iff.mpr hs⟩

theorem encodeItems_cons_of_ok {item : Operand} {s : String}
    (h : encodeItem clock item = .ok s) :
    encodeItems clock (item :: items) = (encodeItems clock items).map (s :: ·) := by
  rw [encodeItems, h]
  cases encodeItems clock items <;> rfl

theorem encodeItems_cons_of_error {item : Operand} (h : encodeItem clock item = .error fault) :
    encodeItems clock (item :: items) = .error fault := by
  rw [encodeItems, h]
  rfl

/-- A list is refused for its first item that has no text, whatever follows. -/
theorem encodeItems_eq_error_iff :
    encodeItems clock items = .error fault ↔
      ∃ before item after, items = before ++ item :: after ∧
        (∀ other ∈ before, other.isScalar = true) ∧ item.isScalar = false ∧
          fault = .unexpectedKind [.string, .number, .date] item.kind := by
  constructor
  · intro h
    induction items with
    | nil => cases h
    | cons item items ih =>
      cases hscalar : item.isScalar with
      | false =>
        rw [encodeItems_cons_of_error (encodeItem_eq_error_iff.mpr ⟨hscalar, rfl⟩)] at h
        exact ⟨[], item, items, rfl, by simp, hscalar, (Except.error.inj h).symm⟩
      | true =>
        obtain ⟨s, hs⟩ := encodeItem_of_isScalar hscalar
        rw [encodeItems_cons_of_ok hs, map_eq_error_iff] at h
        obtain ⟨before, bad, after, rfl, hbefore, hbad, hfault⟩ := ih h
        exact ⟨item :: before, bad, after, rfl, List.forall_mem_cons.mpr ⟨hscalar, hbefore⟩, hbad,
          hfault⟩
  · rintro ⟨before, item, after, rfl, hbefore, hitem, rfl⟩
    induction before with
    | nil => exact encodeItems_cons_of_error (encodeItem_eq_error_iff.mpr ⟨hitem, rfl⟩)
    | cons other before ih =>
      obtain ⟨hother, hbefore⟩ := List.forall_mem_cons.mp hbefore
      obtain ⟨s, hs⟩ := encodeItem_of_isScalar hother
      rw [List.cons_append, encodeItems_cons_of_ok hs, map_eq_error_iff]
      exact ih hbefore

theorem encodeList_eq_error_iff :
    encodeList clock items = .error fault ↔
      ∃ before item after, items = before ++ item :: after ∧
        (∀ other ∈ before, other.isScalar = true) ∧ item.isScalar = false ∧
          fault = .unexpectedKind [.string, .number, .date] item.kind := by
  rw [encodeList, map_eq_error_iff, encodeItems_eq_error_iff]

theorem encodeEquality_eq_error_iff {single many : Operator} :
    encodeEquality clock single many operand = .error fault ↔
      (∃ items, operand = .list items ∧ encodeList clock items = .error fault) ∨
        (operand.kind ∉ [Kind.string, .number, .array] ∧
          fault = .unexpectedKind [.string, .number, .array] operand.kind) := by
  cases operand with
  | list items => simp [encodeEquality, map_eq_error_iff, Operand.kind]
  | _ => simp [encodeEquality, Operand.kind, eq_comm]

theorem encodeMembership_eq_error_iff :
    encodeMembership clock operand = .error fault ↔
      (∃ items, operand = .list items ∧ encodeList clock items = .error fault) ∨
        (operand.kind ≠ .array ∧ fault = .unexpectedKind [.array] operand.kind) := by
  cases operand <;> simp [encodeMembership, Operand.kind, eq_comm]

theorem encodeRange_eq_error_iff {start finish : Operand} :
    encodeRange clock start finish = .error fault ↔
      ¬ (start.isScalar = true ∧ finish.isScalar = true ∧ start.kind = finish.kind) ∧
        fault = .unexpectedBounds start.kind finish.kind := by
  rw [encodeRange, ← start.isSome_scalarText? clock, ← finish.isSome_scalarText? clock,
    @eq_comm _ fault]
  cases start.scalarText? clock with
  | none => simp
  | some first =>
    cases finish.scalarText? clock with
    | none => simp
    | some last => by_cases hkind : start.kind = finish.kind <;> simp [hkind]

end Faults

/-! ## The families -/

section Families

variable {ask : Operand → Condition} (clock : Clock)

theorem exists_encode_of_textCondition (hask : ask ∈ textConditions) :
    ∃ operator, ∀ v, (ask v).encode clock = (encodeText v).map (operator, ·) := by
  simp only [textConditions, List.mem_cons, List.not_mem_nil, or_false] at hask
  rcases hask with rfl | rfl | rfl | rfl <;> exact ⟨_, fun _ => rfl⟩

theorem exists_encode_of_equality (hask : ask ∈ equalities) :
    ∃ single many, ∀ v, (ask v).encode clock = encodeEquality clock single many v := by
  simp only [equalities, List.mem_cons, List.not_mem_nil, or_false] at hask
  rcases hask with rfl | rfl <;> exact ⟨_, _, fun _ => rfl⟩

theorem exists_encode_of_listCondition (hask : ask ∈ listConditions) :
    ∃ operator, ∀ items,
      (ask (.list items)).encode clock = (encodeList clock items).map (operator, ·) := by
  simp only [listConditions, List.mem_cons, List.not_mem_nil, or_false] at hask
  rcases hask with rfl | rfl | rfl <;> exact ⟨_, fun _ => rfl⟩

theorem exists_encode_of_comparison (hask : ask ∈ comparisons) :
    ∃ operator, ∀ v, (ask v).encode clock = (encodeComparable clock v).map (operator, ·) := by
  simp only [comparisons, List.mem_cons, List.not_mem_nil, or_false] at hask
  rcases hask with rfl | rfl | rfl | rfl <;> exact ⟨_, fun _ => rfl⟩

end Families

namespace Condition

variable {clock : Clock} {c : Condition} {fault : Fault} {expected actual : String}

/-! ## Conditions that are not encoded -/

theorem refuses_of_encodeList {ask : Operand → Condition} {items : List Operand}
    (hask : ask ∈ listConditions) (h : encodeList clock items = .error fault) :
    ∃ expected actual, fault.mismatch? = some (expected, actual) ∧
      (ask (.list items)).Refuses expected actual := by
  obtain ⟨before, item, after, rfl, hbefore, hitem, rfl⟩ := encodeList_eq_error_iff.mp h
  exact ⟨_, _, rfl, .item hask hbefore hitem⟩

theorem refuses_of_encodeEquality {ask : Operand → Condition} {single many : Operator}
    {v : Operand} (hask : ask ∈ equalities) (hlist : ask ∈ listConditions)
    (h : encodeEquality clock single many v = .error fault) :
    ∃ expected actual, fault.mismatch? = some (expected, actual) ∧
      (ask v).Refuses expected actual := by
  obtain ⟨items, rfl, hitems⟩ | ⟨hkind, rfl⟩ := encodeEquality_eq_error_iff.mp h
  · exact refuses_of_encodeList hlist hitems
  · exact ⟨_, _, rfl, .equality hask hkind⟩

/-- A condition that is not encoded refuses its operand. -/
theorem exists_refuses_of_encode (h : c.encode clock = .error fault) :
    ∃ expected actual, fault.mismatch? = some (expected, actual) ∧ c.Refuses expected actual := by
  cases c with
  | startsWith v | endsWith v | contains v | doesNotContain v =>
    obtain ⟨hkind, rfl⟩ := encodeText_eq_error_iff.mp (map_eq_error_iff.mp h)
    exact ⟨_, _, rfl, .text (by simp [textConditions]) hkind⟩
  | isEmpty | isNotEmpty | isAnything | isEmptyString => cases h
  | equals v | notEquals v =>
    exact refuses_of_encodeEquality (by simp [equalities]) (by simp [listConditions]) h
  | isOneOf v =>
    obtain ⟨items, rfl, hitems⟩ | ⟨hkind, rfl⟩ :=
      encodeMembership_eq_error_iff.mp (map_eq_error_iff.mp h)
    · exact refuses_of_encodeList (by simp [listConditions]) hitems
    · exact ⟨_, _, rfl, .membership hkind⟩
  | greaterThan v | atLeast v | lessThan v | atMost v =>
    obtain ⟨hscalar, rfl⟩ := encodeComparable_eq_error_iff.mp (map_eq_error_iff.mp h)
    exact ⟨_, _, rfl, .comparison (by simp [comparisons]) hscalar⟩
  | between start finish =>
    obtain ⟨hkinds, rfl⟩ := encodeRange_eq_error_iff.mp (map_eq_error_iff.mp h)
    exact ⟨_, _, rfl, .range hkinds⟩

/-- An operand that is refused is not encoded. -/
theorem Refuses.exists_fault (h : c.Refuses expected actual) (clock : Clock) :
    ∃ fault, c.encode clock = .error fault ∧ fault.mismatch? = some (expected, actual) := by
  cases h with
  | @text ask v hask hkind =>
    obtain ⟨operator, hencode⟩ := exists_encode_of_textCondition clock hask
    refine ⟨.unexpectedKind [.string] v.kind, ?_, rfl⟩
    rw [hencode, map_eq_error_iff, encodeText_eq_error_iff]
    exact ⟨hkind, rfl⟩
  | @equality ask v hask hkind =>
    obtain ⟨single, many, hencode⟩ := exists_encode_of_equality clock hask
    refine ⟨.unexpectedKind [.string, .number, .array] v.kind, ?_, rfl⟩
    rw [hencode, encodeEquality_eq_error_iff]
    exact .inr ⟨hkind, rfl⟩
  | @membership v hkind =>
    refine ⟨.unexpectedKind [.array] v.kind, ?_, rfl⟩
    rw [encode, map_eq_error_iff, encodeMembership_eq_error_iff]
    exact .inr ⟨hkind, rfl⟩
  | @item ask before after item hask hbefore hitem =>
    obtain ⟨operator, hencode⟩ := exists_encode_of_listCondition clock hask
    refine ⟨.unexpectedKind [.string, .number, .date] item.kind, ?_, rfl⟩
    rw [hencode, map_eq_error_iff, encodeList_eq_error_iff]
    exact ⟨before, item, after, rfl, hbefore, hitem, rfl⟩
  | @comparison ask v hask hscalar =>
    obtain ⟨operator, hencode⟩ := exists_encode_of_comparison clock hask
    refine ⟨.unexpectedKind [.number, .string, .date] v.kind, ?_, rfl⟩
    rw [hencode, map_eq_error_iff, encodeComparable_eq_error_iff]
    exact ⟨hscalar, rfl⟩
  | @range start finish hkinds =>
    refine ⟨.unexpectedBounds start.kind finish.kind, ?_, rfl⟩
    rw [encode, map_eq_error_iff, encodeRange_eq_error_iff]
    exact ⟨hkinds, rfl⟩

/-! ## Conditions that are encoded -/

theorem exists_map_eq_ok_iff {α β : Type} {result : Except Fault α} {f : α → β} :
    (∃ b, result.map f = .ok b) ↔ ∃ a, result = .ok a := by
  cases result <;> simp [Except.map]

theorem exists_encodeText_iff {operand : Operand} :
    (∃ s, encodeText operand = .ok s) ↔ ∃ s, operand = .text s := by
  simp only [encodeText_eq_ok_iff]

theorem exists_encodeComparable_iff {operand : Operand} :
    (∃ s, encodeComparable clock operand = .ok s) ↔ operand.isScalar = true := by
  simp only [encodeComparable_eq_ok_iff, ← operand.isSome_scalarText? clock,
    Option.isSome_iff_exists]

theorem exists_encodeItems_iff {items : List Operand} :
    (∃ texts, encodeItems clock items = .ok texts) ↔ ∀ item ∈ items, item.isScalar = true := by
  induction items with
  | nil => simp [encodeItems]
  | cons item items ih =>
    rw [List.forall_mem_cons, ← ih]
    cases hscalar : item.isScalar with
    | true =>
      obtain ⟨s, hs⟩ := encodeItem_of_isScalar hscalar
      rw [encodeItems_cons_of_ok hs, exists_map_eq_ok_iff]
      simp
    | false =>
      rw [encodeItems_cons_of_error (encodeItem_eq_error_iff.mpr ⟨hscalar, rfl⟩)]
      simp

theorem exists_encodeList_iff {items : List Operand} :
    (∃ s, encodeList clock items = .ok s) ↔ ∀ item ∈ items, item.isScalar = true :=
  exists_map_eq_ok_iff.trans exists_encodeItems_iff

theorem exists_encodeEquality_iff {single many : Operator} {operand : Operand} :
    (∃ encoded, encodeEquality clock single many operand = .ok encoded) ↔
      (∃ s, operand = .text s) ∨ (∃ n, operand = .number n) ∨ IsPlainList operand := by
  cases operand with
  | list items => simp [encodeEquality, exists_map_eq_ok_iff, exists_encodeList_iff, IsPlainList]
  | _ => simp [encodeEquality, IsPlainList]

theorem exists_encodeMembership_iff {operand : Operand} :
    (∃ s, encodeMembership clock operand = .ok s) ↔ IsPlainList operand := by
  cases operand with
  | list items => simp [encodeMembership, exists_encodeList_iff, IsPlainList]
  | _ => simp [encodeMembership, IsPlainList]

theorem exists_encodeRange_iff {start finish : Operand} :
    (∃ s, encodeRange clock start finish = .ok s) ↔
      (∃ s t, start = .text s ∧ finish = .text t) ∨
        (∃ m n, start = .number m ∧ finish = .number n) ∨
          ∃ i j, start = .date i ∧ finish = .date j := by
  cases start <;> cases finish <;> simp [encodeRange, Operand.scalarText?, Operand.kind]

/-- A condition is encoded if it takes its operand. -/
theorem exists_encode_iff : (∃ encoded, c.encode clock = .ok encoded) ↔ c.IsAcceptable := by
  cases c with
  | startsWith v | endsWith v | contains v | doesNotContain v =>
    exact exists_map_eq_ok_iff.trans exists_encodeText_iff
  | isEmpty | isNotEmpty | isAnything | isEmptyString => exact ⟨fun _ => trivial, fun _ => ⟨_, rfl⟩⟩
  | equals v | notEquals v => exact exists_encodeEquality_iff
  | isOneOf v => exact exists_map_eq_ok_iff.trans exists_encodeMembership_iff
  | greaterThan v | atLeast v | lessThan v | atMost v =>
    exact exists_map_eq_ok_iff.trans (exists_encodeComparable_iff.trans Operand.isScalar_iff)
  | between start finish => exact exists_map_eq_ok_iff.trans exists_encodeRange_iff

end Condition

/-! ## What a draft makes of a condition -/

/-- What a condition call comes to, by the field of the draft and the kinds of the operands alone.
Without a field it fails as such, whatever the operand.  With one it succeeds if and only if the
condition takes its operand; every fault is a mismatch that the condition has to state, and it
states every mismatch that there is. -/
theorem require_outcomes (d : Draft) (c : Condition) :
    (d.field = none → d.require c = .error .missingField) ∧
    (∀ name, d.field = some name →
      ((∃ next, d.require c = .ok next) ↔ c.IsAcceptable) ∧
      (∀ fault, d.require c = .error fault →
        ∃ expected actual, fault.mismatch? = some (expected, actual) ∧
          c.Refuses expected actual) ∧
      (∀ expected actual, c.Refuses expected actual →
        ∃ fault, d.require c = .error fault ∧ fault.mismatch? = some (expected, actual))) := by
  refine ⟨fun hfield => Draft.require_eq_error_iff.mpr (.inl ⟨hfield, rfl⟩), ?_⟩
  intro name hfield
  have herror : ∀ fault, d.require c = .error fault ↔ c.encode d.settings.clock = .error fault := by
    intro fault
    rw [Draft.require_eq_error_iff]
    simp [hfield]
  refine ⟨?_, ?_, ?_⟩
  · rw [← Condition.exists_encode_iff]
    constructor
    · rintro ⟨next, hnext⟩
      obtain ⟨_, operator, operand, -, hencode, -⟩ := Draft.require_eq_ok_iff.mp hnext
      exact ⟨_, hencode⟩
    · rintro ⟨⟨operator, operand⟩, hencode⟩
      exact ⟨_, Draft.require_eq_ok_iff.mpr ⟨name, operator, operand, hfield, hencode, rfl⟩⟩
  · intro fault hfault
    exact Condition.exists_refuses_of_encode ((herror fault).mp hfault)
  · intro expected actual hrefuses
    obtain ⟨fault, hencode, hmismatch⟩ := hrefuses.exists_fault d.settings.clock
    exact ⟨fault, (herror fault).mpr hencode, hmismatch⟩

/-- A list whose third item is a list, asked for with a field and without one. -/
theorem require_outcomes_nested_list :
    let date : Operand := .date ⟨0, 0, by decide⟩
    let c : Condition := .notEquals (.list [.text "x", date, .list [.null], .boolean true])
    let d : Draft := { field := some "a" }
    d.field = some "a" ∧ ({} : Draft).field = none ∧
    (∃ fault, d.require c = .error fault ∧
      fault.mismatch? = some ("string, number or date", "array")) ∧
    ({} : Draft).require c = .error .missingField := by
  intro date c d
  have hrefuses : c.Refuses "string, number or date" "array" :=
    @Condition.Refuses.item .notEquals [.text "x", date] [.boolean true] (.list [.null])
      (by simp [listConditions]) (by simp [Operand.isScalar, date]) rfl
  exact ⟨rfl, rfl, ((require_outcomes d c).2 "a" rfl).2.2 _ _ hrefuses, (require_outcomes {} c).1 rfl⟩

end Query

end RecordQuery
