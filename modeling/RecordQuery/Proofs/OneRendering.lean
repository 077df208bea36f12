import RecordQuery.Proofs.Acceptance

set_option autoImplicit false

/-!
# One rendering of operands

A text, a number or a date has one text, and every condition that takes it writes it so, alone, as
the one item of a list or as a bound of a range.  The conditions reach that text on different ways:
some look at the kind of their operand and take the text out of it, others ask for the text and look
at the kind only where there is none, and lists are looked at by two of them.  All of them come to
the texts of their parts with marks between them, under an operator that the condition alone decides
(`Condition.encode_eq_ok_iff`), and so no two of them differ (`conditions_render_alike`).
-/

namespace RecordQuery

open Calendar (Clock)

/-- An operand of the kind of a scalar has a text too. -/
theorem Operand.exists_scalarText?_of_kind_eq {clock : Clock} {v w : Operand} {s : String}
    (h : v.scalarText? clock = some s) (hkind : w.kind = v.kind) :
    ∃ t, w.scalarText? clock = some t := by
  have hw : w.isScalar = true := by
    obtain ⟨s, rfl⟩ | ⟨n, rfl⟩ | ⟨i, rfl⟩ := isScalar_iff.mp (isScalar_of_scalarText? h) <;>
      cases w <;> simp [kind] at hkind <;> rfl
  exact w.exists_scalarText? clock hw

namespace Query

/-! ## The operator of a condition -/

/-- The operator that a condition is encoded by.  A list turns equality into membership. -/
def Condition.operator : Condition → Operator
  | startsWith _ => .startsWith
  | endsWith _ => .endsWith
  | contains _ => .like
  | doesNotContain _ => .notLike
  | isEmpty => .isEmpty
  | isNotEmpty => .isNotEmpty
  | isAnything => .anything
  | isEmptyString => .emptyString
  | equals v => if v.kind = .array then .oneOf else .equal
  | notEquals v => if v.kind = .array then .noneOf else .notEqual
  | isOneOf _ => .oneOf
  | greaterThan _ => .greater
  | atLeast _ => .greaterOrEqual
  | lessThan _ => .less
  | atMost _ => .lessOrEqual
  | between _ _ => .between

section

variable {clock : Clock} {c : Condition} {operator : Operator} {operand : String}

theorem operator_eq_of_encodeEquality {single many : Operator} {v : Operand}
    (h : encodeEquality clock single many v = .ok (operator, operand)) :
    operator = if v.kind = .array then many else single := by
  cases v with
  | text s => cases h; rfl
  | number n => cases h; rfl
  | list items =>
    obtain ⟨_, -, hpair⟩ := map_eq_ok_iff.mp h
    cases hpair
    rfl
  | date i => cases h
  | boolean b => cases h
  | object fields => cases h
  | null => cases h

theorem Condition.operator_eq_of_encode (h : c.encode clock = .ok (operator, operand)) :
    operator = c.operator := by
  cases c with
  | isEmpty | isNotEmpty | isAnything | isEmptyString => cases h; rfl
  | equals v | notEquals v => exact operator_eq_of_encodeEquality h
  | startsWith v | endsWith v | contains v | doesNotContain v | isOneOf v | greaterThan v | atLeast v
  | lessThan v | atMost v | between start finish =>
    obtain ⟨_, -, hpair⟩ := map_eq_ok_iff.mp h
    cases hpair
    rfl

/-! ## What a condition is encoded as -/

/-- Operands have no more than one list of texts. -/
theorem Renders.unique {parts : List Operand} {texts others : List String}
    (h : Renders clock parts texts) (hother : Renders clock parts others) : texts = others := by
  induction h generalizing others with
  | nil =>
    cases hother
    rfl
  | cons hhead _ ih =>
    cases hother with
    | cons hhead' htail' =>
      rw [hhead] at hhead'
      rw [Option.some.inj hhead', ih htail']

/-- A condition is encoded if it takes its operand, by its operator, and as the texts of its parts
with its marks between them. -/
theorem Condition.encode_eq_ok_iff :
    c.encode clock = .ok (operator, operand) ↔
      c.IsAcceptable ∧ operator = c.operator ∧
        ∃ texts, Renders clock c.parts texts ∧ operand = c.mark.intercalate texts := by
  constructor
  · intro h
    exact ⟨exists_encode_iff.mp ⟨_, h⟩, operator_eq_of_encode h, c.exists_texts_of_encode h⟩
  · rintro ⟨hacceptable, rfl, texts, hrenders, rfl⟩
    obtain ⟨⟨operator, operand⟩, hencode⟩ : ∃ encoded, c.encode clock = .ok encoded :=
      exists_encode_iff.mpr hacceptable
    obtain ⟨others, hothers, rfl⟩ := c.exists_texts_of_encode hencode
    rw [hencode, operator_eq_of_encode hencode, hothers.unique hrenders]

end

/-- What a condition call that succeeds adds to a draft. -/
theorem Draft.require_eq_ok_iff_of_renders {d next : Draft} {c : Condition} {texts : List String}
    (h : Renders d.settings.clock c.parts texts) :
    d.require c = .ok next ↔
      ∃ field, d.field = some field ∧ c.IsAcceptable ∧
        next = d.push (.condition field c.operator (c.mark.intercalate texts)) := by
  rw [Draft.require_eq_ok_iff]
  simp only [Condition.encode_eq_ok_iff]
  constructor
  · rintro ⟨field, _, _, hfield, ⟨hacceptable, rfl, others, hothers, rfl⟩, rfl⟩
    exact ⟨field, hfield, hacceptable, by rw [hothers.unique h]⟩
  · rintro ⟨field, hfield, hacceptable, rfl⟩
    exact ⟨field, _, _, hfield, ⟨hacceptable, rfl, texts, h, rfl⟩, rfl⟩

/-! ## Conditions on one operand -/

/-- All that can be asked with one operand, by itself or as the one item of a list. -/
def questions (v : Operand) : List Condition :=
  [.startsWith v, .endsWith v, .contains v, .doesNotContain v, .equals v, .notEquals v,
    .greaterThan v, .atLeast v, .lessThan v, .atMost v,
    .equals (.list [v]), .notEquals (.list [v]), .isOneOf (.list [v])]

theorem parts_of_mem_questions {clock : Clock} {v : Operand} {s : String}
    (h : v.scalarText? clock = some s) : ∀ c ∈ questions v, c.parts = [v] := by
  have halone : v.parts = [v] := Operand.parts_of_scalarText? h
  have hlisted : (Operand.list [v]).parts = [v] := rfl
  simp [questions, Condition.parts, halone, hlisted]

/-- A condition of one operand has no use for its mark. -/
theorem Draft.require_eq_ok_iff_of_parts {d next : Draft} {c : Condition} {v : Operand} {s : String}
    (h : v.scalarText? d.settings.clock = some s) (hparts : c.parts = [v]) :
    d.require c = .ok next ↔
      ∃ field, d.field = some field ∧ c.IsAcceptable ∧
        next = d.push (.condition field c.operator s) := by
  have hrenders : Renders d.settings.clock c.parts [s] := by
    rw [hparts]
    exact .cons h .nil
  rw [require_eq_ok_iff_of_renders hrenders, String.intercalate_singleton]

theorem Draft.require_between_eq_ok_iff {d next : Draft} {v w : Operand} {s t : String}
    (hv : v.scalarText? d.settings.clock = some s) (hw : w.scalarText? d.settings.clock = some t)
    (hkind : w.kind = v.kind) :
    d.require (.between v w) = .ok next ↔
      ∃ field, d.field = some field ∧
        next = d.push (.condition field .between (s ++ "@" ++ t)) := by
  have hrenders : Renders d.settings.clock (Condition.between v w).parts [s, t] :=
    .cons hv (.cons hw .nil)
  have hacceptable : (Condition.between v w).IsAcceptable := by
    obtain ⟨operand, hoperand⟩ : ∃ operand, encodeRange d.settings.clock v w = .ok operand :=
      ⟨_, encodeRange_eq_ok_iff.mpr ⟨s, t, hv, hw, hkind.symm, rfl⟩⟩
    exact Condition.exists_encodeRange_iff.mp ⟨operand, hoperand⟩
  rw [require_eq_ok_iff_of_renders hrenders, String.intercalate_cons_cons,
    String.intercalate_singleton]
  simp only [hacceptable, true_and]
  rfl

/-! ## Conditions on one list -/

/-- The conditions that take a list come to one outcome, a fault or a field and an operand, and
differ in their operators only. -/
theorem Draft.exists_outcome_of_list (d : Draft) (items : List Operand) :
    ∃ outcome : Except Fault (String × String), ∀ c operator,
      (c, operator) ∈ [(Condition.equals (.list items), Operator.oneOf),
        (.notEquals (.list items), .noneOf), (.isOneOf (.list items), .oneOf)] →
      d.require c = outcome.map fun added => d.push (.condition added.1 operator added.2) := by
  refine ⟨d.field.elim (.error .missingField) fun field =>
    (encodeList d.settings.clock items).map (field, ·), ?_⟩
  intro c operator hc
  have hencode : c.encode d.settings.clock =
      (encodeList d.settings.clock items).map (operator, ·) := by
    simp only [List.mem_cons, Prod.mk.injEq, List.not_mem_nil, or_false] at hc
    obtain ⟨rfl, rfl⟩ | ⟨rfl, rfl⟩ | ⟨rfl, rfl⟩ := hc <;> rfl
  rw [Draft.require, hencode]
  cases d.field with
  | none => rfl
  | some field => cases encodeList d.settings.clock items <;> rfl

/-- All conditions render one operand in one way, whatever the draft.

The two ways to ask for membership in a list give the same draft or the same fault, for every list,
and the way to ask for the contrary differs from them in the operator only.  A text, a number or a
date is written as its text by every condition that takes it, alone or as the one item of a list,
and before and behind the mark of a range with any bound of its kind. -/
theorem conditions_render_alike (d : Draft) :
    (∀ items, ∃ outcome : Except Fault (String × String),
      d.require (.equals (.list items)) =
        outcome.map (fun added => d.push (.condition added.1 .oneOf added.2)) ∧
      d.require (.isOneOf (.list items)) = d.require (.equals (.list items)) ∧
      d.require (.notEquals (.list items)) =
        outcome.map (fun added => d.push (.condition added.1 .noneOf added.2))) ∧
    (∀ v s, v.scalarText? d.settings.clock = some s →
      (∀ c ∈ questions v, ∀ next, d.require c = .ok next ↔
        ∃ field, d.field = some field ∧ c.IsAcceptable ∧
          next = d.push (.condition field c.operator s)) ∧
      (∀ w, w.kind = v.kind → ∃ t, w.scalarText? d.settings.clock = some t ∧
        ∀ next, d.require (.between v w) = .ok next ↔
          ∃ field, d.field = some field ∧
            next = d.push (.condition field .between (s ++ "@" ++ t)))) := by
  constructor
  · intro items
    obtain ⟨outcome, houtcome⟩ := d.exists_outcome_of_list items
    have hequals := houtcome (.equals (.list items)) .oneOf (by simp)
    have hmember := houtcome (.isOneOf (.list items)) .oneOf (by simp)
    have hnone := houtcome (.notEquals (.list items)) .noneOf (by simp)
    exact ⟨outcome, hequals, hmember.trans hequals.symm, hnone⟩
  · intro v s hv
    refine ⟨fun c hc next => ?_, fun w hkind => ?_⟩
    · exact Draft.require_eq_ok_iff_of_parts hv (parts_of_mem_questions hv c hc)
    · obtain ⟨t, hw⟩ := Operand.exists_scalarText?_of_kind_eq hv hkind
      exact ⟨t, hw, fun next => Draft.require_between_eq_ok_iff hv hw hkind⟩

/-- A date on a clock of twelve hours, as the one item of a list, and as the first bound of a
range. -/
theorem conditions_render_alike_afternoon :
    let date : Operand := .date ⟨46800, 0, by decide⟩
    let later : Operand := .date ⟨86399, 1000000000, by decide⟩
    let d : Draft := { settings := { clock := .twelve }, field := some "a" }
    date.scalarText? d.settings.clock = some "1970-01-01 01:00:00" ∧
    d.require (.notEquals (.list [date])) =
      .ok (d.push (.condition "a" .noneOf "1970-01-01 01:00:00")) ∧
    d.require (.between date later) =
      .ok (d.push (.condition "a" .between "1970-01-01 01:00:00@1970-01-01 11:59:60")) := by
  intro date later d
  have hdate : date.scalarText? d.settings.clock = some "1970-01-01 01:00:00" := by decide +kernel
  have hlater : later.scalarText? d.settings.clock = some "1970-01-01 11:59:60" := by
    decide +kernel
  obtain ⟨honce, hrange⟩ := (conditions_render_alike d).2 date _ hdate
  have hasked : Condition.notEquals (.list [date]) ∈ questions date := by simp [questions]
  have hplain : (Condition.notEquals (.list [date])).IsAcceptable :=
    .inr (.inr ⟨[date], rfl, by simp [Operand.isScalar, date]⟩)
  obtain ⟨t, ht, hboth⟩ := hrange later rfl
  cases hlater.symm.trans ht
  exact ⟨hdate, (honce _ hasked _).mpr ⟨"a", rfl, hplain, rfl⟩, (hboth _).mpr ⟨"a", rfl, rfl⟩⟩

end Query

end RecordQuery
