import RecordQuery.Proofs.Acceptance
import RecordQuery.Proofs.History
import RecordQuery.Proofs.Rendering

set_option autoImplicit false

/-!
# Taking operands apart

The operand of a list is the texts of its items with commas between them, and that of a range the
texts of its bounds with an at sign between them.  Neither mark is ever written in a number or a
date, so where the texts keep clear of it as well, the operand falls apart at its marks into the
texts it was made from, in their order, an empty text at an end included
(`list_and_range_operands_come_apart`).
-/

namespace RecordQuery

open Calendar (Clock Instant)

/-! ## Marks of queries -/

/-- The characters that the text of a query is told apart by. -/
def queryMarks : List Char := [',', '@', '^', '=']

theorem isRenderedChar_of_mem_queryMarks {c : Char} (h : c ∈ queryMarks) :
    isRenderedChar c = false := by
  simp only [queryMarks, List.mem_cons, List.not_mem_nil, or_false] at h
  rcases h with rfl | rfl | rfl | rfl <;> decide

theorem IsRendered.not_mem {text : List Char} (h : IsRendered text) {c : Char}
    (hc : c ∈ queryMarks) : c ∉ text := by
  intro hmem
  have hrendered := h c hmem
  rw [isRenderedChar_of_mem_queryMarks hc] at hrendered
  cases hrendered

namespace Query

/-! ## Texts with marks between them -/

/-- Texts without the mark between them show one mark less than there are texts. -/
theorem count_intercalate {mark : Char} {texts : List (List Char)} (hne : texts ≠ [])
    (hclear : ∀ text ∈ texts, mark ∉ text) :
    ([mark].intercalate texts).count mark + 1 = texts.length := by
  induction texts with
  | nil => exact absurd rfl hne
  | cons text rest ih =>
    obtain ⟨htext, hrest⟩ := List.forall_mem_cons.mp hclear
    have hzero : text.count mark = 0 := List.count_eq_zero.mpr htext
    cases rest with
    | nil => simp [hzero]
    | cons next rest =>
      have hcount := ih (List.cons_ne_nil _ _) hrest
      rw [List.intercalate_cons_cons, List.count_append, List.count_append, hzero, List.length_cons,
        ← hcount]
      simp [Nat.add_comm]

section

variable {clock : Clock} {parts : List Operand} {texts : List String}

theorem Renders.map_eq (h : Renders clock parts texts) :
    parts.map (·.scalarText? clock) = texts.map some := by
  induction h with
  | nil => rfl
  | cons hhead _ ih => rw [List.map_cons, List.map_cons, hhead, ih]

/-- Where the texts among the parts keep clear of a mark of queries, so do the texts of all. -/
theorem Renders.not_mem (h : Renders clock parts texts) {mark : Char} (hmark : mark ∈ queryMarks)
    (hclear : ∀ s, Operand.text s ∈ parts → mark ∉ s.toList) :
    ∀ text ∈ texts.map String.toList, mark ∉ text := by
  intro characters hmem
  obtain ⟨text, htext, rfl⟩ := List.mem_map.mp hmem
  obtain ⟨part, hpart, hscalar⟩ := exists_of_mem_right h htext
  refine not_mem_scalarText (isRenderedChar_of_mem_queryMarks hmark) ?_ hscalar
  rintro s rfl
  exact hclear s hpart

/-- What is written with marks between its parts falls apart at them. -/
theorem Renders.splitOn_intercalate (h : Renders clock parts texts) (hne : parts ≠ [])
    {mark : Char} (hmark : mark ∈ queryMarks)
    (hclear : ∀ s, Operand.text s ∈ parts → mark ∉ s.toList) (between : String)
    (hbetween : between.toList = [mark]) :
    (between.intercalate texts).toList.splitOn mark = texts.map String.toList ∧
      (between.intercalate texts).toList.count mark + 1 = parts.length := by
  have hlength : (texts.map String.toList).length = parts.length := by
    rw [List.length_map, ← h.length_eq]
  have htexts : texts.map String.toList ≠ [] := by
    rw [← List.length_pos_iff, hlength]
    exact List.length_pos_iff.mpr hne
  have hapart := h.not_mem hmark hclear
  rw [String.toList_intercalate, hbetween, ← hlength]
  exact ⟨List.splitOn_intercalate mark hapart htexts, count_intercalate htexts hapart⟩

end

theorem Draft.require_of_encode {d : Draft} {field : String} (hfield : d.field = some field)
    {c : Condition} {operator : Operator} {operand : String}
    (h : c.encode d.settings.clock = .ok (operator, operand)) :
    d.require c = .ok (d.push (.condition field operator operand)) :=
  require_eq_ok_iff.mpr ⟨field, operator, operand, hfield, h, rfl⟩

/-- The operands of lists and ranges can be taken apart again.

A list of texts, numbers and dates is taken by every condition on lists, and its operand, cut at the
commas, is the texts of its items in their order: there are as many commas as items less one.  Two
bounds of one kind are taken as a range, whose operand has one at sign, with the text of the first
bound before it and that of the second behind it.  Only texts have to keep clear of the marks, as no
number and no date is written with one. -/
theorem list_and_range_operands_come_apart (d : Draft) (field : String)
    (hfield : d.field = some field) :
    (∀ items, items ≠ [] → (∀ item ∈ items, item.isScalar = true) →
      (∀ s, Operand.text s ∈ items → ',' ∉ s.toList) →
      ∃ operand,
        d.require (.equals (.list items)) = .ok (d.push (.condition field .oneOf operand)) ∧
        d.require (.notEquals (.list items)) = .ok (d.push (.condition field .noneOf operand)) ∧
        d.require (.isOneOf (.list items)) = .ok (d.push (.condition field .oneOf operand)) ∧
        (operand.toList.splitOn ',').map (fun piece => some (String.ofList piece)) =
          items.map (·.scalarText? d.settings.clock) ∧
        operand.toList.count ',' + 1 = items.length) ∧
    (∀ start finish, start.isScalar = true → finish.isScalar = true → start.kind = finish.kind →
      (∀ s, start = .text s ∨ finish = .text s → '@' ∉ s.toList) →
      ∃ operand first last,
        d.require (.between start finish) = .ok (d.push (.condition field .between operand)) ∧
        start.scalarText? d.settings.clock = some first ∧
        finish.scalarText? d.settings.clock = some last ∧
        operand.toList.count '@' = 1 ∧ operand.toList.splitOn '@' = [first.toList, last.toList]) ∧
    (∀ n : Number, ∀ mark ∈ queryMarks, mark ∉ n.text.toList) ∧
    (∀ (clock : Clock) (i : Instant), ∀ mark ∈ queryMarks, mark ∉ i.literal clock) := by
  refine ⟨?_, ?_, ?_, ?_⟩
  · intro items hne hscalar hclear
    obtain ⟨operand, hoperand⟩ : ∃ operand, encodeList d.settings.clock items = .ok operand :=
      Condition.exists_encodeList_iff.mpr hscalar
    obtain ⟨texts, hrenders, rfl⟩ := encodeList_eq_ok_iff.mp hoperand
    obtain ⟨hsplit, hcount⟩ :=
      hrenders.splitOn_intercalate hne (by simp [queryMarks]) hclear "," rfl
    have hrequire : ∀ {c : Condition} {operator : Operator},
        c.encode d.settings.clock = (encodeList d.settings.clock items).map (operator, ·) →
          d.require c = .ok (d.push (.condition field operator (String.intercalate "," texts))) := by
      intro c operator hencode
      rw [hoperand] at hencode
      exact Draft.require_of_encode hfield hencode
    refine ⟨_, hrequire rfl, hrequire rfl, hrequire rfl, ?_, hcount⟩
    rw [hsplit, hrenders.map_eq, List.map_map]
    exact List.map_congr_left fun text _ => congrArg some String.ofList_toList
  · intro start finish hstart hfinish hkind hclear
    obtain ⟨first, hfirst⟩ := start.exists_scalarText? d.settings.clock hstart
    obtain ⟨last, hlast⟩ := finish.exists_scalarText? d.settings.clock hfinish
    have hrenders : Renders d.settings.clock [start, finish] [first, last] :=
      .cons hfirst (.cons hlast .nil)
    have hbounds : ∀ s, Operand.text s ∈ [start, finish] → '@' ∉ s.toList := by
      intro s hs
      exact hclear s (by simpa [eq_comm] using hs)
    obtain ⟨hsplit, hcount⟩ :=
      hrenders.splitOn_intercalate (List.cons_ne_nil _ _) (by simp [queryMarks]) hbounds "@" rfl
    rw [String.intercalate_cons_cons, String.intercalate_singleton] at hsplit hcount
    have hencode : (Condition.between start finish).encode d.settings.clock =
        .ok (.between, first ++ "@" ++ last) :=
      map_eq_ok_iff.mpr
        ⟨_, encodeRange_eq_ok_iff.mpr ⟨first, last, hfirst, hlast, hkind, rfl⟩, rfl⟩
    exact ⟨_, first, last, Draft.require_of_encode hfield hencode, hfirst, hlast,
      Nat.succ.inj hcount, hsplit⟩
  · exact fun n mark hmark => (isRendered_number n).not_mem hmark
  · exact fun clock i mark hmark => (isRendered_literal clock i).not_mem hmark

/-- A list with empty texts at its ends, around a negative number and a year with a sign. -/
theorem list_and_range_operands_come_apart_empty_ends :
    let date : Operand := .date ⟨317269749600, 0, by decide⟩
    let items : List Operand := [.text "", .number (.integer (-5)), date, .text ""]
    let d : Draft := { field := some "a" }
    d.field = some "a" ∧ items ≠ [] ∧ (∀ item ∈ items, item.isScalar = true) ∧
    (∀ s, Operand.text s ∈ items → ',' ∉ s.toList) ∧
    ∃ operand,
      d.require (.notEquals (.list items)) = .ok (d.push (.condition "a" .noneOf operand)) ∧
      (operand.toList.splitOn ',').map (fun piece => some (String.ofList piece)) =
        [some "", some "-5", some "+12023-11-17 14:00:00", some ""] := by
  intro date items d
  have hscalar : ∀ item ∈ items, item.isScalar = true := by simp [items, date, Operand.isScalar]
  have hclear : ∀ s, Operand.text s ∈ items → ',' ∉ s.toList := by
    intro s hs
    have hempty : s = "" := by simpa [items, date] using hs
    simp [hempty]
  have hdate : date.scalarText? d.settings.clock = some "+12023-11-17 14:00:00" := by
    decide +kernel
  obtain ⟨operand, -, hoperand, -, hsplit, -⟩ :=
    (list_and_range_operands_come_apart d "a" rfl).1 items (List.cons_ne_nil _ _) hscalar hclear
  refine ⟨rfl, List.cons_ne_nil _ _, hscalar, hclear, operand, hoperand, hsplit.trans ?_⟩
  simp only [items, List.map_cons, List.map_nil, hdate]
  rfl

end Query

end RecordQuery
