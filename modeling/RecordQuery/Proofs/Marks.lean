import Mathlib.Data.List.Chain
import RecordQuery.Proofs.Encoding
import RecordQuery.Proofs.Grammar
import RecordQuery.Proofs.History
import RecordQuery.Proofs.Reading
import RecordQuery.Proofs.Rendering

set_option autoImplicit false

/-!
# The marks in the text of a query

Every separator begins with the mark `^`, and no number, date, operator or direction is written with
it.  So in a run whose field names and texts keep clear of the mark, the marks in the text are those
of the separators, and the text falls apart before them as the tokens do (`cutBefore_textOf`).  What
a strict draft is built into shows no empty part: no mark stands at an end or next to another one
(`marks_of_run`).
-/

namespace RecordQuery.Query

open Calendar (Clock)

/-! ## Cutting a list -/

/-- A list cut before each element that satisfies `p`: what stands before the first of them, and the
pieces that begin with one of them. -/
def cutBefore {α : Type} (p : α → Bool) : List α → List α × List (List α)
  | [] => ([], [])
  | a :: rest =>
    let (front, pieces) := cutBefore p rest
    if p a then ([], (a :: front) :: pieces) else (a :: front, pieces)

section Cut

variable {α : Type} {p : α → Bool}

theorem cutBefore_cons_of_pos {a : α} (h : p a = true) (rest : List α) :
    cutBefore p (a :: rest) = ([], (a :: (cutBefore p rest).1) :: (cutBefore p rest).2) := by
  simp [cutBefore, h]

theorem cutBefore_cons_of_neg {a : α} (h : p a = false) (rest : List α) :
    cutBefore p (a :: rest) = (a :: (cutBefore p rest).1, (cutBefore p rest).2) := by
  simp [cutBefore, h]

/-- There is one piece for each element that begins one. -/
theorem length_cutBefore (l : List α) : (cutBefore p l).2.length = l.countP p := by
  induction l with
  | nil => rfl
  | cons a rest ih =>
    cases h : p a with
    | true => rw [cutBefore_cons_of_pos h, List.countP_cons_of_pos h, List.length_cons, ih]
    | false => rw [cutBefore_cons_of_neg h, List.countP_cons_of_neg (by simp [h]), ih]

theorem cutBefore_append {left : List α} (h : ∀ a ∈ left, p a = false) (right : List α) :
    cutBefore p (left ++ right) = (left ++ (cutBefore p right).1, (cutBefore p right).2) := by
  induction left with
  | nil => rfl
  | cons a left ih =>
    rw [List.cons_append, cutBefore_cons_of_neg (h a List.mem_cons_self),
      ih fun b hb => h b (List.mem_cons_of_mem _ hb)]
    rfl

end Cut

/-! ## The characters of an operand -/

theorem mem_intercalate {mark : String} {texts : List String} {c : Char}
    (h : c ∈ (mark.intercalate texts).toList) :
    c ∈ mark.toList ∨ ∃ text ∈ texts, c ∈ text.toList := by
  induction texts with
  | nil => cases h
  | cons text rest ih =>
    cases rest with
    | nil => exact .inr ⟨text, List.mem_cons_self, by rwa [String.intercalate_singleton] at h⟩
    | cons next rest =>
      rw [String.intercalate_cons_cons, String.toList_append, String.toList_append,
        List.mem_append, List.mem_append] at h
      rcases h with (htext | hmark) | hrest
      · exact .inr ⟨text, List.mem_cons_self, htext⟩
      · exact .inl hmark
      · exact (ih hrest).imp_right fun ⟨other, hother, hmem⟩ =>
          ⟨other, List.mem_cons_of_mem _ hother, hmem⟩

/-- A character that no number and no date is written with, and no mark between the parts, is in
the operand of a condition only if it is in one of its texts. -/
theorem Condition.not_mem_operand {clock : Clock} {condition : Condition} {operator : Operator}
    {operand : String} {c : Char} (hc : isRenderedChar c = false)
    (hmark : c ∉ condition.mark.toList)
    (htexts : ∀ text, Operand.text text ∈ condition.parts → c ∉ text.toList)
    (h : condition.encode clock = .ok (operator, operand)) : c ∉ operand.toList := by
  obtain ⟨texts, hrenders, rfl⟩ := condition.exists_texts_of_encode h
  intro hmem
  rcases mem_intercalate hmem with hmem | ⟨text, htext, hmem⟩
  · exact hmark hmem
  · obtain ⟨part, hpart, hscalar⟩ := exists_of_mem_right hrenders htext
    refine not_mem_scalarText hc ?_ hscalar hmem
    rintro value rfl
    exact htexts value hpart

theorem Condition.not_mem_mark (condition : Condition) : '^' ∉ condition.mark.toList := by
  cases condition <;> simp [mark]

/-! ## The marks of separators -/

/-- No token but a separator has the mark in its text. -/
def MarksSeparate (tokens : List Token) : Prop :=
  ∀ token ∈ tokens, token.isSeparator = false → '^' ∉ token.text.toList

theorem MarksSeparate.tail {token : Token} {rest : List Token}
    (h : MarksSeparate (token :: rest)) : MarksSeparate rest :=
  fun other hother => h other (List.mem_cons_of_mem _ hother)

/-- The text falls apart before the marks as the tokens do before the separators. -/
theorem cutBefore_textOf {tokens : List Token} (h : MarksSeparate tokens) :
    cutBefore (· == '^') (textOf tokens).toList =
      ((textOf (cutBefore Token.isSeparator tokens).1).toList,
        (cutBefore Token.isSeparator tokens).2.map fun piece => (textOf piece).toList) := by
  have hclear : ∀ text : List Char, '^' ∉ text → ∀ c ∈ text, (c == '^') = false := by
    intro text htext c hc
    exact beq_eq_false_iff_ne.mpr fun heq => htext (heq ▸ hc)
  induction tokens with
  | nil => rfl
  | cons token rest ih =>
    rw [textOf_cons, String.toList_append]
    cases hseparator : token.isSeparator with
    | false =>
      have htoken : '^' ∉ token.text.toList := h token List.mem_cons_self hseparator
      rw [cutBefore_append (hclear _ htoken), cutBefore_cons_of_neg hseparator, ih h.tail,
        textOf_cons, String.toList_append]
    | true =>
      cases token with
      | condition field operator operand => cases hseparator
      | ordering direction field => cases hseparator
      | separator connective =>
        have htext : (Token.separator connective).text.toList = '^' :: connective.suffix :=
          connective.text_eq
        rw [htext, List.cons_append, cutBefore_cons_of_pos (by decide),
          cutBefore_append (hclear _ connective.not_mem_suffix), cutBefore_cons_of_pos hseparator,
          ih h.tail, List.map_cons, textOf_cons, String.toList_append, htext, List.cons_append]
        rfl

theorem count_textOf {tokens : List Token} (h : MarksSeparate tokens) :
    (textOf tokens).toList.count '^' = tokens.countP Token.isSeparator := by
  have hlength := length_cutBefore (p := (· == '^')) (textOf tokens).toList
  rw [cutBefore_textOf h, List.length_map, length_cutBefore] at hlength
  exact hlength.symm

/-- The field that a token names. -/
def Token.field? : Token → Option String
  | condition field _ _ => some field
  | separator _ => none
  | ordering _ field => some field

/-- In a run whose fields and texts keep clear of the mark the separators alone have it, whatever
numbers and dates there are. -/
theorem marksSeparate_attemptAll {settings : Settings} {calls : List Call}
    (hfields : ∀ token ∈ (({ settings } : Draft).attemptAll calls).tokens,
      ∀ field, token.field? = some field → '^' ∉ field.toList)
    (htexts : ∀ position ∈ ({ settings } : Draft).additions calls,
      ∀ condition, calls[position]? = some (.require condition) →
        ∀ text, Operand.text text ∈ condition.parts → '^' ∉ text.toList) :
    MarksSeparate (({ settings } : Draft).attemptAll calls).tokens := by
  intro token htoken hseparator
  obtain ⟨position, hposition, call, hcall, hadds⟩ := exists_addedAt_of_mem htoken
  cases hadds with
  | separator connective => cases hseparator
  | ordering direction =>
    have hfield := hfields _ htoken _ rfl
    simp [Token.text, direction.not_mem_text, hfield]
  | @condition field condition operator operand _ hencode =>
    have hfield : '^' ∉ field.toList := hfields _ htoken _ rfl
    have hoperand : '^' ∉ operand.toList :=
      condition.not_mem_operand (by decide) condition.not_mem_mark
        (htexts position hposition condition hcall) hencode
    simp [Token.text, operator.not_mem_text, hfield, hoperand]

/-! ## The marks of a strict query -/

/-- A text whose marks each stand between two other characters. -/
structure IsWellMarked (text : List Char) : Prop where
  ne_nil : text ≠ []
  head : text.head? ≠ some '^'
  last : text.getLast? ≠ some '^'
  apart : text.IsChain fun a b => ¬ (a = '^' ∧ b = '^')

theorem isWellMarked_of_not_mem {text : List Char} (hne : text ≠ []) (h : '^' ∉ text) :
    IsWellMarked text where
  ne_nil := hne
  head := fun hhead => h (List.mem_of_head? hhead)
  last := fun hlast => h (List.mem_of_getLast? hlast)
  apart := by
    refine List.Pairwise.isChain (List.pairwise_of_forall_mem_list ?_)
    rintro a ha b - ⟨rfl, -⟩
    exact h ha

namespace IsWellMarked

variable {front back : List Char}

/-- Characters that are no marks can be put in front. -/
theorem append (hback : IsWellMarked back) (hfront : '^' ∉ front) :
    IsWellMarked (front ++ back) := by
  cases front with
  | nil => exact hback
  | cons c rest =>
    have hmarked : IsWellMarked (c :: rest) := isWellMarked_of_not_mem (List.cons_ne_nil _ _) hfront
    refine ⟨List.cons_ne_nil _ _, hmarked.head, ?_, hmarked.apart.append hback.apart ?_⟩
    · rw [List.getLast?_append_of_ne_nil _ hback.ne_nil]
      exact hback.last
    · rintro a ha b - ⟨rfl, -⟩
      exact hmarked.last ha

/-- A mark can be put between two texts if the one before it is not empty and the one behind it
neither empty nor begun by a mark. -/
theorem join (hback : IsWellMarked back) (hne : front ≠ []) (hfront : '^' ∉ front) :
    IsWellMarked (front ++ '^' :: back) := by
  have hmarked : IsWellMarked front := isWellMarked_of_not_mem hne hfront
  refine ⟨by simp, ?_, ?_, hmarked.apart.append (hback.apart.cons ?_) ?_⟩
  · rw [List.head?_append_of_ne_nil _ hne]
    exact hmarked.head
  · rw [List.getLast?_append_of_ne_nil _ (List.cons_ne_nil _ _), List.getLast?_cons_of_ne_nil
      hback.ne_nil]
    exact hback.last
  · rintro b hb ⟨-, rfl⟩
    exact hback.head hb
  · rintro a ha b - ⟨rfl, -⟩
    exact hmarked.last ha

theorem not_doubled {text : List Char} (h : IsWellMarked text) : ¬ "^^".toList <:+: text := by
  rintro ⟨before, after, rfl⟩
  exact h.apart.left_of_append.right_of_append.rel ⟨rfl, rfl⟩

end IsWellMarked

/-- No token is written as nothing. -/
theorem Token.text_ne_nil (token : Token) : token.text.toList ≠ [] := by
  cases token with
  | condition field operator operand =>
    obtain ⟨c, rest, htext, -⟩ := operator.exists_cons
    simp [Token.text, htext]
  | separator connective => simp [Token.text, connective.text_eq]
  | ordering direction field => cases direction <;> simp [Token.text, Direction.text]

theorem toList_textOf_ne_nil {tokens : List Token} (h : tokens ≠ []) :
    (textOf tokens).toList ≠ [] := by
  obtain ⟨token, rest, rfl⟩ := List.exists_cons_of_ne_nil h
  rw [textOf_cons, String.toList_append]
  exact List.append_ne_nil_of_left_ne_nil token.text_ne_nil _

/-- A segment is written without marks. -/
theorem IsSegment.not_mem_textOf {tokens : List Token} (h : IsSegment tokens)
    (hmarks : MarksSeparate tokens) : '^' ∉ (textOf tokens).toList := by
  rw [toList_textOf, List.mem_flatMap]
  rintro ⟨token, htoken, hmem⟩
  exact hmarks token htoken (h.isSeparator_eq_false token htoken) hmem

/-- The text of a word of the grammar shows no empty part. -/
theorem IsQuery.isWellMarked {tokens : List Token} (h : IsQuery tokens) :
    MarksSeparate tokens → IsWellMarked (textOf tokens).toList := by
  induction h with
  | segment h =>
    intro hmarks
    exact isWellMarked_of_not_mem (toList_textOf_ne_nil h.ne_nil) (h.not_mem_textOf hmarks)
  | @join connective first rest h _ ih =>
    intro hmarks
    obtain ⟨hfirst, hrest⟩ : MarksSeparate first ∧ MarksSeparate (.separator connective :: rest) :=
      List.forall_mem_append.mp hmarks
    have htext : (textOf (first ++ .separator connective :: rest)).toList =
        (textOf first).toList ++ '^' :: (connective.suffix ++ (textOf rest).toList) := by
      rw [textOf_append, String.toList_append, textOf_cons, String.toList_append, Token.text,
        connective.text_eq, List.cons_append]
    rw [htext]
    exact ((ih hrest.tail).append connective.not_mem_suffix).join (toList_textOf_ne_nil h.ne_nil)
      (h.not_mem_textOf hfirst)

/-- Only separators show as marks.  In a run whose field names, and whose texts in the operands of
conditions that were added, keep clear of the mark, there are as many marks in the text as
separators among the tokens, and the text cut before each mark falls into the texts of the tokens
cut before each separator, one piece for each separator besides the leading one.  What a strict
draft is built into is not empty, has no mark at an end, and no two marks together. -/
theorem marks_of_run (settings : Settings) (calls : List Call)
    (hfields : ∀ token ∈ (({ settings } : Draft).attemptAll calls).tokens,
      ∀ field, token.field? = some field → '^' ∉ field.toList)
    (htexts : ∀ position ∈ ({ settings } : Draft).additions calls,
      ∀ condition, calls[position]? = some (.require condition) →
        ∀ text, Operand.text text ∈ condition.parts → '^' ∉ text.toList) :
    let final := ({ settings } : Draft).attemptAll calls
    let (front, pieces) := cutBefore Token.isSeparator final.tokens
    final.text.toList.count '^' = final.tokens.countP Token.isSeparator ∧
    cutBefore (· == '^') final.text.toList =
      ((textOf front).toList, pieces.map fun piece => (textOf piece).toList) ∧
    pieces.length = final.tokens.countP Token.isSeparator ∧
    (settings.policy = .strict → ∀ query, final.build = .ok query →
      query ≠ "" ∧ query.toList.head? ≠ some '^' ∧ query.toList.getLast? ≠ some '^' ∧
        ¬ "^^".toList <:+: query.toList) := by
  intro final
  have hmarks : MarksSeparate final.tokens := marksSeparate_attemptAll hfields htexts
  refine ⟨count_textOf hmarks, cutBefore_textOf hmarks, length_cutBefore _, ?_⟩
  intro hpolicy query hbuild
  have hstrict : final.settings.isStrict = true := by
    rw [Draft.attemptAll_settings, Settings.isStrict, hpolicy]
    rfl
  obtain ⟨hquery, rfl⟩ := (Draft.build_strict_eq_ok_iff hstrict).mp hbuild
  have hmarked : IsWellMarked final.text.toList := hquery.isWellMarked hmarks
  refine ⟨?_, hmarked.head, hmarked.last, hmarked.not_doubled⟩
  intro hempty
  exact hmarked.ne_nil (by rw [hempty]; rfl)

/-- A strict run with a negative number, and with a date far enough for a sign in its year. -/
theorem marks_of_run_distant_date :
    let date : Operand := .date ⟨317269749600, 0, by decide⟩
    let calls : List Call :=
      [.select "a", .require (.atLeast (.number (.integer (-5)))), .join .disjunction,
        .require (.isOneOf (.list [.text "x", date])), .join .newGroup, .order .descending]
    let query := "a>=-5^ORaINx,+12023-11-17 02:00:00^NQORDERBYDESCa"
    let final := ({ settings := { clock := .twelve, policy := .strict } } : Draft).attemptAll calls
    final.build = .ok query ∧
      query.toList.count '^' = final.tokens.countP Token.isSeparator ∧
      ¬ "^^".toList <:+: query.toList := by
  intro date calls query final
  have htokens : final.tokens =
      [.condition "a" .greaterOrEqual "-5", .separator .disjunction,
        .condition "a" .oneOf "x,+12023-11-17 02:00:00", .separator .newGroup,
        .ordering .descending "a"] := by
    decide +kernel
  have hbuild : final.build = .ok query := by
    decide +kernel
  have hfields : ∀ token ∈ final.tokens, ∀ field, token.field? = some field →
      '^' ∉ field.toList := by
    rw [htokens]
    simp [Token.field?]
  have htexts : ∀ position ∈
      ({ settings := { clock := .twelve, policy := .strict } } : Draft).additions calls,
      ∀ condition, calls[position]? = some (.require condition) →
        ∀ text, Operand.text text ∈ condition.parts → '^' ∉ text.toList := by
    intro position _ condition hcondition text htext
    have hmem : Call.require condition ∈ calls := List.mem_of_getElem? hcondition
    simp only [calls, List.mem_cons, List.not_mem_nil, or_false, reduceCtorEq, false_or,
      Call.require.injEq] at hmem
    rcases hmem with rfl | rfl
    · simp [Condition.parts, Operand.parts] at htext
    · have hx : text = "x" := by simpa [Condition.parts, Operand.parts, date] using htext
      rw [hx]
      decide
  obtain ⟨hcount, -, -, hstrict⟩ :=
    marks_of_run { clock := .twelve, policy := .strict } calls hfields htexts
  have htext : final.text = query := (Draft.eq_text_of_build hbuild).symm
  rw [htext] at hcount
  exact ⟨hbuild, hcount, (hstrict rfl query hbuild).2.2.2⟩

end RecordQuery.Query
