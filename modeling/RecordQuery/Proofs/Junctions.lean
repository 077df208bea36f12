import Mathlib.Data.List.Forall2
import RecordQuery.Proofs.Completion

set_option autoImplicit false

/-!
# Queries joined by separators

The placement check treats the ends of a list apart from its inside, so what it says of a token
depends on where the list is cut.  At a separator nothing depends on it: the tokens around one are a
word of the grammar exactly when those before it and those behind it both are
(`isQuery_append_separator_iff`).  So strict queries can be joined by separators, any number of
them, and fall apart again at each (`strict_queries_join_and_cut`).
-/

namespace RecordQuery.Query

/-! ## One separator -/

/-- The tokens behind a separator of a word are a word.  Their first token was checked as one that
follows a separator, and there the same tokens may stand as at the start. -/
theorem IsQuery.after_separator {left right : List Token} {connective : Connective}
    (h : IsQuery (left ++ .separator connective :: right)) : IsQuery right := by
  obtain ⟨-, hlast, hinner⟩ := violation?_eq_none_iff.mp h.violation?_eq_none
  have hseparator := (innerViolation?_append_eq_none_iff.mp hinner).2
  have hright := (innerViolation?_cons_eq_none_iff.mp hseparator).2
  rw [List.getLast?_append_of_ne_nil _ (List.cons_ne_nil _ _)] at hlast
  cases right with
  | nil => cases hlast _ rfl
  | cons token rest =>
    obtain ⟨htoken, hrest⟩ := innerViolation?_cons_eq_none_iff.mp hright
    have hpart : token.isSeparator = false := isSeparator_eq_false_after_separator htoken
    have hcontinues : ContinuesSegment rest :=
      continuesSegment_of_innerViolation?_eq_none hpart
        (getLast?_isSeparator_tail (getLast?_isSeparator_tail hlast)) hrest
    exact hcontinues [token] (isSegment_singleton hpart htoken)

/-- A separator joins two words and nothing else. -/
theorem isQuery_append_separator_iff {left right : List Token} {connective : Connective} :
    IsQuery (left ++ .separator connective :: right) ↔ IsQuery left ∧ IsQuery right :=
  ⟨fun h => ⟨h.before_separator, h.after_separator⟩, fun h => h.1.join_query connective h.2⟩

theorem textOf_append_separator (left right : List Token) (connective : Connective) :
    textOf (left ++ .separator connective :: right) =
      textOf left ++ connective.text ++ textOf right := by
  rw [textOf_append, textOf_cons, String.append_assoc]
  rfl

/-! ## Any number of separators -/

/-- Lists of tokens with separators between them. -/
def joined (first : List Token) : List (Connective × List Token) → List Token
  | [] => first
  | (connective, part) :: rest => first ++ .separator connective :: joined part rest

/-- Texts with the marks of connectives between them. -/
def joinedText (first : String) : List (Connective × String) → String
  | [] => first
  | (connective, text) :: rest => first ++ connective.text ++ joinedText text rest

theorem isQuery_joined_iff {first : List Token} {rest : List (Connective × List Token)} :
    IsQuery (joined first rest) ↔ IsQuery first ∧ ∀ part ∈ rest, IsQuery part.2 := by
  induction rest generalizing first with
  | nil => simp [joined]
  | cons part rest ih =>
    rw [joined, isQuery_append_separator_iff, ih, List.forall_mem_cons]

theorem textOf_joined (first : List Token) (rest : List (Connective × List Token)) :
    textOf (joined first rest) =
      joinedText (textOf first) (rest.map fun part => (part.1, textOf part.2)) := by
  induction rest generalizing first with
  | nil => rfl
  | cons part rest ih =>
    obtain ⟨connective, tokens⟩ := part
    rw [joined, textOf_append_separator, ih, List.map_cons, joinedText]

/-! ## Strict drafts -/

namespace Draft

variable {d left right : Draft} {connective : Connective}

/-- A strict draft whose tokens a separator joins is built if both sides are, and then into their
queries with the mark of the separator between them. -/
theorem build_append_separator (hd : d.settings.isStrict = true)
    (hleft : left.settings.isStrict = true) (hright : right.settings.isStrict = true)
    (htokens : d.tokens = left.tokens ++ .separator connective :: right.tokens) {query : String} :
    d.build = .ok query ↔
      ∃ first last, left.build = .ok first ∧ right.build = .ok last ∧
        query = first ++ connective.text ++ last := by
  have htext : d.text = left.text ++ connective.text ++ right.text := by
    rw [text, htokens, textOf_append_separator]
    rfl
  rw [build_strict_eq_ok_iff hd, htokens, isQuery_append_separator_iff, htext]
  simp only [build_strict_eq_ok_iff hleft, build_strict_eq_ok_iff hright]
  constructor
  · rintro ⟨⟨hfirst, hlast⟩, rfl⟩
    exact ⟨_, _, ⟨hfirst, rfl⟩, ⟨hlast, rfl⟩, rfl⟩
  · rintro ⟨_, _, ⟨hfirst, rfl⟩, ⟨hlast, rfl⟩, rfl⟩
    exact ⟨⟨hfirst, hlast⟩, rfl⟩

/-- Strict drafts that are all built are built into their texts. -/
theorem forall₂_build_iff {parts : List (Connective × Draft)}
    (hparts : ∀ part ∈ parts, part.2.settings.isStrict = true)
    {queries : List (Connective × String)} :
    List.Forall₂ (fun part query => part.1 = query.1 ∧ part.2.build = .ok query.2) parts queries ↔
      (∀ part ∈ parts, IsQuery part.2.tokens) ∧
        queries = parts.map fun part => (part.1, part.2.text) := by
  induction parts generalizing queries with
  | nil => simp
  | cons part parts ih =>
    obtain ⟨hpart, hparts⟩ := List.forall_mem_cons.mp hparts
    rw [List.forall₂_cons_left_iff, List.forall_mem_cons, List.map_cons]
    simp only [build_strict_eq_ok_iff hpart, ih hparts]
    constructor
    · rintro ⟨⟨connective, query⟩, queries, ⟨rfl, hquery, rfl⟩, ⟨hqueries, rfl⟩, rfl⟩
      exact ⟨⟨hquery, hqueries⟩, rfl⟩
    · rintro ⟨⟨hquery, hqueries⟩, rfl⟩
      exact ⟨_, _, ⟨rfl, hquery, rfl⟩, ⟨hqueries, rfl⟩, rfl⟩

end Draft

/-- Strict queries compose and decompose at their separators, whatever clocks and fields the drafts
have.

A draft whose tokens are those of one draft, a separator, and those of another is built if and only
if the two are, and into their queries with the mark of the separator between them.  Every separator
of a built draft cuts it so.  And any number of drafts joined by single separators is built if and
only if each of them is. -/
theorem strict_queries_join_and_cut (whole : Draft) (hwhole : whole.settings.isStrict = true) :
    (∀ (left right : Draft) (connective : Connective), left.settings.isStrict = true →
      right.settings.isStrict = true →
      whole.tokens = left.tokens ++ .separator connective :: right.tokens →
      ∀ query, whole.build = .ok query ↔
        ∃ first last, left.build = .ok first ∧ right.build = .ok last ∧
          query = first ++ connective.text ++ last) ∧
    (∀ query, whole.build = .ok query → ∀ position connective,
      whole.tokens[position]? = some (.separator connective) →
      ∃ first last, ({ whole with tokens := whole.tokens.take position } : Draft).build = .ok first ∧
        ({ whole with tokens := whole.tokens.drop (position + 1) } : Draft).build = .ok last ∧
        query = first ++ connective.text ++ last) ∧
    (∀ (first : Draft) (rest : List (Connective × Draft)), first.settings.isStrict = true →
      (∀ part ∈ rest, part.2.settings.isStrict = true) →
      whole.tokens = joined first.tokens (rest.map fun part => (part.1, part.2.tokens)) →
      ∀ query, whole.build = .ok query ↔
        ∃ opening queries, first.build = .ok opening ∧
          List.Forall₂ (fun part query => part.1 = query.1 ∧ part.2.build = .ok query.2)
            rest queries ∧
          query = joinedText opening queries) := by
  refine ⟨?_, ?_, ?_⟩
  · intro left right connective hleft hright htokens query
    exact Draft.build_append_separator hwhole hleft hright htokens
  · intro query hquery position connective hposition
    obtain ⟨hlt, hget⟩ := List.getElem?_eq_some_iff.mp hposition
    have hcut : whole.tokens =
        whole.tokens.take position ++ .separator connective :: whole.tokens.drop (position + 1) := by
      rw [← hget, ← List.drop_eq_getElem_cons hlt, List.take_append_drop]
    exact (@Draft.build_append_separator whole { whole with tokens := whole.tokens.take position }
      { whole with tokens := whole.tokens.drop (position + 1) } connective
      hwhole hwhole hwhole hcut query).mp hquery
  · intro first rest hfirst hrest htokens query
    have htext : whole.text =
        joinedText first.text (rest.map fun part => (part.1, part.2.text)) := by
      rw [Draft.text, htokens, textOf_joined, List.map_map]
      rfl
    rw [Draft.build_strict_eq_ok_iff hwhole, htokens, isQuery_joined_iff, htext,
      List.forall_mem_map]
    simp only [Draft.build_strict_eq_ok_iff hfirst, Draft.forall₂_build_iff hrest]
    constructor
    · rintro ⟨⟨hopening, hqueries⟩, rfl⟩
      exact ⟨_, _, ⟨hopening, rfl⟩, ⟨hqueries, rfl⟩, rfl⟩
    · rintro ⟨_, _, ⟨hopening, rfl⟩, ⟨hqueries, rfl⟩, rfl⟩
      exact ⟨⟨hopening, hqueries⟩, rfl⟩

/-- Three queries, one of them an ordering behind a separator, cut at the second separator. -/
theorem strict_queries_join_and_cut_at_ordering :
    let whole : Draft :=
      { settings := { policy := .strict }
        tokens := [.condition "a" .equal "1", .condition "b" .anything "", .separator .newGroup,
          .condition "c" .like "x", .separator .conjunction, .ordering .descending "a"] }
    whole.settings.isStrict = true ∧
    whole.build = .ok "a=1bANYTHING^NQcLIKEx^ORDERBYDESCa" ∧
    whole.tokens[4]? = some (.separator .conjunction) ∧
    ∃ first last, ({ whole with tokens := whole.tokens.take 4 } : Draft).build = .ok first ∧
      ({ whole with tokens := whole.tokens.drop 5 } : Draft).build = .ok last ∧
      "a=1bANYTHING^NQcLIKEx^ORDERBYDESCa" = first ++ "^" ++ last := by
  intro whole
  have hbuild : whole.build = .ok "a=1bANYTHING^NQcLIKEx^ORDERBYDESCa" := by decide +kernel
  exact ⟨rfl, hbuild, rfl, (strict_queries_join_and_cut whole rfl).2.1 _ hbuild 4 .conjunction rfl⟩

end RecordQuery.Query
