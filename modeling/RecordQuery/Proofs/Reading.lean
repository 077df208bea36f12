import Mathlib.Data.List.Basic
import RecordQuery.Query.Draft

set_option autoImplicit false

/-!
# Reading a query back

The text of a query has no delimiters but its marks, and the marks overlap: the mark of one
connective begins that of the others, that of an ascending ordering begins that of a descending
one, and the texts of some operators begin those of others.  A text can still be read back when its
fields are plain names and its operands keep clear of the marks around them: the mark of a
connective in all of them, and an equals sign in front of those that are compared by `>` or `<`.

The reader cuts a text at the marks of its connectives and looks at most one character ahead
inside a piece.  It inverts the text of every such list of tokens (`readTokens?_textOf`), so that
the text determines the tokens.
-/

namespace RecordQuery.Query

/-! ## What can be read back -/

/-- The characters of plain names. -/
def isNameChar (c : Char) : Bool := c.isLower || c.isDigit || c == '_' || c == '.'

/-- A field name that ends where an operator or a mark begins. -/
def IsPlainName (name : String) : Prop :=
  name ≠ "" ∧ name.toList.all isNameChar = true

instance (name : String) : Decidable (IsPlainName name) := inferInstanceAs (Decidable (_ ∧ _))

/-- A token that keeps clear of the marks around it. -/
def Token.IsTame : Token → Prop
  | condition field operator operand =>
    IsPlainName field ∧ '^' ∉ operand.toList ∧
      (operator = .greater ∨ operator = .less → operand.toList.head? ≠ some '=')
  | separator _ => True
  | ordering _ field => IsPlainName field

instance : DecidablePred Token.IsTame
  | .condition _ _ _ => inferInstanceAs (Decidable (_ ∧ _ ∧ (_ → _)))
  | .separator _ => inferInstanceAs (Decidable True)
  | .ordering _ field => inferInstanceAs (Decidable (IsPlainName field))

/-- Separators and other tokens take turns, and the ends are no separators. -/
inductive Alternates : List Token → Prop where
  | single {token : Token} (part : token.isSeparator = false) : Alternates [token]
  | join (connective : Connective) {token : Token} {rest : List Token}
      (part : token.isSeparator = false) (alternates : Alternates rest) :
      Alternates (token :: .separator connective :: rest)

/-- A list of tokens that can be read back from its text. -/
structure IsTame (tokens : List Token) : Prop where
  alternates : Alternates tokens
  tame : ∀ token ∈ tokens, token.IsTame

/-! ## The reader -/

/-- The operators, each before those that its text begins with. -/
def operatorsByText : List Operator :=
  [.startsWith, .endsWith, .like, .notLike, .isEmpty, .isNotEmpty, .anything, .emptyString, .equal,
    .notEqual, .oneOf, .noneOf, .greaterOrEqual, .greater, .lessOrEqual, .less, .between]

/-- The operator at the front of a text, and the operand behind it. -/
def readOperator? (text : List Char) : Option (Operator × List Char) :=
  operatorsByText.findSome? fun operator =>
    (operator.text.toList.isPrefixOf? text).map (operator, ·)

/-- The condition that a text spells. -/
def readCondition? (text : List Char) : Option Token :=
  (readOperator? (text.dropWhile isNameChar)).map fun (operator, operand) =>
    .condition (String.ofList (text.takeWhile isNameChar)) operator (String.ofList operand)

/-- The condition or ordering that a text spells. -/
def readPart? (text : List Char) : Option Token :=
  match Direction.descending.text.toList.isPrefixOf? text with
  | some field => some (.ordering .descending (String.ofList field))
  | none =>
    match Direction.ascending.text.toList.isPrefixOf? text with
    | some field => some (.ordering .ascending (String.ofList field))
    | none => readCondition? text

/-- The connective whose mark goes on at the front of a text, and the part behind it.  Behind the
letters of a disjunction stands no `D`: with it they are those of an ordering. -/
def readConnective : List Char → Connective × List Char
  | 'N' :: 'Q' :: rest => (.newGroup, rest)
  | 'O' :: 'R' :: 'D' :: rest => (.conjunction, 'O' :: 'R' :: 'D' :: rest)
  | 'O' :: 'R' :: rest => (.disjunction, rest)
  | rest => (.conjunction, rest)

/-- The tokens behind the first one, from the pieces of the text between the marks. -/
def readJoined? : List (List Char) → Option (List Token)
  | [] => some []
  | piece :: pieces => do
    let token ← readPart? (readConnective piece).2
    let tokens ← readJoined? pieces
    some (.separator (readConnective piece).1 :: token :: tokens)

/-- The tokens that a text spells. -/
def readTokens? (text : List Char) : Option (List Token) :=
  match text.splitOn '^' with
  | [] => none
  | first :: pieces => do
    let token ← readPart? first
    let tokens ← readJoined? pieces
    some (token :: tokens)

/-! ## Names -/

theorem IsPlainName.forall_mem {name : String} (h : IsPlainName name) :
    ∀ c ∈ name.toList, isNameChar c = true :=
  List.all_eq_true.mp h.2

theorem IsPlainName.exists_cons {name : String} (h : IsPlainName name) :
    ∃ c rest, name.toList = c :: rest ∧ isNameChar c = true := by
  cases hname : name.toList with
  | nil => exact absurd (String.toList_inj.mp hname) h.1
  | cons c rest => exact ⟨c, rest, rfl, h.forall_mem c (by rw [hname]; exact List.mem_cons_self)⟩

theorem ne_of_isNameChar {c other : Char} (h : isNameChar c = true)
    (hother : isNameChar other = false) : c ≠ other := by
  rintro rfl
  rw [h] at hother
  cases hother

theorem IsPlainName.not_mem {name : String} (h : IsPlainName name) {c : Char}
    (hc : isNameChar c = false) : c ∉ name.toList :=
  fun hmem => ne_of_isNameChar (h.forall_mem c hmem) hc rfl

/-- Every operator begins with a character that ends a name. -/
theorem Operator.exists_cons (operator : Operator) :
    ∃ c rest, operator.text.toList = c :: rest ∧ isNameChar c = false := by
  cases operator <;> exact ⟨_, _, rfl, by decide⟩

theorem Operator.not_mem_text (operator : Operator) : '^' ∉ operator.text.toList := by
  cases operator <;> decide

theorem Direction.not_mem_text (direction : Direction) : '^' ∉ direction.text.toList := by
  cases direction <;> decide

/-! ## Each part reads back -/

/-- No text of an operator is cut short: the only texts that others begin with are those of `>` and
`<`, and an operand that could be taken for the rest of the longer one is excluded. -/
theorem readOperator?_append {operator : Operator} {operand : List Char}
    (h : operator = .greater ∨ operator = .less → operand.head? ≠ some '=') :
    readOperator? (operator.text.toList ++ operand) = some (operator, operand) := by
  cases operator with
  | greater =>
    cases operand with
    | nil => rfl
    | cons c rest =>
      have hc : '=' ≠ c := fun heq => h (.inl rfl) (by rw [heq]; rfl)
      simp [readOperator?, operatorsByText, Operator.text, List.findSome?, List.isPrefixOf?, hc]
  | less =>
    cases operand with
    | nil => rfl
    | cons c rest =>
      have hc : '=' ≠ c := fun heq => h (.inr rfl) (by rw [heq]; rfl)
      simp [readOperator?, operatorsByText, Operator.text, List.findSome?, List.isPrefixOf?, hc]
  | _ => rfl

theorem readCondition?_text {field : String} {operator : Operator} {operand : String}
    (h : (Token.condition field operator operand).IsTame) :
    readCondition? (Token.condition field operator operand).text.toList =
      some (.condition field operator operand) := by
  obtain ⟨hfield, -, hoperand⟩ := h
  obtain ⟨c, rest, htext, hc⟩ := operator.exists_cons
  have hsplit : (Token.condition field operator operand).text.toList =
      field.toList ++ (operator.text.toList ++ operand.toList) := by
    simp [Token.text]
  have htake : (operator.text.toList ++ operand.toList).takeWhile isNameChar = [] := by
    rw [htext, List.cons_append, List.takeWhile_cons_of_neg (by simp [hc])]
  have hdrop : (operator.text.toList ++ operand.toList).dropWhile isNameChar =
      operator.text.toList ++ operand.toList := by
    rw [htext, List.cons_append, List.dropWhile_cons_of_neg (by simp [hc])]
  rw [readCondition?, hsplit, List.takeWhile_append_of_pos hfield.forall_mem,
    List.dropWhile_append_of_pos hfield.forall_mem, htake, hdrop, readOperator?_append hoperand]
  simp

theorem readPart?_text {token : Token} (hpart : token.isSeparator = false) (h : token.IsTame) :
    readPart? token.text.toList = some token := by
  cases token with
  | separator connective => cases hpart
  | condition field operator operand =>
    obtain ⟨c, rest, hname, hc⟩ := h.1.exists_cons
    have hO : 'O' ≠ c := (ne_of_isNameChar hc (by decide)).symm
    have htext : (Token.condition field operator operand).text.toList =
        c :: (rest ++ (operator.text.toList ++ operand.toList)) := by
      simp [Token.text, hname]
    have hread := readCondition?_text h
    rw [htext] at hread ⊢
    rw [readPart?]
    simp [Direction.text, List.isPrefixOf?, hO, hread]
  | ordering direction field =>
    have htext : (Token.ordering direction field).text.toList =
        direction.text.toList ++ field.toList := by
      simp [Token.text]
    obtain ⟨c, rest, hname, hc⟩ := IsPlainName.exists_cons h
    have hD : 'D' ≠ c := (ne_of_isNameChar hc (by decide)).symm
    have hfield : String.ofList (c :: rest) = field := by
      rw [← hname, String.ofList_toList]
    rw [htext, hname, readPart?]
    cases direction <;> simp [Direction.text, List.isPrefixOf?, hD, hfield]

/-! ## The pieces between the marks -/

/-- The part of the marker of a connective behind the mark that all connectives share. -/
def Connective.suffix : Connective → List Char
  | conjunction => []
  | disjunction => ['O', 'R']
  | newGroup => ['N', 'Q']

theorem Connective.text_eq (connective : Connective) :
    connective.text.toList = '^' :: connective.suffix := by
  cases connective <;> rfl

theorem Connective.not_mem_suffix (connective : Connective) : '^' ∉ connective.suffix := by
  cases connective <;> decide

theorem Token.IsTame.not_mem_text {token : Token} (hpart : token.isSeparator = false)
    (h : token.IsTame) : '^' ∉ token.text.toList := by
  cases token with
  | separator connective => cases hpart
  | condition field operator operand =>
    simp [Token.text, h.1.not_mem, operator.not_mem_text, h.2.1, show isNameChar '^' = false by decide]
  | ordering direction field =>
    simp [Token.text, direction.not_mem_text, IsPlainName.not_mem h,
      show isNameChar '^' = false by decide]

/-- The connective of a piece is told from the front of the part behind it, which is the front of a
name or the mark of an ordering. -/
theorem readConnective_append {connective : Connective} {token : Token}
    (hpart : token.isSeparator = false) (h : token.IsTame) :
    readConnective (connective.suffix ++ token.text.toList) =
      (connective, token.text.toList) := by
  cases token with
  | separator connective => cases hpart
  | condition field operator operand =>
    obtain ⟨c, rest, hname, hc⟩ := h.1.exists_cons
    have hD : c ≠ 'D' := ne_of_isNameChar hc (by decide)
    have hN : c ≠ 'N' := ne_of_isNameChar hc (by decide)
    have hO : c ≠ 'O' := ne_of_isNameChar hc (by decide)
    have htext : (Token.condition field operator operand).text.toList =
        c :: (rest ++ (operator.text.toList ++ operand.toList)) := by
      simp [Token.text, hname]
    rw [htext]
    cases connective <;> simp [Connective.suffix, readConnective, hD, hN, hO]
  | ordering direction field =>
    have htext : ∃ rest, (Token.ordering direction field).text.toList =
        'O' :: 'R' :: 'D' :: rest := by
      cases direction <;> exact ⟨_, by simp [Token.text, Direction.text]; rfl⟩
    obtain ⟨rest, htext⟩ := htext
    rw [htext]
    cases connective <;> rfl

/-- The pieces of a text: the text of the first token, whatever stands before it, and for each
separator the rest of its marker with the text of the token behind it. -/
theorem splitOn_textOf {tokens : List Token} (h : Alternates tokens) :
    (∀ token ∈ tokens, token.IsTame) →
      ∃ head tail pieces, tokens = head :: tail ∧ head.isSeparator = false ∧
        readJoined? pieces = some tail ∧
          ∀ front, '^' ∉ front → (front ++ (textOf tokens).toList).splitOn '^' =
            (front ++ head.text.toList) :: pieces := by
  induction h with
  | @single token hpart =>
    intro htame
    refine ⟨token, [], [], rfl, hpart, rfl, ?_⟩
    intro front hfront
    have htoken : '^' ∉ token.text.toList :=
      (htame token List.mem_cons_self).not_mem_text hpart
    rw [textOf_cons, textOf_nil, String.append_empty]
    exact List.splitOn_eq_singleton (by simp [hfront, htoken])
  | @join connective token rest hpart _ ih =>
    intro htame
    have htoken : '^' ∉ token.text.toList :=
      (htame token List.mem_cons_self).not_mem_text hpart
    have hrest : ∀ other ∈ rest, other.IsTame := fun other hmem =>
      htame other (List.mem_cons_of_mem _ (List.mem_cons_of_mem _ hmem))
    obtain ⟨head, tail, pieces, rfl, hhead, hread, hsplit⟩ := ih hrest
    refine ⟨token, .separator connective :: head :: tail,
      (connective.suffix ++ head.text.toList) :: pieces, rfl, hpart, ?_, ?_⟩
    · rw [readJoined?, readConnective_append hhead (hrest head List.mem_cons_self),
        readPart?_text hhead (hrest head List.mem_cons_self), hread]
      rfl
    · intro front hfront
      have htext : front ++ (textOf (token :: .separator connective :: head :: tail)).toList =
          (front ++ token.text.toList) ++
            '^' :: (connective.suffix ++ (textOf (head :: tail)).toList) := by
        rw [textOf_cons, textOf_cons, String.toList_append, String.toList_append, Token.text,
          connective.text_eq]
        simp
      rw [htext, List.splitOn_append_cons_self_of_not_mem (by simp [hfront, htoken]),
        hsplit _ connective.not_mem_suffix]

/-- The reader inverts the text of every tame list of tokens. -/
theorem readTokens?_textOf {tokens : List Token} (h : IsTame tokens) :
    readTokens? (textOf tokens).toList = some tokens := by
  obtain ⟨head, tail, pieces, rfl, hhead, hread, hsplit⟩ := splitOn_textOf h.alternates h.tame
  have hsplit : (textOf (head :: tail)).toList.splitOn '^' = head.text.toList :: pieces :=
    hsplit [] List.not_mem_nil
  rw [readTokens?, hsplit]
  simp only [readPart?_text hhead (h.tame head List.mem_cons_self), hread]
  rfl

/-- The text of a query determines its tokens: two drafts whose tokens are tame have the same text,
and so are built into the same query, only if they have the same tokens. -/
theorem tokens_eq_of_text_eq (d₁ d₂ : Draft) (h₁ : IsTame d₁.tokens) (h₂ : IsTame d₂.tokens) :
    (d₁.text = d₂.text ↔ d₁.tokens = d₂.tokens) ∧
    ∀ query, d₁.build = .ok query → d₂.build = .ok query → d₁.tokens = d₂.tokens := by
  have htokens : d₁.text = d₂.text → d₁.tokens = d₂.tokens := by
    intro htext
    have hread : readTokens? d₁.text.toList = readTokens? d₂.text.toList := by rw [htext]
    rw [Draft.text, Draft.text, readTokens?_textOf h₁, readTokens?_textOf h₂] at hread
    exact Option.some.inj hread
  refine ⟨⟨htokens, fun h => by rw [Draft.text, Draft.text, h]⟩, ?_⟩
  intro query hbuild₁ hbuild₂
  exact htokens ((Draft.eq_text_of_build hbuild₁).symm.trans (Draft.eq_text_of_build hbuild₂))

/-- A strict and a permissive draft with all the marks that overlap. -/
theorem tokens_eq_of_text_eq_overlapping_marks :
    let tokens : List Token :=
      [.condition "a" .greater "1", .separator .conjunction, .ordering .ascending "b.c",
        .separator .disjunction, .ordering .descending "d_1", .separator .newGroup,
        .condition "e" .noneOf "IN,NOT IN"]
    let query := "a>1^ORDERBYb.c^ORORDERBYDESCd_1^NQeNOT ININ,NOT IN"
    let d₁ : Draft := { settings := { policy := .strict }, field := some "e", tokens }
    let d₂ : Draft := { tokens }
    IsTame d₁.tokens ∧ IsTame d₂.tokens ∧ (d₁.text = d₂.text ↔ d₁.tokens = d₂.tokens) ∧
      d₁.build = .ok query ∧ d₂.build = .ok query ∧ d₁.tokens = d₂.tokens := by
  intro tokens query d₁ d₂
  have htame : IsTame tokens :=
    ⟨.join _ rfl (.join _ rfl (.join _ rfl (.single rfl))), by decide⟩
  obtain ⟨htext, hbuild⟩ := tokens_eq_of_text_eq d₁ d₂ htame htame
  exact ⟨htame, htame, htext, rfl, rfl, hbuild query rfl rfl⟩

-- an equals sign at the front of an operand is taken for the rest of the operator
example : textOf [.condition "a" .greater "=1"] = textOf [.condition "a" .greaterOrEqual "1"] := by
  decide

end RecordQuery.Query
