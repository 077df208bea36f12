import RecordQuery.Query.Draft

set_option autoImplicit false

/-!
# Which violation is reported

A list of tokens can break several rules at several positions.  The placement check reports one of
them: a separator at the front, without one a separator at the end, and only then the rule that is
broken at the least position inside (`malformed_iff_reports`).  What a token breaks depends on the
token before it and on nothing else (`violationAt?`), so that the scan has reported the least
position when everything before it is clean (`innerViolation?_eq_some_iff`).
-/

namespace RecordQuery.Query

/-! ## One token after another -/

theorem Token.violation?_ordering_unnamed {previous : Option Token} {direction : Direction} :
    (Token.ordering direction "").violation? previous = some (.unnamed direction) := by
  simp [Token.violation?]

theorem Token.violation?_ordering_misplaced {other : Token} {direction : Direction}
    {field : String} (hother : other.isSeparator = false) (hfield : field ≠ "") :
    (Token.ordering direction field).violation? (some other) =
      some (.misplaced direction field) := by
  cases other with
  | separator connective => cases hother
  | condition name operator operand => simp [Token.violation?, hfield]
  | ordering before name => simp [Token.violation?, hfield]

/-- The rules that a token can break after the token before it.  An ordering without a field is no
misplaced one, wherever it stands. -/
theorem Token.violation?_eq_some_iff {previous : Option Token} {token : Token}
    {violation : Violation} :
    token.violation? previous = some violation ↔
      (∃ first second, previous = some (.separator first) ∧ token = .separator second ∧
        violation = .adjacent first second) ∨
      (∃ direction, token = .ordering direction "" ∧ violation = .unnamed direction) ∨
      (∃ other direction field, previous = some other ∧ other.isSeparator = false ∧
        token = .ordering direction field ∧ field ≠ "" ∧
          violation = .misplaced direction field) := by
  constructor
  · intro h
    cases token with
    | condition field operator operand => cases h
    | separator second =>
      rcases previous with _ | (_ | first | _)
      · cases h
      · cases h
      · exact .inl ⟨first, second, rfl, rfl, (Option.some.inj h).symm⟩
      · cases h
    | ordering direction field =>
      by_cases hfield : field = ""
      · rw [hfield, violation?_ordering_unnamed] at h
        exact .inr (.inl ⟨direction, by rw [hfield], (Option.some.inj h).symm⟩)
      · cases previous with
        | none =>
          rw [violation?_ordering_eq_none_iff.mpr ⟨hfield, beginsPart_none⟩] at h
          cases h
        | some other =>
          cases hother : other.isSeparator with
          | false =>
            rw [violation?_ordering_misplaced hother hfield] at h
            exact .inr (.inr ⟨other, direction, field, rfl, hother, rfl, hfield,
              (Option.some.inj h).symm⟩)
          | true =>
            have hbegins : BeginsPart (some other) := fun _ h => Option.some.inj h ▸ hother
            rw [violation?_ordering_eq_none_iff.mpr ⟨hfield, hbegins⟩] at h
            cases h
  · rintro (⟨first, second, rfl, rfl, rfl⟩ | ⟨direction, rfl, rfl⟩ |
      ⟨other, direction, field, rfl, hother, rfl, hfield, rfl⟩)
    · rfl
    · exact violation?_ordering_unnamed
    · exact violation?_ordering_misplaced hother hfield

/-! ## Positions -/

/-- The token before a position of a list that follows `previous`. -/
def tokenBefore? (previous : Option Token) (tokens : List Token) : Nat → Option Token
  | 0 => previous
  | position + 1 => tokens[position]?

/-- The rule that the token at a position breaks. -/
def violationAt? (previous : Option Token) (tokens : List Token) (position : Nat) :
    Option Violation :=
  tokens[position]?.bind (Token.violation? (tokenBefore? previous tokens position))

section Positions

variable {previous : Option Token} {token : Token} {rest tokens : List Token}
  {position : Nat} {violation : Violation}

@[simp] theorem violationAt?_nil : violationAt? previous [] position = none := rfl

@[simp] theorem violationAt?_cons_zero :
    violationAt? previous (token :: rest) 0 = token.violation? previous := rfl

@[simp] theorem violationAt?_cons_succ :
    violationAt? previous (token :: rest) (position + 1) =
      violationAt? (some token) rest position := by
  cases position <;> rfl

/-- The scan of a list reports what is broken at a position if nothing is broken before it. -/
theorem innerViolation?_eq_some_iff :
    innerViolation? previous tokens = some violation ↔
      ∃ position, violationAt? previous tokens position = some violation ∧
        ∀ earlier < position, violationAt? previous tokens earlier = none := by
  induction tokens generalizing previous with
  | nil => simp [innerViolation?]
  | cons token rest ih =>
    rw [innerViolation?]
    cases htoken : token.violation? previous with
    | some other =>
      constructor
      · intro h
        exact ⟨0, htoken.trans h, fun _ hlt => absurd hlt (Nat.not_lt_zero _)⟩
      · rintro ⟨position, hposition, hclean⟩
        cases position with
        | zero => exact htoken.symm.trans hposition
        | succ position =>
          have := hclean 0 (Nat.zero_lt_succ position)
          rw [violationAt?_cons_zero, htoken] at this
          cases this
    | none =>
      show innerViolation? (some token) rest = some violation ↔ _
      rw [ih]
      constructor
      · rintro ⟨position, hposition, hclean⟩
        refine ⟨position + 1, violationAt?_cons_succ.trans hposition, fun earlier hlt => ?_⟩
        cases earlier with
        | zero => exact htoken
        | succ earlier =>
          exact violationAt?_cons_succ.trans (hclean earlier (Nat.lt_of_succ_lt_succ hlt))
      · rintro ⟨position, hposition, hclean⟩
        cases position with
        | zero =>
          rw [violationAt?_cons_zero, htoken] at hposition
          cases hposition
        | succ position =>
          refine ⟨position, violationAt?_cons_succ.symm.trans hposition, fun earlier hlt => ?_⟩
          exact violationAt?_cons_succ.symm.trans (hclean (earlier + 1) (Nat.succ_lt_succ hlt))

end Positions

/-! ## What is said of a list -/

/-- The token at a position breaks a rule inside a list, and what is said of it. -/
inductive Breaks (tokens : List Token) : Nat → String → Prop where
  | adjacent {position : Nat} {first second : Token} (hfirst : tokens[position]? = some first)
      (hsecond : tokens[position + 1]? = some second) (separator : first.isSeparator = true)
      (separator' : second.isSeparator = true) :
      Breaks tokens (position + 1)
        ("separators '" ++ first.text ++ "' and '" ++ second.text ++ "' are adjacent")
  /-- wherever the ordering stands -/
  | unnamed {position : Nat} {direction : Direction}
      (htoken : tokens[position]? = some (.ordering direction "")) :
      Breaks tokens position (direction.text ++ " has no field")
  | misplaced {position : Nat} {first : Token} {direction : Direction} {field : String}
      (hfirst : tokens[position]? = some first)
      (hsecond : tokens[position + 1]? = some (.ordering direction field))
      (noSeparator : first.isSeparator = false) (named : field ≠ "") :
      Breaks tokens (position + 1)
        ("'" ++ (Token.ordering direction field).text ++
          "' must start the query or follow a separator")

/-- What is said of a list of tokens: of its front, without a separator there of its end, and
without one there either of the least position at which a token breaks a rule. -/
inductive Reports (tokens : List Token) : String → Prop where
  | leading {first : Token} (hfirst : tokens.head? = some first)
      (separator : first.isSeparator = true) :
      Reports tokens ("query starts with separator '" ++ first.text ++ "'")
  | trailing {first last : Token} (hfirst : tokens.head? = some first)
      (hlast : tokens.getLast? = some last) (noSeparator : first.isSeparator = false)
      (separator : last.isSeparator = true) :
      Reports tokens ("query ends with separator '" ++ last.text ++ "'")
  | inside {first last : Token} {position : Nat} {detail : String}
      (hfirst : tokens.head? = some first) (hlast : tokens.getLast? = some last)
      (noSeparator : first.isSeparator = false) (noSeparator' : last.isSeparator = false)
      (broken : Breaks tokens position detail)
      (clean : ∀ earlier < position, ∀ other, ¬ Breaks tokens earlier other) :
      Reports tokens detail

theorem Token.isSeparator_iff {token : Token} :
    token.isSeparator = true ↔ ∃ connective, token = .separator connective := by
  cases token <;> simp [Token.isSeparator]

section Reporting

variable {tokens : List Token} {position : Nat} {detail : String}

/-- A token breaks a rule as the scan finds it to. -/
theorem breaks_iff :
    Breaks tokens position detail ↔
      ∃ violation, violationAt? none tokens position = some violation ∧
        violation.message = detail := by
  constructor
  · rintro (⟨hfirst, hsecond, hseparator, hseparator'⟩ | ⟨htoken⟩ |
      ⟨hfirst, hsecond, hseparator, hnamed⟩)
    · obtain ⟨first, rfl⟩ := Token.isSeparator_iff.mp hseparator
      obtain ⟨second, rfl⟩ := Token.isSeparator_iff.mp hseparator'
      refine ⟨.adjacent first second, ?_, rfl⟩
      rw [violationAt?, hsecond]
      exact Token.violation?_eq_some_iff.mpr (.inl ⟨first, second, hfirst, rfl, rfl⟩)
    · refine ⟨.unnamed _, ?_, rfl⟩
      rw [violationAt?, htoken, Option.bind_some, Token.violation?_ordering_unnamed]
    · refine ⟨.misplaced _ _, ?_, rfl⟩
      rw [violationAt?, hsecond]
      exact Token.violation?_eq_some_iff.mpr
        (.inr (.inr ⟨_, _, _, hfirst, hseparator, rfl, hnamed, rfl⟩))
  · rintro ⟨violation, hviolation, rfl⟩
    obtain ⟨token, htoken, hviolation⟩ := Option.bind_eq_some_iff.mp hviolation
    obtain ⟨first, second, hfirst, rfl, rfl⟩ | ⟨direction, rfl, rfl⟩ |
      ⟨other, direction, field, hfirst, hseparator, rfl, hnamed, rfl⟩ :=
      Token.violation?_eq_some_iff.mp hviolation
    · cases position with
      | zero => cases hfirst
      | succ position =>
        exact @Breaks.adjacent tokens position (.separator first) (.separator second) hfirst htoken
          rfl rfl
    · exact .unnamed htoken
    · cases position with
      | zero => cases hfirst
      | succ position => exact .misplaced hfirst htoken hseparator hnamed

theorem violationAt?_eq_none_iff :
    violationAt? none tokens position = none ↔ ∀ detail, ¬ Breaks tokens position detail := by
  simp [breaks_iff, Option.eq_none_iff_forall_ne_some]

end Reporting

/-! ## What the check finds -/

section Checking

variable {tokens : List Token} {first last : Token} {connective : Connective}

theorem violation?_of_leading (hfirst : tokens.head? = some (.separator connective)) :
    violation? tokens = some (.leading connective) := by
  rw [violation?, hfirst]
  rfl

theorem violation?_eq_of_head? (hfirst : tokens.head? = some first)
    (hseparator : first.isSeparator = false) :
    violation? tokens =
      (endViolation? .trailing tokens.getLast?).or (innerViolation? none tokens) := by
  have hend : endViolation? .leading tokens.head? = none := by
    rw [hfirst, endViolation?_eq_none_iff]
    rintro _ ⟨⟩
    exact hseparator
  simp only [violation?, hend]
  cases endViolation? .trailing tokens.getLast? with
  | none => rfl
  | some violation => rfl

theorem violation?_of_trailing (hfirst : tokens.head? = some first)
    (hseparator : first.isSeparator = false)
    (hlast : tokens.getLast? = some (.separator connective)) :
    violation? tokens = some (.trailing connective) := by
  rw [violation?_eq_of_head? hfirst hseparator, hlast]
  rfl

theorem violation?_of_clean_ends (hfirst : tokens.head? = some first)
    (hseparator : first.isSeparator = false) (hlast : tokens.getLast? = some last)
    (hseparator' : last.isSeparator = false) :
    violation? tokens = innerViolation? none tokens := by
  have hend : endViolation? .trailing tokens.getLast? = none := by
    rw [hlast, endViolation?_eq_none_iff]
    rintro _ ⟨⟩
    exact hseparator'
  rw [violation?_eq_of_head? hfirst hseparator, hend, Option.none_or]

end Checking

/-- The check finds a violation if there is something to say of the list, and says just that. -/
theorem exists_violation?_iff_reports {tokens : List Token} {detail : String} :
    (∃ violation, violation? tokens = some violation ∧ violation.message = detail) ↔
      Reports tokens detail := by
  constructor
  · rintro ⟨violation, hviolation, rfl⟩
    have hne : tokens ≠ [] := by
      rintro rfl
      cases hviolation
    obtain ⟨first, hfirst⟩ := Option.ne_none_iff_exists'.mp (mt List.head?_eq_none_iff.mp hne)
    obtain ⟨last, hlast⟩ := Option.ne_none_iff_exists'.mp (mt List.getLast?_eq_none_iff.mp hne)
    cases hseparator : first.isSeparator with
    | true =>
      obtain ⟨connective, rfl⟩ := Token.isSeparator_iff.mp hseparator
      rw [violation?_of_leading hfirst] at hviolation
      cases hviolation
      exact @Reports.leading tokens (.separator connective) hfirst hseparator
    | false =>
      cases hseparator' : last.isSeparator with
      | true =>
        obtain ⟨connective, rfl⟩ := Token.isSeparator_iff.mp hseparator'
        rw [violation?_of_trailing hfirst hseparator hlast] at hviolation
        cases hviolation
        exact @Reports.trailing tokens first (.separator connective) hfirst hlast hseparator
          hseparator'
      | false =>
        rw [violation?_of_clean_ends hfirst hseparator hlast hseparator',
          innerViolation?_eq_some_iff] at hviolation
        obtain ⟨position, hbroken, hclean⟩ := hviolation
        exact .inside hfirst hlast hseparator hseparator'
          (breaks_iff.mpr ⟨violation, hbroken, rfl⟩)
          fun earlier hlt => violationAt?_eq_none_iff.mp (hclean earlier hlt)
  · rintro (⟨hfirst, hseparator⟩ | ⟨hfirst, hlast, hfront, hseparator⟩ |
      ⟨hfirst, hlast, hfront, hback, hbroken, hclean⟩)
    · obtain ⟨connective, rfl⟩ := Token.isSeparator_iff.mp hseparator
      exact ⟨_, violation?_of_leading hfirst, rfl⟩
    · obtain ⟨connective, rfl⟩ := Token.isSeparator_iff.mp hseparator
      exact ⟨_, violation?_of_trailing hfirst hfront hlast, rfl⟩
    · obtain ⟨violation, hviolation, hdetail⟩ := breaks_iff.mp hbroken
      refine ⟨violation, ?_, hdetail⟩
      rw [violation?_of_clean_ends hfirst hfront hlast hback, innerViolation?_eq_some_iff]
      exact ⟨_, hviolation, fun earlier hlt => violationAt?_eq_none_iff.mpr (hclean earlier hlt)⟩

/-- A strict draft is refused as malformed if and only if there is something to say of its tokens,
and that is what is said: a separator at the front is named before one at the end, both before
anything inside, and inside the token that is named breaks the rule that is named while no token
before it breaks any. -/
theorem malformed_iff_reports (clock : Calendar.Clock) (field : Option String)
    (tokens : List Token) (detail : String) :
    let d : Draft := { settings := { clock, policy := .strict }, field, tokens }
    (∃ violation, d.build = .error (.malformed violation) ∧ violation.message = detail) ↔
      Reports tokens detail := by
  intro d
  have hbuild : ∀ violation, d.build = .error (.malformed violation) ↔
      violation? tokens = some violation := by
    intro violation
    by_cases hne : d.tokens = []
    · have htokens : tokens = [] := hne
      rw [Draft.build_of_nil hne, htokens]
      constructor <;> exact nofun
    · rw [Draft.build_strict hne rfl]
      cases violation? d.tokens <;> simp
  simp only [hbuild, exists_violation?_iff_reports]

-- three rules are broken inside, and the ordering that breaks the first of them breaks two
example :
    violation? [.condition "a" .isEmpty "", .ordering .descending "", .separator .conjunction,
      .separator .newGroup, .condition "b" .isEmpty ""] = some (.unnamed .descending) := by
  decide

end RecordQuery.Query
