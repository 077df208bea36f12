import RecordQuery.Query.Token

set_option autoImplicit false

/-!
# Placement of tokens

A well placed query neither begins nor ends with a separator, has no two separators side by side,
and every ordering in it names a field and either begins the query or follows a separator.

`violation?` names the first rule that a list of tokens breaks.  The two ends come first; inside,
the leftmost token that breaks a rule counts, and an ordering without a field is named as such even
where it also stands in the wrong place.
-/

namespace RecordQuery.Query

/-- A broken rule of placement, with the tokens that break it. -/
inductive Violation where
  /-- the query begins with a separator -/
  | leading (connective : Connective)
  /-- the query ends with a separator -/
  | trailing (connective : Connective)
  /-- two separators stand side by side -/
  | adjacent (first second : Connective)
  /-- an ordering has no field -/
  | unnamed (direction : Direction)
  /-- an ordering follows a token that is not a separator -/
  | misplaced (direction : Direction) (field : String)
  deriving DecidableEq, Repr

/-- The wording of a violation. -/
def Violation.message : Violation → String
  | leading c => "query starts with separator '" ++ c.text ++ "'"
  | trailing c => "query ends with separator '" ++ c.text ++ "'"
  | adjacent a b => "separators '" ++ a.text ++ "' and '" ++ b.text ++ "' are adjacent"
  | unnamed d => d.text ++ " has no field"
  | misplaced d field =>
    "'" ++ (Token.ordering d field).text ++ "' must start the query or follow a separator"

/-- The rule that a token breaks after the token before it, if there is one. -/
def Token.violation? (previous : Option Token) : Token → Option Violation
  | condition _ _ _ => none
  | separator c =>
    match previous with
    | some (separator b) => some (.adjacent b c)
    | _ => none
  | ordering d field =>
    if field = "" then some (.unnamed d)
    else
      match previous with
      | none | some (separator _) => none
      | some _ => some (.misplaced d field)

/-- The first rule broken inside a list of tokens that follows `previous`. -/
def innerViolation? (previous : Option Token) : List Token → Option Violation
  | [] => none
  | token :: rest =>
    match token.violation? previous with
    | some v => some v
    | none => innerViolation? (some token) rest

/-- The rule broken at an end of a list, where `atEnd` names it for a separator. -/
def endViolation? (atEnd : Connective → Violation) : Option Token → Option Violation
  | some (.separator c) => some (atEnd c)
  | _ => none

/-- The first rule that a query breaks. -/
def violation? (tokens : List Token) : Option Violation :=
  match endViolation? .leading tokens.head? with
  | some v => some v
  | none =>
    match endViolation? .trailing tokens.getLast? with
    | some v => some v
    | none => innerViolation? none tokens

/-! ## Lists that break no rule -/

/-- Whether a token after `previous` begins the query or follows a separator. -/
def BeginsPart (previous : Option Token) : Prop :=
  ∀ token, previous = some token → token.isSeparator = true

theorem beginsPart_none : BeginsPart none := by
  intro token h
  cases h

theorem beginsPart_separator (connective : Connective) :
    BeginsPart (some (.separator connective)) := by
  intro token h
  cases h
  rfl

theorem Token.violation?_separator_eq_none_iff {previous : Option Token}
    {connective : Connective} :
    (Token.separator connective).violation? previous = none ↔
      ∀ token, previous = some token → token.isSeparator = false := by
  rcases previous with _ | (_ | _ | _) <;> simp [Token.violation?, Token.isSeparator]

theorem Token.violation?_ordering_eq_none_iff {previous : Option Token}
    {direction : Direction} {field : String} :
    (Token.ordering direction field).violation? previous = none ↔
      field ≠ "" ∧ BeginsPart previous := by
  by_cases hfield : field = ""
  · simp [Token.violation?, hfield]
  · rcases previous with _ | (_ | _ | _) <;>
      simp [Token.violation?, BeginsPart, Token.isSeparator, hfield]

theorem innerViolation?_cons_eq_none_iff {previous : Option Token} {token : Token}
    {rest : List Token} :
    innerViolation? previous (token :: rest) = none ↔
      token.violation? previous = none ∧ innerViolation? (some token) rest = none := by
  rw [innerViolation?]
  cases token.violation? previous <;> simp

/-- The scan of a list goes on behind it with the last token of the list as the one before. -/
theorem innerViolation?_append_eq_none_iff {previous : Option Token} {left right : List Token} :
    innerViolation? previous (left ++ right) = none ↔
      innerViolation? previous left = none ∧
        innerViolation? (left.getLast?.or previous) right = none := by
  induction left generalizing previous with
  | nil => simp [innerViolation?]
  | cons token rest ih =>
    have hlast : (token :: rest).getLast?.or previous = rest.getLast?.or (some token) := by
      rw [List.getLast?_cons]
      cases rest.getLast? <;> rfl
    rw [List.cons_append, innerViolation?_cons_eq_none_iff, innerViolation?_cons_eq_none_iff, ih,
      hlast, and_assoc]

theorem endViolation?_eq_none_iff (atEnd : Connective → Violation) {token : Option Token} :
    endViolation? atEnd token = none ↔
      ∀ other, token = some other → other.isSeparator = false := by
  rcases token with _ | (_ | _ | _) <;> simp [endViolation?, Token.isSeparator]

/-- A list breaks no rule if it breaks none at its ends and none inside. -/
theorem violation?_eq_none_iff {tokens : List Token} :
    violation? tokens = none ↔
      (∀ token, tokens.head? = some token → token.isSeparator = false) ∧
        (∀ token, tokens.getLast? = some token → token.isSeparator = false) ∧
          innerViolation? none tokens = none := by
  rw [violation?, ← endViolation?_eq_none_iff .leading,
    ← endViolation?_eq_none_iff .trailing]
  cases endViolation? .leading tokens.head? <;> cases endViolation? .trailing tokens.getLast? <;>
    simp

end RecordQuery.Query
