set_option autoImplicit false

/-!
# Operators and markers

The fixed texts of an encoded query: what stands between a field and its operand, what joins two
conditions, and what begins an ordering.
-/

namespace RecordQuery.Query

/-- The operator of a condition. -/
inductive Operator where
  | startsWith
  | endsWith
  | like
  | notLike
  | isEmpty
  | isNotEmpty
  | anything
  | emptyString
  | equal
  | notEqual
  | oneOf
  | noneOf
  | greater
  | greaterOrEqual
  | less
  | lessOrEqual
  | between
  deriving DecidableEq, Repr

/-- The text of an operator. -/
def Operator.text : Operator → String
  | startsWith => "STARTSWITH"
  | endsWith => "ENDSWITH"
  | like => "LIKE"
  | notLike => "NOTLIKE"
  | isEmpty => "ISEMPTY"
  | isNotEmpty => "ISNOTEMPTY"
  | anything => "ANYTHING"
  | emptyString => "EMPTYSTRING"
  | equal => "="
  | notEqual => "!="
  | oneOf => "IN"
  | noneOf => "NOT IN"
  | greater => ">"
  | greaterOrEqual => ">="
  | less => "<"
  | lessOrEqual => "<="
  | between => "BETWEEN"

/-- What joins the conditions on its two sides. -/
inductive Connective where
  | conjunction
  | disjunction
  /-- begins a group of conditions of its own -/
  | newGroup
  deriving DecidableEq, Repr

/-- The marker of a connective. -/
def Connective.text : Connective → String
  | conjunction => "^"
  | disjunction => "^OR"
  | newGroup => "^NQ"

/-- The direction of an ordering. -/
inductive Direction where
  | ascending
  | descending
  deriving DecidableEq, Repr

/-- The marker of an ordering. -/
def Direction.text : Direction → String
  | ascending => "ORDERBY"
  | descending => "ORDERBYDESC"

end RecordQuery.Query
