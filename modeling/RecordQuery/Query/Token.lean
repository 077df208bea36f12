import RecordQuery.Query.Operator

set_option autoImplicit false

/-!
# Tokens

A query is a list of tokens, written one after the other with nothing between them: a separator
carries its own mark.
-/

namespace RecordQuery.Query

/-- One unit of a query. -/
inductive Token where
  | condition (field : String) (operator : Operator) (operand : String)
  | separator (connective : Connective)
  | ordering (direction : Direction) (field : String)
  deriving DecidableEq, Repr

namespace Token

/-- The text of a token. -/
def text : Token → String
  | condition field operator operand => field ++ operator.text ++ operand
  | separator connective => connective.text
  | ordering direction field => direction.text ++ field

/-- Whether a token separates two parts of a query. -/
def isSeparator : Token → Bool
  | separator _ => true
  | _ => false

end Token

/-- The text of a list of tokens. -/
def textOf (tokens : List Token) : String := String.join (tokens.map Token.text)

@[simp] theorem textOf_nil : textOf [] = "" := rfl

@[simp] theorem textOf_cons (token : Token) (tokens : List Token) :
    textOf (token :: tokens) = token.text ++ textOf tokens := by
  simp [textOf]

theorem textOf_append (left right : List Token) :
    textOf (left ++ right) = textOf left ++ textOf right := by
  induction left with
  | nil => simp
  | cons token left ih => rw [List.cons_append, textOf_cons, textOf_cons, ih, String.append_assoc]

/-- Nothing stands between the texts of two tokens. -/
theorem toList_textOf (tokens : List Token) :
    (textOf tokens).toList = tokens.flatMap (·.text.toList) := by
  rw [textOf, String.toList_join, List.flatMap_map]

end RecordQuery.Query
