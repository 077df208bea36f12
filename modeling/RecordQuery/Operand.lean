import RecordQuery.Calendar.Literal
import RecordQuery.Json

set_option autoImplicit false

/-!
# Operands

The value that a condition compares a field with.  Every shape of value can be an operand, so that a
condition that cannot use one can say which kind it was given; only texts, numbers and instants have
a text of their own.
-/

namespace RecordQuery

open Calendar

/-- The kind of an operand, as named in a fault. -/
inductive Kind where
  | string
  | number
  | date
  | array
  | boolean
  | object
  | null
  deriving DecidableEq, Repr

/-- The name of a kind. -/
def Kind.name : Kind → String
  | string => "string"
  | number => "number"
  | date => "date"
  | array => "array"
  | boolean => "boolean"
  | object => "object"
  | null => "null"

/-- The value given to a condition. -/
inductive Operand where
  | text (value : String)
  | number (value : Number)
  | date (value : Instant)
  | list (items : List Operand)
  | boolean (value : Bool)
  /-- a JSON object, with fields in ascending order of their keys -/
  | object (fields : List (String × Json))
  | null

namespace Operand

instance : Inhabited Operand := ⟨null⟩

/-- The kind of an operand. -/
def kind : Operand → Kind
  | text _ => .string
  | number _ => .number
  | date _ => .date
  | list _ => .array
  | boolean _ => .boolean
  | object _ => .object
  | null => .null

/-- The text of a scalar: a text itself, the text of a number, the literal of an instant.  The other
kinds have none. -/
def scalarText? (clock : Clock) : Operand → Option String
  | text s => some s
  | number n => some n.text
  | date i => some (String.ofList (i.literal clock))
  | _ => none

mutual

/-- Equality of operands.  Numbers are compared as numbers and instants with their fractions. -/
def same : Operand → Operand → Bool
  | text a, text b => a == b
  | number a, number b => a.same b
  | date a, date b => a == b
  | list a, list b => sameItems a b
  | boolean a, boolean b => a == b
  | object a, object b => Json.sameFields a b
  | null, null => true
  | _, _ => false

/-- Equality of lists, item by item. -/
def sameItems : List Operand → List Operand → Bool
  | [], [] => true
  | a :: as, b :: bs => same a b && sameItems as bs
  | _, _ => false

end

end Operand

end RecordQuery
