import RecordQuery.Operand
import RecordQuery.Query.Placement

set_option autoImplicit false

/-!
# Faults of a query

Why a condition was not added or a query was not built, and the wording of each cause.
-/

namespace RecordQuery.Query

/-- What went wrong. -/
inductive Fault where
  /-- a condition was added before a field was selected -/
  | missingField
  /-- an operand, or an item of a list, is of none of the expected kinds -/
  | unexpectedKind (expected : List Kind) (actual : Kind)
  /-- the bounds of a range are not scalars of one kind -/
  | unexpectedBounds (start finish : Kind)
  /-- there is nothing to build -/
  | emptyQuery
  /-- a rule of placement is broken -/
  | malformed (violation : Violation)
  deriving DecidableEq, Repr

/-- The names of kinds as alternatives: commas between them, and a word before the last. -/
def alternatives : List Kind → String
  | [] => ""
  | [kind] => kind.name
  | [kind, last] => kind.name ++ " or " ++ last.name
  | kind :: rest => kind.name ++ ", " ++ alternatives rest

namespace Fault

/-- What a mismatch asked for and what it was given. -/
def mismatch? : Fault → Option (String × String)
  | unexpectedKind expected actual => some (alternatives expected, actual.name)
  | unexpectedBounds start finish =>
    some ("two numbers, two strings or two dates", start.name ++ " and " ++ finish.name)
  | _ => none

/-- The wording of a mismatch. -/
def mismatchMessage (expected actual : String) : String :=
  "Type mismatch: expected " ++ expected ++ ", got " ++ actual

/-- The wording of a fault. -/
def message : Fault → String
  | missingField => "Missing field: call field() before adding a condition"
  | unexpectedKind expected actual => mismatchMessage (alternatives expected) actual.name
  | unexpectedBounds start finish =>
    mismatchMessage "two numbers, two strings or two dates" (start.name ++ " and " ++ finish.name)
  | emptyQuery => "Empty query: no conditions, separators or orderings were added"
  | malformed violation => "Malformed query: " ++ violation.message

end Fault

end RecordQuery.Query
