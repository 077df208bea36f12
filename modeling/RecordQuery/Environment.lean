set_option autoImplicit false

/-!
# Environments

The variables of a process.  The value of a variable is a text or bytes that are none; nothing is
ever asked of such bytes, so they are not kept.
-/

namespace RecordQuery

/-- The value of a variable. -/
inductive Variable where
  | text (value : String)
  /-- bytes that are not UTF-8 -/
  | notText
  deriving DecidableEq, Repr

/-- Variables by name; the first of a name counts. -/
abbrev Environment : Type := List (String × Variable)

namespace Environment

/-- The value of a variable. -/
def get? (env : Environment) (name : String) : Option Variable :=
  (env.find? (·.1 = name)).map (·.2)

/-- The text of a variable. -/
def text? (env : Environment) (name : String) : Option String :=
  match env.get? name with
  | some (.text value) => some value
  | _ => none

/-- Sets a variable unless it has a text already.  No variable can hold the character zero: the
attempt to set one to a text with it panics, and leaves no environment. -/
def setDefault? (env : Environment) (name value : String) : Option Environment :=
  match env.text? name with
  | some _ => some env
  | none => if value.toList.contains '\x00' then none else some ((name, .text value) :: env)

end Environment

end RecordQuery
