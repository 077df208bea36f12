import RecordQuery.Calendar.Clock

set_option autoImplicit false

/-!
# Settings

What can be configured about a query: the clock of its date literals, and whether the placement of
its tokens is checked when it is built.  Each choice has one name, used in every text form.
-/

namespace RecordQuery

open Calendar (Clock)

/-- Every clock. -/
def Calendar.Clock.all : List Clock := [.twentyFour, .twelve]

/-- The name of a clock in a configuration. -/
def Calendar.Clock.name : Clock → String
  | twentyFour => "twenty_four"
  | twelve => "twelve"

/-- The clock of a name. -/
def Calendar.Clock.ofName? (name : String) : Option Clock :=
  Clock.all.find? (·.name = name)

/-- How the placement of separators and orderings is treated. -/
inductive Policy where
  /-- whatever was appended is written -/
  | permissive
  /-- a query with a misplaced separator or ordering is refused -/
  | strict
  deriving DecidableEq, Repr, Inhabited

namespace Policy

/-- Every policy. -/
def all : List Policy := [.permissive, .strict]

/-- The name of a policy in a configuration. -/
def name : Policy → String
  | permissive => "permissive"
  | strict => "strict"

/-- The policy of a name. -/
def ofName? (name : String) : Option Policy :=
  all.find? (·.name = name)

end Policy

/-- The settings of a query. -/
structure Settings where
  clock : Clock := .twentyFour
  policy : Policy := .permissive
  deriving DecidableEq, Repr, Inhabited

namespace Settings

/-- Whether placement is checked. -/
def isStrict (s : Settings) : Bool := s.policy == .strict

/-- The key of the clock. -/
def clockKey : String := "hour_clock"

/-- The key of the policy. -/
def policyKey : String := "separator_policy"

/-- The key of the settings as a whole. -/
def settingsKey : String := "builder"

/-- The settings as a TOML document. -/
def toToml (s : Settings) : String :=
  "[" ++ settingsKey ++ "]\n" ++ clockKey ++ " = \"" ++ s.clock.name ++ "\"\n" ++
    policyKey ++ " = \"" ++ s.policy.name ++ "\"\n"

/-- The settings as a JSON text without blanks. -/
def toJson (s : Settings) : String :=
  "\x7b\"" ++ settingsKey ++ "\":\x7b\"" ++ clockKey ++ "\":\"" ++ s.clock.name ++ "\",\"" ++
    policyKey ++ "\":\"" ++ s.policy.name ++ "\"\x7d\x7d"

end Settings

end RecordQuery
