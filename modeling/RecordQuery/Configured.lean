import RecordQuery.Query.Draft
import RecordQuery.Workspace

set_option autoImplicit false

/-!
# Configured queries

`Configured` holds settings, given by the caller or found in a workspace, and begins drafts under
them.  A query made this way fails as the search for settings does, and otherwise as the calls on
the draft or its build do.
-/

namespace RecordQuery

/-- Why a configured query was not built. -/
inductive Failure where
  | configuration (fault : ConfigurationFault)
  | query (fault : Query.Fault)
  deriving DecidableEq, Repr

/-- The wording of a failure, where its cause has one. -/
def Failure.message? : Failure → Option String
  | configuration fault => fault.message?.map ("Configuration error: " ++ ·)
  | query fault => some ("Query error: " ++ fault.message)

/-- An entry to queries under settings. -/
structure Configured where
  /-- the settings of all drafts that are begun here -/
  settings : Settings := {}
  deriving DecidableEq, Repr

namespace Configured

/-- The entry under settings at hand. -/
def new (settings : Settings) : Configured := { settings }

/-- The entry under the settings of a workspace. -/
def load (w : Workspace) : Except Failure Configured :=
  match w.load with
  | .error fault => .error (.configuration fault)
  | .ok settings => .ok (new settings)

/-- A new draft. -/
def draft (c : Configured) : Query.Draft := { settings := c.settings }

end Configured

/-- The query that a draft becomes by calls and its build. -/
def Query.Draft.finish (d : Draft) (calls : List Call) : Except Failure String :=
  match d.performAll calls >>= build with
  | .error fault => .error (.query fault)
  | .ok query => .ok query

end RecordQuery
