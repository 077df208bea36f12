import RecordQuery.EnvFile
import RecordQuery.FileTree
import RecordQuery.Settings.Decoding

set_option autoImplicit false

/-!
# Workspaces

Where settings are found: in a tree of files, seen from a working directory, under the variables of
a process.

`Workspace.load` first lets the nearest file `.env` set variables.  Then the variable
`ENCODED_QUERY_CONFIG` names the configuration file; a blank one is refused rather than ignored.
Without the variable the file `encoded_query.toml` of the working directory is read if anything
stands there, and only where nothing does, the defaults are used.  Where the environment file would
set a variable to a text that none can hold, the search panics.
-/

namespace RecordQuery

/-- Why no settings were found.  All but the last are returned to the caller; after a panic nothing
is. -/
inductive ConfigurationFault where
  /-- a file cannot be read -/
  | unreadable (fault : FileTree.Fault)
  /-- a document holds no settings -/
  | document (mismatch : Settings.Mismatch)
  /-- the variable is not a text -/
  | variableNotText
  /-- the environment file cannot be read -/
  | environmentFile
  /-- the variable is a blank text -/
  | variableBlank
  /-- the environment file would set a variable to a text that none can hold -/
  | panicked
  deriving DecidableEq, Repr

/-- The variable that names the configuration file. -/
def configurationVariable : String := "ENCODED_QUERY_CONFIG"

/-- The configuration file that is read without being named. -/
def defaultPath : String := "./encoded_query.toml"

/-- What is said of a blank variable; the other causes have no wording of their own. -/
def ConfigurationFault.message? : ConfigurationFault → Option String
  | variableBlank => some ("Invalid configuration: " ++ configurationVariable ++
      " is set but empty")
  | _ => none

/-- What becomes of an environment file that is not read to its end. -/
def ConfigurationFault.ofStop : EnvFile.Stop → ConfigurationFault
  | .unreadable => environmentFile
  | .zero => panicked

/-- Files, a working directory among them, and variables. -/
structure Workspace where
  tree : FileTree
  /-- the directories that lead from the root to the working directory -/
  directory : List String := []
  environment : Environment := []

/-- Where settings come from. -/
inductive Source where
  /-- the file that a path leads to -/
  | file (path : String)
  /-- nothing is read -/
  | defaults
  deriving DecidableEq, Repr

namespace Workspace

/-- The settings in the file that a path leads to. -/
def settingsIn (w : Workspace) (path : String) : Except ConfigurationFault Settings :=
  match w.tree.read w.directory path with
  | .error fault => .error (.unreadable fault)
  | .ok text =>
    match Settings.ofToml text with
    | .error mismatch => .error (.document mismatch)
    | .ok settings => .ok settings

/-- The variables after the nearest environment file, if there is one. -/
def effective (w : Workspace) : Except ConfigurationFault Environment :=
  match w.tree.nearest? ".env" w.directory with
  | none => .ok w.environment
  | some content => (EnvFile.load w.environment content).mapError .ofStop

/-- Where a value of the variable says that settings come from. -/
def sourceOf (w : Workspace) : Option Variable → Except ConfigurationFault Source
  | some (.text path) => if Text.isBlank path then .error .variableBlank else .ok (.file path)
  | some .notText => .error .variableNotText
  | none =>
    if w.tree.leadsTo w.directory defaultPath then .ok (.file defaultPath) else .ok .defaults

/-- Where the settings of a workspace come from. -/
def source (w : Workspace) : Except ConfigurationFault Source := do
  let environment ← w.effective
  w.sourceOf (environment.get? configurationVariable)

/-- The settings of a workspace. -/
def load (w : Workspace) : Except ConfigurationFault Settings := do
  match ← w.source with
  | .file path => w.settingsIn path
  | .defaults => .ok {}

end Workspace

end RecordQuery
