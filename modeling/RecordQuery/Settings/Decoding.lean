import RecordQuery.Json
import RecordQuery.Settings
import RecordQuery.Toml.Decodable
import RecordQuery.Toml.Document

set_option autoImplicit false

/-!
# Decoding settings

Settings are read from the table `builder` of a TOML document, or from the object `builder` of a
JSON object.  Its keys `hour_clock` and `separator_policy` hold names; a key that is absent stands
for the default, and all other keys are ignored.  Both formats have a second form: an array may
stand for the table, with the clock before the policy, and a name may be the only key of a table
that holds nothing else.

Entries are decoded in ascending order of their keys, and the first fault is reported.  So where
both settings are wrong it is the clock's, and a number that cannot be decoded under a key that is
ignored is a fault too, in its place among the others.
-/

namespace RecordQuery.Settings

open Calendar (Clock)

/-- Why a document holds no settings. -/
inductive Mismatch where
  /-- the text is no document -/
  | unreadable
  /-- a value has the wrong type -/
  | wrongType
  /-- a number is out of range or misspelt -/
  | badNumber
  /-- a setting has a name that is none of the known ones -/
  | unknownName (given : String) (known : List String)
  deriving DecidableEq, Repr

deriving instance DecidableEq for Except

/-- A name between backticks. -/
def ticked (name : String) : String := "`" ++ name ++ "`"

/-- What is said of an unknown name; the other causes have no wording of their own. -/
def Mismatch.detail? : Mismatch → Option String
  | unknownName given known =>
    some ("unknown variant " ++ ticked given ++ ", expected " ++
      String.intercalate " or " (known.map ticked))
  | _ => none

/-- The clock of a name. -/
def clockNamed (name : String) : Except Mismatch Clock :=
  match Clock.ofName? name with
  | some clock => .ok clock
  | none => .error (.unknownName name (Clock.all.map Clock.name))

/-- The policy of a name. -/
def policyNamed (name : String) : Except Mismatch Policy :=
  match Policy.ofName? name with
  | some policy => .ok policy
  | none => .error (.unknownName name (Policy.all.map Policy.name))

/-! ## TOML -/

/-- What a TOML value names.  The name is looked at before what stands behind it in a table. -/
def choiceOfToml {α : Type} (named : String → Except Mismatch α) :
    Toml.Value → Except Mismatch α
  | .text name => named name
  | .table [(name, .table [])] | .table [(name, .array [])] => named name
  | .table [(name, _)] => do
    let _ ← named name
    .error .wrongType
  | _ => .error .wrongType

/-- The numbers in a value that is ignored must still be decodable. -/
def ignoreToml (s : Settings) (value : Toml.Value) : Except Mismatch Settings :=
  if value.decodable then .ok s else .error .badNumber

/-- Settings with one more entry of their table decoded. -/
def withEntry (s : Settings) (entry : String × Toml.Value) : Except Mismatch Settings :=
  if entry.1 = clockKey then
    (choiceOfToml clockNamed entry.2).map fun clock => { s with clock }
  else if entry.1 = policyKey then
    (choiceOfToml policyNamed entry.2).map fun policy => { s with policy }
  else ignoreToml s entry.2

/-- The settings that a TOML value stands for.  The items of an array beyond the second are not
looked at.  A date holds no key of its own and leaves both settings at their defaults. -/
def ofTomlValue : Toml.Value → Except Mismatch Settings
  | .table entries => entries.foldlM withEntry {}
  | .array items => ([clockKey, policyKey].zip items).foldlM withEntry {}
  | .dateTime _ => .ok {}
  | _ => .error .wrongType

/-- The settings in a document. -/
def ofDocument (document : Toml.Document) : Except Mismatch Settings :=
  document.foldlM (fun s entry =>
    if entry.1 = settingsKey then ofTomlValue entry.2 else ignoreToml s entry.2) {}

/-- The settings in a TOML text. -/
def ofToml (text : String) : Except Mismatch Settings :=
  match Toml.Document.read? text with
  | some document => ofDocument document
  | none => .error .unreadable

/-! ## JSON -/

/-- What a JSON value names. -/
def choiceOfJson? {α : Type} (named? : String → Option α) : Json → Option α
  | .text name => named? name
  | .object [(name, .null)] => named? name
  | _ => none

/-- Settings with one more field of their object decoded. -/
def withField? (s : Settings) (field : String × Json) : Option Settings :=
  if field.1 = clockKey then
    (choiceOfJson? Clock.ofName? field.2).map fun clock => { s with clock }
  else if field.1 = policyKey then
    (choiceOfJson? Policy.ofName? field.2).map fun policy => { s with policy }
  else some s

/-- The settings that a JSON value stands for.  An array has at most two items; `null` is no
settings. -/
def ofJsonValue? : Json → Option Settings
  | .object fields => fields.foldlM withField? {}
  | .array items =>
    if items.length ≤ 2 then ([clockKey, policyKey].zip items).foldlM withField? {} else none
  | _ => none

/-- The settings in a JSON object, or in an array of nothing else. -/
def ofJson? : Json → Option Settings
  | .object fields =>
    fields.foldlM (fun s field => if field.1 = settingsKey then ofJsonValue? field.2 else some s) {}
  | .array [] => some {}
  | .array [value] => ofJsonValue? value
  | _ => none

end RecordQuery.Settings
