import RecordQuery.Proofs.InRange
import RecordQuery.Proofs.Lookup
import RecordQuery.Proofs.SettingsEntries

set_option autoImplicit false

/-!
# Settings decided by two keys

A document decodes to what stands in its table `builder` under `hour_clock` and `separator_policy`.
Everything else in it is ignored, but for its numbers: each of them has to be one that can be
decoded, wherever it stands.  The entries of a table come in the order of their keys, whatever order
they were written in, so the clock is looked at before the policy.
-/

namespace RecordQuery.Settings

open Calendar (Clock)
open Toml (Value)

end RecordQuery.Settings
