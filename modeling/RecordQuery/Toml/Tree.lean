import RecordQuery.Toml.Value

set_option autoImplicit false

/-!
# Trees under construction

A document names its tables one by one, and what may still be added to a table depends on how it
came about.  While a document is read its tables are therefore `Node`s that remember their origin:

* a table named by a header may hold keys and tables, and is named once;
* a table implied by a longer header may be named by a header of its own later;
* a table made by a dotted key grows by dotted keys only;
* the tables of an array are named by double brackets, and a path goes on into the last of them;
* any other value is closed, inline tables and arrays included.

The entries of a node stand in ascending order of their keys from the start.
-/

namespace RecordQuery.Toml

/-- How a table came about. -/
inductive Origin where
  /-- named by a header -/
  | header
  /-- named as a part of a longer header -/
  | implied
  /-- named as a part of a dotted key -/
  | dotted
  deriving DecidableEq, Repr

/-- A value that a document is still adding to. -/
inductive Node where
  /-- a finished value -/
  | leaf (value : Value)
  | table (origin : Origin) (entries : List (String × Node))
  /-- the earlier tables of an array, and the last one -/
  | tables (earlier : List (List (String × Node))) (last : List (String × Node))

/-- The entries of a table under construction, in ascending order of their keys. -/
abbrev Entries : Type := List (String × Node)

mutual

/-- The finished value of a node. -/
def Node.value : Node → Value
  | .leaf value => value
  | .table _ entries => .table (finish entries)
  | .tables earlier last => .array (finishAll earlier ++ [.table (finish last)])

/-- The finished entries of a table. -/
def finish : List (String × Node) → List (String × Value)
  | [] => []
  | (key, node) :: entries => (key, node.value) :: finish entries

/-- The finished tables of an array. -/
def finishAll : List (List (String × Node)) → List Value
  | [] => []
  | entries :: rest => .table (finish entries) :: finishAll rest

end

namespace Entries

/-- Replaces the node of a key, or adds one in its place among the others, unless `change`
refuses. -/
def update (key : String) (change : Option Node → Option Node) : Entries → Option Entries
  | [] => (change none).map fun node => [(key, node)]
  | (k, node) :: rest =>
    if key < k then (change none).map fun fresh => (key, fresh) :: (k, node) :: rest
    else if key = k then (change (some node)).map fun node => (k, node) :: rest
    else (update key change rest).map ((k, node) :: ·)

/-- Changes the table at the end of a path, given its origin.  Missing tables are made, with origin
`fresh`; a dotted key does not pass through a table named by a header. -/
def descend (fresh : Origin) (change : Origin → Entries → Option Entries) (origin : Origin) :
    List String → Entries → Option Entries
  | [], entries => change origin entries
  | key :: path, entries =>
    entries.update key fun
      | none => (descend fresh change fresh path []).map (.table fresh)
      | some (.table origin inner) =>
        if fresh = .dotted ∧ origin = .header then none
        else (descend fresh change origin path inner).map (.table origin)
      | some (.tables earlier last) =>
        (descend fresh change .header path last).map (.tables earlier)
      | some (.leaf _) => none

/-- Adds a finished value under a dotted key: a path and a last part.  The last part has to be new,
and with a path its table has to be one of dotted keys. -/
def assign (path : List String) (key : String) (value : Value) (entries : Entries) :
    Option Entries :=
  entries.descend .dotted
    (fun origin entries =>
      if origin = .dotted ↔ path = [] then none
      else entries.update key fun
        | none => some (.leaf value)
        | some _ => none)
    .header path

/-- Adds a table named by a header. -/
def openTable (path : List String) (key : String) (entries : Entries) : Option Entries :=
  entries.descend .implied
    (fun _ entries => entries.update key fun
      | none => some (.table .header [])
      | some (.table .implied inner) => some (.table .header inner)
      | some _ => none)
    .header path

/-- Adds a table to an array of tables. -/
def openItem (path : List String) (key : String) (entries : Entries) : Option Entries :=
  entries.descend .implied
    (fun _ entries => entries.update key fun
      | none => some (.tables [] [])
      | some (.tables earlier last) => some (.tables (earlier ++ [last]) [])
      | some _ => none)
    .header path

/-- Adds a finished value under a dotted key to the table that the last header named. -/
def assignWithin (table path : List String) (key : String) (value : Value) (entries : Entries) :
    Option Entries :=
  entries.descend .implied (fun _ entries => entries.assign path key value) .header table

end Entries

end RecordQuery.Toml
