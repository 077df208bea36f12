import RecordQuery.Text.Mark
import RecordQuery.Toml.Key
import RecordQuery.Toml.Scalar
import RecordQuery.Toml.Tree

set_option autoImplicit false

/-!
# Documents

A document is a sequence of statements, one a line: a header names the table that the following keys
belong to, a header in double brackets adds a table to an array, and an assignment gives a key its
value.  Arrays may run over several lines; inline tables may not.  Arrays and inline tables nest up
to `nestingLimit` deep, and a key has at most `partLimit` parts.

`Document.read?` is the document that a text stands for.
-/

namespace RecordQuery.Toml

/-- How deep arrays and inline tables may nest. -/
def nestingLimit : Nat := 80

/-- How many parts a dotted key may have. -/
def partLimit : Nat := 80

/-- The items of an array up to its closing bracket.  The count bounds their number. -/
def readItems (item : Reader Value) : Nat → Reader (List Value)
  | 0, _ => none
  | n + 1, text => do
    match ← skipLines false text with
    | ']' :: rest => some ([], rest)
    | text =>
      let (value, text) ← item text
      match ← skipLines false text with
      | ']' :: rest => some ([value], rest)
      | ',' :: rest =>
        let (values, rest) ← readItems item n rest
        some (value :: values, rest)
      | _ => none

/-- A key, an equals sign and a value. -/
def readAssignment (item : Reader Value) (text : List Char) :
    Option (((List String × String) × Value) × List Char) := do
  let (key, text) ← readKey partLimit text
  match text with
  | '=' :: text =>
    let (value, text) ← item (skipBlanks text)
    some ((key, value), text)
  | _ => none

/-- The assignments of an inline table up to its closing brace, added to its entries so far. -/
def readInline (item : Reader Value) : Nat → Entries → Reader Entries
  | 0, _, _ => none
  | n + 1, entries, text => do
    let (((path, key), value), text) ← readAssignment item (skipBlanks text)
    let entries ← entries.assign path key value
    match skipBlanks text with
    | '\x7d' :: rest => some (entries, rest)
    | ',' :: rest => readInline item n entries rest
    | _ => none

/-- A value in which arrays and inline tables nest up to `depth` deep. -/
def readValue : Nat → Reader Value
  | _, '\x22' :: rest => (readText ('\x22' :: rest)).map fun (s, rest) => (.text s, rest)
  | _, '\x27' :: rest => (readText ('\x27' :: rest)).map fun (s, rest) => (.text s, rest)
  | depth + 1, '[' :: rest =>
    (readItems (readValue depth) (rest.length + 1) rest).map fun (items, rest) =>
      (.array items, rest)
  | depth + 1, '\x7b' :: rest =>
    match skipBlanks rest with
    | '\x7d' :: rest => some (.table [], rest)
    | rest => (readInline (readValue depth) (rest.length + 1) [] rest).map fun (entries, rest) =>
        (.table (finish entries), rest)
  | _, text => readScalar text

/-- One statement of a document. -/
inductive Statement where
  /-- a header that names a table -/
  | table (path : List String) (key : String)
  /-- a header that adds a table to an array -/
  | item (path : List String) (key : String)
  /-- a key and its value -/
  | assign (path : List String) (key : String) (value : Value)

/-- A statement, with its line read to the end. -/
def readStatement (text : List Char) : Option (Statement × List Char) := do
  match text with
  | '[' :: '[' :: text =>
    let ((path, key), text) ← readKey partLimit (skipBlanks text)
    match text with
    | ']' :: ']' :: text => some (.item path key, ← endLine false text)
    | _ => none
  | '[' :: text =>
    let ((path, key), text) ← readKey partLimit (skipBlanks text)
    match text with
    | ']' :: text => some (.table path key, ← endLine false text)
    | _ => none
  | text =>
    let (((path, key), value), text) ← readAssignment (readValue nestingLimit) text
    some (.assign path key value, ← endLine false text)

/-- The statements of a text.  The count bounds their number. -/
def readStatements : Nat → List Char → Option (List Statement)
  | 0, _ => none
  | n + 1, text => do
    match ← skipLines false text with
    | [] => some []
    | text =>
      let (statement, text) ← readStatement text
      (readStatements n text).map (statement :: ·)

/-- A document being put together: its entries, and the path of the table that was named last. -/
structure Assembly where
  entries : Entries := []
  current : List String := []

/-- Adds a statement. -/
def Assembly.add (a : Assembly) : Statement → Option Assembly
  | .table path key => (a.entries.openTable path key).map fun entries =>
      ⟨entries, path ++ [key]⟩
  | .item path key => (a.entries.openItem path key).map fun entries => ⟨entries, path ++ [key]⟩
  | .assign path key value =>
    (a.entries.assignWithin a.current path key value).map fun entries => ⟨entries, a.current⟩

/-- The document that a text stands for, if it stands for one. -/
def Document.read? (text : String) : Option Document := do
  let text := Text.withoutMark text.toList
  let statements ← readStatements (text.length + 1) text
  let assembly ← statements.foldlM Assembly.add {}
  some (finish assembly.entries)

end RecordQuery.Toml
