import RecordQuery.EnvFile.Line
import RecordQuery.EnvFile.Value
import RecordQuery.Environment

set_option autoImplicit false

/-!
# Environment files

An environment file assigns texts to variables, one assignment a line: a name, an equals sign and a
value, optionally after the word `export`.  An assignment has no effect on a variable that has a
text already, be it from the process or from an earlier line.

The lines are read and acted on one after the other.  The first line that is no assignment ends the
reading with a fault.  The first assignment that would set a variable to a text with the character
zero panics: then the reading ends as well, but with nothing that a caller could be told.
-/

namespace RecordQuery.EnvFile

open Text (isSpace)

/-- The characters of names, after the first. -/
def isName (c : Char) : Bool := c.isAlphanum || c == '_' || c == '.'

/-- Drops white space. -/
def skipSpace (text : List Char) : List Char := text.dropWhile isSpace

/-- The name at the front of a text, and what follows it and white space. -/
def readName (text : List Char) : Option (List Char × List Char) :=
  match text with
  | c :: _ =>
    if c.isAlpha || c == '_' then
      some (text.takeWhile isName, skipSpace (text.dropWhile isName))
    else none
  | [] => none

/-- An equals sign, and what follows it and white space. -/
def readEquals : List Char → Option (List Char)
  | '=' :: rest => some (skipSpace rest)
  | _ => none

/-- The name of an assignment and the text of its value.  The word `export` is skipped before a
name, and is itself a name before an equals sign. -/
def readAssignment (text : List Char) : Option (List Char × List Char) := do
  let (name, rest) ← readName text
  match readEquals rest with
  | some value => some (name, value)
  | none =>
    if name = "export".toList then
      let (name, rest) ← readName rest
      some (name, ← readEquals rest)
    else none

/-- The text of a variable, empty where it has none. -/
def textOf (env : Environment) (name : List Char) : List Char :=
  ((env.text? (String.ofList name)).getD "").toList

/-- The assignment on a line; a line may also be empty or a comment, and then it makes none. -/
def assignment? (env : Environment) (line : List Char) : Option (Option (String × String)) :=
  match skipSpace (line.reverse.dropWhile isSpace).reverse with
  | [] => some none
  | '#' :: _ => some none
  | text => do
    let (name, value) ← readAssignment text
    let value ← match value with
      | [] => some []
      | '#' :: _ => some []
      | value => readValue? (textOf env) false .plain value
    some (some (String.ofList name, String.ofList value))

/-- Why the reading of an environment file ends before the file does. -/
inductive Stop where
  /-- a line is no text, does not end or is no assignment -/
  | unreadable
  /-- a variable would be set to a text with the character zero, which panics -/
  | zero
  deriving DecidableEq, Repr

/-- The assignment on a line of a file, which may be a line that cannot be read. -/
def made? (env : Environment) (line : Option (List Char)) : Option (Option (String × String)) :=
  line.bind (assignment? env)

/-- The variables after a line. -/
def applyLine (env : Environment) (line : Option (List Char)) : Except Stop Environment :=
  match made? env line with
  | none => .error .unreadable
  | some none => .ok env
  | some (some (name, value)) =>
    match env.setDefault? name value with
    | some next => .ok next
    | none => .error .zero

/-- The variables after the content of a file. -/
def load (env : Environment) (content : ByteArray) : Except Stop Environment :=
  (lines content).foldlM applyLine env

end RecordQuery.EnvFile
