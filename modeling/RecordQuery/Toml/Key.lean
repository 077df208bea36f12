import RecordQuery.Toml.Text

set_option autoImplicit false

/-!
# Keys

A key is bare or a string on one line; parts joined by points, with blanks around them, name a path
of tables and a last key in it.
-/

namespace RecordQuery.Toml

/-- The characters of bare keys. -/
def isBare (c : Char) : Bool :=
  c.isAlphanum || c == '_' || c == '-'

/-- One part of a key. -/
def readPart (text : List Char) : Option (String × List Char) :=
  match text with
  | '\x22' :: _ | '\x27' :: _ => readShortText text
  | _ =>
    let part := text.takeWhile isBare
    if part.isEmpty then none else some (String.ofList part, text.dropWhile isBare)

/-- A dotted key of at most `limit` parts: its path and its last part.  Blanks after it are
dropped. -/
def readKey (limit : Nat) (text : List Char) : Option ((List String × String) × List Char) :=
  match limit with
  | 0 => none
  | limit + 1 => do
    let (part, text) ← readPart text
    match skipBlanks text with
    | '.' :: text =>
      let ((path, last), text) ← readKey limit (skipBlanks text)
      some ((part :: path, last), text)
    | text => some (([], part), text)

end RecordQuery.Toml
