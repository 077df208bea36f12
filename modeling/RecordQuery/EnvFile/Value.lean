import RecordQuery.Text.Alphanumeric

set_option autoImplicit false

/-!
# Values in an environment file

A value is written bare, between quotes or between apostrophes, or as several such parts in a row.
Between apostrophes every character stands for itself.  Elsewhere a backslash makes the next
character a plain one, or a line end for `n`, and a dollar sign names a variable whose text is put
in its place: by letters and numbers, or by any characters between braces.  The first blank outside
quotes ends the value; only a comment may follow.
-/

namespace RecordQuery.EnvFile

/-- How the next character of a value is read. -/
inductive Mode where
  | plain
  /-- behind a backslash -/
  | escape
  /-- between apostrophes -/
  | strong
  /-- in the name of a variable, with the characters read of it -/
  | name (read : List Char)
  /-- in a name between braces -/
  | braced (read : List Char)
  /-- behind the end of the value -/
  | ended
  deriving DecidableEq, Repr

/-- The character that an escape stands for. -/
def unescape? (c : Char) : Option Char :=
  if c = 'n' then some '\n'
  else if c = '\x5c' ∨ c = '\x27' ∨ c = '\x22' ∨ c = '$' ∨ c = ' ' then some c
  else none

/-- The text of a value.  `text` gives the texts of variables, and `weak` tells whether the reading
is between quotes. -/
def readValue? (text : List Char → List Char) : Bool → Mode → List Char → Option (List Char)
  | weak, mode, [] =>
    match mode with
    | .strong | .braced _ => none
    | .name read => if weak then none else some (text read)
    | .plain | .escape | .ended => if weak then none else some []
  | weak, .ended, c :: rest =>
    if c = ' ' ∨ c = '\t' then readValue? text weak .ended rest
    else if c = '#' then some []
    else none
  | weak, .escape, c :: rest => do
    let c ← unescape? c
    (readValue? text weak .plain rest).map (c :: ·)
  | weak, .strong, c :: rest =>
    if c = '\x27' then readValue? text weak .plain rest
    else (readValue? text weak .strong rest).map (c :: ·)
  | weak, .name read, c :: rest =>
    if Text.isAlphanumeric c then readValue? text weak (.name (read ++ [c])) rest
    else if c = '\x7b' ∧ read = [] then readValue? text weak (.braced []) rest
    else if c = '$' then (readValue? text weak (.name []) rest).map (text read ++ ·)
    else (readValue? text weak .plain rest).map (text read ++ c :: ·)
  | weak, .braced read, c :: rest =>
    if c = '\x7d' then (readValue? text weak .plain rest).map (text read ++ ·)
    else readValue? text weak (.braced (read ++ [c])) rest
  | weak, .plain, c :: rest =>
    if c = '$' then readValue? text weak (.name []) rest
    else if c = '\x5c' then readValue? text weak .escape rest
    else if c = '\x22' then readValue? text (!weak) .plain rest
    else if weak then (readValue? text weak .plain rest).map (c :: ·)
    else if c = '\x27' then readValue? text weak .strong rest
    else if c = ' ' ∨ c = '\t' then readValue? text weak .ended rest
    else (readValue? text weak .plain rest).map (c :: ·)

end RecordQuery.EnvFile
