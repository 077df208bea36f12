import RecordQuery.Text.Digit
import RecordQuery.Toml.Blank

set_option autoImplicit false

/-!
# TOML strings

Four forms: basic strings in quotes, with escapes; literal strings in apostrophes, without; and both
over several lines, in tripled marks.  The text of a form over several lines begins after a line end
right behind the opening mark, and may hold one or two of its marks, also at its end.  In a basic
string over several lines a backslash before a line end drops both and all blanks and line ends
that follow.
-/

namespace RecordQuery.Toml

/-- The character of a code point, unless it is no Unicode scalar value. -/
def scalar? (code : Nat) : Option Char :=
  if code.isValidChar then some (Char.ofNat code) else none

/-- The character named by a count of hexadecimal digits. -/
def readCode (count : Nat) (text : List Char) : Option (Char × List Char) :=
  if text.length < count then none
  else ((Text.number? 16 (text.take count)).bind scalar?).map (·, text.drop count)

/-- The character of an escape, after its backslash. -/
def readEscape : Reader Char
  | 'b' :: rest => some ('\x08', rest)
  | 't' :: rest => some ('\t', rest)
  | 'n' :: rest => some ('\n', rest)
  | 'f' :: rest => some ('\x0c', rest)
  | 'r' :: rest => some ('\r', rest)
  | '\x22' :: rest => some ('\x22', rest)
  | '\x5c' :: rest => some ('\x5c', rest)
  | 'u' :: rest => readCode 4 rest
  | 'U' :: rest => readCode 8 rest
  | _ => none

/-- What follows a backslash that ends its line: the text after the blanks and line ends there;
`none` when something other than blanks stands before the line end. -/
def skipFold (pastLine : Bool) : List Char → Option (List Char)
  | [] => if pastLine then some [] else none
  | '\n' :: rest => skipFold true rest
  | '\r' :: '\n' :: rest => skipFold true rest
  | c :: rest =>
    if isBlank c then skipFold pastLine rest else if pastLine then some (c :: rest) else none

/-- The rest of a basic string.  The count bounds its length. -/
def readBasic : Nat → Reader (List Char)
  | 0, _ => none
  | _ + 1, '\x22' :: rest => some ([], rest)
  | n + 1, '\x5c' :: rest => do
    let (c, rest) ← readEscape rest
    let (text, rest) ← readBasic n rest
    some (c :: text, rest)
  | n + 1, c :: rest =>
    if isText c then (readBasic n rest).map fun (text, rest) => (c :: text, rest) else none
  | _ + 1, [] => none

/-- The rest of a literal string. -/
def readLiteral : Reader (List Char)
  | '\x27' :: rest => some ([], rest)
  | c :: rest =>
    if isText c then (readLiteral rest).map fun (text, rest) => (c :: text, rest) else none
  | [] => none

/-- The closing of a form over several lines, where three marks come next: they close it, and one
or two marks before them belong to the text. -/
def closeLong? (mark : Char) (text : List Char) : Option (List Char × List Char) :=
  let marks := (text.takeWhile (· == mark)).length
  if marks < 3 then none
  else
    let extra := min (marks - 3) 2
    some (List.replicate extra mark, text.drop (extra + 3))

/-- The rest of a basic string over several lines. -/
def readLongBasic : Nat → Reader (List Char)
  | 0, _ => none
  | n + 1, text =>
    match closeLong? '\x22' text with
    | some closed => some closed
    | none =>
      match text with
      | '\x5c' :: rest =>
        match skipFold false rest with
        | some rest => readLongBasic n rest
        | none => do
          let (c, rest) ← readEscape rest
          let (text, rest) ← readLongBasic n rest
          some (c :: text, rest)
      | '\r' :: '\n' :: rest =>
        (readLongBasic n rest).map fun (text, rest) => ('\r' :: '\n' :: text, rest)
      | c :: rest =>
        if isText c || c == '\n' then
          (readLongBasic n rest).map fun (text, rest) => (c :: text, rest)
        else none
      | [] => none

/-- The rest of a literal string over several lines. -/
def readLongLiteral : Nat → Reader (List Char)
  | 0, _ => none
  | n + 1, text =>
    match closeLong? '\x27' text with
    | some closed => some closed
    | none =>
      match text with
      | '\r' :: '\n' :: rest =>
        (readLongLiteral n rest).map fun (text, rest) => ('\r' :: '\n' :: text, rest)
      | c :: rest =>
        if isText c || c == '\n' then
          (readLongLiteral n rest).map fun (text, rest) => (c :: text, rest)
        else none
      | [] => none

/-- Drops one line end. -/
def skipLineEnd : List Char → List Char
  | '\n' :: rest => rest
  | '\r' :: '\n' :: rest => rest
  | text => text

/-- A string on one line, for keys and values. -/
def readShortText : Reader String
  | '\x22' :: rest =>
    (readBasic (rest.length + 1) rest).map fun (s, rest) => (String.ofList s, rest)
  | '\x27' :: rest =>
    (readLiteral rest).map fun (s, rest) => (String.ofList s, rest)
  | _ => none

/-- A string in any of the four forms. -/
def readText : Reader String
  | '\x22' :: '\x22' :: '\x22' :: rest =>
    (readLongBasic (rest.length + 1) (skipLineEnd rest)).map fun (s, rest) =>
      (String.ofList s, rest)
  | '\x27' :: '\x27' :: '\x27' :: rest =>
    (readLongLiteral (rest.length + 1) (skipLineEnd rest)).map fun (s, rest) =>
      (String.ofList s, rest)
  | text => readShortText text

end RecordQuery.Toml
