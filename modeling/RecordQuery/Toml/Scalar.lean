import RecordQuery.Toml.Blank
import RecordQuery.Toml.DateTime
import RecordQuery.Toml.Numeral

set_option autoImplicit false

/-!
# Words

A value that is neither a string nor a compound is a *word*: all characters up to a line end, a
comment, a bracket, a brace, a comma or an equals sign.  Blanks belong to a word where it goes on
behind them, but not where a string follows.  A word spells a boolean, a number, a date or a time.
Only a date and a time of day may have a space between them.
-/

namespace RecordQuery.Toml

/-- The value that a word spells.  Digits before a dash or a colon begin a date or a time. -/
def scalarValue? (word : List Char) : Option Value :=
  if word = ['t', 'r', 'u', 'e'] then some (.boolean true)
  else if word = ['f', 'a', 'l', 's', 'e'] then some (.boolean false)
  else
    let (sign, body) := splitSign word
    if body = ['i', 'n', 'f'] then some (.float (.infinity (sign == .minus)))
    else if body = ['n', 'a', 'n'] then some (.float (.notANumber (sign == .minus)))
    else
      match body.dropWhile Char.isDigit with
      | '-' :: _ | ':' :: _ => (dateTime? word).map .dateTime
      | _ => if word.contains ' ' then none else numberValue? sign body word

/-- The characters that end words, blanks apart. -/
def endsWord (c : Char) : Bool :=
  ['\n', '\r', '#', '=', ',', '[', ']', '\x7b', '\x7d'].contains c

/-- Whether a word goes on with a text behind blanks. -/
def goesOn (text : List Char) : Bool :=
  (skipBlanks text).head?.any fun c => !endsWord c && c != '\x22' && c != '\x27'

/-- The word at the front of a text, and what follows it. -/
def readWord : List Char → List Char × List Char
  | [] => ([], [])
  | c :: rest =>
    if endsWord c || isBlank c && !goesOn rest then ([], c :: rest)
    else
      let (word, rest) := readWord rest
      (c :: word, rest)

/-- A boolean, a number, a date or a time. -/
def readScalar (text : List Char) : Option (Value × List Char) :=
  let (word, rest) := readWord text
  (scalarValue? word).map (·, rest)

end RecordQuery.Toml
