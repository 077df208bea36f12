set_option autoImplicit false

/-!
# Blanks, line ends and comments

Blanks are spaces and tabs.  A line ends with a line feed, or a carriage return and a line feed.
A comment runs from a number sign to the end of its line and holds no control character but tabs.
-/

namespace RecordQuery.Toml

/-- A reader takes what it recognises from the front of a text and returns the rest. -/
abbrev Reader (α : Type) : Type := List Char → Option (α × List Char)

/-- Spaces and tabs. -/
def isBlank (c : Char) : Bool := c == ' ' || c == '\t'

/-- Control characters other than tabs are nowhere text. -/
def isText (c : Char) : Bool := c == '\t' || (32 ≤ c.toNat && c.toNat != 127)

/-- Drops blanks. -/
def skipBlanks (text : List Char) : List Char := text.dropWhile isBlank

/-- Drops blanks, line ends and comments; `inComment` tells whether the text begins inside one. -/
def skipLines (inComment : Bool) : List Char → Option (List Char)
  | [] => some []
  | '\n' :: rest => skipLines false rest
  | '\r' :: '\n' :: rest => skipLines false rest
  | c :: rest =>
    if inComment then if isText c then skipLines true rest else none
    else if isBlank c then skipLines false rest
    else if c = '#' then skipLines true rest
    else some (c :: rest)

/-- The end of a line, where only blanks and a comment may still stand. -/
def endLine (inComment : Bool) : List Char → Option (List Char)
  | [] => some []
  | '\n' :: rest => some rest
  | '\r' :: '\n' :: rest => some rest
  | c :: rest =>
    if inComment then if isText c then endLine true rest else none
    else if isBlank c then endLine false rest
    else if c = '#' then endLine true rest
    else none

end RecordQuery.Toml
