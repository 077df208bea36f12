import RecordQuery.Text.Ranges

set_option autoImplicit false

/-!
# White space

The characters with the Unicode property `White_Space`.  It covers all blanks and line ends, also
those that do not break a line, but no character of width zero.
-/

namespace RecordQuery.Text

/-- The ranges of `White_Space`, ends included. -/
def spaceRanges : List (Nat × Nat) :=
  [(0x9, 0xD), (0x20, 0x20), (0x85, 0x85), (0xA0, 0xA0), (0x1680, 0x1680), (0x2000, 0x200A),
    (0x2028, 0x2029), (0x202F, 0x202F), (0x205F, 0x205F), (0x3000, 0x3000)]

/-- Whether a character is white space. -/
def isSpace (c : Char) : Bool := inRanges spaceRanges c

/-- Whether a text is empty or holds white space alone. -/
def isBlank (text : String) : Bool := text.toList.all isSpace

end RecordQuery.Text
