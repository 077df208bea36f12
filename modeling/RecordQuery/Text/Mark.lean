set_option autoImplicit false

/-!
# Byte order marks
-/

namespace RecordQuery.Text

/-- A text without the byte order mark that it may begin with. -/
def withoutMark : List Char → List Char
  | '\ufeff' :: text => text
  | text => text

end RecordQuery.Text
