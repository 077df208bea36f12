import RecordQuery.Text.Digit
import RecordQuery.Toml.Value

set_option autoImplicit false

/-!
# Numbers in a document

Integers are decimal, with or without a sign, or hexadecimal, octal or binary after `0x`, `0o` and
`0b`.  Digits are grouped by single underscores between them.  No number is too large to be read.

A word in the form of an integer is read even where it spells none: a mark of a base without digits,
as `0x`, or decimal digits that go on behind an underscore with something else, as `1_0a`.  It is
kept as it is written.
-/

namespace RecordQuery.Toml

open Numeral (Decimal)

/-- What stands in front of a number. -/
inductive Sign where
  | unsigned
  | plus
  | minus
  deriving DecidableEq, Repr

/-- The number of a magnitude behind the sign. -/
def Sign.apply : Sign → Nat → Int
  | minus, n => -n
  | unsigned, n | plus, n => n

/-- A sign and what follows it. -/
def splitSign : List Char → Sign × List Char
  | '-' :: rest => (.minus, rest)
  | '+' :: rest => (.plus, rest)
  | text => (.unsigned, text)

/-- Whether every underscore stands between two digits; `behindDigit` tells whether the text itself
stands behind one. -/
def isGrouped (isDigit : Char → Bool) (behindDigit : Bool) : List Char → Bool
  | [] => true
  | '_' :: rest => behindDigit && rest.head?.any isDigit && isGrouped isDigit false rest
  | c :: rest => isGrouped isDigit (isDigit c) rest

/-- A text without its underscores. -/
def ungroup (text : List Char) : List Char := text.filter (· != '_')

/-! ## Integers -/

/-- The integer that digits of a base spell, or the whole word as it is written where they spell
none. -/
def spelled (base : Nat) (sign : Sign) (digits word : List Char) : Value :=
  match Text.number? base digits with
  | some n => if digits.isEmpty then .misspelt (String.ofList word) else .integer (sign.apply n)
  | none => .misspelt (String.ofList word)

/-- An integer, from what follows the mark of its base. -/
def based? (base : Nat) (body word : List Char) : Option Value :=
  let isDigit (c : Char) : Bool := (Text.digit? base c).isSome
  if body.all (fun c => isDigit c || c == '_') && isGrouped isDigit false body then
    some (spelled base .unsigned (ungroup body) word)
  else none

/-- A decimal integer, from what follows its sign.  It has no superfluous leading zero, and an
underscore comes before anything else but digits.  Hexadecimal digits count as digits around
underscores. -/
def whole? (sign : Sign) (body word : List Char) : Option Value :=
  let isDigit (c : Char) : Bool := (Text.digit? 16 c).isSome
  let beyond := body.dropWhile Char.isDigit
  if body.isEmpty || body.head? == some '0' || beyond.head?.any (· != '_') then none
  else if isGrouped isDigit false body then
    some (spelled 10 sign (ungroup body) word)
  else none

/-! ## Decimal numbers -/

/-- The digits among the digits and underscores at the front of a text, at least one, and what
follows. -/
def readDigits (text : List Char) : Option (List Char × List Char) :=
  let isPart (c : Char) : Bool := c.isDigit || c == '_'
  let digits := ungroup (text.takeWhile isPart)
  if digits.isEmpty then none else some (digits, text.dropWhile isPart)

/-- The digits of a fraction, where the text goes on with a point. -/
def readFraction : List Char → Option (List Char × List Char)
  | '.' :: text => readDigits text
  | text => some ([], text)

/-- An exponent, where the text goes on with its mark. -/
def readExponent : List Char → Option (Int × List Char)
  | 'e' :: text | 'E' :: text =>
    let (sign, text) := splitSign text
    (readDigits text).map fun (digits, rest) => (sign.apply (Nat.ofDigitChars 10 digits 0), rest)
  | text => some (0, text)

/-- A decimal number: whole digits without a superfluous leading zero, a fraction and an
exponent. -/
def decimal? (text : List Char) : Option Decimal := do
  let (whole, rest) ← readDigits text
  let (fraction, rest) ← readFraction rest
  let (power, rest) ← readExponent rest
  if rest.isEmpty ∧ (text.head? = some '0' → whole.length = 1) then
    some ⟨Nat.ofDigitChars 10 (whole ++ fraction) 0, power - fraction.length⟩
  else none

/-- A floating-point number, from what follows its sign. -/
def real? (sign : Sign) (body : List Char) : Option Value :=
  if isGrouped Char.isDigit false body then
    (decimal? body).map fun d => .float (.decimal (sign == .minus) d)
  else none

/-- The number that a word spells, from its sign and what follows it. -/
def numberValue? (sign : Sign) (body word : List Char) : Option Value :=
  match sign, body with
  | _, ['0'] => some (.integer 0)
  | .unsigned, '0' :: 'x' :: body => based? 16 body word
  | .unsigned, '0' :: 'o' :: body => based? 8 body word
  | .unsigned, '0' :: 'b' :: body => based? 2 body word
  | sign, body =>
    if body.any fun c => c == '.' || c == 'e' || c == 'E' then real? sign body
    else whole? sign body word

end RecordQuery.Toml
