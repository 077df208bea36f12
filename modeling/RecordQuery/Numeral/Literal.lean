import RecordQuery.Numeral.Decimal

set_option autoImplicit false

/-!
# Number literals

A literal is an optional minus sign, a whole part without superfluous zeros, an optional fraction
after a point and an optional exponent after `e` or `E`.  `Literal.read?` accepts exactly these
texts and keeps what they spell, so that a later step can tell `1`, `1.0` and `1e0` apart.
-/

namespace RecordQuery.Numeral

/-- The parts of a number literal. -/
structure Literal where
  /-- whether it begins with a minus sign -/
  negative : Bool
  /-- the digits before the point -/
  whole : List Char
  /-- the digits after the point, if there is one -/
  fraction : Option (List Char)
  /-- the power of ten that the exponent part spells, if there is one -/
  exponent : Option Int
  deriving DecidableEq, Repr

namespace Literal

/-- The leading digits and what follows them; there must be at least one digit. -/
def readDigits? (text : List Char) : Option (List Char × List Char) :=
  let digits := text.takeWhile Char.isDigit
  if digits.isEmpty then none else some (digits, text.dropWhile Char.isDigit)

/-- The whole part: a single zero, or digits that begin with another one. -/
def readWhole? (text : List Char) : Option (List Char × List Char) := do
  let (digits, rest) ← readDigits? text
  if digits.head? = some '0' ∧ digits.length ≠ 1 then none else some (digits, rest)

/-- A fraction, where the text goes on with a point. -/
def readFraction? : List Char → Option (Option (List Char) × List Char)
  | '.' :: text => do
    let (digits, rest) ← readDigits? text
    some (some digits, rest)
  | text => some (none, text)

/-- The signed digits of an exponent. -/
def readPower? (text : List Char) : Option (Int × List Char) :=
  match text with
  | '-' :: text => (readDigits? text).map fun (digits, rest) =>
      (-(Nat.ofDigitChars 10 digits 0 : Int), rest)
  | '+' :: text => (readDigits? text).map fun (digits, rest) =>
      ((Nat.ofDigitChars 10 digits 0 : Int), rest)
  | text => (readDigits? text).map fun (digits, rest) =>
      ((Nat.ofDigitChars 10 digits 0 : Int), rest)

/-- An exponent, where the text goes on with its mark. -/
def readExponent? : List Char → Option (Option Int × List Char)
  | 'e' :: text | 'E' :: text => (readPower? text).map fun (power, rest) => (some power, rest)
  | text => some (none, text)

/-- The literal that the whole text spells. -/
def read? (text : List Char) : Option Literal := do
  let negative := text.head? = some '-'
  let (whole, text) ← readWhole? (if negative then text.tail else text)
  let (fraction, text) ← readFraction? text
  let (exponent, text) ← readExponent? text
  if text.isEmpty then some ⟨negative, whole, fraction, exponent⟩ else none

/-- Whether the literal is written without a fraction and without an exponent. -/
def isWhole (l : Literal) : Bool := l.fraction.isNone && l.exponent.isNone

/-- The natural number that the whole part spells. -/
def wholePart (l : Literal) : Nat := Nat.ofDigitChars 10 l.whole 0

/-- The magnitude of the literal, exactly. -/
def decimal (l : Literal) : Decimal :=
  let fraction := l.fraction.getD []
  ⟨Nat.ofDigitChars 10 (l.whole ++ fraction) 0, l.exponent.getD 0 - fraction.length⟩

end Literal

end RecordQuery.Numeral
