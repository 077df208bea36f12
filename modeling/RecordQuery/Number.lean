import RecordQuery.Numeral.Literal
import RecordQuery.Numeral.Shortest

set_option autoImplicit false

/-!
# Numbers

A number is an integer, kept exactly, or a finite double.  The two are never equal, even where
their texts agree: `2` and `2.0` are written alike and compare as different.
-/

namespace RecordQuery

open Numeral

/-- A number operand. -/
inductive Number where
  /-- an integer with its exact digits -/
  | integer (value : Int)
  /-- a finite double -/
  | float (value : Binary .binary64)
  deriving DecidableEq

namespace Number

/-- Equality of operands: integers by value, doubles by value with equal zeros. -/
def same : Number → Number → Bool
  | integer m, integer n => m == n
  | float x, float y => x.same y
  | _, _ => false

/-- The text of a number: the digits of an integer, the shortest decimal of a double. -/
def text : Number → String
  | integer n => n.repr
  | float x => String.ofList x.digits

/-- The double nearest to a literal, unless it is too large for one. -/
def floatOfLiteral? (l : Literal) : Option Number :=
  (Binary.ofDecimal? .binary64 l.negative l.decimal).map float

/-- The number that a literal stands for.  A whole literal that fits 64 bits, signed when it has a
minus sign and unsigned otherwise, is an integer; minus zero and every other literal is the nearest
double.  A literal beyond all doubles stands for none. -/
def ofLiteral? (l : Literal) : Option Number :=
  if l.isWhole then
    if l.negative then
      if 0 < l.wholePart ∧ l.wholePart ≤ UInt64.size / 2 then some (integer (-l.wholePart))
      else floatOfLiteral? l
    else if l.wholePart < UInt64.size then some (integer l.wholePart)
    else floatOfLiteral? l
  else floatOfLiteral? l

/-- The number that a text spells as a literal. -/
def read? (text : List Char) : Option Number := (Literal.read? text).bind ofLiteral?

/-- The number of a double given by its bits; infinities and not-a-numbers have none. -/
def ofBits64? (bits : Nat) : Option Number := (Binary.ofBits? .binary64 bits).map float

/-- The number of a single-precision value given by its bits.  It is the double nearest to the
value's own shortest decimal, so that `0.1` stays `0.1` instead of gaining the digits of the wider
format. -/
def ofBits32? (bits : Nat) : Option Number := do
  let x ← Binary.ofBits? .binary32 bits
  let y ← Binary.ofDecimal? .binary64 x.negative (Format.binary32.shortest x.magnitude)
  some (float y)

end Number

end RecordQuery
