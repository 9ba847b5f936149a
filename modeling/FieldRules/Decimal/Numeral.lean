import FieldRules.Decimal.Binary64

/-!
# Numerals

A numeral is a number as a text writes it: a sign, whole digits, and possibly a fraction and an
exponent.  A numeral without fraction and exponent that fits into 64 bits is a whole number; every
other numeral is a floating-point number, also a negative zero.

The floating-point value takes the leading digits that fit into 64 bits, rounds them, and multiplies
or divides once by a rounded power of ten.
-/

namespace FieldRules

/-- A number as it is written.  Digits are characters from `0` to `9`. -/
structure Numeral where
  negative : Bool
  whole : List Char
  fraction : List Char
  exponent : Int
  /-- Whether the numeral has neither fraction nor exponent. -/
  isWhole : Bool
  deriving DecidableEq, Repr

namespace Numeral

/-- A whole number and the power of ten that it is multiplied by. -/
structure Significand where
  value : Nat
  exponent : Int

/-- The first number that 64 bits cannot hold. -/
def wordLimit : Nat := Nat.pow 2 64

/-- Takes the digits of the whole part while they fit into 64 bits; each digit after that counts as
a factor of ten. -/
def takeWhole (value : Nat) : List Char → Significand
  | [] => ⟨value, 0⟩
  | digit :: rest =>
      let next := Nat.ofDigitChars 10 [digit] value
      if next < wordLimit then takeWhole next rest else ⟨value, rest.length + 1⟩

/-- Takes the digits of the fraction while they fit into 64 bits and drops the others. -/
def takeFraction (significand : Significand) : List Char → Significand
  | [] => significand
  | digit :: rest =>
      let next := Nat.ofDigitChars 10 [digit] significand.value
      if next < wordLimit then takeFraction ⟨next, significand.exponent - 1⟩ rest
      else significand

def greatestPower : Nat := 308

def power (exponent : Nat) : Option Binary64 :=
  Binary64.ofQuotient? false (Nat.pow 10 exponent) 1

def divideRepeatedly : (times : Nat) → Binary64 → Option Binary64
  | 0, number => some number
  | times + 1, number =>
      if number.mantissa = 0 then some number
      else ((power greatestPower).bind number.divide?).bind (divideRepeatedly times)

def divideByPower (number : Binary64) (exponent : Nat) : Option Binary64 :=
  let times := (exponent - 1) / greatestPower
  (divideRepeatedly times number).bind fun quotient =>
    (power (exponent - times * greatestPower)).bind quotient.divide?

/-- The floating-point value of a numeral, unless it is too large. -/
def toBinary64? (numeral : Numeral) : Option Binary64 :=
  let significand := takeFraction (takeWhole 0 numeral.whole) numeral.fraction
  let exponent := significand.exponent + numeral.exponent
  (Binary64.ofQuotient? numeral.negative significand.value 1).bind fun number =>
    if number.mantissa = 0 then some number
    else if exponent < 0 then divideByPower number (-exponent).toNat
    else if exponent.toNat ≤ greatestPower then (power exponent.toNat).bind number.multiply?
    else none

/-- The value of a numeral that is a whole number of 64 bits, signed if it is negative. -/
def toInt? (numeral : Numeral) : Option Int :=
  let size := Nat.ofDigitChars 10 numeral.whole 0
  if !numeral.isWhole then none
  else if numeral.negative then
    if 0 < size ∧ size ≤ Nat.pow 2 63 then some (-(size : Int)) else none
  else if size < wordLimit then some size
  else none

end Numeral
end FieldRules
