/-!
# Binary floating-point numbers of 64 bits

A finite number of this format is a sign, a mantissa of at most 53 bits and a power of two.  All
arithmetic of this file is exact on natural numbers and rounds once at the end, to the nearest
number of the format and to the even mantissa if two are equally near.
-/

namespace FieldRules

/-- The finite number `± mantissa * 2 ^ exponent`. -/
structure Binary64 where
  negative : Bool
  mantissa : Nat
  exponent : Int
  deriving DecidableEq, Repr, Inhabited

namespace Binary64

def leastExponent : Int := -1074

def greatestExponent : Int := 971

def zero (negative : Bool) : Binary64 := ⟨negative, 0, leastExponent⟩

/-- The whole number nearest to a quotient, the even one of two. -/
def roundQuotient (numerator denominator : Nat) : Nat :=
  let quotient := numerator / denominator
  let twice := 2 * (numerator % denominator)
  if twice < denominator then quotient
  else if denominator < twice then quotient + 1
  else quotient + quotient % 2

/-- A quotient divided by a power of two, as a quotient. -/
def scaleDown (numerator denominator : Nat) (exponent : Int) : Nat × Nat :=
  (numerator * Nat.pow 2 (-exponent).toNat, denominator * Nat.pow 2 exponent.toNat)

/-- The power of two by which a quotient is divided to give a mantissa. -/
def exponentOf (numerator denominator : Nat) : Int :=
  let estimate : Int := (numerator.log2 : Int) - denominator.log2 - 52
  let (scaled, unit) := scaleDown numerator denominator estimate
  max leastExponent (if scaled < Nat.pow 2 52 * unit then estimate - 1 else estimate)

/-- The number nearest to a quotient, unless that is too large for the format. -/
def ofQuotient? (negative : Bool) (numerator denominator : Nat) : Option Binary64 :=
  if numerator = 0 then some (zero negative)
  else
    let exponent := exponentOf numerator denominator
    let (scaled, unit) := scaleDown numerator denominator exponent
    let mantissa := roundQuotient scaled unit
    let number : Binary64 :=
      if mantissa = Nat.pow 2 53 then ⟨negative, Nat.pow 2 52, exponent + 1⟩
      else ⟨negative, mantissa, exponent⟩
    if greatestExponent < number.exponent then none else some number

def quotient (number : Binary64) : Nat × Nat :=
  (number.mantissa * Nat.pow 2 number.exponent.toNat, Nat.pow 2 (-number.exponent).toNat)

/-- The product of two numbers, with the sign of the first. -/
def multiply? (first second : Binary64) : Option Binary64 :=
  let (firstNumerator, firstDenominator) := first.quotient
  let (secondNumerator, secondDenominator) := second.quotient
  ofQuotient? first.negative
    (firstNumerator * secondNumerator) (firstDenominator * secondDenominator)

/-- The quotient of two numbers, with the sign of the first. -/
def divide? (first second : Binary64) : Option Binary64 :=
  let (firstNumerator, firstDenominator) := first.quotient
  let (secondNumerator, secondDenominator) := second.quotient
  ofQuotient? first.negative
    (firstNumerator * secondDenominator) (firstDenominator * secondNumerator)

end Binary64
end FieldRules
