import FieldRules.Decimal.Binary64

/-!
# The shortest decimal of a floating-point number

A floating-point number stands for all real numbers that round to it.  Its text is the decimal with
the fewest digits among those, and of several such decimals the nearest.  The fewest digits belong
to the coarsest grid of decimals that has a point in the interval, so the search goes from coarse
grids to fine ones.
-/

namespace FieldRules
namespace Decimal

/-- The real numbers that round to one floating-point number, over a common denominator. -/
structure Interval where
  low : Nat
  value : Nat
  high : Nat
  denominator : Nat
  /-- Whether the ends belong to the interval. -/
  closed : Bool

namespace Interval

/-- The interval of a number.  Below a power of two the next number is only half as far away. -/
def ofBinary64 (number : Binary64) : Interval :=
  let unit := Nat.pow 2 number.exponent.toNat
  let value := 4 * number.mantissa * unit
  let narrow :=
    number.mantissa = Nat.pow 2 52 ∧ Binary64.leastExponent < number.exponent
  { low := value - if narrow then unit else 2 * unit
    value := value
    high := value + 2 * unit
    denominator := 4 * Nat.pow 2 (-number.exponent).toNat
    closed := number.mantissa % 2 = 0 }

/-- The point of the grid of multiples of `10 ^ exponent` that lies in the interval and is nearest
to its number; of two that are equally near, the even one. -/
def nearest? (interval : Interval) (exponent : Int) : Option Nat :=
  let factor := Nat.pow 10 (-exponent).toNat
  let unit := interval.denominator * Nat.pow 10 exponent.toNat
  let inside (point : Nat) : Bool :=
    let place := point * unit
    if interval.closed then
      decide (interval.low * factor ≤ place ∧ place ≤ interval.high * factor)
    else decide (interval.low * factor < place ∧ place < interval.high * factor)
  let below := interval.value * factor / unit
  let remainder := interval.value * factor % unit
  let staysBelow := 2 * remainder < unit ∨ (2 * remainder = unit ∧ below % 2 = 0)
  let nearerFirst := if staysBelow then [below, below + 1] else [below + 1, below]
  nearerFirst.find? fun point => 0 < point && inside point

/-- The first grid with a point in the interval, among `count` grids that grow finer. -/
def coarsest (interval : Interval) : (count : Nat) → (exponent : Int) → Nat × Int
  | 0, exponent => (0, exponent)
  | count + 1, exponent =>
      match interval.nearest? exponent with
      | some digits => (digits, exponent)
      | none => interval.coarsest count (exponent - 1)

end Interval

def shortest (number : Binary64) : Nat × Int :=
  (Interval.ofBinary64 number).coarsest 700 309

/-- The decimal `digits * 10 ^ exponent` written without an exponent and with at least one digit on
each side of the point. -/
def positional (digits : Nat) (exponent : Int) : List Char :=
  let written := Nat.toDigits 10 digits ++ List.replicate exponent.toNat '0'
  let places := (-exponent).toNat
  let padded := List.replicate (places + 1 - written.length) '0' ++ written
  let whole := padded.take (padded.length - places)
  let fraction := padded.drop (padded.length - places)
  whole ++ '.' :: if fraction.isEmpty then ['0'] else fraction

/-- The decimal `digits * 10 ^ exponent` written with one digit before the point, which is left out
if no digit follows it, and with a signed exponent. -/
def scientific (digits : Nat) (exponent : Int) : List Char :=
  let written := Nat.toDigits 10 digits
  let power := exponent + written.length - 1
  let fraction := written.drop 1
  written.take 1 ++ (if fraction.isEmpty then [] else '.' :: fraction) ++
    'e' :: (if power < 0 then '-' else '+') :: Nat.toDigits 10 power.natAbs

/-- The places of the point, counted from the first digit, at which a decimal is written without an
exponent: at most sixteen digits before the point, and at most four zeros behind it. -/
def isPositional (point : Int) : Bool := decide (-5 < point ∧ point ≤ 16)

end Decimal

def Binary64.text (number : Binary64) : List Char :=
  let size :=
    if number.mantissa = 0 then ['0', '.', '0']
    else
      let (digits, exponent) := Decimal.shortest number
      if Decimal.isPositional (exponent + (Nat.toDigits 10 digits).length) then
        Decimal.positional digits exponent
      else Decimal.scientific digits exponent
  if number.negative then '-' :: size else size

end FieldRules
