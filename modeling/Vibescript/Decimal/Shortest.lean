import Vibescript.Decimal.Binary64

/-!
# The shortest decimal that reads back

A binary value is the nearest one to every real number in an interval around it. Its shortest
decimal is a decimal in that interval with the fewest significant digits; among those with
equally many digits it is the one nearest to the value, and of two equally near the larger.
-/
namespace Vibescript.Decimal

/-- The number `digits * 10 ^ exponent`. -/
structure Scientific where
  /-- The significant digits, read as a natural. -/
  digits : Nat
  /-- Power of ten that belongs to the last digit. -/
  exponent : Int
  deriving DecidableEq, Repr

/-- A positive value and the ends of the interval that rounds to it, over one denominator. -/
structure Interval where
  /-- Numerator of the lower end. -/
  low : Nat
  /-- Numerator of the value. -/
  value : Nat
  /-- Numerator of the upper end. -/
  high : Nat
  /-- The common denominator. -/
  scale : Nat
  /-- Whether the ends belong to the interval. -/
  closed : Bool
  deriving DecidableEq, Repr

namespace Interval

/-- The interval of a value `mantissa * 2 ^ exponent`. Each end lies halfway to a neighbour.
Below a power of two the neighbours are twice as dense. Ends round to the value exactly when
its mantissa is even. -/
def ofBinary (mantissa : Nat) (exponent : Int) : Interval :=
  let below :=
    if mantissa = Binary64.fractionLimit ∧ Binary64.leastExponent < exponent then 1 else 2
  let quarter := exponent - 2
  let factor := Nat.pow 2 quarter.toNat
  { low := (4 * mantissa - below) * factor
    value := 4 * mantissa * factor
    high := (4 * mantissa + 2) * factor
    scale := Nat.pow 2 (-quarter).toNat
    closed := mantissa % 2 == 0 }

/-- Multiply everything by a power of ten, negative powers included. -/
def shift (interval : Interval) (power : Int) : Interval :=
  let factor := Nat.pow 10 power.toNat
  { low := interval.low * factor
    value := interval.value * factor
    high := interval.high * factor
    scale := interval.scale * Nat.pow 10 (-power).toNat
    closed := interval.closed }

/-- Whether a natural lies in the interval. -/
def contains (interval : Interval) (natural : Nat) : Bool :=
  let scaled := natural * interval.scale
  if interval.closed then interval.low ≤ scaled && scaled ≤ interval.high
  else interval.low < scaled && scaled < interval.high

/-- The natural nearest to the value among the neighbours of the value that lie in the
interval; of two equally near the larger. -/
def nearest? (interval : Interval) : Option Nat :=
  let lower := interval.value / interval.scale
  let upper := lower + 1
  let down := interval.value - lower * interval.scale
  let up := upper * interval.scale - interval.value
  match interval.contains lower, interval.contains upper with
  | true, true => some (if down < up then lower else upper)
  | true, false => some lower
  | false, true => some upper
  | false, false => none

/-- The power of ten of the leading digit of the value. -/
def leadingExponent (interval : Interval) : Int :=
  if interval.scale ≤ interval.value then
    (Nat.toDigits 10 (interval.value / interval.scale)).length - 1
  else
    let reciprocal := (interval.scale + interval.value - 1) / interval.value
    Int.negOfNat (Nat.toDigits 10 (reciprocal - 1)).length

/-- The nearest decimal of a given number of digits, if one lies in the interval. -/
def withDigits? (interval : Interval) (count : Nat) : Option Scientific :=
  let exponent := interval.leadingExponent - (count - 1 : Nat)
  (interval.shift (-exponent)).nearest?.map fun digits =>
    if digits = Nat.pow 10 count then ⟨1, exponent + count⟩ else ⟨digits, exponent⟩

end Interval

/-- The number of digits with which every binary value has a decimal that reads back. -/
def enoughDigits : Nat := 17

/-- The shortest decimal that reads back as a positive value `mantissa * 2 ^ exponent`. -/
def shortest (mantissa : Nat) (exponent : Int) : Scientific :=
  let interval := Interval.ofBinary mantissa exponent
  ((List.range enoughDigits).findSome? fun fewer => interval.withDigits? (fewer + 1)).getD ⟨0, 0⟩

end Vibescript.Decimal
