/-!
# Binary floating-point numbers of 64 bits

A float literal is held as the 64 bits of its nearest binary value, so that literals compare
as data. `Binary64.parts` decodes the bits into an exact value and `Binary64.nearest` rounds a
ratio of naturals, halfway cases to the even neighbour. All arithmetic is exact.
-/
namespace Vibescript

/-- A number in the binary interchange format of 64 bits. -/
structure Binary64 where
  /-- Sign, eleven exponent bits and fifty-two fraction bits. -/
  bits : UInt64
  deriving DecidableEq, Repr, Inhabited

namespace Binary64

/-- The magnitude that the bits below the sign stand for. -/
inductive Magnitude where
  /-- Not a number. -/
  | nan
  /-- Beyond every finite value. -/
  | infinite
  /-- The value `mantissa * 2 ^ exponent`, exactly. -/
  | finite (mantissa : Nat) (exponent : Int)
  deriving DecidableEq, Repr

/-- Exponent of the last fraction bit of the smallest numbers. -/
def leastExponent : Int := -1074

/-- One more than the largest fraction. -/
def fractionLimit : Nat := Nat.pow 2 52

/-- Whether the sign bit is set. -/
def isNegative (value : Binary64) : Bool := Nat.pow 2 63 ≤ value.bits.toNat

/-- The eleven exponent bits. -/
def exponentField (value : Binary64) : Nat := value.bits.toNat / fractionLimit % Nat.pow 2 11

/-- The fifty-two fraction bits. -/
def fraction (value : Binary64) : Nat := value.bits.toNat % fractionLimit

/-- Decode everything but the sign. -/
def magnitude (value : Binary64) : Magnitude :=
  if value.exponentField = 2047 then
    if value.fraction = 0 then .infinite else .nan
  else if value.exponentField = 0 then .finite value.fraction leastExponent
  else .finite (fractionLimit + value.fraction) (leastExponent + (value.exponentField - 1))

/-- The bits of positive infinity. -/
def infinityBits : Nat := 2047 * fractionLimit

/-- The whole part of `numerator / (denominator * 2 ^ exponent)` and the two numbers whose
ratio is what was left out. -/
def scaled (numerator denominator : Nat) (exponent : Int) : Nat × Nat × Nat :=
  let top := numerator * Nat.pow 2 (-exponent).toNat
  let bottom := denominator * Nat.pow 2 exponent.toNat
  (top / bottom, top % bottom, bottom)

/-- A quotient with its remainder, rounded to the nearest natural; a half goes to the even
neighbour. -/
def roundHalfEven (quotient remainder divisor : Nat) : Nat :=
  if 2 * remainder < divisor || (2 * remainder == divisor && quotient % 2 == 0) then quotient
  else quotient + 1

/-- The number nearest to a ratio of naturals, infinity when none is large enough. The
exponent is chosen so that the whole part has fifty-three bits, unless it would fall below the
least one; then counting all values upwards from zero makes the bits a sum, in which a carry
out of the fraction raises the exponent. -/
def nearest (numerator denominator : Nat) : Binary64 :=
  if numerator = 0 then ⟨0⟩
  else
    let guess : Int := numerator.log2 - denominator.log2 - 53
    let exponent :=
      if Nat.pow 2 53 ≤ (scaled numerator denominator guess).1 then guess + 1 else guess
    let exponent := max leastExponent exponent
    let (quotient, remainder, divisor) := scaled numerator denominator exponent
    let mantissa := roundHalfEven quotient remainder divisor
    let bits := mantissa + (exponent - leastExponent).toNat * fractionLimit
    ⟨UInt64.ofNat (min bits infinityBits)⟩

end Binary64

end Vibescript
