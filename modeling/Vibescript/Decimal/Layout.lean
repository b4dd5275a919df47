import Vibescript.Decimal.Shortest

/-!
# Layout of float literals

How a float literal is shown: its shortest decimal, written positionally for common sizes and
with an exponent for very large and very small ones.
-/
namespace Vibescript.Decimal

/-- The decisions of one way to write numbers. -/
structure Layout where
  /-- Smallest power of ten of a leading digit that is written positionally. -/
  positionalFrom : Int
  /-- Smallest power of ten of a leading digit, above that, that is no longer. -/
  positionalBelow : Int
  /-- What stands before the exponent. -/
  mark : Char
  /-- How infinity is written. -/
  infinity : List Char
  /-- How a value that is no number is written. -/
  nan : List Char
  deriving Repr

/-- Literals are positional from a ten-thousandth up to, and without, ten to the sixteenth. -/
def literalLayout : Layout :=
  { positionalFrom := -4
    positionalBelow := 16
    mark := 'e'
    infinity := ['i', 'n', 'f']
    nan := ['N', 'a', 'N'] }

/-- Positional notation: digits around a point, at least one on each side. -/
def positional (digits : List Char) (exponent : Int) : List Char :=
  if 0 ≤ exponent then digits ++ List.replicate exponent.toNat '0' ++ ['.', '0']
  else
    let places := (-exponent).toNat
    let padded := List.replicate (places + 1 - digits.length) '0' ++ digits
    padded.take (padded.length - places) ++ '.' :: padded.drop (padded.length - places)

/-- Exponent notation: one digit before the point, and a point only before more digits. -/
def exponential (mark : Char) (digits : List Char) (leading : Int) : List Char :=
  digits.take 1 ++ (if digits.length ≤ 1 then [] else '.' :: digits.drop 1) ++
    mark :: (toString leading).toList

/-- Write a decimal without its sign. -/
def Layout.write (layout : Layout) (decimal : Scientific) : List Char :=
  let digits := Nat.toDigits 10 decimal.digits
  let leading := decimal.exponent + (digits.length - 1 : Nat)
  if layout.positionalFrom ≤ leading ∧ leading < layout.positionalBelow then
    positional digits decimal.exponent
  else exponential layout.mark digits leading

/-- Write a binary value. Zero is positional and keeps its sign; a value that is no number has
none. -/
def Layout.writeBinary (layout : Layout) (value : Binary64) : List Char :=
  let sign := if value.isNegative then ['-'] else []
  match value.magnitude with
  | .nan => layout.nan
  | .infinite => sign ++ layout.infinity
  | .finite 0 _ => sign ++ positional ['0'] 0
  | .finite (mantissa + 1) exponent => sign ++ layout.write (shortest (mantissa + 1) exponent)

end Vibescript.Decimal

namespace Vibescript

/-- The text of a float literal. -/
def Binary64.text (value : Binary64) : String :=
  String.ofList (Decimal.literalLayout.writeBinary value)

end Vibescript
