import Vibescript.Text.Printable

/-!
# Quoted text

Text is shown between quotation marks with escapes: a letter escape for the common controls, a
backslash before a backslash or a quotation mark, and the code point in hexadecimal for every
character that is not printable. A single character in a message is escaped in the same way,
with both kinds of quotation mark escaped.
-/
namespace Vibescript.Text

/-- Which quotation marks are escaped. -/
inductive QuoteStyle where
  /-- Text between double quotation marks: only those are escaped. -/
  | text
  /-- A character by itself: both kinds are escaped. -/
  | char
  deriving DecidableEq, Repr

/-- Whether a style puts a backslash before a character. -/
def QuoteStyle.marks : QuoteStyle → Char → Bool
  | _, '\\' => true
  | _, '"' => true
  | style, '\'' => style == .char
  | _, _ => false

/-- A code point in hexadecimal, in the form `\u{2028}`. -/
def hexEscape (char : Char) : List Char :=
  ['\\', 'u', '{'] ++ Nat.toDigits 16 char.toNat ++ ['}']

/-- One character as it is written in quoted text. -/
def escapeChar (style : QuoteStyle) (char : Char) : List Char :=
  if char = '\x00' then ['\\', '0']
  else if char = '\t' then ['\\', 't']
  else if char = '\r' then ['\\', 'r']
  else if char = '\n' then ['\\', 'n']
  else if style.marks char then ['\\', char]
  else if isPrintable char then [char]
  else hexEscape char

/-- A text between double quotation marks. -/
def quote (text : String) : String :=
  String.ofList ('"' :: text.toList.flatMap (escapeChar .text) ++ ['"'])

/-- A character as a message shows it. -/
def showChar (char : Char) : String := String.ofList (escapeChar .char char)

end Vibescript.Text
