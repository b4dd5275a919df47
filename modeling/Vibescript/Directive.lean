import Vibescript.Text.Blank
import Vibescript.Text.Split

/-!
# Directive comments

Two shapes of comment are more than comments: one declares the version of the language that a
file is written for, the other the capabilities that it uses.

    # vibe: 1.2
    # uses: json, http

The shape covers the whole comment, blanks at its end apart. Every other comment, near misses
included, is an ordinary comment.
-/
namespace Vibescript

/-- What a directive comment declares. -/
inductive Directive where
  /-- The language version. -/
  | version (major minor : Nat)
  /-- The capabilities that a file uses, in the order they are written. -/
  | uses (names : List String)
  deriving DecidableEq, Repr

namespace Directive

/-- How a version directive begins. -/
def versionLead : List Char := ['#', ' ', 'v', 'i', 'b', 'e', ':', ' ']

/-- How a uses directive begins. -/
def usesLead : List Char := ['#', ' ', 'u', 's', 'e', 's', ':', ' ']

/-- The least number that is no version component. -/
def componentLimit : Nat := UInt32.size

/-- A version component: decimal digits, leading zeros allowed, below the limit. -/
def component? (digits : List Char) : Option Nat :=
  if digits.isEmpty || !digits.all Char.isDigit then none
  else
    let value := Nat.ofDigitChars 10 digits 0
    if value < componentLimit then some value else none

/-- A version: two components around the first point. -/
def version? (text : List Char) : Option Directive :=
  match text.dropWhile (· != '.') with
  | [] => none
  | _ :: minor => do
    let major ← component? (text.takeWhile (· != '.'))
    let minor ← component? minor
    some (.version major minor)

/-- The characters of a list of capabilities. -/
def isUsesChar (char : Char) : Bool :=
  char.isLower || char == '_' || char == ',' || char == ' '

/-- The words between the commas, without the spaces around them; parts without a word are
left out. -/
def usesWords (text : List Char) : List (List Char) :=
  ((Text.splitOn ',' text).map (Text.trimBoth ' ')).filter (!·.isEmpty)

/-- A list of capabilities: at least one word, and no part with two. -/
def uses? (text : List Char) : Option Directive :=
  let words := usesWords text
  if !text.all isUsesChar || words.isEmpty || words.any (·.contains ' ') then none
  else some (.uses (words.map String.ofList))

/-- The directive that a comment is, if it is one. The comment starts at its number sign. -/
def classify (comment : List Char) : Option Directive :=
  let text := Text.trimEnd comment
  match versionLead.isPrefixOf? text with
  | some rest => version? rest
  | none =>
    match usesLead.isPrefixOf? text with
    | some rest => uses? rest
    | none => none

/-- The capabilities that a comment declares; none unless it is a uses directive. -/
def usesNames (comment : List Char) : List String :=
  match classify comment with
  | some (.uses names) => names
  | _ => []

end Directive

end Vibescript
