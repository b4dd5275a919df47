import Vibescript.Decimal.Binary64
import Vibescript.NameTable
import Vibescript.Span
import Vibescript.Token.Tag

/-!
# Tokens

A token is a kind with the span of source text that it was read from. The kind carries what a
literal or a name stands for. How names are held is a parameter: as texts while the source is
cut into pieces, as handles into a name table for the parser.
-/
namespace Vibescript

/-- The kinds of token with their payloads. -/
inductive TokenKind (ν : Type) where
  /-- A name that starts in lower case or with an underscore. -/
  | identifier (name : ν)
  /-- A name that starts in upper case. -/
  | constant (name : ν)
  /-- An integer literal. -/
  | integer (value : Nat)
  /-- A float literal. -/
  | float (value : Binary64)
  /-- The quotation mark that opens a string literal. -/
  | stringOpen
  /-- A run of string text between escapes. -/
  | stringContent (text : ν)
  /-- An escape sequence, decoded. -/
  | stringEscape (char : Char)
  /-- The quotation mark that closes a string literal. -/
  | stringClose
  /-- A symbol, without its colon. -/
  | symbol (name : ν)
  /-- An instance variable, without its sigil. -/
  | instanceVariable (name : ν)
  /-- A class variable, without its sigils. -/
  | classVariable (name : ν)
  /-- A keyword, an operator or a punctuation mark. -/
  | fixed (tag : Tag) (spelled : tag.spelling?.isSome = true := by exact .refl true)
  /-- A comment that declares the language version. -/
  | versionDirective (major minor : Nat)
  /-- A comment that declares capabilities; the names are read from the source text. -/
  | usesDirective
  /-- The end of the source text. -/
  | endOfInput
  deriving DecidableEq, Repr

namespace TokenKind

variable {ν μ : Type}

/-- The kind without its payload. -/
def tag : TokenKind ν → Tag
  | identifier _ => .identifier
  | constant _ => .constant
  | integer _ => .integer
  | float _ => .float
  | stringOpen => .stringOpen
  | stringContent _ => .stringContent
  | stringEscape _ => .stringEscape
  | stringClose => .stringClose
  | symbol _ => .symbol
  | instanceVariable _ => .instanceVariable
  | classVariable _ => .classVariable
  | fixed tag _ => tag
  | versionDirective _ _ => .versionDirective
  | usesDirective => .usesDirective
  | endOfInput => .endOfInput

/-- Change how names are held. -/
def map (f : ν → μ) : TokenKind ν → TokenKind μ
  | identifier name => identifier (f name)
  | constant name => constant (f name)
  | integer value => integer value
  | float value => float value
  | stringOpen => stringOpen
  | stringContent text => stringContent (f text)
  | stringEscape char => stringEscape char
  | stringClose => stringClose
  | symbol name => symbol (f name)
  | instanceVariable name => instanceVariable (f name)
  | classVariable name => classVariable (f name)
  | fixed tag spelled => fixed tag spelled
  | versionDirective major minor => versionDirective major minor
  | usesDirective => usesDirective
  | endOfInput => endOfInput

/-- The name that a kind carries. -/
def name? : TokenKind ν → Option ν
  | identifier name | constant name | stringContent name | symbol name
  | instanceVariable name | classVariable name => some name
  | _ => none

/-- Whether the kind is a directive comment. -/
def isDirective : TokenKind ν → Bool
  | versionDirective _ _ => true
  | usesDirective => true
  | _ => false

/-- Changing how names are held keeps the tag. -/
@[simp] theorem tag_map (f : ν → μ) (kind : TokenKind ν) : (kind.map f).tag = kind.tag := by
  cases kind <;> rfl

/-- The kind of a tag with a fixed spelling. -/
def ofTag? (tag : Tag) : Option (TokenKind ν) :=
  if spelled : tag.spelling?.isSome = true then some (.fixed tag spelled) else none

/-- The reserved word with a given spelling. -/
def keyword? (text : String) : Option (TokenKind ν) :=
  (Tag.all.find? fun tag => tag.isKeyword && tag.spelling? == some text).bind ofTag?

/-- The operator or punctuation mark with a given spelling. -/
def mark? (text : String) : Option (TokenKind ν) :=
  (Tag.all.find? fun tag => tag.isMark && tag.spelling? == some text).bind ofTag?

/-- The kind of a complete word: a constant when it starts in upper case, a reserved word when
it is spelled like one, and an identifier otherwise. -/
def ofWord (text : String) : TokenKind String :=
  if text.toList.head?.any Char.isUpper then .constant text
  else (keyword? text).getD (.identifier text)

/-- Intern the name of a kind. -/
def intern (kind : TokenKind String) (table : NameTable) : TokenKind Name × NameTable :=
  match kind.name? with
  | none => (kind.map fun _ => Name.empty, table)
  | some text =>
    let (name, table) := table.intern text
    (kind.map fun _ => name, table)

end TokenKind

/-- A kind and where it stands. -/
structure Token (ν : Type) where
  /-- What was read. -/
  kind : TokenKind ν
  /-- Where it was read. -/
  span : Span
  deriving DecidableEq, Repr

/-- The kind of a token without its payload. -/
def Token.tag {ν : Type} (token : Token ν) : Tag := token.kind.tag

/-- Words that are identifiers for the lexer and have a meaning in some places of the grammar:
the import function, its alias key, and the three accessor declarations. -/
def softKeywords : List String := ["require", "as", "property", "getter", "setter"]

end Vibescript
