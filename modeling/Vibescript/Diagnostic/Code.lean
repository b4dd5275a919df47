/-!
# Error codes

Every problem that the front end reports has a code: a letter and four digits, of which the
first names the phase that found the problem.
-/
namespace Vibescript

/-- The problems that the front end reports. -/
inductive ErrorCode where
  /-- A string literal runs to the end of the source. -/
  | unterminatedString
  /-- A character that starts no token. -/
  | unrecognizedCharacter
  /-- An integer literal beyond 64 bits. -/
  | integerOverflow
  /-- A backslash before a character that has no escape. -/
  | invalidEscape
  /-- A token that the grammar does not allow here. -/
  | unexpectedToken
  /-- No expression where one must stand. -/
  | expectedExpression
  /-- A block without its closing keyword. -/
  | unclosedBlock
  /-- No name where one must stand. -/
  | expectedIdentifier
  /-- No type where one must stand. -/
  | expectedType
  /-- A parameter list that is not well formed. -/
  | malformedParameters
  /-- An argument list that is not well formed. -/
  | malformedArguments
  /-- A class without members. -/
  | emptyClass
  /-- A case without a branch. -/
  | caseWithoutWhen
  /-- A statement in a class body that is no member. -/
  | invalidMember
  /-- Nesting beyond the limit. -/
  | nestingTooDeep
  deriving DecidableEq, Repr, Inhabited

/-- The three families of problems. -/
inductive ErrorCategory where
  /-- Found while reading tokens. -/
  | lexical
  /-- Found while reading the grammar. -/
  | grammatical
  /-- A limit was reached. -/
  | resourceLimit
  deriving DecidableEq, Repr

/-- The phase that an explanation names. -/
def ErrorCategory.phase : ErrorCategory → String
  | lexical => "lexer"
  | grammatical => "parser"
  | resourceLimit => "resource limit"

namespace ErrorCode

/-- Every code, in numeric order. -/
def all : List ErrorCode :=
  [unterminatedString, unrecognizedCharacter, integerOverflow, invalidEscape,
    unexpectedToken, expectedExpression, unclosedBlock, expectedIdentifier, expectedType,
    malformedParameters, malformedArguments, emptyClass, caseWithoutWhen, invalidMember,
    nestingTooDeep]

/-- The code as it is written. -/
def text : ErrorCode → String
  | unterminatedString => "E0001"
  | unrecognizedCharacter => "E0002"
  | integerOverflow => "E0003"
  | invalidEscape => "E0004"
  | unexpectedToken => "E1001"
  | expectedExpression => "E1002"
  | unclosedBlock => "E1003"
  | expectedIdentifier => "E1004"
  | expectedType => "E1005"
  | malformedParameters => "E1006"
  | malformedArguments => "E1007"
  | emptyClass => "E1008"
  | caseWithoutWhen => "E1009"
  | invalidMember => "E1010"
  | nestingTooDeep => "E2001"

instance : ToString ErrorCode := ⟨text⟩

/-- The family of a code. -/
def category : ErrorCode → ErrorCategory
  | unterminatedString | unrecognizedCharacter | integerOverflow | invalidEscape => .lexical
  | nestingTooDeep => .resourceLimit
  | _ => .grammatical

/-- The problem in one phrase. -/
def description : ErrorCode → String
  | unterminatedString => "unterminated string literal"
  | unrecognizedCharacter => "unrecognized character"
  | integerOverflow => "integer literal out of range"
  | invalidEscape => "invalid escape sequence"
  | unexpectedToken => "unexpected token"
  | expectedExpression => "expected expression"
  | unclosedBlock => "block is never closed with `end`"
  | expectedIdentifier => "expected identifier"
  | expectedType => "expected type"
  | malformedParameters => "malformed parameter list"
  | malformedArguments => "malformed argument list"
  | emptyClass => "class body has no members"
  | caseWithoutWhen => "`case` without `when`"
  | invalidMember => "invalid class member"
  | nestingTooDeep => "nesting too deep"

/-- Read a code; the letter may be small. No character outside ASCII has a capital form that
occurs in a code, so capitals of ASCII are enough. -/
def ofText? (text : String) : Option ErrorCode :=
  all.find? fun code => code.text.toList == text.toList.map Char.toUpper

/-- Every code reads back. -/
theorem ofText?_text (code : ErrorCode) : ofText? code.text = some code := by
  cases code <;> decide +kernel

/-- The code, its description and the phase that reports it, as one line. -/
def explanation (code : ErrorCode) : String :=
  s!"{code}: {code.description} ({code.category.phase})"

end ErrorCode

end Vibescript
