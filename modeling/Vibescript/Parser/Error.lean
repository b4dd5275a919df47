import Vibescript.Lexer.Error
import Vibescript.Nesting
import Vibescript.Token.TagSet

/-!
# Errors of the parser

An error says what is wrong, where, which tokens would have been accepted there and which one
was found. It may name the construct that was being read and a related place, such as the
keyword that opened an unclosed block.
-/
namespace Vibescript

/-- The construct that was being read. -/
inductive Construct where
  | method | parameters | typeUnion | classBody | classMember
  | ifStatement | unlessStatement | caseStatement | whileLoop | untilLoop | forLoop
  | beginBlock | rescueClause | raiseJump | yieldJump | requireImport
  | expression | arguments | block | memberAccess | subscript
  | array | hash | parenthesized | string
  deriving DecidableEq, Repr

/-- A construct in words. -/
def Construct.description : Construct → String
  | method => "a method definition"
  | parameters => "a parameter list"
  | typeUnion => "a type annotation"
  | classBody => "a class definition"
  | classMember => "a class member"
  | ifStatement => "an `if` statement"
  | unlessStatement => "an `unless` statement"
  | caseStatement => "a `case` statement"
  | whileLoop => "a `while` loop"
  | untilLoop => "an `until` loop"
  | forLoop => "a `for` loop"
  | beginBlock => "a `begin` block"
  | rescueClause => "a `rescue` clause"
  | raiseJump => "a `raise` statement"
  | yieldJump => "a `yield` statement"
  | requireImport => "a `require` import"
  | expression => "an expression"
  | arguments => "an argument list"
  | block => "a `do` block"
  | memberAccess => "a member access"
  | subscript => "a subscript"
  | array => "an array literal"
  | hash => "a hash literal"
  | parenthesized => "a parenthesized expression"
  | string => "a string literal"

/-- What is wrong. -/
inductive ParseFault where
  /-- Another token should stand here. -/
  | unexpected
  /-- A keyword that closes or divides a block, without a block. -/
  | strayTerminator
  /-- A block opened by this keyword has no end. -/
  | unclosed (opener : Tag)
  /-- No expression. -/
  | missingExpression
  /-- No type. -/
  | missingType
  /-- An export of something that is no method. -/
  | exportWithoutMethod
  /-- A class without members. -/
  | emptyClass (name : String)
  /-- A case without a branch. -/
  | caseWithoutWhen
  /-- A statement in a class that is no member. -/
  | invalidMember
  /-- Nesting beyond the limit. -/
  | nesting (exceeded : NestingExceeded)
  /-- A fault below the level of tokens. -/
  | lexical (fault : LexicalFault)
  /-- A fault stated in so many words. -/
  | stated (message : String)
  deriving DecidableEq, Repr

/-- A place that has to do with an error. -/
structure RelatedPlace where
  /-- The place. -/
  span : Span
  /-- What it has to do with the error. -/
  message : String
  deriving DecidableEq, Repr

/-- An error of the parser. -/
structure ParseError where
  /-- The kind of problem. -/
  code : ErrorCode
  /-- What is wrong. -/
  fault : ParseFault
  /-- Where. -/
  span : Span
  /-- Tokens that would have been accepted here. -/
  expected : TagSet
  /-- The token that was found instead. -/
  found : Option Tag
  /-- The construct that was being read. -/
  construct : Option Construct
  /-- A related place. -/
  related : Option RelatedPlace
  deriving DecidableEq, Repr

namespace ParseError

/-- An error without any detail. -/
def ofFault (code : ErrorCode) (fault : ParseFault) (span : Span) : ParseError :=
  { code, fault, span, expected := .empty, found := none, construct := none, related := none }

/-- One of some tokens was expected and another was found. -/
def unexpected (code : ErrorCode) (expected : TagSet) (found : Tag) (span : Span) : ParseError :=
  { ofFault code .unexpected span with expected, found := some found }

/-- An error below the level of tokens. -/
def ofLexical (error : LexicalError) : ParseError :=
  ofFault error.fault.code (.lexical error.fault) error.span

/-- Say what is wrong in another way. -/
def withFault (error : ParseError) (fault : ParseFault) : ParseError := { error with fault }

/-- Name the construct that was being read. -/
def within (error : ParseError) (construct : Construct) : ParseError :=
  { error with construct := some construct }

/-- Name a related place. -/
def withRelated (error : ParseError) (span : Span) (message : String) : ParseError :=
  { error with related := some ⟨span, message⟩ }

/-- Name the keyword that opened what is wrong. -/
def openedBy (error : ParseError) (opener : Tag) (span : Span) : ParseError :=
  error.withRelated span s!"{opener.description} opened here"

/-- The error in words. -/
def message (error : ParseError) : String :=
  let found := (error.found.map Tag.description).getD ""
  match error.fault with
  | .unexpected =>
    if error.expected.isEmpty then s!"unexpected {found}"
    else s!"expected {error.expected.describe}, found {found}"
  | .strayTerminator => s!"unexpected {found} without a matching opener"
  | .unclosed opener => s!"expected `end` to close {opener.description}, found {found}"
  | .missingExpression => s!"expected expression, found {found}"
  | .missingType => s!"expected type, found {found}"
  | .exportWithoutMethod => s!"`export` must be followed by a method, found {found}"
  | .emptyClass name => s!"class `{name}` has no members"
  | .caseWithoutWhen => "`case` needs at least one `when` clause"
  | .invalidMember =>
    "expected `def`, `private`, `property`, `getter`, `setter` or a class variable, " ++
      s!"found {found}"
  | .nesting exceeded => exceeded.message
  | .lexical fault => fault.message
  | .stated message => message

/-- What is said at the place of an error. -/
def labelMessage (error : ParseError) : String :=
  match error.code.category, error.found with
  | .lexical, _ => "invalid token"
  | .resourceLimit, _ => "nesting limit reached here"
  | .grammatical, some .endOfInput => "reached end of input"
  | .grammatical, some found => s!"unexpected {found.description}"
  | .grammatical, none => "here"

/-- The diagnostic of an error. -/
def toDiagnostic (error : ParseError) : Diagnostic :=
  let diagnostic :=
    (((Diagnostic.ofCode error.code .error).withMessage error.message).withLabel
      ⟨error.span, error.labelMessage, true⟩).withExpected error.expected.toList
  let diagnostic :=
    match error.related with
    | some place => diagnostic.withLabel ⟨place.span, place.message, false⟩
    | none => diagnostic
  match error.construct with
  | some construct => diagnostic.withNote s!"while parsing {construct.description}"
  | none => diagnostic

/-- The error as one line. -/
protected def toString (error : ParseError) : String :=
  s!"{error.code} at {error.span}: {error.message}"

instance : ToString ParseError := ⟨ParseError.toString⟩

end ParseError

end Vibescript
