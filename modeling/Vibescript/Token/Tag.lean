/-!
# Token tags

A tag is a token without its payload. Tags have a fixed order, which sets of tags follow when
they are listed. Keywords, operators and punctuation have one spelling each.
-/
namespace Vibescript

/-- The kinds of token, payloads left out. -/
inductive Tag where
  | identifier | constant | integer | float
  | stringOpen | stringContent | stringEscape | stringClose
  | symbol | instanceVariable | classVariable
  | kwDef | kwEnd | kwIf | kwElsif | kwElse | kwUnless | kwCase | kwWhen
  | kwWhile | kwUntil | kwFor | kwIn | kwBegin | kwRescue | kwEnsure
  | kwReturn | kwBreak | kwNext | kwRaise | kwYield
  | kwClass | kwPrivate | kwExport | kwDo
  | kwTrue | kwFalse | kwNil | kwSelf | kwAnd | kwOr
  | plus | minus | star | slash | percent
  | assign | plusAssign | minusAssign
  | equal | notEqual | less | greater | lessEqual | greaterEqual
  | doubleAmpersand | doubleBar | bang | doubleDot | arrow
  | leftParen | rightParen | leftBracket | rightBracket | leftBrace | rightBrace
  | comma | dot | colon | bar | question
  | versionDirective | usesDirective
  | endOfInput
  deriving DecidableEq, Repr, Inhabited

namespace Tag

/-- Every tag, in order. -/
def all : List Tag :=
  [identifier, constant, integer, float,
    stringOpen, stringContent, stringEscape, stringClose,
    symbol, instanceVariable, classVariable,
    kwDef, kwEnd, kwIf, kwElsif, kwElse, kwUnless, kwCase, kwWhen,
    kwWhile, kwUntil, kwFor, kwIn, kwBegin, kwRescue, kwEnsure,
    kwReturn, kwBreak, kwNext, kwRaise, kwYield,
    kwClass, kwPrivate, kwExport, kwDo,
    kwTrue, kwFalse, kwNil, kwSelf, kwAnd, kwOr,
    plus, minus, star, slash, percent,
    assign, plusAssign, minusAssign,
    equal, notEqual, less, greater, lessEqual, greaterEqual,
    doubleAmpersand, doubleBar, bang, doubleDot, arrow,
    leftParen, rightParen, leftBracket, rightBracket, leftBrace, rightBrace,
    comma, dot, colon, bar, question,
    versionDirective, usesDirective,
    endOfInput]

/-- Place of a tag in the order. -/
def index (tag : Tag) : Nat := tag.ctorIdx

/-- The tag at a place. -/
def ofIndex? (index : Nat) : Option Tag := all[index]?

/-- The order lists each tag at its place. -/
@[simp] theorem ofIndex?_index (tag : Tag) : ofIndex? tag.index = some tag := by
  cases tag <;> rfl

/-- Every tag is listed. -/
theorem mem_all (tag : Tag) : tag ∈ all :=
  List.mem_of_getElem? (ofIndex?_index tag)

/-- Tags at the same place are equal. -/
theorem index_injective {left right : Tag} (same : left.index = right.index) : left = right :=
  Option.some.inj ((ofIndex?_index left).symm.trans (same ▸ ofIndex?_index right))

/-- The fixed spelling of a keyword, an operator or a punctuation mark. -/
def spelling? : Tag → Option String
  | kwDef => "def"
  | kwEnd => "end"
  | kwIf => "if"
  | kwElsif => "elsif"
  | kwElse => "else"
  | kwUnless => "unless"
  | kwCase => "case"
  | kwWhen => "when"
  | kwWhile => "while"
  | kwUntil => "until"
  | kwFor => "for"
  | kwIn => "in"
  | kwBegin => "begin"
  | kwRescue => "rescue"
  | kwEnsure => "ensure"
  | kwReturn => "return"
  | kwBreak => "break"
  | kwNext => "next"
  | kwRaise => "raise"
  | kwYield => "yield"
  | kwClass => "class"
  | kwPrivate => "private"
  | kwExport => "export"
  | kwDo => "do"
  | kwTrue => "true"
  | kwFalse => "false"
  | kwNil => "nil"
  | kwSelf => "self"
  | kwAnd => "and"
  | kwOr => "or"
  | plus => "+"
  | minus => "-"
  | star => "*"
  | slash => "/"
  | percent => "%"
  | assign => "="
  | plusAssign => "+="
  | minusAssign => "-="
  | equal => "=="
  | notEqual => "!="
  | less => "<"
  | greater => ">"
  | lessEqual => "<="
  | greaterEqual => ">="
  | doubleAmpersand => "&&"
  | doubleBar => "||"
  | bang => "!"
  | doubleDot => ".."
  | arrow => "->"
  | leftParen => "("
  | rightParen => ")"
  | leftBracket => "["
  | rightBracket => "]"
  | leftBrace => "\x7b"
  | rightBrace => "\x7d"
  | comma => ","
  | dot => "."
  | colon => ":"
  | bar => "|"
  | question => "?"
  | _ => none

/-- Whether a tag is a reserved word. -/
def isKeyword (tag : Tag) : Bool := kwDef.index ≤ tag.index && tag.index ≤ kwOr.index

/-- Whether a tag is an operator or a punctuation mark. -/
def isMark (tag : Tag) : Bool := plus.index ≤ tag.index && tag.index ≤ question.index

/-- The fixed spellings belong to the reserved words and the marks. -/
theorem isSome_spelling? (tag : Tag) :
    tag.spelling?.isSome = (tag.isKeyword || tag.isMark) := by
  cases tag <;> rfl

/-- How a message names a token: its spelling between backquotes, or a phrase. -/
def description (tag : Tag) : String :=
  match tag.spelling? with
  | some text => s!"`{text}`"
  | none =>
    match tag with
    | identifier => "identifier"
    | constant => "constant"
    | integer => "integer"
    | float => "float"
    | stringOpen => "string"
    | stringContent => "string content"
    | stringEscape => "escape sequence"
    | stringClose => "closing `\"`"
    | symbol => "symbol"
    | instanceVariable => "instance variable"
    | classVariable => "class variable"
    | versionDirective => "version directive"
    | usesDirective => "uses directive"
    | _ => "end of input"

/-- How a token listing names a token. -/
def label : Tag → String
  | identifier => "Ident"
  | constant => "Constant"
  | integer => "Int"
  | float => "Float"
  | stringOpen => "StringOpen"
  | stringContent => "StringContent"
  | stringEscape => "StringEscape"
  | stringClose => "StringClose"
  | symbol => "Symbol"
  | instanceVariable => "InstanceVar"
  | classVariable => "ClassVar"
  | kwDef => "Def"
  | kwEnd => "End"
  | kwIf => "If"
  | kwElsif => "Elsif"
  | kwElse => "Else"
  | kwUnless => "Unless"
  | kwCase => "Case"
  | kwWhen => "When"
  | kwWhile => "While"
  | kwUntil => "Until"
  | kwFor => "For"
  | kwIn => "In"
  | kwBegin => "Begin"
  | kwRescue => "Rescue"
  | kwEnsure => "Ensure"
  | kwReturn => "Return"
  | kwBreak => "Break"
  | kwNext => "Next"
  | kwRaise => "Raise"
  | kwYield => "Yield"
  | kwClass => "Class"
  | kwPrivate => "Private"
  | kwExport => "Export"
  | kwDo => "Do"
  | kwTrue => "True"
  | kwFalse => "False"
  | kwNil => "Nil"
  | kwSelf => "SelfLower"
  | kwAnd => "And"
  | kwOr => "Or"
  | plus => "Plus"
  | minus => "Minus"
  | star => "Star"
  | slash => "Slash"
  | percent => "Percent"
  | assign => "Eq"
  | plusAssign => "PlusEq"
  | minusAssign => "MinusEq"
  | equal => "EqEq"
  | notEqual => "NotEq"
  | less => "Lt"
  | greater => "Gt"
  | lessEqual => "LtEq"
  | greaterEqual => "GtEq"
  | doubleAmpersand => "AmpAmp"
  | doubleBar => "PipePipe"
  | bang => "Bang"
  | doubleDot => "DotDot"
  | arrow => "Arrow"
  | leftParen => "LParen"
  | rightParen => "RParen"
  | leftBracket => "LBracket"
  | rightBracket => "RBracket"
  | leftBrace => "LBrace"
  | rightBrace => "RBrace"
  | comma => "Comma"
  | dot => "Dot"
  | colon => "Colon"
  | bar => "Pipe"
  | question => "Question"
  | versionDirective => "VersionDirective"
  | usesDirective => "UsesDirective"
  | endOfInput => "Eof"

/-- The tag that a token listing names so. -/
def ofLabel? (text : String) : Option Tag := all.find? (·.label == text)

end Tag

end Vibescript
