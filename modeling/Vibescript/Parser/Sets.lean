import Vibescript.Token.TagSet

/-!
# Token sets of the grammar

Which tokens start a construct, close a body, or stop recovery.
-/
namespace Vibescript.TagSet

/-- Tokens that start an expression. -/
def expressionStart : TagSet :=
  ofList [.identifier, .constant, .integer, .float, .stringOpen, .symbol, .instanceVariable,
    .classVariable, .kwTrue, .kwFalse, .kwNil, .kwSelf, .leftBracket, .leftBrace, .leftParen,
    .minus, .bang]

/-- Keywords that close or divide some body. -/
def bodyEnd : TagSet := ofList [.kwEnd, .kwElsif, .kwElse, .kwWhen, .kwRescue, .kwEnsure]

/-- Where the recovery of a statement stops: keywords that start a statement or close a
body. -/
def statementBoundary : TagSet :=
  (ofList [.kwDef, .kwPrivate, .kwExport, .kwClass, .kwIf, .kwUnless, .kwCase, .kwWhile, .kwUntil,
    .kwFor, .kwBegin, .kwReturn, .kwBreak, .kwNext, .kwRaise, .kwYield]).union bodyEnd

/-- Where the recovery of a class member stops, accessor declarations apart. -/
def memberBoundary : TagSet := ofList [.kwDef, .kwPrivate, .classVariable, .kwEnd]

/-- Tokens that start a class member. -/
def memberStart : TagSet := ofList [.kwDef, .kwPrivate, .classVariable, .identifier]

/-- Tokens that start a method. -/
def methodStart : TagSet := ofList [.kwDef, .kwPrivate]

/-- Tokens that start a parameter. -/
def parameterStart : TagSet := ofList [.identifier, .instanceVariable]

/-- Tokens that start a type. -/
def typeStart : TagSet := ofList [.identifier, .constant, .kwNil]

/-- What closes most bodies. -/
def blockEnd : TagSet := singleton .kwEnd

/-- What closes the body of `if` and `elsif`. -/
def ifBodyEnd : TagSet := ofList [.kwEnd, .kwElsif, .kwElse]

/-- What closes the body of `unless`. -/
def unlessBodyEnd : TagSet := ofList [.kwEnd, .kwElse]

/-- What closes the body of `when`. -/
def whenBodyEnd : TagSet := ofList [.kwEnd, .kwElse, .kwWhen]

/-- What closes the body of `begin` and `rescue`. -/
def beginBodyEnd : TagSet := ofList [.kwEnd, .kwRescue, .kwEnsure]

end Vibescript.TagSet
