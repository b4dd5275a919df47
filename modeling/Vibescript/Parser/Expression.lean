import Vibescript.Parser.Grammar

/-!
# Expressions

An expression is an operand followed by infix operators for as long as they bind tightly
enough. An operand is a unary operator with its operand, or a primary expression with calls,
members and subscripts after it.
-/
namespace Vibescript.Grammar

open Build Parse

/-- A string literal: the text of its pieces, joined, becomes one name. -/
def stringLiteral (grammar : Grammar) : Parse NodeId := do
  let opening ← expect .stringOpen .string
  let value ← grammar.loop "" fun text => do
    let cursor ← cursor
    match cursor.current.kind with
    | .stringContent run =>
      let _ ← advance
      return .yield (text ++ cursor.nameText run)
    | .stringEscape char =>
      let _ ← advance
      return .yield (text.push char)
    | .stringClose =>
      let _ ← advance
      return .done text
    | _ => throw ((← unexpected .unexpectedToken (.singleton .stringClose)).within .string)
  close (.string (← intern value)) opening.span

/-- The closing bracket of a list; without it, a comma would have been accepted as well. -/
def expectCloser (code : ErrorCode) (closer : Tag) (construct : Construct) : Parse Unit := do
  if !(← eat closer) then
    throw ((← unexpected code ((TagSet.singleton closer).insert .comma)).within construct)

/-- An array literal. -/
def arrayLiteral (grammar : Grammar) : Parse NodeId := do
  let opening ← advance
  let elements ← grammar.itemsUntil .rightBracket grammar.expression
  expectCloser .unexpectedToken .rightBracket .array
  close (.array (← addList elements)) opening.span

/-- An entry of a hash literal: a key, which is a name or a string, a colon, and a value. -/
def hashEntry (grammar : Grammar) : Parse NodeId := do
  let first ← current
  let key ←
    match first.kind with
    | .identifier name =>
      let _ ← advance
      addNode (.identifier name) first.span
    | .stringOpen => grammar.stringLiteral
    | _ =>
      let expected := TagSet.ofList [.identifier, .stringOpen, .rightBrace]
      throw ((← unexpected .unexpectedToken expected).within .hash)
  let _ ← splitSymbol
  let _ ← expect .colon .hash
  let value ← grammar.expression
  close (.hashEntry key value) first.span

/-- A hash literal. -/
def hashLiteral (grammar : Grammar) : Parse NodeId := do
  let opening ← advance
  let entries ← grammar.itemsUntil .rightBrace grammar.hashEntry
  expectCloser .unexpectedToken .rightBrace .hash
  close (.hash (← addList entries)) opening.span

/-- An expression in parentheses. -/
def parenthesized (grammar : Grammar) : Parse NodeId := do
  let opening ← advance
  let inner ← grammar.expression
  let _ ← expect .rightParen .parenthesized
  close (.parenthesized inner) opening.span

/-- An argument, by its key or by its place. -/
def argument (grammar : Grammar) : Parse NodeId := do
  let first ← current
  match first.kind with
  | .identifier name =>
    if ← ask Lookahead.isKeyword then
      let _ ← advance
      let _ ← splitSymbol
      let _ ← advance
      let key ← addNode (.identifier name) first.span
      let value ← grammar.expression
      close (.keywordArgument key value) first.span
    else grammar.expression
  | _ => grammar.expression

/-- Arguments in parentheses. -/
def arguments (grammar : Grammar) : Parse NodeRange := do
  let _ ← expect .leftParen .arguments
  let arguments ← grammar.itemsUntil .rightParen grammar.argument
  expectCloser .malformedArguments .rightParen .arguments
  addList arguments

/-- The names between the bars of a block. -/
def blockParameters (grammar : Grammar) : Parse NameRange := do
  let mut names : Array (Name × Span) := #[]
  if ← eat .bar then
    names ← grammar.oneOrMore .comma (expectIdentifier .block)
    let _ ← expect .bar .block
  addNames (names.map Prod.fst)

/-- A block, if one follows. -/
def block? (grammar : Grammar) : Parse (Option NodeId) := do
  if ← check .kwDo then
    let opening ← advance
    let parameters ← grammar.blockParameters
    let body ← grammar.body .blockEnd
    expectEnd .kwDo opening.span .block
    return some (← close (.block parameters body) opening.span)
  else return none

/-- The arguments and the block of a call whose method name was read. -/
def call (grammar : Grammar) (receiver : Option NodeId) (method : Name) (start : Span) :
    Parse NodeId := do
  let arguments ← grammar.arguments
  let block ← grammar.block?
  close (.call receiver method arguments block) start

/-- What follows the point after an operand: a call or a member. -/
def member (grammar : Grammar) (receiver : NodeId) (start : Span) : Parse NodeId := do
  let _ ← advance
  let (name, _) ← expectIdentifier .memberAccess
  if ← check .leftParen then grammar.call (some receiver) name start
  else
    let block ← grammar.block?
    close (.memberAccess receiver name block) start

/-- An index in brackets after an operand. -/
def subscript (grammar : Grammar) (receiver : NodeId) (start : Span) : Parse NodeId := do
  let _ ← advance
  let index ← grammar.expression
  let _ ← expect .rightBracket .subscript
  close (.subscript receiver index) start

/-- Calls, members and subscripts after an operand, as many as follow. -/
def chain (grammar : Grammar) (operand : NodeId) : Parse NodeId :=
  grammar.loop operand fun left => do
    let start ← nodeSpan left
    match ← currentTag with
    | .dot => return .yield (← grammar.member left start)
    | .leftBracket => return .yield (← grammar.subscript left start)
    | _ => return .done left

/-- The node of a token that is an expression by itself. -/
def literal? : TokenKind Name → Option NodeKind
  | .constant name => some (.constant name)
  | .integer value => some (.integer value)
  | .float value => some (.float value)
  | .symbol name => some (.symbol name)
  | .instanceVariable name => some (.instanceVariable name)
  | .classVariable name => some (.classVariable name)
  | .fixed .kwTrue _ => some .trueLiteral
  | .fixed .kwFalse _ => some .falseLiteral
  | .fixed .kwNil _ => some .nilLiteral
  | .fixed .kwSelf _ => some .selfReference
  | _ => none

/-- A name, or a call when an argument list follows directly. -/
def nameOrCall (grammar : Grammar) (name : Name) : Parse NodeId := do
  let token ← advance
  if ← check .leftParen then grammar.call none name token.span
  else addNode (.identifier name) token.span

/-- A primary expression. -/
def primary (grammar : Grammar) : Parse NodeId := do
  let token ← current
  match token.kind with
  | .identifier name => grammar.nameOrCall name
  | .stringOpen => grammar.stringLiteral
  | .fixed .leftBracket _ => grammar.arrayLiteral
  | .fixed .leftBrace _ => grammar.hashLiteral
  | .fixed .leftParen _ => grammar.parenthesized
  | kind =>
    match literal? kind with
    | some literal => leaf literal
    | none =>
      let error ← unexpected .expectedExpression .expressionStart
      throw ((error.withFault .missingExpression).within .expression)

/-- A unary operator with its operand, or a primary expression with what follows it. -/
def operand (grammar : Grammar) : Parse NodeId := do
  match UnaryOp.ofTag? (← currentTag) with
  | some op =>
    let start ← advance
    let operand ← grammar.deeper .operand
    close (.unary op operand) start.span
  | none => grammar.chain (← grammar.primary)

/-- The node of an infix operator. -/
def infixNode (op : InfixOp) (left right : NodeId) : NodeKind :=
  match op with
  | .binary op => .binary op left right
  | .assign => .assignment left right
  | .compound op => .compoundAssignment op left right

/-- An expression whose operators bind at least as tightly as a power. -/
def expressionFrom (grammar : Grammar) (least : BindingPower) : Parse NodeId := do
  let first ← grammar.operand
  grammar.loop first fun left => do
    match InfixOp.ofTag? (← currentTag) with
    | none => return .done left
    | some op =>
      if op.power.rank < least.rank then return .done left
      let _ ← advance
      let start ← nodeSpan left
      let right ← grammar.deeper (.expression op.rightPower)
      return .yield (← close (infixNode op left right) start)

end Vibescript.Grammar
