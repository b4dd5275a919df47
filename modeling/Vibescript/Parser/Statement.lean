import Vibescript.Parser.Declaration

/-!
# Statements

Conditionals, loops, error handling, jumps and imports. Every other statement is a declaration
or an expression.
-/
namespace Vibescript.Grammar

open Build Parse

/-- The `else` of a conditional, if one follows. -/
def else? (grammar : Grammar) : Parse (Option NodeId) := do
  if ← check .kwElse then
    let first ← advance
    let body ← grammar.body .blockEnd
    return some (← close (.elseClause body) first.span)
  else return none

/-- Clauses that start with a keyword, as many as follow. -/
def clauses (grammar : Grammar) (keyword : Tag) (clause : Parse NodeId) : Parse (Array NodeId) :=
  grammar.loop #[] fun items => do
    if ← check keyword then return .yield (items.push (← clause)) else return .done items

/-- `elsif`, a condition and a body. -/
def elsifClause (grammar : Grammar) : Parse NodeId := do
  let first ← advance
  let condition ← grammar.expression
  let body ← grammar.body .ifBodyEnd
  close (.elsifClause condition body) first.span

/-- `if`, a condition and a body, further conditions, and an alternative. -/
def ifStatement (grammar : Grammar) : Parse NodeId := do
  let opening ← advance
  let condition ← grammar.expression
  let body ← grammar.body .ifBodyEnd
  let elsifs ← addList (← grammar.clauses .kwElsif grammar.elsifClause)
  let otherwise ← grammar.else?
  expectEnd .kwIf opening.span .ifStatement
  close (.ifStatement condition body elsifs otherwise) opening.span

/-- `unless`, a condition and a body, and an alternative. -/
def unlessStatement (grammar : Grammar) : Parse NodeId := do
  let opening ← advance
  let condition ← grammar.expression
  let body ← grammar.body .unlessBodyEnd
  let otherwise ← grammar.else?
  expectEnd .kwUnless opening.span .unlessStatement
  close (.unlessStatement condition body otherwise) opening.span

/-- `when`, patterns and a body. -/
def whenClause (grammar : Grammar) : Parse NodeId := do
  let first ← advance
  let patterns ← addList (← grammar.oneOrMore .comma grammar.expression)
  let body ← grammar.body .whenBodyEnd
  close (.whenClause patterns body) first.span

/-- `case`, a subject, its branches, and an alternative. A case without a branch is reported
and kept. -/
def caseStatement (grammar : Grammar) : Parse NodeId := do
  let opening ← advance
  let subject ← grammar.expression
  let whens ← grammar.clauses .kwWhen grammar.whenClause
  if whens.isEmpty then
    let error ← unexpected .caseWithoutWhen (.singleton .kwWhen)
    grammar.report (((error.withFault .caseWithoutWhen).openedBy .kwCase opening.span).within
      .caseStatement)
  let whens ← addList whens
  let otherwise ← grammar.else?
  expectEnd .kwCase opening.span .caseStatement
  close (.caseStatement subject whens otherwise) opening.span

/-- `while`, a condition and a body. -/
def whileLoop (grammar : Grammar) : Parse NodeId := do
  let opening ← advance
  let condition ← grammar.expression
  let body ← grammar.body .blockEnd
  expectEnd .kwWhile opening.span .whileLoop
  close (.whileLoop condition body) opening.span

/-- `until`, a condition and a body. -/
def untilLoop (grammar : Grammar) : Parse NodeId := do
  let opening ← advance
  let condition ← grammar.expression
  let body ← grammar.body .blockEnd
  expectEnd .kwUntil opening.span .untilLoop
  close (.untilLoop condition body) opening.span

/-- `for`, a variable, what it ranges over, and a body. -/
def forLoop (grammar : Grammar) : Parse NodeId := do
  let opening ← advance
  let (name, span) ← expectIdentifier .forLoop
  let target ← addNode (.identifier name) span
  let _ ← expect .kwIn .forLoop
  let iterable ← grammar.expression
  let body ← grammar.body .blockEnd
  expectEnd .kwFor opening.span .forLoop
  close (.forLoop target iterable body) opening.span

/-- The constant in parentheses that names the errors to rescue, if it follows. -/
def rescueFilter? : Parse (Option Name) := do
  if ← ask Lookahead.isRescueFilter then
    let _ ← advance
    let name ← expectConstant .rescueClause
    let _ ← expect .rightParen .rescueClause
    return some name
  else return none

/-- `rescue`, the errors it is for, and a body. -/
def rescueClause (grammar : Grammar) : Parse NodeId := do
  let first ← advance
  let filter ← rescueFilter?
  let body ← grammar.body .beginBodyEnd
  close (.rescueClause filter body) first.span

/-- `ensure` and a body, if it follows. -/
def ensure? (grammar : Grammar) : Parse (Option NodeId) := do
  if ← check .kwEnsure then
    let first ← advance
    let body ← grammar.body .blockEnd
    return some (← close (.ensureClause body) first.span)
  else return none

/-- `begin` and a body, what to do about errors, and what to do in any case. -/
def beginBlock (grammar : Grammar) : Parse NodeId := do
  let opening ← advance
  let body ← grammar.body .beginBodyEnd
  let rescues ← addList (← grammar.clauses .kwRescue grammar.rescueClause)
  let ensure ← grammar.ensure?
  expectEnd .kwBegin opening.span .beginBlock
  close (.beginBlock body rescues ensure) opening.span

/-- `return`, with a value whenever an expression can start at the next token. -/
def returnJump (grammar : Grammar) : Parse NodeId := do
  let first ← advance
  let value ←
    if TagSet.expressionStart.contains (← currentTag) then some <$> grammar.expression
    else pure none
  close (.returnJump value) first.span

/-- `raise` and an expression in parentheses. -/
def raiseJump (grammar : Grammar) : Parse NodeId := do
  let first ← advance
  let _ ← expect .leftParen .raiseJump
  let value ← grammar.expression
  let _ ← expect .rightParen .raiseJump
  close (.raiseJump value) first.span

/-- `yield`, bare or with arguments. -/
def yieldJump (grammar : Grammar) : Parse NodeId := do
  let first ← advance
  let arguments ← if ← check .leftParen then some <$> grammar.arguments else pure none
  close (.yieldJump arguments) first.span

/-- The local name of an import, if one follows. -/
def asName? (grammar : Grammar) : Parse (Option NodeId) := do
  if ← eat .comma then
    let _ ← expectIdentifier .requireImport
    let _ ← expect .colon .requireImport
    return some (← grammar.stringLiteral)
  else return none

/-- An import, whose shape was matched in full before. -/
def requireImport (grammar : Grammar) : Parse NodeId := do
  let (name, span) ← expectIdentifier .requireImport
  let target ← addNode (.identifier name) span
  let _ ← expect .assign .requireImport
  let _ ← expectIdentifier .requireImport
  let _ ← expect .leftParen .requireImport
  let path ← grammar.stringLiteral
  let asName ← grammar.asName?
  let _ ← expect .rightParen .requireImport
  close (.requireImport target path asName) span

/-- A statement that no keyword introduces: an import or an expression. -/
def plainStatement (grammar : Grammar) : Parse NodeId := do
  let tag ← currentTag
  if tag == .identifier then
    if ← ask (Lookahead.startsImport grammar.soft.importName grammar.soft.asKey) then
      grammar.requireImport
    else grammar.expression
  else if TagSet.bodyEnd.contains tag then
    let error ← unexpected .unexpectedToken .empty
    throw (error.withFault .strayTerminator)
  else grammar.expression

/-- A statement. -/
def statement (grammar : Grammar) : Parse NodeId := do
  match ← currentTag with
  | .kwDef | .kwPrivate => grammar.method
  | .kwExport => grammar.exportedMethod
  | .kwClass => grammar.classDeclaration
  | .kwIf => grammar.ifStatement
  | .kwUnless => grammar.unlessStatement
  | .kwCase => grammar.caseStatement
  | .kwWhile => grammar.whileLoop
  | .kwUntil => grammar.untilLoop
  | .kwFor => grammar.forLoop
  | .kwBegin => grammar.beginBlock
  | .kwReturn => grammar.returnJump
  | .kwBreak => leaf .breakJump
  | .kwNext => leaf .nextJump
  | .kwRaise => grammar.raiseJump
  | .kwYield => grammar.yieldJump
  | _ => grammar.plainStatement

end Vibescript.Grammar
