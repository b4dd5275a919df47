import Vibescript.Parser.Expression

/-!
# Declarations

Methods with their parameters and types, exported methods, and classes.
-/
namespace Vibescript.Grammar

open Build Parse

/-- The type that an identifier names. The lexer takes a question mark directly after a name
as part of it; in a type it marks the missing value as allowed. -/
def namedType (name : Name) : Build (TypeReference × Bool) := do
  let text := (← cursor).nameText name
  if text.toList.getLast? = some '?' then
    let base := String.ofList text.toList.dropLast
    if base = "nil" then return (.nil, true)
    else return (.named (← intern base), true)
  else return (.named name, false)

/-- A type name, possibly marked to allow the missing value. -/
def typeName : Parse NodeId := do
  let token ← current
  let (reference, isMarked) ←
    match token.kind with
    | .identifier name => namedType name
    | .constant name => pure (.named name, false)
    | .fixed .kwNil _ => pure (.nil, false)
    | _ =>
      let error ← unexpected .expectedType .typeStart
      throw ((error.withFault .missingType).within .typeUnion)
  let _ ← advance
  let isMarkedAfter ← eat .question
  close (.typeName reference (isMarked || isMarkedAfter)) token.span

/-- A type: alternatives with bars between them. -/
def typeUnion (grammar : Grammar) : Parse NodeId := do
  let first ← current
  let types ← grammar.oneOrMore .bar typeName
  close (.typeUnion (← addList types)) first.span

/-- The value that a parameter has when it is not given, if one follows. -/
def default? (grammar : Grammar) : Parse (Option NodeId) := do
  if ← eat .assign then return some (← grammar.expression) else return none

/-- A type after a colon, if one follows. -/
def variableType? (grammar : Grammar) : Parse (Option NodeId) := do
  let _ ← splitSymbol
  if ← eat .colon then return some (← grammar.typeUnion) else return none

/-- A parameter of a given shape. -/
def parameterOf (grammar : Grammar) (shape : Lookahead.ParameterShape) : Parse NodeId := do
  let token ← advance
  let kind ←
    match shape, token.kind with
    | .instanceVariable, .instanceVariable name =>
      pure (NodeKind.variableParameter name (← grammar.variableType?))
    | .typed, .identifier name =>
      let _ ← splitSymbol
      let _ ← expect .colon .parameters
      let type ← grammar.typeUnion
      pure (.typedParameter name type (← grammar.default?))
    | _, .identifier name => pure (.simpleParameter name (← grammar.default?))
    | _, _ =>
      throw ((ParseError.unexpected .malformedParameters .parameterStart token.tag
        token.span).within .parameters)
  close kind token.span

/-- A parameter. -/
def parameter (grammar : Grammar) : Parse NodeId := do
  match ← askParameter? with
  | some shape => grammar.parameterOf shape
  | none =>
    throw ((← unexpected .malformedParameters (TagSet.parameterStart.insert .rightParen)).within
      .parameters)

/-- A parameter list. -/
def parameters (grammar : Grammar) : Parse NodeId := do
  let opening ← expect .leftParen .parameters
  let items ← grammar.itemsUntil .rightParen grammar.parameter
  expectCloser .malformedParameters .rightParen .parameters
  close (.parameters (← addList items)) opening.span

/-- The name of a method, possibly of the class itself. -/
def methodName : Parse MethodName := do
  let isSingleton ← ask Lookahead.isSelfQualifier
  if isSingleton then
    let _ ← advance
    let _ ← advance
  let (name, _) ← expectIdentifier .method
  return ⟨isSingleton, name⟩

/-- A method declaration. -/
def method (grammar : Grammar) : Parse NodeId := do
  let first ← current
  let isPrivate ← eat .kwPrivate
  let opening ← expect .kwDef .method
  let name ← methodName
  let inputs ← if ← check .leftParen then some <$> grammar.parameters else pure none
  let returnType ← if ← eat .arrow then some <$> grammar.typeUnion else pure none
  let body ← grammar.body .blockEnd
  expectEnd .kwDef opening.span .method
  close (.method isPrivate name inputs returnType body) first.span

/-- An exported method. -/
def exportedMethod (grammar : Grammar) : Parse NodeId := do
  let first ← advance
  if TagSet.methodStart.contains (← currentTag) then
    let inner ← grammar.method
    close (.exportMethod inner) first.span
  else
    let error ← unexpected .unexpectedToken .methodStart
    throw ((error.withFault .exportWithoutMethod).within .method)

/-- Accessor declarations after their keyword. -/
def accessors (grammar : Grammar) (kind : AccessorKind) : Parse NodeId := do
  let first ← advance
  let names ← grammar.oneOrMore .comma (expectIdentifier .classMember)
  close (.accessorDeclaration kind (← addNames (names.map Prod.fst))) first.span

/-- The first value of a class variable. -/
def classVariable (grammar : Grammar) (name : Name) : Parse NodeId := do
  let first ← advance
  let _ ← expect .assign .classMember
  let value ← grammar.expression
  close (.classVariableAssignment name value) first.span

/-- Fail because no member starts here. -/
def invalidMember : Parse NodeId := do
  let error ← unexpected .invalidMember .memberStart
  throw ((error.withFault .invalidMember).within .classMember)

/-- A member of a class. -/
def classMember (grammar : Grammar) : Parse NodeId := do
  match (← current).kind with
  | .fixed .kwDef _ | .fixed .kwPrivate _ => grammar.method
  | .classVariable name => grammar.classVariable name
  | .identifier name =>
    match grammar.soft.accessor? name with
    | some kind => grammar.accessors kind
    | none => invalidMember
  | _ => invalidMember

/-- Whether the recovery of a class member stops at a token. -/
def startsMember (grammar : Grammar) (token : Token Name) : Bool :=
  TagSet.memberBoundary.contains token.tag ||
    match token.kind with
    | .identifier name => (grammar.soft.accessor? name).isSome
    | _ => false

/-- One round of a class body: the end of the body, or a member. -/
def memberStep (grammar : Grammar) (members : Array NodeId) :
    Build (ForInStep (Array NodeId)) := do
  if ← grammar.shouldHalt then
    skipToEnd
    return .done members
  let tag ← currentTag
  if tag == .kwEnd || tag == .endOfInput then return .done members
  let start ← checkpoint
  match ← grammar.classMember.run with
  | .ok id => return .yield (members.push id)
  | .error error =>
    grammar.report error
    onCursor fun cursor =>
      ((), cursor.skipUntil fun cursor => grammar.startsMember cursor.current)
    return .yield (members.push (← abandon start))

/-- The members of a class, up to its end or the end of the source text. -/
def classBody (grammar : Grammar) : Build (Array NodeId) :=
  grammar.loop #[] grammar.memberStep

/-- A class declaration. -/
def classDeclaration (grammar : Grammar) : Parse NodeId := do
  let opening ← advance
  let name ← expectConstant .classBody
  let members ← grammar.classBody
  if members.isEmpty then
    let text := (← cursor).nameText name
    let error ← unexpected .emptyClass .memberStart
    grammar.report (((error.withFault (.emptyClass text)).openedBy .kwClass opening.span).within
      .classBody)
  let range ← addList members
  expectEnd .kwClass opening.span .classBody
  close (.classDeclaration name range) opening.span

end Vibescript.Grammar
