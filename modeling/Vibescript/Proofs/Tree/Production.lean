import Vibescript.Parser.Precedence
import Vibescript.Tree.Basic
import Vibescript.Token.Basic

/-!
# The productions of the grammar

The grammar as data: `NodeKind.production` lists, for every kind of node, the parts that a node
of that kind is written with, from left to right. A part is a token, a choice of tokens, or a
child that belongs to a category. Categories stratify expressions by how tightly they bind.
-/
namespace Vibescript

/-- The least power of the left operand of an infix operator. -/
def InfixOp.leftPower : InfixOp → BindingPower
  | binary op => op.power
  | assign | compound _ => .or

/-- What a child may be. -/
inductive Category where
  | statement | member | method
  | parameterList | parameter | typeUnion | typeName
  | elsifClause | elseClause | whenClause | rescueClause | ensureClause
  | block | argument | entry | key | name | string
  /-- An expression whose operators bind at least so tightly. -/
  | expression (least : BindingPower)
  deriving DecidableEq, Repr

namespace NodeKind

/-- How tightly an expression binds; none for what is no expression. -/
def power? : NodeKind → Option BindingPower
  | assignment .. | compoundAssignment .. => some .assignment
  | binary op _ _ => some op.power
  | unary .. => some .unary
  | call .. | memberAccess .. | subscript .. | identifier _ | constant _ | integer _ | float _
  | string _ | symbol _ | trueLiteral | falseLiteral | nilLiteral | selfReference
  | instanceVariable _ | classVariable _ | array _ | hash _ | parenthesized _ =>
    some .postfixed
  | _ => none

/-- Whether an expression binds at least as tightly as a power. -/
def bindsAt (kind : NodeKind) (least : BindingPower) : Bool :=
  kind.power?.any fun power => least.rank ≤ power.rank

/-- Whether a node can stand as a statement; tokens that were skipped can. -/
def isStatement : NodeKind → Bool
  | method .. | exportMethod _ | classDeclaration .. | ifStatement .. | unlessStatement ..
  | caseStatement .. | whileLoop .. | untilLoop .. | forLoop .. | beginBlock .. | returnJump _
  | breakJump | nextJump | raiseJump _ | yieldJump _ | requireImport .. | versionDirective ..
  | usesDirective _ | error => true
  | kind => kind.power?.isSome

end NodeKind

namespace Category

/-- Whether a child of a kind belongs to a category. -/
def admits : Category → NodeKind → Bool
  | statement, kind => kind.isStatement
  | member, .method .. | member, .accessorDeclaration .. | member, .classVariableAssignment ..
  | member, .error => true
  | method, .method .. => true
  | parameterList, .parameters _ => true
  | parameter, .simpleParameter .. | parameter, .typedParameter ..
  | parameter, .variableParameter .. => true
  | typeUnion, .typeUnion _ => true
  | typeName, .typeName .. => true
  | elsifClause, .elsifClause .. => true
  | elseClause, .elseClause _ => true
  | whenClause, .whenClause .. => true
  | rescueClause, .rescueClause .. => true
  | ensureClause, .ensureClause _ => true
  | block, .block .. => true
  | argument, .keywordArgument .. => true
  | argument, kind => kind.bindsAt .assignment
  | entry, .hashEntry .. => true
  | key, .identifier _ | key, .string _ => true
  | name, .identifier _ => true
  | string, .string _ => true
  | expression least, kind => kind.bindsAt least
  | _, _ => false

end Category

/-- What stands at one place of a production. -/
inductive Part where
  /-- A token of one kind. -/
  | token (kind : TokenKind Name)
  /-- An identifier with a given text. -/
  | identifier (text : String)
  /-- A token that is an infix operator. -/
  | operator (op : InfixOp)
  /-- A token that is a unary operator. -/
  | sign (op : UnaryOp)
  /-- A comma after the last item of a list, or nothing. -/
  | trailingComma
  /-- A string literal with a value. -/
  | string (value : Name)
  /-- A type name. -/
  | type (reference : TypeReference) (isNilable : Bool)
  /-- Names that are written in a comment, not as tokens. -/
  | comment (names : NameRange)
  /-- Tokens that were skipped after an error. -/
  | skipped
  /-- A child. -/
  | node (category : Category) (id : NodeId)
  /-- Children one after another. -/
  | nodes (category : Category) (range : NodeRange)
  /-- Children with a token between them. -/
  | separated (category : Category) (separator : TokenKind Name) (range : NodeRange)
  /-- Children with commas between them and possibly after the last. -/
  | listed (category : Category) (range : NodeRange)
  /-- Identifiers with commas between them. -/
  | nameList (range : NameRange)
  deriving DecidableEq, Repr

namespace Part

/-- A keyword, an operator or a punctuation mark. -/
def word (tag : Tag) (spelled : tag.spelling?.isSome = true := by exact .refl true) : Part :=
  .token (.fixed tag spelled)

/-- A child that may be absent. -/
def possible (category : Category) (id : Option NodeId) : List Part :=
  id.toList.map (.node category)

/-- A child after a token, both or neither. -/
def introduced (lead : Part) (category : Category) (id : Option NodeId) : List Part :=
  id.toList.flatMap fun id => [lead, .node category id]

/-- The statements of a body, and what was skipped after them. -/
def body (statements : NodeRange) : List Part := [.nodes .statement statements, .skipped]

/-- An expression of any power. -/
def anyExpression (id : NodeId) : Part := .node (.expression .assignment) id

/-- Items with a separator between them. -/
def joined (separator : Part) (items : List Part) : List Part := items.intersperse separator

/-- Items with commas between them and possibly after the last. -/
def commaList (items : List Part) : List Part :=
  if items.isEmpty then [] else joined (.word .comma) items ++ [.trailingComma]

/-- The parts that a part with a range stands for. -/
def expand? (arena : Arena) : Part → Option (List Part)
  | nodes category range => some ((arena.list range).map (.node category))
  | separated category separator range =>
    some (joined (.token separator) ((arena.list range).map (.node category)))
  | listed category range => some (commaList ((arena.list range).map (.node category)))
  | nameList range =>
    some (joined (.word .comma) ((arena.nameList range).map fun name => .token (.identifier name)))
  | _ => none

/-- The children at a place. -/
def children (arena : Arena) : Part → List NodeId
  | node _ id => [id]
  | nodes _ range | separated _ _ range | listed _ range => arena.list range
  | _ => []

end Part

namespace NodeKind

open Vibescript.Part in
/-- The parts of a node, from left to right. -/
def production : NodeKind → List Part
  | program statements => body statements
  | method isPrivate name inputs returnType statements =>
    (if isPrivate then [word .kwPrivate] else []) ++ [word .kwDef] ++
      (if name.isSingleton then [word .kwSelf, word .dot] else []) ++
      [token (.identifier name.name)] ++ possible .parameterList inputs ++
      introduced (word .arrow) .typeUnion returnType ++ body statements ++ [word .kwEnd]
  | exportMethod inner => [word .kwExport, node .method inner]
  | parameters items => [word .leftParen, listed .parameter items, word .rightParen]
  | simpleParameter name default =>
    token (.identifier name) :: introduced (word .assign) (.expression .assignment) default
  | typedParameter name union default =>
    [token (.identifier name), word .colon, node .typeUnion union] ++
      introduced (word .assign) (.expression .assignment) default
  | variableParameter name union =>
    token (.instanceVariable name) :: introduced (word .colon) .typeUnion union
  | typeUnion types => [separated .typeName (.fixed .bar) types]
  | typeName reference isNilable => [type reference isNilable]
  | classDeclaration name members =>
    [word .kwClass, token (.constant name), nodes .member members, skipped, word .kwEnd]
  | accessorDeclaration kind names => [Part.identifier kind.keyword, nameList names]
  | classVariableAssignment name value =>
    [token (.classVariable name), word .assign, anyExpression value]
  | ifStatement condition statements elsifs otherwise =>
    [word .kwIf, anyExpression condition] ++ body statements ++ [nodes .elsifClause elsifs] ++
      possible .elseClause otherwise ++ [word .kwEnd]
  | elsifClause condition statements =>
    [word .kwElsif, anyExpression condition] ++ body statements
  | elseClause statements => word .kwElse :: body statements
  | unlessStatement condition statements otherwise =>
    [word .kwUnless, anyExpression condition] ++ body statements ++
      possible .elseClause otherwise ++ [word .kwEnd]
  | caseStatement subject whens otherwise =>
    [word .kwCase, anyExpression subject, nodes .whenClause whens] ++
      possible .elseClause otherwise ++ [word .kwEnd]
  | whenClause patterns statements =>
    [word .kwWhen, separated (.expression .assignment) (.fixed .comma) patterns] ++
      body statements
  | whileLoop condition statements =>
    [word .kwWhile, anyExpression condition] ++ body statements ++ [word .kwEnd]
  | untilLoop condition statements =>
    [word .kwUntil, anyExpression condition] ++ body statements ++ [word .kwEnd]
  | forLoop target iterable statements =>
    [word .kwFor, node .name target, word .kwIn, anyExpression iterable] ++ body statements ++
      [word .kwEnd]
  | beginBlock statements rescues ensure =>
    word .kwBegin :: body statements ++ [nodes .rescueClause rescues] ++
      possible .ensureClause ensure ++ [word .kwEnd]
  | rescueClause filter statements =>
    word .kwRescue ::
      (filter.toList.flatMap fun name =>
        [word .leftParen, token (.constant name), word .rightParen]) ++
      body statements
  | ensureClause statements => word .kwEnsure :: body statements
  | returnJump value => word .kwReturn :: possible (.expression .assignment) value
  | breakJump => [word .kwBreak]
  | nextJump => [word .kwNext]
  | raiseJump value =>
    [word .kwRaise, word .leftParen, anyExpression value, word .rightParen]
  | yieldJump arguments =>
    word .kwYield ::
      (arguments.toList.flatMap fun range =>
        [word .leftParen, listed .argument range, word .rightParen])
  | requireImport target path asName =>
    [node .name target, word .assign, Part.identifier "require", word .leftParen,
        node .string path] ++
      (asName.toList.flatMap fun id =>
        [word .comma, Part.identifier "as", word .colon, node .string id]) ++
      [word .rightParen]
  | versionDirective major minor => [token (.versionDirective major minor)]
  | usesDirective names => [token .usesDirective, comment names]
  | assignment target value =>
    [node (.expression .or) target, operator .assign, anyExpression value]
  | compoundAssignment op target value =>
    [node (.expression .or) target, operator (.compound op), anyExpression value]
  | binary op left right =>
    [node (.expression op.power) left, operator (.binary op),
      node (.expression op.power.tighter) right]
  | unary op operand => [sign op, node (.expression .unary) operand]
  | call receiver callee arguments doBlock =>
    (receiver.toList.flatMap fun id => [node (.expression .postfixed) id, word .dot]) ++
      [token (.identifier callee), word .leftParen, listed .argument arguments,
        word .rightParen] ++
      possible .block doBlock
  | memberAccess receiver member doBlock =>
    [node (.expression .postfixed) receiver, word .dot, token (.identifier member)] ++
      possible .block doBlock
  | subscript receiver index =>
    [node (.expression .postfixed) receiver, word .leftBracket, anyExpression index,
      word .rightBracket]
  | block inputs statements =>
    word .kwDo ::
      (if inputs.size = 0 then [nameList inputs]
      else [word .bar, nameList inputs, word .bar]) ++
      body statements ++ [word .kwEnd]
  | keywordArgument key value => [node .name key, word .colon, anyExpression value]
  | identifier name => [token (.identifier name)]
  | constant name => [token (.constant name)]
  | integer value => [token (.integer value)]
  | float value => [token (.float value)]
  | string value => [Part.string value]
  | symbol name => [token (.symbol name)]
  | trueLiteral => [word .kwTrue]
  | falseLiteral => [word .kwFalse]
  | nilLiteral => [word .kwNil]
  | selfReference => [word .kwSelf]
  | instanceVariable name => [token (.instanceVariable name)]
  | classVariable name => [token (.classVariable name)]
  | array elements =>
    [word .leftBracket, listed (.expression .assignment) elements, word .rightBracket]
  | hash entries => [word .leftBrace, listed .entry entries, word .rightBrace]
  | hashEntry key value => [node .key key, word .colon, anyExpression value]
  | parenthesized expression => [word .leftParen, anyExpression expression, word .rightParen]
  | error => [skipped]

end NodeKind

end Vibescript
