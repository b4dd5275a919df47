import Vibescript.Decimal.Binary64
import Vibescript.NameTable
import Vibescript.Span
import Vibescript.Tree.Operator

/-!
# Nodes of a syntax tree

A node has a kind for each production of the grammar. It does not hold its children: a child
is a number into the pool of nodes, a list of children a range of the pool of lists, and a
list of names a range of the pool of names. `NodeKind.fields` lists the children of any node
under the names of their fields.
-/
namespace Vibescript

/-- The number of a node in its arena. -/
structure NodeId where
  /-- Place of the node. -/
  index : Nat
  deriving DecidableEq, Repr, Inhabited

/-- A run of children in the pool of lists. -/
structure NodeRange where
  /-- Place of the first child. -/
  start : Nat
  /-- Number of children. -/
  size : Nat
  deriving DecidableEq, Repr, Inhabited

/-- No children. -/
def NodeRange.empty : NodeRange := ⟨0, 0⟩

/-- A run of names in the pool of names. -/
structure NameRange where
  /-- Place of the first name. -/
  start : Nat
  /-- Number of names. -/
  size : Nat
  deriving DecidableEq, Repr, Inhabited

/-- No names. -/
def NameRange.empty : NameRange := ⟨0, 0⟩

/-- The name that a method is declared by. -/
structure MethodName where
  /-- Whether the method belongs to the class itself. -/
  isSingleton : Bool
  /-- The name. -/
  name : Name
  deriving DecidableEq, Repr

/-- The three declarations that make accessors. -/
inductive AccessorKind where
  | property | getter | setter
  deriving DecidableEq, Repr

/-- The word that introduces an accessor declaration. -/
def AccessorKind.keyword : AccessorKind → String
  | property => "property"
  | getter => "getter"
  | setter => "setter"

/-- What a type name refers to. -/
inductive TypeReference where
  /-- A type by its name. -/
  | named (name : Name)
  /-- The type of the missing value. -/
  | nil
  deriving DecidableEq, Repr

/-- The child or children in a field. -/
inductive Child where
  /-- One child. -/
  | node (id : NodeId)
  /-- A list of children. -/
  | list (range : NodeRange)
  deriving DecidableEq, Repr

/-- The productions of the grammar. -/
inductive NodeKind where
  /-- A whole source text. -/
  | program (body : NodeRange)
  /-- A method declaration. -/
  | method (isPrivate : Bool) (name : MethodName) (inputs returnType : Option NodeId)
      (body : NodeRange)
  /-- An exported method. -/
  | exportMethod (inner : NodeId)
  /-- A parameter list. -/
  | parameters (items : NodeRange)
  /-- A parameter without a type. -/
  | simpleParameter (name : Name) (default : Option NodeId)
  /-- A parameter with a type. -/
  | typedParameter (name : Name) (type : NodeId) (default : Option NodeId)
  /-- A parameter that sets an instance variable. -/
  | variableParameter (name : Name) (type : Option NodeId)
  /-- Alternative types. -/
  | typeUnion (types : NodeRange)
  /-- One type. -/
  | typeName (reference : TypeReference) (isNilable : Bool)
  /-- A class declaration. -/
  | classDeclaration (name : Name) (members : NodeRange)
  /-- A declaration of accessors. -/
  | accessorDeclaration (kind : AccessorKind) (names : NameRange)
  /-- A class variable with its first value. -/
  | classVariableAssignment (name : Name) (value : NodeId)
  /-- `if` -/
  | ifStatement (condition : NodeId) (body elsifs : NodeRange) (otherwise : Option NodeId)
  /-- `elsif` -/
  | elsifClause (condition : NodeId) (body : NodeRange)
  /-- `else` -/
  | elseClause (body : NodeRange)
  /-- `unless` -/
  | unlessStatement (condition : NodeId) (body : NodeRange) (otherwise : Option NodeId)
  /-- `case` -/
  | caseStatement (subject : NodeId) (whens : NodeRange) (otherwise : Option NodeId)
  /-- `when` -/
  | whenClause (patterns body : NodeRange)
  /-- `while` -/
  | whileLoop (condition : NodeId) (body : NodeRange)
  /-- `until` -/
  | untilLoop (condition : NodeId) (body : NodeRange)
  /-- `for` -/
  | forLoop (target iterable : NodeId) (body : NodeRange)
  /-- `begin` -/
  | beginBlock (body rescues : NodeRange) (ensure : Option NodeId)
  /-- `rescue`, for one type of error or for all -/
  | rescueClause (filter : Option Name) (body : NodeRange)
  /-- `ensure` -/
  | ensureClause (body : NodeRange)
  /-- `return` -/
  | returnJump (value : Option NodeId)
  /-- `break` -/
  | breakJump
  /-- `next` -/
  | nextJump
  /-- `raise` -/
  | raiseJump (value : NodeId)
  /-- `yield`, with an argument list or bare -/
  | yieldJump (arguments : Option NodeRange)
  /-- An import of another file. -/
  | requireImport (target path : NodeId) (asName : Option NodeId)
  /-- A version directive. -/
  | versionDirective (major minor : Nat)
  /-- A uses directive. -/
  | usesDirective (names : NameRange)
  /-- `=` -/
  | assignment (target value : NodeId)
  /-- `+=` and `-=` -/
  | compoundAssignment (op : CompoundOp) (target value : NodeId)
  /-- An operator between two operands. -/
  | binary (op : BinaryOp) (left right : NodeId)
  /-- An operator before one operand. -/
  | unary (op : UnaryOp) (operand : NodeId)
  /-- A call with an argument list. -/
  | call (receiver : Option NodeId) (method : Name) (arguments : NodeRange)
      (doBlock : Option NodeId)
  /-- A member named after a point, without an argument list. -/
  | memberAccess (receiver : NodeId) (member : Name) (doBlock : Option NodeId)
  /-- An element by its index. -/
  | subscript (receiver index : NodeId)
  /-- A block after a call. -/
  | block (parameters : NameRange) (body : NodeRange)
  /-- An argument by its key. -/
  | keywordArgument (key value : NodeId)
  /-- A name in lower case. -/
  | identifier (name : Name)
  /-- A name in upper case. -/
  | constant (name : Name)
  /-- An integer literal. -/
  | integer (value : Nat)
  /-- A float literal. -/
  | float (value : Binary64)
  /-- A string literal, escapes decoded. -/
  | string (value : Name)
  /-- A symbol. -/
  | symbol (name : Name)
  /-- `true` -/
  | trueLiteral
  /-- `false` -/
  | falseLiteral
  /-- `nil` -/
  | nilLiteral
  /-- `self` -/
  | selfReference
  /-- An instance variable. -/
  | instanceVariable (name : Name)
  /-- A class variable. -/
  | classVariable (name : Name)
  /-- An array literal. -/
  | array (elements : NodeRange)
  /-- A hash literal. -/
  | hash (entries : NodeRange)
  /-- An entry of a hash literal. -/
  | hashEntry (key value : NodeId)
  /-- An expression in parentheses. -/
  | parenthesized (expression : NodeId)
  /-- Tokens that recovery skipped. -/
  | error
  deriving DecidableEq, Repr, Inhabited

namespace NodeKind

/-- The name of the production. -/
def name : NodeKind → String
  | program .. => "program"
  | method .. => "method"
  | exportMethod .. => "export_method"
  | parameters .. => "parameters"
  | simpleParameter .. => "simple_parameter"
  | typedParameter .. => "typed_parameter"
  | variableParameter .. => "ivar_parameter"
  | typeUnion .. => "type_annotation"
  | typeName .. => "type_name"
  | classDeclaration .. => "class"
  | accessorDeclaration kind _ => kind.keyword ++ "_declaration"
  | classVariableAssignment .. => "class_variable_assignment"
  | ifStatement .. => "if"
  | elsifClause .. => "elsif"
  | elseClause .. => "else"
  | unlessStatement .. => "unless"
  | caseStatement .. => "case"
  | whenClause .. => "when"
  | whileLoop .. => "while"
  | untilLoop .. => "until"
  | forLoop .. => "for"
  | beginBlock .. => "begin"
  | rescueClause .. => "rescue"
  | ensureClause .. => "ensure"
  | returnJump .. => "return"
  | breakJump => "break"
  | nextJump => "next"
  | raiseJump .. => "raise"
  | yieldJump .. => "yield"
  | requireImport .. => "require"
  | versionDirective .. => "version_directive"
  | usesDirective .. => "uses_directive"
  | assignment .. => "assignment"
  | compoundAssignment .. => "compound_assignment"
  | binary .. => "binary"
  | unary .. => "unary"
  | call .. => "call"
  | memberAccess .. => "member_access"
  | subscript .. => "subscript"
  | block .. => "block"
  | keywordArgument .. => "keyword_argument"
  | identifier .. => "identifier"
  | constant .. => "constant"
  | integer .. => "integer"
  | float .. => "float"
  | string .. => "string"
  | symbol .. => "symbol"
  | trueLiteral => "true"
  | falseLiteral => "false"
  | nilLiteral => "nil"
  | selfReference => "self"
  | instanceVariable .. => "instance_variable"
  | classVariable .. => "class_variable"
  | array .. => "array"
  | hash .. => "hash"
  | hashEntry .. => "hash_entry"
  | parenthesized .. => "parenthesized"
  | error => "error"

/-- A field with one child. -/
def one (field : String) (id : NodeId) : List (String × Child) := [(field, .node id)]

/-- A field with a list of children. -/
def many (field : String) (range : NodeRange) : List (String × Child) := [(field, .list range)]

/-- A field with a child that may be absent; then there is no field. -/
def optional (field : String) (id : Option NodeId) : List (String × Child) :=
  id.toList.map fun id => (field, .node id)

/-- The children of a node under the names of their fields, in source order. -/
def fields : NodeKind → List (String × Child)
  | program body => many "body" body
  | method _ _ inputs returnType body =>
    optional "parameters" inputs ++ optional "return_type" returnType ++ many "body" body
  | exportMethod inner => one "method" inner
  | parameters items => many "params" items
  | simpleParameter _ default => optional "default" default
  | typedParameter _ type default => one "type" type ++ optional "default" default
  | variableParameter _ type => optional "type" type
  | typeUnion types => many "types" types
  | classDeclaration _ members => many "members" members
  | classVariableAssignment _ value => one "value" value
  | ifStatement condition body elsifs otherwise =>
    one "condition" condition ++ many "body" body ++ many "elsifs" elsifs ++
      optional "else" otherwise
  | elsifClause condition body | whileLoop condition body | untilLoop condition body =>
    one "condition" condition ++ many "body" body
  | elseClause body | ensureClause body | rescueClause _ body => many "body" body
  | unlessStatement condition body otherwise =>
    one "condition" condition ++ many "body" body ++ optional "else" otherwise
  | caseStatement subject whens otherwise =>
    one "subject" subject ++ many "whens" whens ++ optional "else" otherwise
  | whenClause patterns body => many "patterns" patterns ++ many "body" body
  | forLoop target iterable body =>
    one "variable" target ++ one "iterable" iterable ++ many "body" body
  | beginBlock body rescues ensure =>
    many "body" body ++ many "rescues" rescues ++ optional "ensure" ensure
  | returnJump value => optional "value" value
  | raiseJump value => one "value" value
  | yieldJump arguments => arguments.toList.flatMap (many "arguments")
  | requireImport target path asName =>
    one "variable" target ++ one "path" path ++ optional "alias" asName
  | assignment target value | compoundAssignment _ target value =>
    one "target" target ++ one "value" value
  | binary _ left right => one "left" left ++ one "right" right
  | unary _ operand => one "operand" operand
  | call receiver _ arguments doBlock =>
    optional "receiver" receiver ++ many "arguments" arguments ++ optional "block" doBlock
  | memberAccess receiver _ doBlock => one "receiver" receiver ++ optional "block" doBlock
  | subscript receiver index => one "receiver" receiver ++ one "index" index
  | block _ body => many "body" body
  | keywordArgument key value | hashEntry key value => one "key" key ++ one "value" value
  | array elements => many "elements" elements
  | hash entries => many "entries" entries
  | parenthesized expression => one "expression" expression
  | typeName .. | accessorDeclaration .. | breakJump | nextJump | versionDirective ..
  | usesDirective .. | identifier _ | constant _ | integer _ | float _ | string _ | symbol _
  | trueLiteral | falseLiteral | nilLiteral | selfReference | instanceVariable _
  | classVariable _ | error => []

end NodeKind

end Vibescript
