import Vibescript.Decimal.Layout
import Vibescript.Text.Quoted
import Vibescript.Tree.Basic

/-!
# S-expressions of syntax trees

A node is shown as its production, what it holds besides children, and its fields:

    (binary + left: (identifier x) right: (integer 1))

Lists of children stand between brackets. Empty lists and absent children are left out. The
statements of a program follow each other without a field name.
-/
namespace Vibescript.SyntaxTree

/-- What a node holds besides its children, as words. -/
def attributes (tree : SyntaxTree) : NodeKind → List String
  | .method isPrivate name .. =>
    (if isPrivate then ["private"] else []) ++
      [(if name.isSingleton then "self." else "") ++ tree.text name.name]
  | .simpleParameter name _ | .typedParameter name .. | .classDeclaration name _
  | .identifier name | .constant name | .call _ name _ _ | .memberAccess _ name _ =>
    [tree.text name]
  | .variableParameter name _ | .instanceVariable name => ["@" ++ tree.text name]
  | .classVariableAssignment name _ | .classVariable name => ["@@" ++ tree.text name]
  | .symbol name => [":" ++ tree.text name]
  | .string value => [Text.quote (tree.text value)]
  | .integer value => [toString value]
  | .float value => [value.text]
  | .typeName reference isNilable =>
    let text :=
      match reference with
      | .named name => tree.text name
      | .nil => "nil"
    [text ++ (if isNilable then "?" else "")]
  | .accessorDeclaration _ names | .usesDirective names => tree.texts names
  | .block parameters _ =>
    if parameters.size = 0 then []
    else ["|" ++ String.intercalate " " (tree.texts parameters) ++ "|"]
  | .rescueClause (some filter) _ => [tree.text filter]
  | .versionDirective major minor => [s!"{major}.{minor}"]
  | .binary op _ _ => [op.symbol]
  | .unary op _ => [op.symbol]
  | .compoundAssignment op _ _ => [op.symbol]
  | _ => []

/-- A field with the children already shown; nothing for an empty list. -/
def fieldText (render : NodeId → String) (tree : SyntaxTree) (field : String) : Child → String
  | .node id => s!" {field}: " ++ render id
  | .list range =>
    match (tree.arena.list range).map render with
    | [] => ""
    | items => s!" {field}: [" ++ String.intercalate " " items ++ "]"

/-- The S-expression of a node, down to a depth. -/
def sexpWithin (tree : SyntaxTree) : Nat → NodeId → String
  | 0, _ => ""
  | depth + 1, id =>
    let kind := tree.kind id
    let fields :=
      match kind with
      | .program body =>
        (tree.arena.list body).map fun statement => " " ++ tree.sexpWithin depth statement
      | _ => kind.fields.map fun (field, child) =>
        fieldText (tree.sexpWithin depth) tree field child
    "(" ++ kind.name ++ String.join ((tree.attributes kind).map (" " ++ ·)) ++
      String.join fields ++ ")"

/-- The S-expression of a node. No path without a cycle is longer than the arena. -/
def sexpOf (tree : SyntaxTree) (id : NodeId) : String := tree.sexpWithin tree.arena.size id

/-- The S-expression of the whole tree. -/
def toSexp (tree : SyntaxTree) : String := tree.sexpOf tree.root

end Vibescript.SyntaxTree
