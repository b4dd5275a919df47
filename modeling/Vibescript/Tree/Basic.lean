import Vibescript.Tree.Arena

/-!
# Syntax trees

The result of a parse: an arena, the names its nodes refer to, and the root.
-/
namespace Vibescript

/-- A syntax tree. -/
structure SyntaxTree where
  /-- The nodes. -/
  arena : Arena
  /-- The texts of names. -/
  names : NameTable
  /-- The node of the whole program. -/
  root : NodeId

namespace SyntaxTree

/-- The kind of a node. -/
def kind (tree : SyntaxTree) (id : NodeId) : NodeKind := tree.arena.kind id

/-- The span of a node. -/
def span (tree : SyntaxTree) (id : NodeId) : Span := tree.arena.span id

/-- The text of a name. -/
def text (tree : SyntaxTree) (name : Name) : String := tree.names.text name

/-- The texts of a list of names. -/
def texts (tree : SyntaxTree) (range : NameRange) : List String :=
  (tree.arena.nameList range).map tree.text

/-- The children of a node in source order. -/
def children (tree : SyntaxTree) (id : NodeId) : List NodeId := tree.arena.children id

/-- The statements of the whole program. -/
def statements (tree : SyntaxTree) : List NodeId :=
  match tree.kind tree.root with
  | .program body => tree.arena.list body
  | _ => []

/-- A node before the nodes below it, children from left to right, down to a depth. -/
def preorderWithin (tree : SyntaxTree) : Nat → NodeId → List NodeId
  | 0, _ => []
  | depth + 1, id => id :: (tree.children id).flatMap (tree.preorderWithin depth)

/-- A node before the nodes below it, children from left to right. No path without a cycle is
longer than the arena. -/
def preorder (tree : SyntaxTree) (id : NodeId) : List NodeId :=
  tree.preorderWithin tree.arena.size id

/-- Number of nodes at or below a node, down to a depth; a node counts once for each path. -/
def weightWithin (tree : SyntaxTree) : Nat → NodeId → Nat
  | 0, _ => 0
  | depth + 1, id => 1 + ((tree.children id).map (tree.weightWithin depth)).foldr (· + ·) 0

/-- Take a node from the top of a stack and put its children there, so many times. -/
def walk (tree : SyntaxTree) : Nat → List NodeId → List NodeId
  | 0, _ => []
  | _ + 1, [] => []
  | steps + 1, id :: stack => id :: tree.walk steps (tree.children id ++ stack)

/-- Every node from the root, a node before the nodes below it. The walk takes one step for
each node. -/
def descendants (tree : SyntaxTree) : List NodeId :=
  tree.walk (tree.weightWithin tree.arena.size tree.root) [tree.root]

/-- Number of error nodes below the root. -/
def errorCount (tree : SyntaxTree) : Nat :=
  tree.descendants.countP fun id => tree.kind id == .error

end SyntaxTree

end Vibescript
