import Vibescript.Tree.Node

/-!
# Node arenas

An arena owns the nodes of one tree in three pools: nodes, lists of children, and lists of
names. Pools only grow, except that a failed construct is taken back by returning to a mark
made before it.
-/
namespace Vibescript

/-- A kind with the span of every token it covers. -/
structure Node where
  /-- The production. -/
  kind : NodeKind
  /-- The source text it covers. -/
  span : Span
  deriving DecidableEq, Repr, Inhabited

/-- The pools of one tree. -/
structure Arena where
  /-- The nodes; a node's number is its place. -/
  nodes : Array Node
  /-- The lists of children, one after another. -/
  lists : Array NodeId
  /-- The lists of names, one after another. -/
  names : Array Name
  deriving DecidableEq, Repr

/-- The sizes of the pools at one moment. -/
structure ArenaMark where
  /-- Number of nodes. -/
  nodes : Nat
  /-- Size of the pool of lists. -/
  lists : Nat
  /-- Size of the pool of names. -/
  names : Nat
  deriving DecidableEq, Repr

namespace Arena

/-- No nodes. -/
def empty : Arena := ⟨#[], #[], #[]⟩

/-- Number of nodes. -/
def size (arena : Arena) : Nat := arena.nodes.size

/-- Whether there are no nodes. -/
def isEmpty (arena : Arena) : Bool := arena.nodes.isEmpty

/-- Add a node. -/
def add (arena : Arena) (kind : NodeKind) (span : Span) : NodeId × Arena :=
  (⟨arena.nodes.size⟩, { arena with nodes := arena.nodes.push ⟨kind, span⟩ })

/-- Add a list of children. The empty list takes no place. -/
def addList (arena : Arena) (ids : List NodeId) : NodeRange × Arena :=
  if ids.isEmpty then (.empty, arena)
  else (⟨arena.lists.size, ids.length⟩, { arena with lists := arena.lists ++ ids.toArray })

/-- Add a list of names. The empty list takes no place. -/
def addNames (arena : Arena) (names : List Name) : NameRange × Arena :=
  if names.isEmpty then (.empty, arena)
  else (⟨arena.names.size, names.length⟩, { arena with names := arena.names ++ names.toArray })

/-- The node with a number. -/
def node? (arena : Arena) (id : NodeId) : Option Node := arena.nodes[id.index]?

/-- The kind of a node; an unknown number stands for an error. -/
def kind (arena : Arena) (id : NodeId) : NodeKind :=
  ((arena.node? id).map (·.kind)).getD .error

/-- The span of a node; an unknown number has the span at offset zero. -/
def span (arena : Arena) (id : NodeId) : Span :=
  ((arena.node? id).map (·.span)).getD (.point 0)

/-- The children of a range. -/
def list (arena : Arena) (range : NodeRange) : List NodeId :=
  (arena.lists.extract range.start (range.start + range.size)).toList

/-- The names of a range. -/
def nameList (arena : Arena) (range : NameRange) : List Name :=
  (arena.names.extract range.start (range.start + range.size)).toList

/-- The children of a node in source order. -/
def children (arena : Arena) (id : NodeId) : List NodeId :=
  (arena.kind id).fields.flatMap fun (_, child) =>
    match child with
    | .node child => [child]
    | .list range => arena.list range

/-- The present sizes of the pools. -/
def mark (arena : Arena) : ArenaMark :=
  ⟨arena.nodes.size, arena.lists.size, arena.names.size⟩

/-- Take back everything that was added since a mark. -/
def truncate (arena : Arena) (mark : ArenaMark) : Arena :=
  ⟨arena.nodes.take mark.nodes, arena.lists.take mark.lists, arena.names.take mark.names⟩

/-- A node is found under the number that adding it gave. -/
@[simp] theorem node?_add (arena : Arena) (kind : NodeKind) (span : Span) :
    (arena.add kind span).2.node? (arena.add kind span).1 = some ⟨kind, span⟩ := by
  simp [add, node?]

/-- Adding a node keeps the nodes before it. -/
theorem node?_add_of_lt (arena : Arena) (kind : NodeKind) (span : Span) {id : NodeId}
    (known : id.index < arena.size) : (arena.add kind span).2.node? id = arena.node? id := by
  simp only [size] at known
  simp [add, node?, Array.getElem?_push, Nat.ne_of_lt known]

/-- A list of children is found under the range that adding it gave. -/
@[simp] theorem list_addList (arena : Arena) (ids : List NodeId) :
    (arena.addList ids).2.list (arena.addList ids).1 = ids := by
  cases ids <;> simp [addList, list, NodeRange.empty]

/-- A list of names is found under the range that adding it gave. -/
@[simp] theorem nameList_addNames (arena : Arena) (names : List Name) :
    (arena.addNames names).2.nameList (arena.addNames names).1 = names := by
  cases names <;> simp [addNames, nameList, NameRange.empty]

/-- Truncating at the present mark changes nothing. -/
@[simp] theorem truncate_mark (arena : Arena) : arena.truncate arena.mark = arena := by
  simp [truncate, mark, Array.take]

end Arena

end Vibescript
