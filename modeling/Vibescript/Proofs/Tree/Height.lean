import Mathlib.Data.List.Chain
import Vibescript.Proofs.Tree.Precedence

/-!
# The height of a tree

Operators of one power lean to the left, and so do calls, members and subscripts: the tree of a chain
is as high as the chain is long, although nothing in it is nested. What nesting bounds is the length
of a path on which the operands that a chain goes on from are not counted. `Arena.Shallow` bounds
this length for all paths down from a node; it bears on the operands that stand first in their nodes,
among which are the targets of assignments.
-/
namespace Vibescript

namespace NodeKind

/-- What a chain goes on from: the left operand of a binary operator, or what a call, a member or a
subscript is applied to. -/
def chained? : NodeKind → Option NodeId
  | binary _ left _ => some left
  | kind => kind.receiver?

/-- The operand with which a node starts: what a chain goes on from, or the target of an
assignment. -/
def first? (kind : NodeKind) : Option NodeId := kind.chained?.or kind.target?

variable {kind : NodeKind} {child : NodeId}

/-- What a chain goes on from stands first. -/
theorem first?_of_chained? (isChained : kind.chained? = some child) : kind.first? = some child := by
  rw [first?, isChained, Option.some_or]

/-- A target is that of an assignment, and stands first. -/
theorem first?_of_target? (isTarget : kind.target? = some child) :
    kind.isAssignment = true ∧ kind.first? = some child := by
  cases kind <;> simp_all [target?, isAssignment, first?, chained?, receiver?]

end NodeKind

namespace SyntaxTree

/-- A path leads from the root from node to child. -/
structure IsPath (tree : SyntaxTree) (path : List NodeId) : Prop where
  /-- It starts at the root. -/
  root : path.head? = some tree.root
  /-- Every other node is a child of the one before it. -/
  descends : path.IsChain fun parent child => child ∈ tree.children parent

instance (tree : SyntaxTree) (path : List NodeId) : Decidable (tree.IsPath path) :=
  decidable_of_iff
    (path.head? = some tree.root ∧ path.IsChain fun parent child => child ∈ tree.children parent)
    ⟨fun both => ⟨both.1, both.2⟩, fun isPath => ⟨isPath.root, isPath.descends⟩⟩

/-- Number of nodes on a path, those not counted that are a certain operand of the node before
them. -/
def measure (tree : SyntaxTree) (operand? : NodeKind → Option NodeId) : List NodeId → Nat
  | [] => 0
  | [_] => 1
  | parent :: child :: rest =>
    tree.measure operand? (child :: rest) +
      if operand? (tree.kind parent) = some child then 0 else 1

variable {tree : SyntaxTree}

/-- On a path the targets of assignments are no more than the nodes that do not stand first: an
assignment never stands first itself. -/
theorem measure_chained?_le (respects : tree.RespectsPrecedence) (id : NodeId)
    (path : List NodeId) :
    tree.measure NodeKind.chained? (id :: path) +
        (if (tree.kind id).isAssignment = true then 0 else 1) ≤
      2 * tree.measure NodeKind.first? (id :: path) := by
  induction path generalizing id with
  | nil =>
    simp only [measure]
    split <;> omega
  | cons child rest ih =>
    have below := ih child
    simp only [measure]
    by_cases isChained : (tree.kind id).chained? = some child
    · have plain : (tree.kind child).isAssignment = false := by
        cases same : tree.kind id <;> rw [same] at isChained
        case binary op left right =>
          obtain rfl := Option.some.inj isChained
          exact (respects.left id op _ right same).1
        all_goals exact (respects.receiver id child (by rw [same]; exact isChained)).1
      rw [plain, if_neg Bool.false_ne_true] at below
      rw [if_pos isChained, if_pos (NodeKind.first?_of_chained? isChained)]
      split <;> omega
    by_cases isTarget : (tree.kind id).target? = some child
    · have plain := respects.target id child isTarget
      obtain ⟨assigns, isFirst⟩ := NodeKind.first?_of_target? isTarget
      rw [plain, if_neg Bool.false_ne_true] at below
      rw [if_neg isChained, if_pos isFirst, if_pos assigns]
      omega
    · have notFirst : (tree.kind id).first? ≠ some child := by
        rw [NodeKind.first?, Ne, Option.or_eq_some_iff]
        rintro (same | ⟨-, same⟩)
        · exact isChained same
        · exact isTarget same
      rw [if_neg isChained, if_neg notFirst]
      split <;> omega

end SyntaxTree

/-- The list of a field lies in its pool. -/
def Child.Inside (arena : Arena) : Child → Prop
  | node _ => True
  | list range => arena.Contains range

/-- The children in a field stay while the arena grows. -/
theorem Child.ids_of_grows {before after : Arena} (grows : before.Grows after) {child : Child}
    (inside : child.Inside before) : child.ids after = child.ids before := by
  cases child with
  | node id => rfl
  | list range => exact grows.list inside

namespace Arena

/-- Every path down from a node has so many nodes at most, when operands that stand first in the node
before them are not counted. -/
inductive Shallow (arena : Arena) : Nat → NodeId → Prop
  /-- The first operand is as shallow as the node, the other children are shallower. -/
  | node {height : Nat} {id : NodeId} {kind : NodeKind} {span : Span}
      (found : arena.node? id = some ⟨kind, span⟩)
      (inside : ∀ field ∈ kind.fields, field.2.Inside arena)
      (first : ∀ child ∈ kind.first?, Shallow arena (height + 1) child)
      (others : ∀ child ∈ kind.children arena, kind.first? ≠ some child →
        Shallow arena height child) :
      Shallow arena (height + 1) id

/-- The children in a field are in the arena, and every path down from one of them has so many nodes
at most. -/
def Keeps (arena : Arena) (height : Nat) (child : Child) : Prop :=
  child.Inside arena ∧ ∀ id ∈ child.ids arena, arena.Shallow height id

variable {arena before after : Arena} {height more : Nat} {id : NodeId} {child : Child}

/-- More nodes are admitted. -/
theorem Shallow.le (shallow : arena.Shallow height id) (le : height ≤ more) :
    arena.Shallow more id := by
  induction shallow generalizing more with
  | node found inside _ _ first others =>
    obtain ⟨room, rfl⟩ := Nat.exists_eq_add_of_lt (Nat.lt_of_succ_le le)
    exact .node found inside (fun child isFirst => first child isFirst (by omega))
      fun child member other => others child member other (by omega)

/-- The paths down from a node stay while the arena grows. -/
theorem Shallow.mono (shallow : before.Shallow height id) (grows : before.Grows after) :
    after.Shallow height id := by
  induction shallow with
  | @node _ _ kind _ found inside _ _ first others =>
    have same : kind.children after = kind.children before :=
      List.flatMap_congr fun field member => Child.ids_of_grows grows (inside field member)
    refine .node (grows.node? found) (fun field member => ?_) first fun child member => ?_
    · have isInside := inside field member
      generalize field.2 = child at isInside
      cases child with
      | node id => trivial
      | list range => exact grows.contains isInside
    · rw [same] at member
      exact others child member

@[simp] theorem keeps_node : arena.Keeps height (.node id) ↔ arena.Shallow height id := by
  simp [Keeps, Child.Inside, Child.ids]

theorem Keeps.le (keeps : arena.Keeps height child) (le : height ≤ more) :
    arena.Keeps more child :=
  ⟨keeps.1, fun id member => (keeps.2 id member).le le⟩

theorem Keeps.mono (keeps : before.Keeps height child) (grows : before.Grows after) :
    after.Keeps height child := by
  refine ⟨?_, fun id member => ?_⟩
  · cases child with
    | node id => trivial
    | list range => exact grows.contains keeps.1
  · rw [Child.ids_of_grows grows keeps.1] at member
    exact (keeps.2 id member).mono grows

/-- A node is added above its children. -/
theorem shallow_add {kind : NodeKind} (span : Span)
    (first : ∀ child ∈ kind.first?, arena.Shallow (height + 1) child)
    (others : ∀ field ∈ kind.fields, (∀ child ∈ kind.first?, field.2 ≠ .node child) →
      arena.Keeps height field.2) :
    (arena.add kind span).2.Shallow (height + 1) (arena.add kind span).1 := by
  have grows := arena.grows_add kind span
  have keeps (field : String × Child) (member : field ∈ kind.fields) :
      (arena.add kind span).2.Keeps (height + 1) field.2 ∧
        ((∀ child ∈ kind.first?, field.2 ≠ .node child) →
          (arena.add kind span).2.Keeps height field.2) := by
    by_cases other : ∀ child ∈ kind.first?, field.2 ≠ .node child
    · have kept := (others field member other).mono grows
      exact ⟨kept.le (Nat.le_succ _), fun _ => kept⟩
    · refine ⟨?_, fun another => absurd another other⟩
      obtain ⟨child, isFirst, same⟩ : ∃ child ∈ kind.first?, field.2 = .node child := by
        simpa using other
      rw [same, keeps_node]
      exact (first child isFirst).mono grows
  refine .node (arena.node?_add kind span) (fun field member => (keeps field member).1.1)
    (fun child isFirst => (first child isFirst).mono grows) fun child member other => ?_
  obtain ⟨field, isField, among⟩ := List.mem_flatMap.mp member
  refine ((keeps field isField).2 fun lead isFirst same => ?_).2 child among
  rw [same, Child.ids, List.mem_singleton] at among
  exact other (among ▸ isFirst)

end Arena

/-- Paths down from a shallow node are short. -/
theorem Arena.Shallow.measure_le {tree : SyntaxTree} {height : Nat} {id : NodeId}
    (shallow : tree.arena.Shallow height id) {path : List NodeId}
    (descends : (id :: path).IsChain fun parent child => child ∈ tree.children parent) :
    tree.measure NodeKind.first? (id :: path) ≤ height := by
  induction path generalizing height id with
  | nil =>
    obtain @⟨height, _, _, _, _, _, _, _⟩ := shallow
    exact Nat.succ_le_succ (Nat.zero_le height)
  | cons child rest ih =>
    obtain ⟨isChild, further⟩ := List.isChain_cons_cons.mp descends
    obtain @⟨height, _, kind, _, found, _, first, others⟩ := shallow
    have same : tree.kind id = kind := Arena.kind_of_node? found
    rw [SyntaxTree.children, Arena.children_of_node? found] at isChild
    rw [SyntaxTree.measure, same]
    split
    · next isFirst => exact ih (first child isFirst) further
    · next other => exact Nat.succ_le_succ (ih (others child isChild other) further)

end Vibescript
