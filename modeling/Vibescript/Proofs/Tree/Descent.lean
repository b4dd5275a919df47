import Vibescript.Proofs.Tree.Whole

/-!
# The walk from the root

The walk over a tree takes the nodes from a stack. Where children have smaller numbers than their
parents, it meets the nodes in preorder, and it ends with the last of them. So in a whole tree it
counts each node of the arena once.
-/
namespace Vibescript

namespace SyntaxTree

variable {tree : SyntaxTree}

/-- Children have smaller numbers than their parents, and lists lie in their pools. Nodes may share
children, and no other node need lead to a node. -/
structure IsOrdered (tree : SyntaxTree) : Prop where
  /-- The root is a node. -/
  root : tree.root ∈ tree.arena.ids
  /-- A child has a smaller number than its parent. -/
  descends : ∀ id ∈ tree.arena.ids, ∀ child ∈ tree.children id, child.index < id.index
  /-- Lists of children lie in their pool. -/
  ranges : ∀ id ∈ tree.arena.ids, ∀ range ∈ (tree.kind id).ranges, tree.arena.Contains range
  /-- Lists of names lie in their pool. -/
  nameRanges : ∀ id ∈ tree.arena.ids, ∀ range ∈ (tree.kind id).nameRange?,
    tree.arena.ContainsNames range

/-- A whole tree is ordered. -/
theorem IsWhole.isOrdered (whole : tree.IsWhole) : tree.IsOrdered where
  root := Arena.mem_ids.mpr (whole.root ▸ Nat.lt_succ_self _)
  descends := whole.descends
  ranges id member := (whole.stores id member).ranges
  nameRanges id member range held := ((whole.stores id member).nameRange range held).1

/-- A child of a node is a node of the tree. -/
theorem IsOrdered.child_mem (ordered : tree.IsOrdered) {id child : NodeId}
    (member : id ∈ tree.arena.ids) (isChild : child ∈ tree.children id) :
    child ∈ tree.arena.ids := by
  have less := ordered.descends id member child isChild
  have inside := Arena.mem_ids.mp member
  exact Arena.mem_ids.mpr (by omega)

/-- A node weighs as much as the nodes at or below it. -/
theorem weightWithin_eq (tree : SyntaxTree) (depth : Nat) (id : NodeId) :
    tree.weightWithin depth id = (tree.preorderWithin depth id).length := by
  induction depth generalizing id with
  | zero => rfl
  | succ depth ih =>
    rw [weightWithin, preorderWithin, List.length_cons, List.length_flatMap,
      List.map_congr_left fun child _ => ih child]
    exact Nat.add_comm _ _

/-- The walk meets the nodes at and below those on top of its stack, and then the others. -/
theorem walk_append (ordered : tree.IsOrdered) (depth : Nat) (inside : depth ≤ tree.arena.size)
    {stack : List NodeId} (deep : ∀ id ∈ stack, id.index < depth) (rest : List NodeId)
    (steps : Nat) :
    tree.walk ((stack.flatMap (tree.preorderWithin depth)).length + steps) (stack ++ rest) =
      stack.flatMap (tree.preorderWithin depth) ++ tree.walk steps rest := by
  induction depth generalizing stack rest steps with
  | zero =>
    cases stack with
    | nil => simp
    | cons id stack => exact absurd (deep id List.mem_cons_self) (Nat.not_lt_zero _)
  | succ depth ihDepth =>
    induction stack with
    | nil => simp
    | cons id stack ihStack =>
      obtain ⟨own, others⟩ := List.forall_mem_cons.mp deep
      have below : ∀ child ∈ tree.children id, child.index < depth := fun child isChild => by
        have := ordered.descends id (Arena.mem_ids.mpr (by omega)) child isChild
        omega
      have inner := ihDepth (by omega) below (stack ++ rest)
        ((stack.flatMap (tree.preorderWithin (depth + 1))).length + steps)
      have count : ((id :: stack).flatMap (tree.preorderWithin (depth + 1))).length + steps =
          ((tree.children id).flatMap (tree.preorderWithin depth)).length +
            ((stack.flatMap (tree.preorderWithin (depth + 1))).length + steps) + 1 := by
        rw [List.flatMap_cons, preorderWithin, List.length_append, List.length_cons]
        omega
      rw [count, List.cons_append, walk, inner, ihStack others, List.flatMap_cons, preorderWithin]
      simp only [List.cons_append, List.append_assoc]

/-- The walk from the root is the preorder, however many steps more it is given. -/
theorem walk_root (ordered : tree.IsOrdered) (more : Nat) :
    tree.walk (tree.weightWithin tree.arena.size tree.root + more) [tree.root] =
      tree.preorder tree.root := by
  have root : ∀ id ∈ [tree.root], id.index < tree.arena.size :=
    List.forall_mem_singleton.mpr (Arena.mem_ids.mp ordered.root)
  have walked := walk_append ordered tree.arena.size (Nat.le_refl _) root [] more
  have rest : tree.walk more [] = [] := by cases more <;> rfl
  rwa [List.flatMap_singleton, List.append_nil, ← weightWithin_eq, rest, List.append_nil] at walked

/-- The walk from the root is the preorder. -/
theorem descendants_eq (ordered : tree.IsOrdered) : tree.descendants = tree.preorder tree.root :=
  walk_root ordered 0

/-- Every node of a whole tree is met by the walk from its root, once. -/
theorem descendants_perm (whole : tree.IsWhole) : tree.descendants.Perm tree.arena.ids := by
  rw [descendants_eq whole.isOrdered]
  exact whole.reached

end SyntaxTree

/-- The kinds of the numbers of an arena are those of its nodes. -/
theorem Arena.map_kind_ids (arena : Arena) :
    arena.ids.map arena.kind = arena.nodes.toList.map Node.kind := by
  refine List.ext_getElem (by simp [ids, idsFrom, size]) fun place _ inside => ?_
  have bound : place < arena.nodes.size := by simpa using inside
  simp [ids, idsFrom, kind, node?, bound]

/-- The error nodes of a whole tree are those of its arena. -/
theorem SyntaxTree.errorCount_eq {tree : SyntaxTree} (whole : tree.IsWhole) :
    tree.errorCount = tree.arena.errorNodes := by
  rw [errorCount, (descendants_perm whole).countP_eq, Arena.errorNodes]
  have kinds := congrArg (List.countP (· == NodeKind.error)) tree.arena.map_kind_ids
  rwa [List.countP_map, List.countP_map] at kinds

end Vibescript
