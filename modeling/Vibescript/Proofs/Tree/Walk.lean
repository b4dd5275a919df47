import Vibescript.Proofs.Tree.Descent

/-!
# The walk as a loop

The nodes of a tree are listed by a loop: it takes a node from the end of a stack, and puts the
children of the node there, the first one last. Nothing in the loop itself bounds it, and nodes may
share children. But where children have smaller numbers than their parents the loop ends, no lookup
in it leaves its pool, and it has met the nodes in the order of the recursion: each node before the
subtrees of its children.
-/
namespace Vibescript.SyntaxTree

variable {tree : SyntaxTree}

/-- What the loop goes on with. -/
structure Visit where
  /-- The nodes that were met. -/
  met : Array NodeId
  /-- The nodes that are still to be met, the next one last. -/
  stack : Array NodeId

/-- One round: meet the last node of the stack, and put its children there, the first one last. -/
def visit (tree : SyntaxTree) (state : Visit) : Option Visit :=
  state.stack.back?.map fun id =>
    ⟨state.met.push id, state.stack.pop ++ (tree.children id).reverse.toArray⟩

/-- The loop ends in a state when rounds lead there and the stack is empty. -/
inductive Ends (tree : SyntaxTree) : Visit → Visit → Prop
  /-- There is no next node. -/
  | done {state : Visit} (last : tree.visit state = none) : Ends tree state state
  /-- There is another round. -/
  | next {state later final : Visit} (round : tree.visit state = some later)
    (ends : Ends tree later final) : Ends tree state final

/-- Some roots with the nodes below them: each node before the subtrees of its children, which
follow each other field by field. -/
inductive Preorder (tree : SyntaxTree) : List NodeId → List NodeId → Prop
  /-- No roots. -/
  | nil : Preorder tree [] []
  /-- A root, the nodes below it, and other roots. -/
  | cons {id : NodeId} {roots below nodes : List NodeId}
    (inner : Preorder tree (tree.children id) below) (more : Preorder tree roots nodes) :
    Preorder tree (id :: roots) (id :: below ++ nodes)

/-- One round on a stack that is read from its end. -/
theorem visit_cons (met : Array NodeId) (id : NodeId) (stack : List NodeId) :
    tree.visit ⟨met, (id :: stack).reverse.toArray⟩ =
      some ⟨met.push id, (tree.children id ++ stack).reverse.toArray⟩ := by
  simp [visit]

/-- A walk that does not use up its steps is the loop. -/
theorem ends_walk (met : Array NodeId) {steps : Nat} {stack : List NodeId}
    (short : (tree.walk steps stack).length < steps) :
    tree.Ends ⟨met, stack.reverse.toArray⟩ ⟨met ++ (tree.walk steps stack).toArray, #[]⟩ := by
  induction steps generalizing met stack with
  | zero => exact absurd short (Nat.not_lt_zero _)
  | succ steps ih =>
    cases stack with
    | nil =>
      have empty : met ++ (tree.walk (steps + 1) []).toArray = met := Array.append_empty
      rw [empty]
      exact .done rfl
    | cons id stack =>
      rw [walk, List.length_cons] at short
      have rest := ih (met.push id) (Nat.lt_of_succ_lt_succ short)
      have first : met ++ (tree.walk (steps + 1) (id :: stack)).toArray =
          met.push id ++ (tree.walk steps (tree.children id ++ stack)).toArray := by simp [walk]
      rw [first]
      exact .next (visit_cons met id stack) rest

/-- The loop from the root of an ordered tree ends, and has met the nodes of the walk. -/
theorem ends_descendants (ordered : tree.IsOrdered) :
    tree.Ends ⟨#[], #[tree.root]⟩ ⟨tree.descendants.toArray, #[]⟩ := by
  have walked := walk_root ordered 1
  have short : (tree.walk (tree.weightWithin tree.arena.size tree.root + 1) [tree.root]).length <
      tree.weightWithin tree.arena.size tree.root + 1 := by
    rw [walked, preorder, weightWithin_eq]
    exact Nat.lt_succ_self _
  have ends := ends_walk #[] short
  rw [walked, ← descendants_eq ordered, Array.empty_append] at ends
  exact ends

/-- The preorder down to a depth that reaches below some roots. -/
theorem preorder_flatMap (ordered : tree.IsOrdered) (depth : Nat) (inside : depth ≤ tree.arena.size)
    {roots : List NodeId} (deep : ∀ id ∈ roots, id.index < depth) :
    tree.Preorder roots (roots.flatMap (tree.preorderWithin depth)) := by
  induction depth generalizing roots with
  | zero =>
    cases roots with
    | nil => exact .nil
    | cons id roots => exact absurd (deep id List.mem_cons_self) (Nat.not_lt_zero _)
  | succ depth ihDepth =>
    induction roots with
    | nil => exact .nil
    | cons id roots ihRoots =>
      obtain ⟨own, others⟩ := List.forall_mem_cons.mp deep
      refine .cons (ihDepth (by omega) fun child isChild => ?_) (ihRoots others)
      have := ordered.descends id (Arena.mem_ids.mpr (by omega)) child isChild
      omega

/-- The walk from the root of an ordered tree is its preorder. -/
theorem preorder_descendants (ordered : tree.IsOrdered) :
    tree.Preorder [tree.root] tree.descendants := by
  have root : ∀ id ∈ [tree.root], id.index < tree.arena.size :=
    List.forall_mem_singleton.mpr (Arena.mem_ids.mp ordered.root)
  have preorder := preorder_flatMap ordered tree.arena.size (Nat.le_refl _) root
  rw [List.flatMap_singleton] at preorder
  rwa [descendants_eq ordered]

/-- Below nodes there are nodes only. -/
theorem Preorder.mem_ids {roots nodes : List NodeId} (preorder : tree.Preorder roots nodes)
    (ordered : tree.IsOrdered) (inside : ∀ id ∈ roots, id ∈ tree.arena.ids) :
    ∀ id ∈ nodes, id ∈ tree.arena.ids := by
  induction preorder with
  | nil => exact inside
  | cons _ _ ihInner ihMore =>
    obtain ⟨own, others⟩ := List.forall_mem_cons.mp inside
    have below := ihInner fun child isChild => ordered.child_mem own isChild
    exact List.forall_mem_cons.mpr ⟨own, List.forall_mem_append.mpr ⟨below, ihMore others⟩⟩

/-- The walk from the root of an ordered tree meets nodes only. -/
theorem mem_ids_of_mem_descendants (ordered : tree.IsOrdered) :
    ∀ id ∈ tree.descendants, id ∈ tree.arena.ids :=
  (preorder_descendants ordered).mem_ids ordered (List.forall_mem_singleton.mpr ordered.root)

end Vibescript.SyntaxTree
