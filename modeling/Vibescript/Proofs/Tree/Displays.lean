import Vibescript.Proofs.Tree.Likeness
import Vibescript.Proofs.Tree.Whole

/-!
# Nodes keep their S-expressions

A node that was read stands in its arena with all that is below it, and everything it holds is found
in the pools. So it has an S-expression, which does not change while the forest grows.
-/
namespace Vibescript

namespace SyntaxTree

variable {tree other : SyntaxTree} {depth more : Nat} {id : NodeId}

/-- Nodes of one kind are shown alike when what they hold is. -/
theorem sexpWithin_congr (kind : tree.kind id = other.kind id)
    (attributes : tree.attributes (tree.kind id) = other.attributes (tree.kind id))
    (lists : ∀ range ∈ (tree.kind id).ranges, tree.arena.list range = other.arena.list range)
    (children : ∀ child ∈ tree.children id,
      tree.sexpWithin depth child = other.sexpWithin more child) :
    tree.sexpWithin (depth + 1) id = other.sexpWithin (more + 1) id := by
  have below : tree.children id =
    (tree.kind id).fields.flatMap fun field => field.2.ids tree.arena := rfl
  rw [sexpWithin, sexpWithin, ← kind, attributes]
  generalize tree.kind id = here at lists below
  rw [below] at children
  -- The children in a field are shown alike.
  have field : ∀ field ∈ here.fields,
      fieldText (tree.sexpWithin depth) tree field.1 field.2 =
        fieldText (other.sexpWithin more) other field.1 field.2 := by
    rintro ⟨name, child⟩ member
    cases child with
    | node child =>
      have same := children child (List.mem_flatMap.mpr ⟨_, member, List.mem_singleton.mpr rfl⟩)
      rw [fieldText, fieldText, same]
    | list range =>
      have same : (tree.arena.list range).map (tree.sexpWithin depth) =
          (tree.arena.list range).map (other.sexpWithin more) :=
        List.map_congr_left fun child inside =>
          children child (List.mem_flatMap.mpr ⟨_, member, inside⟩)
      rw [fieldText, fieldText, same,
        lists range (List.mem_filterMap.mpr ⟨_, member, rfl⟩)]
  cases here
  case program body =>
    have member : ("body", Child.list body) ∈ (NodeKind.program body).fields :=
      List.mem_singleton.mpr rfl
    have same : (tree.arena.list body).map (fun statement => " " ++ tree.sexpWithin depth statement) =
        (tree.arena.list body).map fun statement => " " ++ other.sexpWithin more statement :=
      List.map_congr_left fun statement inside => congrArg (" " ++ ·)
        (children statement (List.mem_flatMap.mpr ⟨_, member, inside⟩))
    dsimp only
    rw [same, lists body (List.mem_filterMap.mpr ⟨_, member, rfl⟩)]
  all_goals
    dsimp only
    rw [List.map_congr_left field]

end SyntaxTree

variable {before after : Forest}

/-- What a node holds besides its children stays the same. -/
theorem Arena.Stores.attributes {kind : NodeKind} (stores : before.arena.Stores before.names kind)
    (grows : before.Grows after) (root place : NodeId) :
    SyntaxTree.attributes ⟨after.arena, after.names, root⟩ kind =
      SyntaxTree.attributes ⟨before.arena, before.names, place⟩ kind := by
  have text : ∀ name ∈ kind.names, SyntaxTree.text ⟨after.arena, after.names, root⟩ name =
      SyntaxTree.text ⟨before.arena, before.names, place⟩ name :=
    fun name member => grows.names.text (stores.name name member)
  have texts : ∀ range ∈ kind.nameRange?, SyntaxTree.texts ⟨after.arena, after.names, root⟩ range =
      SyntaxTree.texts ⟨before.arena, before.names, place⟩ range := by
    intro range member
    obtain ⟨inside, known⟩ := stores.nameRange range member
    rw [SyntaxTree.texts, SyntaxTree.texts, grows.arena.nameList inside]
    exact List.map_congr_left fun name held => grows.names.text (known name held)
  cases kind
  case typeName reference isNilable =>
    cases reference with
    | named name =>
      rw [SyntaxTree.attributes, SyntaxTree.attributes, text name (by simp [NodeKind.names])]
    | nil => rfl
  case rescueClause filter body =>
    cases filter with
    | some name =>
      rw [SyntaxTree.attributes, SyntaxTree.attributes, text name (by simp [NodeKind.names])]
    | none => rfl
  all_goals first
    | rfl
    | rw [SyntaxTree.attributes, SyntaxTree.attributes, text _ (by simp [NodeKind.names])]
    | rw [SyntaxTree.attributes, SyntaxTree.attributes, texts _ (by simp [NodeKind.nameRange?])]

/-- A node is there. -/
theorem Forest.Spells.inside {forest : Forest} {parts : List Part} {nodes : List NodeId}
    {tokens : List (Token String)} (spells : forest.Spells parts nodes tokens) :
    ∀ id ∈ nodes, id.index < forest.arena.size := by
  induction spells with
  | nil => exact nofun
  | write _ _ ih => exact ih
  | expand _ _ _ ih => exact ih
  | node found _ _ _ _ inner more =>
    exact List.forall_mem_append.mpr ⟨inner, List.forall_mem_cons.mpr
      ⟨(Array.getElem?_eq_some_iff.mp found).choose, more⟩⟩

/-- Every node that was read has an S-expression and keeps it. -/
theorem Forest.Spells.displays {forest : Forest} {parts : List Part} {nodes : List NodeId}
    {tokens : List (Token String)} (spells : forest.Spells parts nodes tokens)
    (ordered : nodes.Pairwise fun left right => left.index < right.index) {id : NodeId}
    (member : id ∈ nodes) : ∃ shown, forest.Displays id shown := by
  have descends := spells.postorder.descends ordered
  have closed : ∀ id ∈ nodes, ∀ child ∈ forest.arena.children id, child ∈ nodes :=
    fun id member child isChild => spells.postorder.children_perm.subset
      (List.mem_append_right _ (List.mem_flatMap.mpr ⟨id, member, isChild⟩))
  refine ⟨SyntaxTree.sexpWithin ⟨forest.arena, forest.names, id⟩ (id.index + 1) id,
    spells.inside id member, fun after grows root depth deep => ?_⟩
  -- A node is shown alike at any depth that reaches below it.
  suffices alike : ∀ (bound : Nat) (id : NodeId), id ∈ nodes → id.index < bound →
      ∀ (root place : NodeId) (depth more : Nat), id.index < depth → id.index < more →
        SyntaxTree.sexpWithin ⟨after.arena, after.names, root⟩ depth id =
          SyntaxTree.sexpWithin ⟨forest.arena, forest.names, place⟩ more id from
    alike _ id member (Nat.lt_succ_self _) root id depth _ deep (Nat.lt_succ_self _)
  intro bound
  induction bound with
  | zero => exact fun id _ less => absurd less (Nat.not_lt_zero _)
  | succ bound ih =>
    intro id member less root place depth more deep deepToo
    obtain ⟨depth, rfl⟩ := Nat.exists_eq_succ_of_ne_zero (Nat.ne_zero_of_lt deep)
    obtain ⟨more, rfl⟩ := Nat.exists_eq_succ_of_ne_zero (Nat.ne_zero_of_lt deepToo)
    have stores := spells.stored.2 id member
    obtain ⟨node, found⟩ : ∃ node, forest.arena.node? id = some node :=
      ⟨_, Array.getElem?_eq_getElem (spells.inside id member)⟩
    have kind : after.arena.kind id = forest.arena.kind id := by
      rw [Arena.kind_of_node? (grows.arena.node? found), Arena.kind_of_node? found]
    have lists : ∀ range ∈ (after.arena.kind id).ranges,
        after.arena.list range = forest.arena.list range :=
      fun range held => grows.arena.list (stores.ranges range (kind ▸ held))
    have children : after.arena.children id = forest.arena.children id := by
      rw [Arena.children, Arena.children, kind]
      refine List.flatMap_congr fun field held => ?_
      obtain ⟨name, child⟩ := field
      cases child with
      | node child => rfl
      | list range => exact lists range (kind ▸ List.mem_filterMap.mpr ⟨_, held, rfl⟩)
    refine SyntaxTree.sexpWithin_congr kind ?_ lists fun child isChild => ?_
    · rw [← kind] at stores
      exact stores.attributes grows root place
    · have isChild : child ∈ forest.arena.children id := children ▸ isChild
      have lower := descends id member child isChild
      exact ih child (closed id member child isChild) (by omega) root place depth more (by omega)
        (by omega)

end Vibescript
