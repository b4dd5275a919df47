import Vibescript.Proofs.Tree.Unambiguous
import Vibescript.Proofs.Tree.Walk

/-!
# The order in which nodes are shown

The printer shows a node by a parenthesis, the name of its production and what it holds, then its
children, then the other parenthesis. Here its text is taken apart into writes, so that the places
where it opens a node are known, whatever parentheses stand in names and string literals. Nodes are
opened in the order of the walk from the root, at each of these places the text goes on with the
S-expression of the node that is opened, and error nodes are those for which it reads `(error)`.
-/
namespace Vibescript

open Text

/-- One write of the printer. -/
inductive Write where
  /-- The parenthesis that opens a node. -/
  | opening (id : NodeId)
  /-- Any other text. -/
  | other (text : String)

namespace Write

/-- What is written. -/
def shown : Write → String
  | opening _ => "("
  | other text => text

/-- The nodes that are opened, in their order. -/
def opened : List Write → List NodeId
  | [] => []
  | opening id :: writes => id :: opened writes
  | other _ :: writes => opened writes

/-- The text of some writes. -/
def join (writes : List Write) : String := String.join (writes.map shown)

/-- The places in the text where nodes are opened, when the first write comes at a place. -/
def openings : Nat → List Write → List (Nat × NodeId)
  | _, [] => []
  | place, opening id :: writes => (place, id) :: openings (place + 1) writes
  | place, other text :: writes => openings (place + text.length) writes

variable {writes more : List Write}

/-- Nothing is written. -/
@[simp] theorem join_nil : join [] = "" := rfl

/-- One write before others. -/
@[simp] theorem join_cons (write : Write) (writes : List Write) :
    join (write :: writes) = write.shown ++ join writes := String.join_cons

/-- Writes after writes. -/
@[simp] theorem join_append (writes more : List Write) :
    join (writes ++ more) = join writes ++ join more := by
  simp [join]

/-- Groups of writes. -/
theorem join_flatten (groups : List (List Write)) :
    join groups.flatten = String.join (groups.map join) := by
  induction groups with
  | nil => rfl
  | cons group groups ih => rw [List.flatten_cons, join_append, ih, List.map_cons, String.join_cons]

/-- Groups of writes, with a space between them. -/
theorem join_intercalate (groups : List (List Write)) :
    join (List.intercalate [.other " "] groups) = String.intercalate " " (groups.map join) := by
  rw [← String.toList_inj, String.toList_intercalate]
  induction groups with
  | nil => rfl
  | cons group groups ih =>
    cases groups with
    | nil => simp
    | cons next groups =>
      rw [List.intercalate_cons_cons, join_append, join_append, String.toList_append, ih]
      simp [List.intercalate_cons_cons, shown]

/-- The nodes that are opened in writes after writes. -/
@[simp] theorem opened_append (writes more : List Write) :
    opened (writes ++ more) = opened writes ++ opened more := by
  induction writes with
  | nil => rfl
  | cons write writes ih =>
    cases write with
    | opening id => exact congrArg (id :: ·) ih
    | other text => exact ih

/-- The nodes that are opened in groups of writes. -/
theorem opened_flatten (groups : List (List Write)) :
    opened groups.flatten = groups.flatMap opened := by
  induction groups with
  | nil => rfl
  | cons group groups ih => rw [List.flatten_cons, opened_append, ih, List.flatMap_cons]

/-- The nodes that are opened in groups of writes with a space between them. -/
theorem opened_intercalate (groups : List (List Write)) :
    opened (List.intercalate [.other " "] groups) = groups.flatMap opened := by
  induction groups with
  | nil => rfl
  | cons group groups ih =>
    cases groups with
    | nil => simp
    | cons next groups =>
      rw [List.intercalate_cons_cons, opened_append, opened_append, ih, List.flatMap_cons]
      simp [opened]

/-- The places are those of the nodes that are opened, in their order. -/
theorem map_snd_openings (place : Nat) (writes : List Write) :
    (openings place writes).map Prod.snd = opened writes := by
  induction writes generalizing place with
  | nil => rfl
  | cons write writes ih =>
    cases write with
    | opening id => exact congrArg (id :: ·) (ih _)
    | other text => exact ih _

/-- The places go up. -/
theorem pairwise_openings (place : Nat) (writes : List Write) :
    (openings place writes).Pairwise (fun left right => left.1 < right.1) ∧
      ∀ opening ∈ openings place writes, place ≤ opening.1 := by
  induction writes generalizing place with
  | nil => exact ⟨.nil, List.forall_mem_nil _⟩
  | cons write writes ih =>
    cases write with
    | opening id =>
      obtain ⟨ordered, bound⟩ := ih (place + 1)
      refine ⟨List.pairwise_cons.mpr ⟨bound, ordered⟩, List.forall_mem_cons.mpr ⟨le_refl _, ?_⟩⟩
      exact fun place member => Nat.le_of_succ_le (bound place member)
    | other text =>
      obtain ⟨ordered, bound⟩ := ih (place + text.length)
      exact ⟨ordered, fun place member => Nat.le_of_add_right_le (bound place member)⟩

/-- Where a node is opened, the writes go on with the text by which it is shown. -/
def Tells (chars : NodeId → List Char) : List Write → Prop
  | [] => True
  | opening id :: writes =>
    chars id <+: (join (opening id :: writes)).toList ∧ Tells chars writes
  | other _ :: writes => Tells chars writes

variable {chars : NodeId → List Char}

/-- Other text opens no node. -/
theorem tells_other (text : String) : Tells chars [.other text] := trivial

/-- Writes after writes tell what each of them does. -/
theorem Tells.append (first : Tells chars writes) (second : Tells chars more) :
    Tells chars (writes ++ more) := by
  induction writes with
  | nil => exact second
  | cons write writes ih =>
    cases write with
    | opening id =>
      refine ⟨?_, ih first.2⟩
      have joined : join (opening id :: (writes ++ more)) =
          join (opening id :: writes) ++ join more := join_append (opening id :: writes) more
      show chars id <+: (join (opening id :: (writes ++ more))).toList
      rw [joined, String.toList_append]
      exact first.1.trans (List.prefix_append _ _)
    | other text => exact ih first

/-- Groups of writes tell what each of them does. -/
theorem tells_flatten {groups : List (List Write)} (tells : ∀ group ∈ groups, Tells chars group) :
    Tells chars groups.flatten := by
  induction groups with
  | nil => trivial
  | cons group groups ih =>
    obtain ⟨first, others⟩ := List.forall_mem_cons.mp tells
    exact first.append (ih others)

/-- Groups of writes with a space between them tell what each of them does. -/
theorem tells_intercalate {groups : List (List Write)}
    (tells : ∀ group ∈ groups, Tells chars group) :
    Tells chars (List.intercalate [.other " "] groups) := by
  induction groups with
  | nil => trivial
  | cons group groups ih =>
    obtain ⟨first, others⟩ := List.forall_mem_cons.mp tells
    cases groups with
    | nil => simpa using first
    | cons next groups =>
      rw [List.intercalate_cons_cons]
      exact (first.append (tells_other " ")).append (ih others)

/-- At each place where a node is opened, the text goes on with that by which the node is shown. -/
theorem Tells.prefix_drop (tells : Tells chars writes) (before : List Char) :
    ∀ opening ∈ openings before.length writes,
      chars opening.2 <+: (before ++ (join writes).toList).drop opening.1 := by
  induction writes generalizing before with
  | nil => exact List.forall_mem_nil _
  | cons write writes ih =>
    cases write with
    | opening id =>
      have joined : before ++ (join (.opening id :: writes)).toList =
          (before ++ ['(']) ++ (join writes).toList := by simp [shown]
      refine List.forall_mem_cons.mpr ⟨?_, ?_⟩
      · rw [List.drop_left]
        exact tells.1
      · rw [joined]
        have rest := ih tells.2 (before ++ ['('])
        rwa [List.length_append] at rest
    | other text =>
      have joined : before ++ (join (.other text :: writes)).toList =
          (before ++ text.toList) ++ (join writes).toList := by simp [shown]
      rw [joined]
      have rest := ih tells (before ++ text.toList)
      rwa [List.length_append, String.length_toList] at rest

end Write

namespace SyntaxTree

open Write

/-- The writes for a field with the children already written; nothing for an empty list. -/
def fieldWrites (render : NodeId → List Write) (tree : SyntaxTree) (field : String) :
    Child → List Write
  | .node id => Write.other s!" {field}: " :: render id
  | .list range =>
    match (tree.arena.list range).map render with
    | [] => []
    | items =>
      Write.other s!" {field}: [" :: List.intercalate [Write.other " "] items ++ [Write.other "]"]

/-- The writes for the children of a node: statements after spaces, or fields with their labels. -/
def bodyWrites (tree : SyntaxTree) (render : NodeId → List Write) : NodeKind → List (List Write)
  | .program body => (tree.arena.list body).map fun statement => Write.other " " :: render statement
  | kind => kind.fields.map fun (field, child) => fieldWrites render tree field child

/-- The writes for a node, down to a depth. -/
def writesWithin (tree : SyntaxTree) : Nat → NodeId → List Write
  | 0, _ => []
  | depth + 1, id =>
    let kind := tree.kind id
    let words := (tree.attributes kind).map fun word => Write.other (" " ++ word)
    let children := (tree.bodyWrites (tree.writesWithin depth) kind).flatten
    Write.opening id :: Write.other kind.name :: words ++ children ++ [Write.other ")"]

/-- The writes for the whole tree. -/
def writes (tree : SyntaxTree) : List Write := tree.writesWithin tree.arena.size tree.root

/-- The places in the S-expression of a tree where the printer opens nodes. -/
def openings (tree : SyntaxTree) : List (Nat × NodeId) := Write.openings 0 tree.writes

variable {tree : SyntaxTree}

/-! ### The writes are those of the printer -/

/-- The writes for a field make its text. -/
theorem join_fieldWrites (render : NodeId → List Write) (field : String) (child : Child) :
    join (fieldWrites render tree field child) =
      fieldText (fun id => join (render id)) tree field child := by
  cases child with
  | node id => simp [fieldWrites, fieldText, Write.shown]
  | list range =>
    rw [fieldWrites, fieldText]
    have items := join_intercalate ((tree.arena.list range).map render)
    rw [List.map_map] at items
    cases isList : tree.arena.list range with
    | nil => rfl
    | cons id ids =>
      rw [isList, List.map_cons, List.map_cons] at items
      simp only [List.map_cons, join_cons, join_append, join_nil, Write.shown, items,
        String.append_empty, String.append_assoc]
      rfl

/-- Words of what a node holds are written after spaces. -/
theorem join_words (words : List String) :
    join (words.map fun word => .other (" " ++ word)) = String.join (words.map (" " ++ ·)) := by
  rw [join, List.map_map]
  rfl

/-- Everything but a whole text is written with its fields. -/
theorem bodyWrites_of_ne {kind : NodeKind} (inner : ∀ body, kind ≠ .program body)
    (render : NodeId → List Write) : tree.bodyWrites render kind =
      kind.fields.map fun (field, child) => fieldWrites render tree field child := by
  cases kind <;> first | rfl | exact absurd rfl (inner _)

/-- The writes for a node make its S-expression. -/
theorem join_writesWithin (depth : Nat) (id : NodeId) :
    join (tree.writesWithin depth id) = tree.sexpWithin depth id := by
  induction depth generalizing id with
  | zero => rfl
  | succ depth ih =>
    have shows : (fun child => join (tree.writesWithin depth child)) = tree.sexpWithin depth :=
      funext ih
    by_cases isProgram : ∃ body, tree.kind id = .program body
    · obtain ⟨body, isProgram⟩ := isProgram
      rw [writesWithin, sexpWithin, isProgram]
      simp [bodyWrites, join_words, join_flatten, Write.shown, Function.comp_def, ih,
        String.append_assoc]
    · have inner : ∀ body, tree.kind id ≠ .program body := fun body same => isProgram ⟨body, same⟩
      rw [sexpWithin_of_kind rfl inner, writesWithin, bodyWrites_of_ne inner]
      simp [join_words, join_flatten, Write.shown, Function.comp_def, join_fieldWrites, shows,
        String.append_assoc]

/-- The writes for a tree make its S-expression. -/
theorem join_writes : join tree.writes = tree.toSexp := join_writesWithin _ _

/-! ### Nodes are opened in preorder -/

/-- The nodes that are opened for a field. -/
theorem opened_fieldWrites (render : NodeId → List Write) (field : String) (child : Child) :
    opened (fieldWrites render tree field child) =
      (child.ids tree.arena).flatMap fun id => opened (render id) := by
  cases child with
  | node id => exact (List.append_nil _).symm
  | list range =>
    rw [fieldWrites, Child.ids]
    have items := opened_intercalate ((tree.arena.list range).map render)
    rw [List.flatMap_map] at items
    cases isList : tree.arena.list range with
    | nil => rfl
    | cons id ids =>
      rw [isList, List.map_cons] at items
      rw [← items]
      exact (opened_append _ _).trans (List.append_nil _)

/-- The nodes that are opened for the children of a node. -/
theorem opened_bodyWrites (render : NodeId → List Write) (id : NodeId) :
    opened (tree.bodyWrites render (tree.kind id)).flatten =
      (tree.children id).flatMap fun child => opened (render child) := by
  have children : tree.children id =
      (tree.kind id).fields.flatMap fun field => field.2.ids tree.arena := rfl
  rw [children, List.flatMap_assoc, opened_flatten]
  by_cases isProgram : ∃ body, tree.kind id = .program body
  · obtain ⟨body, isProgram⟩ := isProgram
    rw [isProgram, bodyWrites, List.flatMap_map]
    exact (List.append_nil _).symm
  · rw [bodyWrites_of_ne fun body same => isProgram ⟨body, same⟩, List.flatMap_map]
    exact List.flatMap_congr fun field _ => opened_fieldWrites render field.1 field.2

/-- The nodes that are opened for a node are those at and below it, in preorder. -/
theorem opened_writesWithin (depth : Nat) (id : NodeId) :
    opened (tree.writesWithin depth id) = tree.preorderWithin depth id := by
  induction depth generalizing id with
  | zero => rfl
  | succ depth ih =>
    have words (words : List String) :
        opened (words.map fun word => .other (" " ++ word)) = [] := by
      induction words with
      | nil => rfl
      | cons word words ih => exact ih
    rw [writesWithin, preorderWithin, ← List.flatMap_congr fun child _ => ih child,
      ← opened_bodyWrites]
    simp [words, opened]

/-! ### The text goes on with what is opened -/

/-- What is written for a field tells what the children do. -/
theorem tells_fieldWrites {chars : NodeId → List Char} {render : NodeId → List Write}
    {child : Child} (tells : ∀ id ∈ child.ids tree.arena, Tells chars (render id))
    (field : String) : Tells chars (fieldWrites render tree field child) := by
  cases child with
  | node id => exact tells id List.mem_cons_self
  | list range =>
    rw [fieldWrites]
    have items := tells_intercalate (List.forall_mem_map.mpr tells)
    rw [Child.ids] at items
    cases isList : tree.arena.list range with
    | nil => trivial
    | cons id ids =>
      rw [isList] at items
      have labelled : Tells chars (.other s!" {field}: [" ::
        List.intercalate [.other " "] ((id :: ids).map render)) := items
      exact labelled.append (tells_other "]")

/-- What is written for the children of a node tells what is written for each. -/
theorem tells_bodyWrites {chars : NodeId → List Char} {render : NodeId → List Write} {id : NodeId}
    (tells : ∀ child ∈ tree.children id, Tells chars (render child)) :
    ∀ group ∈ tree.bodyWrites render (tree.kind id), Tells chars group := by
  have fields : ∀ field ∈ (tree.kind id).fields, ∀ child ∈ field.2.ids tree.arena,
      Tells chars (render child) := fun field member child held =>
    tells child (List.mem_flatMap.mpr ⟨field, member, held⟩)
  by_cases isProgram : ∃ body, tree.kind id = .program body
  · obtain ⟨body, isProgram⟩ := isProgram
    rw [isProgram] at fields ⊢
    exact List.forall_mem_map.mpr (fields ("body", .list body) List.mem_cons_self)
  · rw [bodyWrites_of_ne fun body same => isProgram ⟨body, same⟩]
    exact List.forall_mem_map.mpr fun field member =>
      tells_fieldWrites (fields field member) field.1

/-- Where a node at or below a node is opened, the text goes on with its S-expression. -/
theorem tells_writesWithin (ordered : tree.IsOrdered) {depth : Nat} {id : NodeId}
    (member : id ∈ tree.arena.ids) (deep : id.index < depth) :
    Tells tree.chars (tree.writesWithin depth id) := by
  induction depth generalizing id with
  | zero => exact absurd deep (Nat.not_lt_zero _)
  | succ depth ih =>
    have below : ∀ child ∈ tree.children id, Tells tree.chars (tree.writesWithin depth child) := by
      intro child isChild
      have less := ordered.descends id member child isChild
      exact ih (ordered.child_mem member isChild) (by omega)
    have same : join (tree.writesWithin (depth + 1) id) = tree.sexpOf id := by
      rw [join_writesWithin, sexpOf, sexpWithin_eq ordered member (Arena.mem_ids.mp member) deep]
    have own : tree.chars id <+: (join (tree.writesWithin (depth + 1) id)).toList :=
      same ▸ List.prefix_rfl
    have words (words : List String) :
        Tells tree.chars (words.map fun word => .other (" " ++ word)) := by
      induction words with
      | nil => trivial
      | cons word words ih => exact ih
    have rest := ((words (tree.attributes (tree.kind id))).append
      (tells_flatten (tells_bodyWrites below))).append (tells_other ")")
    exact ⟨own, rest⟩

/-- A text that begins with a node begins as an error node is shown just when the node is one. -/
theorem error_prefix_iff (ordered : tree.IsOrdered) {id : NodeId} (member : id ∈ tree.arena.ids)
    {text : List Char} (begins : tree.chars id <+: text) :
    "(error)".toList <+: text ↔ tree.kind id = .error := by
  constructor
  · intro beginsToo
    obtain ⟨rest, rfl⟩ := begins
    obtain ⟨more, same⟩ := beginsToo
    have split : "error".toList ++ ')' :: more = (tree.kind id).name.toList ++
        (spaced ((tree.payload (tree.kind id)).words.map String.toList) ++
          (tree.bodyChars tree.chars (tree.kind id) ++ ')' :: rest)) := by
      rw [chars_eq ordered member] at same
      simpa using same
    obtain ⟨name, _⟩ := run_inj (NodeKind.isLabelChar_name .error) (NodeKind.isLabelChar_name _)
      (stops_cons rfl _) (stops_head _ _ _ rest) split
    have production := NodeKind.ctorIdx_eq_of_name (String.toList_inj.mp name).symm
    generalize tree.kind id = kind at production
    cases kind <;> first | rfl | cases production
  · intro isError
    have shown : tree.chars id = "(error)".toList := by
      rw [chars_eq ordered member, isError]
      rfl
    exact shown ▸ begins

/-- The S-expression goes on with each node where it is opened. -/
theorem chars_prefix_drop (ordered : tree.IsOrdered) :
    ∀ opening ∈ tree.openings, tree.chars opening.2 <+: tree.toSexp.toList.drop opening.1 := by
  have tells := tells_writesWithin ordered ordered.root (Arena.mem_ids.mp ordered.root)
  have places := tells.prefix_drop []
  rw [List.nil_append, join_writesWithin] at places
  exact places

/-- The nodes that are opened are those of the walk, in its order. -/
theorem map_snd_openings (ordered : tree.IsOrdered) :
    tree.openings.map Prod.snd = tree.descendants := by
  rw [openings, Write.map_snd_openings, writes, opened_writesWithin, descendants_eq ordered]
  rfl

/-- The error nodes of the walk are the places where `(error)` is opened. -/
theorem errorCount_eq_countP (ordered : tree.IsOrdered) :
    tree.errorCount = tree.openings.countP fun opening =>
      "(error)".toList.isPrefixOf (tree.toSexp.toList.drop opening.1) := by
  rw [errorCount, ← map_snd_openings ordered, List.countP_map]
  refine List.countP_congr fun opening isOpened => ?_
  have met : opening.2 ∈ tree.descendants :=
    map_snd_openings ordered ▸ List.mem_map_of_mem isOpened
  have member := mem_ids_of_mem_descendants ordered opening.2 met
  rw [List.isPrefixOf_iff_prefix,
    error_prefix_iff ordered member (chars_prefix_drop ordered opening isOpened)]
  exact beq_iff_eq

/-- The walk from the root of a tree as a loop, as a recursion, and as the printer goes. -/
structure IsWalked (tree : SyntaxTree) : Prop where
  /-- The loop ends, and has met these nodes. -/
  ends : tree.Ends ⟨#[], #[tree.root]⟩ ⟨tree.descendants.toArray, #[]⟩
  /-- No lookup leaves its pool. -/
  inside : ∀ id ∈ tree.descendants, id ∈ tree.arena.ids ∧
    (∀ range ∈ (tree.kind id).ranges, tree.arena.Contains range) ∧
    ∀ range ∈ (tree.kind id).nameRange?, tree.arena.ContainsNames range
  /-- Each node is met before the subtrees of its children, which follow field by field. -/
  preorder : tree.Preorder [tree.root] tree.descendants
  /-- The writes that are looked at are those of the printer. -/
  writes : join tree.writes = tree.toSexp
  /-- The printer opens the same nodes in the same order. -/
  opened : tree.openings.map Prod.snd = tree.descendants
  /-- It opens each one after those before it. -/
  places : tree.openings.Pairwise fun left right => left.1 < right.1
  /-- Where it opens a node, its text goes on with the S-expression of the node. -/
  shows : ∀ opening ∈ tree.openings,
    (tree.sexpOf opening.2).toList <+: tree.toSexp.toList.drop opening.1
  /-- The error nodes are counted by what is shown. -/
  errors : tree.errorCount = tree.openings.countP fun opening =>
    "(error)".toList.isPrefixOf (tree.toSexp.toList.drop opening.1)

/-- Where children have smaller numbers than their parents and lists lie in their pools, the loop
over a stack ends with the recursive preorder, which is the order in which the printer opens the
nodes, and as many error nodes are counted as are shown. -/
theorem isWalked_of_isOrdered (tree : SyntaxTree) (ordered : tree.IsOrdered) : tree.IsWalked where
  ends := ends_descendants ordered
  inside id met :=
    have member := mem_ids_of_mem_descendants ordered id met
    ⟨member, ordered.ranges id member, ordered.nameRanges id member⟩
  preorder := preorder_descendants ordered
  writes := join_writes
  opened := map_snd_openings ordered
  places := (pairwise_openings 0 tree.writes).1
  shows := chars_prefix_drop ordered
  errors := errorCount_eq_countP ordered

/-- An array that holds one node twice, a string that reads like an error node, and an error
node. -/
def sharing : SyntaxTree where
  arena := {
    nodes := #[⟨.nilLiteral, .point 0⟩, ⟨.array ⟨0, 2⟩, .point 0⟩, ⟨.string ⟨1⟩, .point 0⟩,
      ⟨.error, .point 0⟩, ⟨.program ⟨2, 3⟩, .point 0⟩]
    lists := #[⟨0⟩, ⟨0⟩, ⟨1⟩, ⟨2⟩, ⟨3⟩]
    names := #[] }
  names := (NameTable.initial.intern "(error)").2
  root := ⟨4⟩

/-- A node with two parents is met twice, and an error node is no string that reads like one. -/
theorem isWalked_sharing : sharing.IsOrdered ∧ sharing.IsWalked ∧
    sharing.descendants = [⟨4⟩, ⟨1⟩, ⟨0⟩, ⟨0⟩, ⟨2⟩, ⟨3⟩] ∧ sharing.errorCount = 1 := by
  have ordered : sharing.IsOrdered := by
    refine ⟨by decide, by decide, ?_, ?_⟩
    · unfold Arena.Contains
      decide
    · unfold Arena.ContainsNames
      decide
  exact ⟨ordered, isWalked_of_isOrdered sharing ordered, by decide, by decide⟩

end SyntaxTree

end Vibescript
