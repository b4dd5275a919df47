import Vibescript.Proofs.Parser.Program
import Vibescript.Proofs.Tree.Children

/-!
# Whole trees

The nodes of an arena are exactly those of its tree: each is reached from the root once, and no
lookup leaves its pool. The nodes below the parts of a production stand in postorder, so a child
has a smaller number than its parent; what a node stores is read off its production.
-/
namespace Vibescript

/-- The nodes at and below some roots, each after its children. -/
inductive Arena.Postorder (arena : Arena) : List NodeId → List NodeId → Prop
  /-- No roots. -/
  | nil : Postorder arena [] []
  /-- A root with the nodes below it, and other roots. -/
  | cons {id : NodeId} {roots below nodes : List NodeId}
      (inner : Postorder arena (arena.children id) below) (more : Postorder arena roots nodes) :
      Postorder arena (id :: roots) (below ++ id :: nodes)

/-- What is written lists its nodes in postorder. -/
theorem Forest.Spells.postorder {forest : Forest} {parts : List Part} {nodes : List NodeId}
    {tokens : List (Token String)} (spells : forest.Spells parts nodes tokens) :
    forest.arena.Postorder (parts.flatMap (Part.children forest.arena)) nodes := by
  induction spells with
  | nil => exact .nil
  | write written _ ih =>
    rw [List.flatMap_cons, written.children]
    exact ih
  | expand stands _ _ ih =>
    rw [List.flatMap_append, Part.children_expand? stands] at ih
    exact ih
  | node found _ _ _ _ inner more =>
    rw [NodeKind.children_production, ← Arena.children_of_node? found] at inner
    exact .cons inner more

namespace Arena.Postorder

variable {arena : Arena} {roots nodes : List NodeId}

/-- The roots are among the nodes. -/
theorem subset (postorder : arena.Postorder roots nodes) : roots ⊆ nodes := by
  induction postorder with
  | nil => exact List.Subset.refl _
  | cons _ _ _ more =>
    refine List.cons_subset.mpr ⟨by simp, fun other member => ?_⟩
    exact List.mem_append_right _ (List.mem_cons_of_mem _ (more member))

/-- Each node is a root, or the child of one node and there once. -/
theorem children_perm (postorder : arena.Postorder roots nodes) :
    (roots ++ nodes.flatMap arena.children).Perm nodes := by
  induction postorder with
  | nil => exact .refl _
  | @cons id roots below nodes _ _ inner more =>
    have regroup : (id :: roots ++ (below ++ id :: nodes).flatMap arena.children).Perm
        ((arena.children id ++ below.flatMap arena.children) ++
          id :: (roots ++ nodes.flatMap arena.children)) := by
      rw [List.flatMap_append, List.flatMap_cons, List.perm_iff_count]
      intro other
      simp only [List.count_append, List.count_cons]
      omega
    exact regroup.trans (inner.append (more.cons id))

/-- When the numbers of the nodes go up, a child has a smaller number than its parent. -/
theorem descends (postorder : arena.Postorder roots nodes)
    (ordered : nodes.Pairwise fun left right => left.index < right.index) :
    ∀ id ∈ nodes, ∀ child ∈ arena.children id, child.index < id.index := by
  induction postorder with
  | nil => exact nofun
  | @cons id roots below nodes inner _ ihInner ihMore =>
    obtain ⟨first, second, apart⟩ := List.pairwise_append.mp ordered
    intro other member child isChild
    simp only [List.mem_append, List.mem_cons] at member
    rcases member with early | rfl | late
    · exact ihInner first other early child isChild
    · exact apart child (inner.subset isChild) other List.mem_cons_self
    · exact ihMore (List.pairwise_cons.mp second).2 other late child isChild

/-- The walk from the roots meets each node once, when it goes deep enough. -/
theorem preorder_perm (tree : SyntaxTree) (postorder : tree.arena.Postorder roots nodes)
    (ordered : nodes.Pairwise fun left right => left.index < right.index) (depth : Nat)
    (deep : ∀ id ∈ nodes, id.index < depth) :
    (roots.flatMap (tree.preorderWithin depth)).Perm nodes := by
  generalize same : tree.arena = arena at postorder
  induction postorder generalizing depth with
  | nil => exact .refl _
  | @cons id roots below nodes inner _ ihInner ihMore =>
    obtain ⟨first, second, apart⟩ := List.pairwise_append.mp ordered
    have before : ∀ other ∈ below, other.index < id.index := fun other early =>
      apart other early id List.mem_cons_self
    have own : id.index < depth := deep id (by simp)
    obtain ⟨levels, rfl⟩ : ∃ levels, depth = levels + 1 := ⟨depth - 1, by omega⟩
    have under := ihInner first levels fun other early => by
      have := before other early
      omega
    have beside := ihMore (List.pairwise_cons.mp second).2 (levels + 1) fun other late =>
      deep other (by simp [late])
    subst same
    rw [List.flatMap_cons, SyntaxTree.preorderWithin]
    exact ((under.cons id).append beside).trans List.perm_middle.symm

end Arena.Postorder

/-- The lists of children that a node holds. -/
def NodeKind.ranges (kind : NodeKind) : List NodeRange :=
  kind.fields.filterMap fun field =>
    match field.2 with
    | .list range => some range
    | .node _ => none

/-- The list of names that a node holds, if it holds one. -/
def NodeKind.nameRange? : NodeKind → Option NameRange
  | accessorDeclaration _ range | usesDirective range | block range _ => some range
  | _ => none

/-- The names that a node holds itself. -/
def NodeKind.names : NodeKind → List Name
  | method _ name _ _ _ => [name.name]
  | typeName (.named name) _ => [name]
  | rescueClause filter _ => filter.toList
  | simpleParameter name _ | typedParameter name _ _ | variableParameter name _
  | classDeclaration name _ | classVariableAssignment name _ | call _ name _ _
  | memberAccess _ name _ | identifier name | constant name | string name | symbol name
  | instanceVariable name | classVariable name => [name]
  | _ => []

/-- Everything that a node holds is found in its pool. -/
structure Arena.Stores (arena : Arena) (names : NameTable) (kind : NodeKind) : Prop where
  /-- The lists of children. -/
  ranges : ∀ range ∈ kind.ranges, arena.Contains range
  /-- The list of names, and the names in it. -/
  nameRange : ∀ range ∈ kind.nameRange?, arena.ContainsNames range ∧
    ∀ name ∈ arena.nameList range, names.Holds name
  /-- The names. -/
  name : ∀ name ∈ kind.names, names.Holds name

namespace Part

/-- The list of children at a place. -/
def range? : Part → Option NodeRange
  | nodes _ range | separated _ _ range | listed _ range => some range
  | _ => none

/-- The list of names at a place. -/
def nameRange? : Part → Option NameRange
  | nameList range | comment range => some range
  | _ => none

/-- The name at a place. -/
def name? : Part → Option Name
  | token kind => kind.name?
  | string value => some value
  | type (.named name) _ => some name
  | _ => none

/-- What stands at a place is found in its pool. -/
structure Stored (arena : Arena) (names : NameTable) (part : Part) : Prop where
  /-- The list of children. -/
  range : ∀ range ∈ part.range?, arena.Contains range
  /-- The list of names, and the names in it. -/
  nameRange : ∀ range ∈ part.nameRange?, arena.ContainsNames range ∧
    ∀ name ∈ arena.nameList range, names.Holds name
  /-- The name. -/
  name : ∀ name ∈ part.name?, names.Holds name

/-- A part that holds nothing. -/
theorem Stored.of_none {arena : Arena} {names : NameTable} {part : Part}
    (noRange : part.range? = none) (noNames : part.nameRange? = none) (noName : part.name? = none) :
    part.Stored arena names :=
  ⟨fun _ same => absurd (noRange.symm.trans same) nofun,
    fun _ same => absurd (noNames.symm.trans same) nofun,
    fun _ same => absurd (noName.symm.trans same) nofun⟩

/-- A part that holds a list of children. -/
theorem Stored.of_range {arena : Arena} {names : NameTable} {part : Part} {range : NodeRange}
    (own : part.range? = some range) (inside : arena.Contains range)
    (noNames : part.nameRange? = none) (noName : part.name? = none) : part.Stored arena names :=
  ⟨fun _ same => Option.some.inj (own.symm.trans same) ▸ inside,
    fun _ same => absurd (noNames.symm.trans same) nofun,
    fun _ same => absurd (noName.symm.trans same) nofun⟩

/-- A part that holds a list of names. -/
theorem Stored.of_nameRange {arena : Arena} {names : NameTable} {part : Part} {range : NameRange}
    (own : part.nameRange? = some range) (inside : arena.ContainsNames range)
    (known : ∀ name ∈ arena.nameList range, names.Holds name)
    (noRange : part.range? = none) (noName : part.name? = none) : part.Stored arena names :=
  ⟨fun _ same => absurd (noRange.symm.trans same) nofun,
    fun _ same => Option.some.inj (own.symm.trans same) ▸ ⟨inside, known⟩,
    fun _ same => absurd (noName.symm.trans same) nofun⟩

end Part

/-- The items that are joined are among the parts. -/
theorem Part.mem_joined (separator : Part) {item : Part} {items : List Part}
    (member : item ∈ items) : item ∈ Part.joined separator items := by
  obtain ⟨place, found⟩ := List.mem_iff_getElem?.mp member
  exact List.mem_iff_getElem?.mpr
    ⟨2 * place, by rw [joined, List.getElem?_intersperse_two_mul, found]⟩

namespace NodeKind

/-- A node holds what the parts of its production hold. -/
theorem holds_production (kind : NodeKind) :
    kind.production.filterMap Part.range? = kind.ranges ∧
      kind.production.filterMap Part.nameRange? = kind.nameRange?.toList ∧
      kind.production.filterMap Part.name? = kind.names := by
  cases kind
  case method isPrivate name inputs returnType statements =>
    obtain ⟨_ | _, name⟩ := name <;> cases isPrivate <;> cases inputs <;> cases returnType <;>
      exact ⟨rfl, rfl, rfl⟩
  case simpleParameter name default => cases default <;> exact ⟨rfl, rfl, rfl⟩
  case typedParameter name type default => cases default <;> exact ⟨rfl, rfl, rfl⟩
  case variableParameter name type => cases type <;> exact ⟨rfl, rfl, rfl⟩
  case typeName reference isNilable => cases reference <;> exact ⟨rfl, rfl, rfl⟩
  case ifStatement condition body elsifs otherwise =>
    cases otherwise <;> exact ⟨rfl, rfl, rfl⟩
  case unlessStatement condition body otherwise => cases otherwise <;> exact ⟨rfl, rfl, rfl⟩
  case caseStatement subject whens otherwise => cases otherwise <;> exact ⟨rfl, rfl, rfl⟩
  case beginBlock body rescues ensure => cases ensure <;> exact ⟨rfl, rfl, rfl⟩
  case rescueClause filter body => cases filter <;> exact ⟨rfl, rfl, rfl⟩
  case returnJump value => cases value <;> exact ⟨rfl, rfl, rfl⟩
  case yieldJump arguments => cases arguments <;> exact ⟨rfl, rfl, rfl⟩
  case requireImport target path asName => cases asName <;> exact ⟨rfl, rfl, rfl⟩
  case call receiver method arguments doBlock =>
    cases receiver <;> cases doBlock <;> exact ⟨rfl, rfl, rfl⟩
  case memberAccess receiver member doBlock => cases doBlock <;> exact ⟨rfl, rfl, rfl⟩
  case block inputs statements =>
    rw [production]
    split <;> exact ⟨rfl, rfl, rfl⟩
  all_goals exact ⟨rfl, rfl, rfl⟩

end NodeKind

namespace Forest

variable {forest : Forest}

/-- What a part that is written with tokens alone holds is found in its pool. -/
theorem Writes.stored {part : Part} {tokens : List (Token String)}
    (written : forest.Writes part tokens) : part.Stored forest.arena forest.names := by
  cases written with
  | token reads known => exact ⟨nofun, nofun, known⟩
  | string opens closes reads known =>
    exact ⟨nofun, nofun, fun name same => Option.some.inj same ▸ known⟩
  | @type reference isFolded word mark reads known marks =>
    cases reference with
    | named name => exact ⟨nofun, nofun, fun other same => Option.some.inj same ▸ known⟩
    | nil => exact ⟨nofun, nofun, nofun⟩
  | comment inside known =>
    exact .of_nameRange rfl inside known rfl rfl
  | _ => exact .of_none rfl rfl rfl

/-- What a part that stands for others holds is found in its pool. -/
theorem stored_expand? {part : Part} {parts : List Part}
    (stands : part.expand? forest.arena = some parts) (inside : part.Inside forest.arena)
    (stored : ∀ other ∈ parts, other.Stored forest.arena forest.names) :
    part.Stored forest.arena forest.names := by
  cases part <;> simp only [Part.expand?, Option.some.injEq, reduceCtorEq] at stands
  case nodes => exact .of_range rfl inside rfl rfl
  case separated => exact .of_range rfl inside rfl rfl
  case listed => exact .of_range rfl inside rfl rfl
  case nameList range =>
    subst stands
    refine .of_nameRange rfl inside (fun name member => ?_) rfl rfl
    have held := stored (.token (.identifier name))
      (Part.mem_joined _ (List.mem_map_of_mem member))
    exact held.name name rfl

/-- A node holds what is found in its pool when its production does. -/
theorem stores_of_production {kind : NodeKind}
    (stored : ∀ part ∈ kind.production, part.Stored forest.arena forest.names) :
    forest.arena.Stores forest.names kind := by
  obtain ⟨ranges, nameRange, names⟩ := kind.holds_production
  refine ⟨fun range member => ?_, fun range member => ?_, fun name member => ?_⟩
  · rw [← ranges] at member
    obtain ⟨part, inside, same⟩ := List.mem_filterMap.mp member
    exact (stored part inside).range range same
  · have member := Option.mem_toList.mpr member
    rw [← nameRange] at member
    obtain ⟨part, inside, same⟩ := List.mem_filterMap.mp member
    exact (stored part inside).nameRange range same
  · rw [← names] at member
    obtain ⟨part, inside, same⟩ := List.mem_filterMap.mp member
    exact (stored part inside).name name same

/-- What some parts hold is found in its pool, and so is what the nodes below them hold. -/
theorem Spells.stored {parts : List Part} {nodes : List NodeId} {tokens : List (Token String)}
    (spells : forest.Spells parts nodes tokens) :
    (∀ part ∈ parts, part.Stored forest.arena forest.names) ∧
      ∀ id ∈ nodes, forest.arena.Stores forest.names (forest.arena.kind id) := by
  induction spells with
  | nil => exact ⟨List.forall_mem_nil _, List.forall_mem_nil _⟩
  | write written _ ih => exact ⟨List.forall_mem_cons.mpr ⟨written.stored, ih.1⟩, ih.2⟩
  | expand stands inside _ ih =>
    obtain ⟨first, rest⟩ := List.forall_mem_append.mp ih.1
    exact ⟨List.forall_mem_cons.mpr ⟨stored_expand? stands inside first, rest⟩, ih.2⟩
  | @node category id kind span rest below nodes tokens others found _ _ _ _ inner more =>
    have own : forest.arena.kind id = kind := Arena.kind_of_node? found
    have stores : forest.arena.Stores forest.names (forest.arena.kind id) :=
      own ▸ stores_of_production inner.1
    exact ⟨List.forall_mem_cons.mpr ⟨.of_none rfl rfl rfl, more.1⟩,
      List.forall_mem_append.mpr ⟨inner.2, List.forall_mem_cons.mpr ⟨stores, more.2⟩⟩⟩

end Forest

/-- A tree is all of its arena, and no lookup leaves a pool. -/
structure SyntaxTree.IsWhole (tree : SyntaxTree) : Prop where
  /-- The root is the last node. -/
  root : tree.root.index + 1 = tree.arena.size
  /-- Every node is the root, or the child of one node and there once. -/
  once : (tree.root :: tree.arena.ids.flatMap tree.children).Perm tree.arena.ids
  /-- Every node is reached from the root, once. -/
  reached : (tree.preorder tree.root).Perm tree.arena.ids
  /-- A child has a smaller number than its parent. -/
  descends : ∀ id ∈ tree.arena.ids, ∀ child ∈ tree.children id, child.index < id.index
  /-- Everything that a node holds is found in its pool. -/
  stores : ∀ id ∈ tree.arena.ids, tree.arena.Stores tree.names (tree.kind id)

namespace Parser

variable {source : String} {root : NodeId} {final : Parser} {body : NodeRange}
  {below : List NodeId} {taken rest : List (Token String)}

/-- The tree of a program is whole. -/
theorem ReadsProgram.isWhole (reads : ReadsProgram source root final body below taken rest) :
    SyntaxTree.IsWhole ⟨final.arena, final.cursor.lexer.names, root⟩ := by
  have ordered : (below ++ [root]).Pairwise fun left right => left.index < right.index := by
    rw [← reads.nodes]
    exact Arena.pairwise_ids final.arena
  have inner := reads.spells.postorder
  rw [NodeKind.children_production] at inner
  have postorder : final.arena.Postorder [root] (below ++ [root]) := by
    refine .cons ?_ .nil
    rw [Arena.children_of_node? reads.found]
    exact inner
  have stored := reads.spells.stored
  have own : final.arena.kind root = .program body := Arena.kind_of_node? reads.found
  refine ⟨?_, ?_, ?_, ?_, ?_⟩
  · exact Arena.last_of_ids reads.nodes
  · show (root :: final.arena.ids.flatMap final.arena.children).Perm final.arena.ids
    rw [reads.nodes]
    exact postorder.children_perm
  · show (SyntaxTree.preorderWithin _ final.arena.size root).Perm final.arena.ids
    rw [reads.nodes]
    have perm := Arena.Postorder.preorder_perm ⟨final.arena, final.cursor.lexer.names, root⟩
      postorder ordered final.arena.size fun id member =>
        Arena.mem_ids.mp (reads.nodes ▸ member)
    simpa using perm
  · rw [reads.nodes]
    exact postorder.descends ordered
  · rw [reads.nodes]
    refine List.forall_mem_append.mpr ⟨stored.2, List.forall_mem_singleton.mpr ?_⟩
    show final.arena.Stores final.cursor.lexer.names (final.arena.kind root)
    rw [own]
    exact Forest.stores_of_production stored.1

end Parser

/-- The tree of a parse is all of its arena: also when there are errors, and wherever the nesting
limit cuts the parse. -/
theorem isWhole_parseWith (options : ParseOptions) (source : String) :
    (parseWith options source).tree.IsWhole := by
  obtain ⟨body, below, taken, rest, reads⟩ := Parser.reads_run options source
  rw [parseWith_eq, Parser.tree_finish]
  exact reads.isWhole

end Vibescript
