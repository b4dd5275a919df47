import Vibescript.Proofs.Tree.Children

/-!
# The yield of a tree

The yield of a tree is the sequence of parts that its productions come down to when every list
and every child is replaced by what it stands for. Each of these parts is written with tokens of
its own, so the tokens of a tree are those of its yield, from left to right.
-/
namespace Vibescript

namespace Part

/-- A part by itself, or what a child comes down to. -/
def leaf (inner : NodeId → List Part) : Part → List Part
  | node _ id => inner id
  | part => [part]

/-- What a part comes down to when its list and its children are replaced. -/
def leaves (arena : Arena) (inner : NodeId → List Part) (part : Part) : List Part :=
  match part.expand? arena with
  | some parts => parts.flatMap (leaf inner)
  | none => part.leaf inner

end Part

namespace SyntaxTree

/-- What a node comes down to, down to a depth. -/
def yieldWithin (tree : SyntaxTree) : Nat → NodeId → List Part
  | 0, _ => []
  | depth + 1, id =>
    (tree.kind id).production.flatMap (Part.leaves tree.arena (tree.yieldWithin depth))

/-- The parts that a tree comes down to. No path is longer than the arena. -/
def yield (tree : SyntaxTree) : List Part := tree.yieldWithin tree.arena.size tree.root

end SyntaxTree

namespace Part

variable {arena : Arena}

/-- The items that are joined, and the separator, are the parts of a joined list. -/
theorem of_mem_joined {separator part : Part} {items : List Part}
    (member : part ∈ joined separator items) : part = separator ∨ part ∈ items := by
  induction items with
  | nil => contradiction
  | cons first items ih =>
    cases items with
    | nil => exact .inr member
    | cons next items =>
      rw [joined, List.intersperse_cons_cons] at member
      simp only [List.mem_cons] at member ih ⊢
      rcases member with same | same | later
      · exact .inr (.inl same)
      · exact .inl same
      · exact (ih later).imp id .inr

/-- What a part with a range stands for: children, the tokens between them, and a comma. -/
theorem of_mem_expand? {part other : Part} {parts : List Part}
    (stands : part.expand? arena = some parts) (member : other ∈ parts) :
    (∃ category id, other = node category id) ∨ other = trailingComma ∨
      ∃ kind, other = token kind ∧ ((∃ category range, part = separated category kind range) ∨
        kind = .fixed .comma ∨ ∃ name, kind = .identifier name) := by
  have child : ∀ {category : Category} {ids : List NodeId},
      other ∈ ids.map (node category) → ∃ category id, other = node category id := by
    intro category ids inside
    obtain ⟨id, _, rfl⟩ := List.mem_map.mp inside
    exact ⟨category, id, rfl⟩
  cases part <;> simp only [expand?, Option.some.injEq, reduceCtorEq] at stands <;>
    obtain rfl := stands
  case nodes category range => exact .inl (child member)
  case separated category separator range =>
    obtain rfl | item := of_mem_joined member
    · exact .inr (.inr ⟨separator, rfl, .inl ⟨category, range, rfl⟩⟩)
    · exact .inl (child item)
  case listed category range =>
    rw [commaList] at member
    split at member
    · contradiction
    · rcases List.mem_append.mp member with inside | last
      · obtain rfl | item := of_mem_joined inside
        · exact .inr (.inr ⟨_, rfl, .inr (.inl rfl)⟩)
        · exact .inl (child item)
      · exact .inr (.inl (List.mem_singleton.mp last))
  case nameList range =>
    obtain rfl | item := of_mem_joined member
    · exact .inr (.inr ⟨_, rfl, .inr (.inl rfl)⟩)
    · obtain ⟨name, _, rfl⟩ := List.mem_map.mp item
      exact .inr (.inr ⟨_, rfl, .inr (.inr ⟨name, rfl⟩)⟩)

/-- The parts that a part stands for do not stand for others. -/
theorem expand?_of_mem {part other : Part} {parts : List Part}
    (stands : part.expand? arena = some parts) (member : other ∈ parts) :
    other.expand? arena = none := by
  obtain ⟨category, id, rfl⟩ | rfl | ⟨kind, rfl, _⟩ := of_mem_expand? stands member <;> rfl

end Part

namespace Forest

variable {forest : Forest} {parts others : List Part} {tokens more : List (Token String)}

/-- Parts without children are written one after another. -/
inductive WritesAll (forest : Forest) : List Part → List (Token String) → Prop
  /-- No part is written with no token. -/
  | nil : WritesAll forest [] []
  /-- A part is written with its tokens, before the others. -/
  | cons {part : Part} {parts : List Part} {tokens more : List (Token String)}
      (written : forest.Writes part tokens) (rest : WritesAll forest parts more) :
      WritesAll forest (part :: parts) (tokens ++ more)

/-- Two sequences one after the other. -/
theorem WritesAll.append (first : forest.WritesAll parts tokens)
    (second : forest.WritesAll others more) :
    forest.WritesAll (parts ++ others) (tokens ++ more) := by
  induction first with
  | nil => exact second
  | cons written _ ih =>
    rw [List.append_assoc]
    exact .cons written ih

/-- A part that is written with tokens alone comes down to itself. -/
theorem Writes.leaves {part : Part} (written : forest.Writes part tokens)
    (inner : NodeId → List Part) : part.leaves forest.arena inner = [part] := by
  cases written <;> rfl

/-- The tokens of some parts are those of what they come down to. -/
theorem Spells.yield (tree : SyntaxTree) {damaged : Prop} {nodes : List NodeId}
    (spells : Spells ⟨tree.arena, tree.names, damaged⟩ parts nodes tokens)
    (ordered : nodes.Pairwise fun left right => left.index < right.index) (depth : Nat)
    (deep : ∀ id ∈ nodes, id.index < depth) :
    WritesAll ⟨tree.arena, tree.names, damaged⟩
      (parts.flatMap (Part.leaves tree.arena (tree.yieldWithin depth))) tokens := by
  generalize same : (Forest.mk tree.arena tree.names damaged) = forest at spells ⊢
  induction spells generalizing depth with
  | nil => exact .nil
  | write written _ ih =>
    rw [List.flatMap_cons]
    subst same
    rw [written.leaves]
    exact .cons written (ih ordered depth deep)
  | @expand part parts rest nodes tokens stands inside more ih =>
    have leaves : part.leaves tree.arena (tree.yieldWithin depth) =
        parts.flatMap (Part.leaves tree.arena (tree.yieldWithin depth)) := by
      subst same
      rw [Part.leaves, stands]
      refine congrArg List.flatten (List.map_congr_left fun other member => ?_)
      rw [Part.leaves, Part.expand?_of_mem stands member]
    rw [List.flatMap_cons, leaves, ← List.flatMap_append]
    exact ih ordered depth deep
  | @node category id kind span rest below nodes tokens others found _ _ inner _ ihInner ihMore =>
    obtain ⟨first, second, apart⟩ := List.pairwise_append.mp ordered
    have own : id.index < depth := deep id (by simp)
    obtain ⟨levels, rfl⟩ : ∃ levels, depth = levels + 1 := ⟨depth - 1, by omega⟩
    have under := ihInner first levels fun other early => by
      have before := apart other early id List.mem_cons_self
      omega
    have beside := ihMore (List.pairwise_cons.mp second).2 (levels + 1) fun other late =>
      deep other (by simp [late])
    have isKind : tree.kind id = kind := by
      subst same
      rw [SyntaxTree.kind, Arena.kind, found]
      rfl
    rw [← isKind] at under
    exact under.append beside

end Forest

end Vibescript
