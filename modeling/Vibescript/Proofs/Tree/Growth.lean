import Vibescript.Directive
import Vibescript.Proofs.NameTable
import Vibescript.Text.Utf8
import Vibescript.Tree.Basic

/-!
# Arenas that grow

While a construct is read, its arena only grows: each pool keeps what it holds at its front. So
nodes and lists read as before, and going back to a mark gives exactly the arena that the mark
was taken of. A forest is an arena with the names its nodes refer to.
-/
namespace Vibescript

namespace Arena

/-- Each pool of one arena starts with the pool of another. -/
structure Grows (before after : Arena) : Prop where
  /-- The nodes are kept. -/
  nodes : before.nodes.toList <+: after.nodes.toList
  /-- The lists of children are kept. -/
  lists : before.lists.toList <+: after.lists.toList
  /-- The lists of names are kept. -/
  names : before.names.toList <+: after.names.toList

/-- Whether a range of children lies in its pool. -/
def Contains (arena : Arena) (range : NodeRange) : Prop :=
  range.start + range.size ≤ arena.lists.size

/-- Whether a range of names lies in its pool. -/
def ContainsNames (arena : Arena) (range : NameRange) : Prop :=
  range.start + range.size ≤ arena.names.size

/-- The numbers of nodes from a place on, so many of them. -/
def idsFrom (first count : Nat) : List NodeId := (List.range' first count).map NodeId.mk

/-- The numbers of all nodes. -/
def ids (arena : Arena) : List NodeId := idsFrom 0 arena.size

/-- No numbers. -/
@[simp] theorem idsFrom_zero (first : Nat) : idsFrom first 0 = [] := rfl

/-- The kind of a known node. -/
theorem kind_of_node? {arena : Arena} {id : NodeId} {node : Node}
    (found : arena.node? id = some node) : arena.kind id = node.kind := by
  rw [kind, found]
  rfl

/-- The span of a known node. -/
theorem span_of_node? {arena : Arena} {id : NodeId} {node : Node}
    (found : arena.node? id = some node) : arena.span id = node.span := by
  rw [span, found]
  rfl

/-- One number more comes last. -/
theorem idsFrom_succ (first count : Nat) :
    idsFrom first (count + 1) = idsFrom first count ++ [⟨first + count⟩] := by
  simp [idsFrom, List.range'_concat]

/-- The numbers of an arena are those of its nodes. -/
theorem mem_ids {arena : Arena} {id : NodeId} : id ∈ arena.ids ↔ id.index < arena.size := by
  rw [ids, idsFrom, List.mem_map]
  constructor
  · rintro ⟨index, member, rfl⟩
    simpa using member
  · intro inside
    exact ⟨id.index, by simpa using inside, rfl⟩

/-- A node of an arena is among its nodes. -/
theorem mem_ids_of_node? {arena : Arena} {id : NodeId} {node : Node}
    (found : arena.node? id = some node) : id ∈ arena.ids := by
  obtain ⟨inside, _⟩ := Array.getElem?_eq_some_iff.mp found
  exact mem_ids.mpr inside

/-- The numbers of an arena go up. -/
theorem pairwise_ids (arena : Arena) :
    arena.ids.Pairwise fun left right => left.index < right.index := by
  rw [ids, idsFrom, List.pairwise_map]
  exact List.pairwise_lt_range'

/-- The last number of an arena is that of its last node. -/
theorem last_of_ids {arena : Arena} {before : List NodeId} {last : NodeId}
    (whole : arena.ids = before ++ [last]) : last.index + 1 = arena.size := by
  rw [ids] at whole
  cases size : arena.size with
  | zero =>
    rw [size, idsFrom_zero] at whole
    exact absurd whole.symm (by simp)
  | succ count =>
    rw [size, idsFrom_succ] at whole
    obtain rfl := List.singleton_inj.mp (List.append_inj_right' whole rfl)
    simp

namespace Grows

variable {first second third : Arena}

/-- Every arena starts with its own pools. -/
theorem refl (arena : Arena) : arena.Grows arena :=
  ⟨List.prefix_rfl, List.prefix_rfl, List.prefix_rfl⟩

/-- Growing twice is growing. -/
theorem trans (left : first.Grows second) (right : second.Grows third) : first.Grows third :=
  ⟨left.nodes.trans right.nodes, left.lists.trans right.lists, left.names.trans right.names⟩

/-- A grown arena has no fewer nodes. -/
theorem size_le (grows : first.Grows second) : first.size ≤ second.size :=
  grows.nodes.length_le

/-- A node stays under its number. -/
theorem node? (grows : first.Grows second) {id : NodeId} {node : Node}
    (found : first.node? id = some node) : second.node? id = some node := by
  obtain ⟨added, whole⟩ := grows.nodes
  have inside : id.index < first.nodes.toList.length :=
    (Array.getElem?_eq_some_iff.mp found).choose
  rw [Arena.node?, ← Array.getElem?_toList, ← whole, List.getElem?_append_left inside,
    Array.getElem?_toList]
  exact found

/-- A range stays in its pool. -/
theorem contains (grows : first.Grows second) {range : NodeRange} (inside : first.Contains range) :
    second.Contains range :=
  Nat.le_trans inside grows.lists.length_le

/-- A range of names stays in its pool. -/
theorem containsNames (grows : first.Grows second) {range : NameRange}
    (inside : first.ContainsNames range) : second.ContainsNames range :=
  Nat.le_trans inside grows.names.length_le

/-- A list of children reads as before. -/
theorem list (grows : first.Grows second) {range : NodeRange} (inside : first.Contains range) :
    second.list range = first.list range := by
  obtain ⟨added, whole⟩ := grows.lists
  have short : range.start + range.size ≤ first.lists.toList.length := inside
  simp only [Arena.list, Array.toList_extract, List.extract_eq_take_drop, ← whole]
  rw [List.drop_append_of_le_length (by omega), List.take_append_of_le_length]
  rw [List.length_drop]
  omega

/-- A list of names reads as before. -/
theorem nameList (grows : first.Grows second) {range : NameRange}
    (inside : first.ContainsNames range) : second.nameList range = first.nameList range := by
  obtain ⟨added, whole⟩ := grows.names
  have short : range.start + range.size ≤ first.names.toList.length := inside
  simp only [Arena.nameList, Array.toList_extract, List.extract_eq_take_drop, ← whole]
  rw [List.drop_append_of_le_length (by omega), List.take_append_of_le_length]
  rw [List.length_drop]
  omega

/-- Going back to a mark takes back exactly what was added since. -/
theorem truncate (grows : first.Grows second) : second.truncate first.mark = first := by
  obtain ⟨⟨nodes, wholeNodes⟩, ⟨lists, wholeLists⟩, ⟨names, wholeNames⟩⟩ := grows
  cases first
  simp only [Arena.truncate, mark, Arena.mk.injEq]
  refine ⟨?_, ?_, ?_⟩ <;> apply Array.toList_inj.mp
  · simp [← wholeNodes]
  · simp [← wholeLists]
  · simp [← wholeNames]

end Grows

/-- Adding a node grows the arena. -/
theorem grows_add (arena : Arena) (kind : NodeKind) (span : Span) :
    arena.Grows (arena.add kind span).2 :=
  ⟨by simp [add], List.prefix_rfl, List.prefix_rfl⟩

/-- Adding a list of children grows the arena. -/
theorem grows_addList (arena : Arena) (ids : List NodeId) :
    arena.Grows (arena.addList ids).2 := by
  unfold addList
  split
  · exact .refl arena
  · exact ⟨List.prefix_rfl, by simp, List.prefix_rfl⟩

/-- Adding a list of names grows the arena. -/
theorem grows_addNames (arena : Arena) (names : List Name) :
    arena.Grows (arena.addNames names).2 := by
  unfold addNames
  split
  · exact .refl arena
  · exact ⟨List.prefix_rfl, List.prefix_rfl, by simp⟩

/-- Number of error nodes. -/
def errorNodes (arena : Arena) : Nat := arena.nodes.toList.countP fun node => node.kind == .error

/-- An arena grows, and has no more error nodes. -/
structure Gains (before after : Arena) : Prop where
  /-- The pools are kept. -/
  grows : before.Grows after
  /-- No error node is added. -/
  errorNodes : after.errorNodes = before.errorNodes

/-- Nothing is gained. -/
theorem Gains.refl (arena : Arena) : arena.Gains arena := ⟨.refl _, rfl⟩

/-- Gaining twice. -/
theorem Gains.trans {first second third : Arena} (left : first.Gains second)
    (right : second.Gains third) : first.Gains third :=
  ⟨left.grows.trans right.grows, right.errorNodes.trans left.errorNodes⟩

/-- A node counts if it is an error node. -/
theorem errorNodes_add (arena : Arena) (kind : NodeKind) (span : Span) :
    (arena.add kind span).2.errorNodes = arena.errorNodes + if kind = .error then 1 else 0 := by
  simp [errorNodes, add, List.countP_append]

/-- A node that is no error node is gained. -/
theorem gains_add (arena : Arena) {kind : NodeKind} (plain : kind ≠ .error) (span : Span) :
    arena.Gains (arena.add kind span).2 :=
  ⟨arena.grows_add kind span, by rw [errorNodes_add, if_neg plain, Nat.add_zero]⟩

/-- A list of children is gained. -/
theorem gains_addList (arena : Arena) (ids : List NodeId) : arena.Gains (arena.addList ids).2 := by
  refine ⟨arena.grows_addList ids, ?_⟩
  unfold addList
  split <;> rfl

/-- A list of names is gained. -/
theorem gains_addNames (arena : Arena) (names : List Name) :
    arena.Gains (arena.addNames names).2 := by
  refine ⟨arena.grows_addNames names, ?_⟩
  unfold addNames
  split <;> rfl

/-- The range of an added list lies in its pool. -/
theorem contains_addList (arena : Arena) (ids : List NodeId) :
    (arena.addList ids).2.Contains (arena.addList ids).1 := by
  unfold addList Contains
  split <;> simp [NodeRange.empty]

/-- A list of children adds no node. -/
@[simp] theorem size_addList (arena : Arena) (ids : List NodeId) :
    (arena.addList ids).2.size = arena.size := by
  unfold addList
  split <;> rfl

/-- A list of names adds no node. -/
@[simp] theorem size_addNames (arena : Arena) (names : List Name) :
    (arena.addNames names).2.size = arena.size := by
  unfold addNames
  split <;> rfl

/-- The range of an added list of names has its length. -/
theorem size_fst_addNames (arena : Arena) (names : List Name) :
    (arena.addNames names).1.size = names.length := by
  cases names <;> rfl

/-- A node is one node more. -/
@[simp] theorem size_add (arena : Arena) (kind : NodeKind) (span : Span) :
    (arena.add kind span).2.size = arena.size + 1 := by
  simp [add, size]

/-- The names of a uses directive are in their pools; they are those that its comment declares. -/
def Declares (arena : Arena) (names : NameTable) (source : List Char) (id : NodeId) : Prop :=
  ∀ range span, arena.node? id = some ⟨.usesDirective range, span⟩ →
    arena.ContainsNames range ∧ (∀ name ∈ arena.nameList range, names.Holds name) ∧
      (arena.nameList range).map names.text = Directive.usesNames (Text.slice source span)

/-- A node of another kind declares nothing. -/
theorem declares_add (arena : Arena) (names : NameTable) (source : List Char) {kind : NodeKind}
    (plain : ∀ range, kind ≠ .usesDirective range) (span : Span) :
    (arena.add kind span).2.Declares names source (arena.add kind span).1 := by
  intro range place found
  rw [node?_add, Option.some.injEq, Node.mk.injEq] at found
  exact absurd found.1 (plain range)

/-- The range of an added list of names lies in its pool. -/
theorem containsNames_addNames (arena : Arena) (names : List Name) :
    (arena.addNames names).2.ContainsNames (arena.addNames names).1 := by
  unfold addNames ContainsNames
  split <;> simp [NameRange.empty]

/-- A uses directive declares the names that are listed for it. -/
theorem declares_usesDirective (arena : Arena) {table : NameTable} {source : List Char}
    {names : List Name} {span : Span} (held : ∀ name ∈ names, table.Holds name)
    (texts : names.map table.text = Directive.usesNames (Text.slice source span)) :
    ((arena.addNames names).2.add (.usesDirective (arena.addNames names).1) span).2.Declares table
      source ((arena.addNames names).2.add (.usesDirective (arena.addNames names).1) span).1 := by
  have grows := (arena.addNames names).2.grows_add (.usesDirective (arena.addNames names).1) span
  have inside := arena.containsNames_addNames names
  have list := (grows.nameList inside).trans (arena.nameList_addNames names)
  intro range place found
  rw [node?_add, Option.some.injEq, Node.mk.injEq] at found
  obtain ⟨same, rfl⟩ := found
  obtain rfl := NodeKind.usesDirective.inj same
  refine ⟨grows.containsNames inside, ?_, ?_⟩ <;> rw [list]
  · exact held
  · exact texts

/-- A uses directive declares the same names while the pools grow. -/
theorem Declares.mono {before after : Arena} {names others : NameTable} {source : List Char}
    {id : NodeId} (declares : before.Declares names source id) (grows : before.Grows after)
    (adds : names.Grows others) (inside : id.index < before.size) :
    after.Declares others source id := by
  intro range span found
  have same : before.node? id = some before.nodes[id.index] := Array.getElem?_eq_getElem inside
  have known := (grows.node? same).symm.trans found
  obtain ⟨contained, held, texts⟩ := declares range span (same.trans known)
  have list := grows.nameList contained
  refine ⟨grows.containsNames contained, fun name member => ?_, ?_⟩
  · rw [list] at member
    exact adds.holds (held name member)
  · rw [list, ← texts]
    exact List.map_congr_left fun name member => adds.text (held name member)

/-- Numbers follow each other. -/
theorem idsFrom_append (first left right : Nat) :
    idsFrom first left ++ idsFrom (first + left) right = idsFrom first (left + right) := by
  simp only [idsFrom, ← List.map_append]
  rw [List.range'_append_1]

end Arena

/-- The nodes built so far with the names they refer to. -/
structure Forest where
  /-- The nodes. -/
  arena : Arena
  /-- The texts of names. -/
  names : NameTable
  /-- Whether an error was met, so that tokens may have been skipped. -/
  isDamaged : Prop

namespace Forest

/-- One forest keeps the nodes and the names of another, and its damage. -/
structure Grows (before after : Forest) : Prop where
  /-- The nodes are kept. -/
  arena : before.arena.Grows after.arena
  /-- The names are kept. -/
  names : before.names.Grows after.names
  /-- Damage is not repaired. -/
  damage : before.isDamaged → after.isDamaged

namespace Grows

variable {first second third : Forest}

/-- Every forest keeps what it has. -/
theorem refl (forest : Forest) : forest.Grows forest := ⟨.refl _, .refl _, id⟩

/-- Growing twice is growing. -/
theorem trans (left : first.Grows second) (right : second.Grows third) : first.Grows third :=
  ⟨left.arena.trans right.arena, left.names.trans right.names, right.damage ∘ left.damage⟩

end Grows

end Forest

end Vibescript
