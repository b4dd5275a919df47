import Mathlib.Data.List.Forall2
import Vibescript.Proofs.Tree.Growth
import Vibescript.Tree.Printer

/-!
# Nodes that are shown alike

Two parses may build the same tree under different numbers, with the same texts under different
names. `Agreement` says when two answers of such parses stand for the same; what agrees goes on
agreeing while the forests of both parses grow. Nodes agree when they have one S-expression, and two
new nodes do so when their kinds are alike: the attributes are the same words, and the children agree
field by field.
-/
namespace Vibescript

/-- Two forests side by side. -/
structure Sides where
  /-- The forest on the left. -/
  left : Forest
  /-- The forest on the right. -/
  right : Forest

namespace Sides

/-- Both forests grow. -/
structure Grows (before after : Sides) : Prop where
  /-- The forest on the left grows. -/
  left : before.left.Grows after.left
  /-- The forest on the right grows. -/
  right : before.right.Grows after.right

/-- Every forest keeps what it has. -/
theorem Grows.refl (sides : Sides) : sides.Grows sides := ⟨.refl _, .refl _⟩

/-- Growing twice is growing. -/
theorem Grows.trans {first second third : Sides} (left : first.Grows second)
    (right : second.Grows third) : first.Grows third :=
  ⟨left.left.trans right.left, left.right.trans right.right⟩

end Sides

/-- What stays true of two forests while they grow. -/
structure Lasting where
  /-- Whether it is true. -/
  holds : Sides → Prop
  /-- It stays true. -/
  mono : ∀ {before after : Sides}, before.Grows after → holds before → holds after

namespace Lasting

/-- What does not depend on the forests. -/
def of (fact : Prop) : Lasting := ⟨fun _ => fact, fun _ => id⟩

/-- What is always true. -/
def always : Lasting := of True

/-- Both of two facts. -/
def and (first second : Lasting) : Lasting :=
  ⟨fun sides => first.holds sides ∧ second.holds sides, fun grows => .imp (first.mono grows)
    (second.mono grows)⟩

end Lasting

/-- A node has an S-expression, and keeps it while the forest grows. -/
structure Forest.Displays (forest : Forest) (id : NodeId) (shown : String) : Prop where
  /-- It is a node. -/
  inside : id.index < forest.arena.size
  /-- It is shown so. -/
  shows : ∀ after : Forest, forest.Grows after → ∀ (root : NodeId) (depth : Nat),
    id.index < depth → SyntaxTree.sexpWithin ⟨after.arena, after.names, root⟩ depth id = shown

/-- A node keeps its S-expression. -/
theorem Forest.Displays.mono {before after : Forest} {id : NodeId} {shown : String}
    (displays : before.Displays id shown) (grows : before.Grows after) : after.Displays id shown :=
  ⟨Nat.lt_of_lt_of_le displays.inside grows.arena.size_le,
    fun later further => displays.shows later (grows.trans further)⟩

/-- The S-expressions of nodes at one moment. -/
theorem Forest.map_sexpWithin {forest after : Forest} {ids : List NodeId} {texts : List String}
    (displays : List.Forall₂ forest.Displays ids texts) (grows : forest.Grows after) (root : NodeId)
    {depth : Nat} (deep : forest.arena.size ≤ depth) :
    ids.map (SyntaxTree.sexpWithin ⟨after.arena, after.names, root⟩ depth) = texts := by
  induction displays with
  | nil => rfl
  | cons first _ ih =>
    rw [List.map_cons, ih,
      first.shows after grows root depth (Nat.lt_of_lt_of_le first.inside deep)]

/-- When two answers stand for the same. -/
abbrev Agreement (α : Type) := α → α → Lasting

namespace Agreement

variable {α : Type}

/-- Any answers. -/
def any : Agreement α := fun _ _ => .always

/-- The same answer. -/
def same : Agreement α := fun answer other => .of (answer = other)

/-- Names of one text. -/
def name : Agreement Name := fun left right =>
  { holds := fun sides => sides.left.names.Holds left ∧ sides.right.names.Holds right ∧
      sides.left.names.text left = sides.right.names.text right
    mono := fun grows ⟨known, knownOther, text⟩ =>
      ⟨grows.left.names.holds known, grows.right.names.holds knownOther,
        (grows.left.names.text known).trans
          (text.trans (grows.right.names.text knownOther).symm)⟩ }

/-- Nodes with one S-expression. -/
def node : Agreement NodeId := fun left right =>
  { holds := fun sides => ∃ shown, sides.left.Displays left shown ∧ sides.right.Displays right shown
    mono := fun grows ⟨shown, displays, displaysOther⟩ =>
      ⟨shown, displays.mono grows.left, displaysOther.mono grows.right⟩ }

/-- Lists that agree place by place. -/
def list (agree : Agreement α) : Agreement (List α) := fun lefts rights =>
  { holds := fun sides => List.Forall₂ (fun left right => (agree left right).holds sides) lefts rights
    mono := fun grows => List.Forall₂.imp fun _ _ => (agree _ _).mono grows }

/-- Arrays that agree place by place. -/
def items (agree : Agreement α) : Agreement (Array α) := fun lefts rights =>
  list agree lefts.toList rights.toList

/-- Answers that agree, or none on both sides. -/
def maybe (agree : Agreement α) : Agreement (Option α)
  | none, none => .always
  | some left, some right => agree left right
  | _, _ => .of False

/-- Rounds that both go on, or both end, with states that agree. -/
def round (agree : Agreement α) : Agreement (ForInStep α)
  | .done left, .done right => agree left right
  | .yield left, .yield right => agree left right
  | _, _ => .of False

/-- Rounds that both go on with states that agree. -/
def yielded (agree : Agreement α) : Agreement (ForInStep α)
  | .yield left, .yield right => agree left right
  | _, _ => .of False

/-- Ranges of nodes that agree. -/
def range : Agreement NodeRange := fun left right =>
  { holds := fun sides => sides.left.arena.Contains left ∧ sides.right.arena.Contains right ∧
      (list node (sides.left.arena.list left) (sides.right.arena.list right)).holds sides
    mono := fun grows ⟨inside, insideOther, nodes⟩ => by
      refine ⟨grows.left.arena.contains inside, grows.right.arena.contains insideOther, ?_⟩
      rw [grows.left.arena.list inside, grows.right.arena.list insideOther]
      exact (list node _ _).mono grows nodes }

/-- Ranges of names that agree. -/
def nameRange : Agreement NameRange := fun left right =>
  { holds := fun sides => sides.left.arena.ContainsNames left ∧
      sides.right.arena.ContainsNames right ∧
      (list name (sides.left.arena.nameList left) (sides.right.arena.nameList right)).holds sides
    mono := fun grows ⟨inside, insideOther, names⟩ => by
      refine ⟨grows.left.arena.containsNames inside, grows.right.arena.containsNames insideOther, ?_⟩
      rw [grows.left.arena.nameList inside, grows.right.arena.nameList insideOther]
      exact (list name _ _).mono grows names }

/-- Children that agree. -/
def child : Agreement Child
  | .node left, .node right => node left right
  | .list left, .list right => range left right
  | _, _ => .of False

/-- Fields of one name whose children agree. -/
def field : Agreement (String × Child) := fun left right =>
  (Lasting.of (left.1 = right.1)).and (child left.2 right.2)

/-- Texts of names that agree. -/
theorem text {left right : Name} {sides : Sides} (agrees : (name left right).holds sides) :
    sides.left.names.text left = sides.right.names.text right := agrees.2.2

/-- Rounds that both go on agree. -/
theorem round_of_yielded {agree : Agreement α} {left right : ForInStep α} {sides : Sides}
    (agrees : (yielded agree left right).holds sides) : (round agree left right).holds sides := by
  cases left <;> cases right <;> first | exact agrees | exact agrees.elim

/-- Names that agree have the same texts. -/
theorem texts {lefts rights : List Name} {sides : Sides}
    (agrees : (list name lefts rights).holds sides) :
    lefts.map sides.left.names.text = rights.map sides.right.names.text := by
  induction agrees with
  | nil => rfl
  | cons first _ ih => rw [List.map_cons, List.map_cons, text first, ih]

variable {sides after : Sides}

/-- Names that agree have one text from now on. -/
theorem text_grows {left right : Name} (agrees : (name left right).holds sides)
    (grows : sides.Grows after) : after.left.names.text left = after.right.names.text right :=
  text ((name left right).mono grows agrees)

/-- Ranges of names that agree have the same texts from now on. -/
theorem texts_grows {left right : NameRange} (agrees : (nameRange left right).holds sides)
    (grows : sides.Grows after) (root place : NodeId) :
    SyntaxTree.texts ⟨after.left.arena, after.left.names, root⟩ left =
      SyntaxTree.texts ⟨after.right.arena, after.right.names, place⟩ right :=
  texts ((nameRange left right).mono grows agrees).2.2

/-- Ranges of names that agree have the same size. -/
theorem size_nameRange {left right : NameRange} (agrees : (nameRange left right).holds sides) :
    left.size = right.size := by
  have length {arena : Arena} {range : NameRange} (inside : arena.ContainsNames range) :
      (arena.nameList range).length = range.size := by
    have short : range.start + range.size ≤ arena.names.size := inside
    rw [Arena.nameList, Array.length_toList, Array.size_extract]
    omega
  obtain ⟨inside, insideOther, names⟩ := agrees
  rw [← length inside, ← length insideOther]
  exact List.Forall₂.length_eq names

/-- No answers. -/
theorem empty {agree : Agreement α} : (items agree #[] #[]).holds sides := .nil

/-- One answer more. -/
theorem push {agree : Agreement α} {lefts rights : Array α} {left right : α}
    (agrees : (items agree lefts rights).holds sides) (last : (agree left right).holds sides) :
    (items agree (lefts.push left) (rights.push right)).holds sides := by
  show List.Forall₂ _ (lefts.push left).toList (rights.push right).toList
  rw [Array.toList_push, Array.toList_push]
  exact List.rel_append agrees (.cons last .nil)

/-- Lists that agree are as long as each other. -/
theorem size_eq {agree : Agreement α} {lefts rights : Array α}
    (agrees : (items agree lefts rights).holds sides) : lefts.size = rights.size :=
  List.Forall₂.length_eq agrees

/-- A field with one child. -/
theorem one (field : String) {left right : NodeId} (agrees : (node left right).holds sides) :
    (list Agreement.field (NodeKind.one field left) (NodeKind.one field right)).holds sides :=
  .cons ⟨rfl, agrees⟩ .nil

/-- A field with a list of children. -/
theorem many (field : String) {left right : NodeRange} (agrees : (range left right).holds sides) :
    (list Agreement.field (NodeKind.many field left) (NodeKind.many field right)).holds sides :=
  .cons ⟨rfl, agrees⟩ .nil

/-- A field that may be absent. -/
theorem optional (field : String) {left right : Option NodeId}
    (agrees : (maybe node left right).holds sides) :
    (list Agreement.field (NodeKind.optional field left) (NodeKind.optional field right)).holds
      sides := by
  cases left <;> cases right <;> first | exact agrees.elim | skip
  · exact .nil
  · exact .cons ⟨rfl, agrees⟩ .nil

/-- Fields before others. -/
theorem append {lefts rights others more : List (String × Child)}
    (first : (list field lefts rights).holds sides) (second : (list field others more).holds sides) :
    (list field (lefts ++ others) (rights ++ more)).holds sides :=
  List.rel_append first second

end Agreement

/-- Kinds of nodes that are shown alike. -/
structure NodeKind.Alike (sides : Sides) (kind other : NodeKind) : Prop where
  /-- They are of one production. -/
  name : kind.name = other.name
  /-- They are no whole text. -/
  inner : (∀ body, kind ≠ .program body) ∧ ∀ body, other ≠ .program body
  /-- They have the same attributes from now on. -/
  attributes : ∀ after : Sides, sides.Grows after → ∀ root place : NodeId,
    SyntaxTree.attributes ⟨after.left.arena, after.left.names, root⟩ kind =
      SyntaxTree.attributes ⟨after.right.arena, after.right.names, place⟩ other
  /-- Their children agree. -/
  fields : (Agreement.list Agreement.field kind.fields other.fields).holds sides

namespace SyntaxTree

/-- Everything but a whole text is shown with its fields. -/
theorem sexpWithin_of_kind {tree : SyntaxTree} {id : NodeId} {kind : NodeKind}
    (isKind : tree.kind id = kind) (inner : ∀ body, kind ≠ .program body) (depth : Nat) :
    tree.sexpWithin (depth + 1) id =
      "(" ++ kind.name ++ String.join ((tree.attributes kind).map (" " ++ ·)) ++
        String.join (kind.fields.map fun (field, child) =>
          fieldText (tree.sexpWithin depth) tree field child) ++ ")" := by
  rw [sexpWithin, isKind]
  cases kind <;> first | rfl | exact absurd rfl (inner _)

end SyntaxTree

namespace Agreement

variable {sides : Sides}

/-- Nodes that agree have the same S-expressions. -/
theorem displayed {lefts rights : List NodeId} (agrees : (list node lefts rights).holds sides) :
    ∃ texts, List.Forall₂ sides.left.Displays lefts texts ∧
      List.Forall₂ sides.right.Displays rights texts := by
  induction agrees with
  | nil => exact ⟨[], .nil, .nil⟩
  | cons first _ ih =>
    obtain ⟨text, displays, displaysOther⟩ := first
    obtain ⟨texts, displaysAll, displaysOthers⟩ := ih
    exact ⟨text :: texts, .cons displays displaysAll, .cons displaysOther displaysOthers⟩

/-- The text of a field while a forest grows. -/
def FieldShows (forest : Forest) (field : String × Child) (text : String) : Prop :=
  ∀ after : Forest, forest.Grows after → ∀ (root : NodeId) (depth : Nat),
    forest.arena.size ≤ depth →
    SyntaxTree.fieldText (SyntaxTree.sexpWithin ⟨after.arena, after.names, root⟩ depth)
      ⟨after.arena, after.names, root⟩ field.1 field.2 = text

/-- The text of a field that holds a list, from those of its nodes. -/
def listText (label : String) : List String → String
  | [] => ""
  | items => s!" {label}: [" ++ String.intercalate " " items ++ "]"

/-- The text of a field with one node. -/
theorem fieldShows_node {forest : Forest} {id : NodeId} {text : String}
    (displays : forest.Displays id text) (label : String) :
    FieldShows forest (label, .node id) (s!" {label}: " ++ text) :=
  fun after grows root depth deep => congrArg (s!" {label}: " ++ ·)
    (displays.shows after grows root depth (Nat.lt_of_lt_of_le displays.inside deep))

/-- The text of a field with a list of nodes. -/
theorem fieldShows_list {forest : Forest} {range : NodeRange} {texts : List String}
    (inside : forest.arena.Contains range)
    (displays : List.Forall₂ forest.Displays (forest.arena.list range) texts) (label : String) :
    FieldShows forest (label, .list range) (listText label texts) := by
  intro after grows root depth deep
  rw [SyntaxTree.fieldText, grows.arena.list inside]
  exact congrArg (listText label) (Forest.map_sexpWithin displays grows root deep)

/-- A field goes on to be shown by its text. -/
theorem FieldShows.mono {before after : Forest} {field : String × Child} {text : String}
    (shows : FieldShows before field text) (grows : before.Grows after) :
    FieldShows after field text :=
  fun later further root depth deep => shows later (grows.trans further) root depth
    (Nat.le_trans grows.arena.size_le deep)

/-- Fields that agree are shown by one text, from now on. -/
theorem fieldShown {left right : String × Child} (agrees : (field left right).holds sides) :
    ∃ text, FieldShows sides.left left text ∧ FieldShows sides.right right text := by
  obtain ⟨label, child⟩ := left
  obtain ⟨_, other⟩ := right
  obtain ⟨rfl, agrees⟩ := agrees
  cases child with
  | node child =>
    cases other with
    | node other =>
      obtain ⟨text, displays, displaysOther⟩ := agrees
      exact ⟨_, fieldShows_node displays label, fieldShows_node displaysOther label⟩
    | list => exact agrees.elim
  | list range =>
    cases other with
    | node => exact agrees.elim
    | list other =>
      obtain ⟨inside, insideOther, nodes⟩ := agrees
      obtain ⟨texts, displays, displaysOther⟩ := displayed nodes
      exact ⟨_, fieldShows_list inside displays label,
        fieldShows_list insideOther displaysOther label⟩

/-- Lists of fields that agree are shown by the same texts, from now on. -/
theorem fieldsShown {lefts rights : List (String × Child)}
    (agrees : (list field lefts rights).holds sides) :
    ∃ texts, List.Forall₂ (FieldShows sides.left) lefts texts ∧
      List.Forall₂ (FieldShows sides.right) rights texts := by
  induction agrees with
  | nil => exact ⟨[], .nil, .nil⟩
  | cons first _ ih =>
    obtain ⟨text, shows, showsOther⟩ := fieldShown first
    obtain ⟨texts, rest, restOther⟩ := ih
    exact ⟨text :: texts, .cons shows rest, .cons showsOther restOther⟩

/-- The texts of fields at one moment. -/
theorem map_fieldText {forest after : Forest} {fields : List (String × Child)} {texts : List String}
    (shows : List.Forall₂ (FieldShows forest) fields texts) (grows : forest.Grows after)
    (root : NodeId) {depth : Nat} (deep : forest.arena.size ≤ depth) :
    (fields.map fun (field, child) =>
      SyntaxTree.fieldText (SyntaxTree.sexpWithin ⟨after.arena, after.names, root⟩ depth)
        ⟨after.arena, after.names, root⟩ field child) = texts := by
  induction shows with
  | nil => rfl
  | cons first _ ih =>
    rw [List.map_cons, ih]
    exact congrArg (· :: _) (first after grows root depth deep)

end Agreement

/-- New nodes of kinds that are alike agree. -/
theorem NodeKind.Alike.node {sides after : Sides} {kind other : NodeKind} {id place : NodeId}
    {span spanOther : Span} (alike : kind.Alike sides other) (grows : sides.Grows after)
    (found : after.left.arena.node? id = some ⟨kind, span⟩)
    (foundOther : after.right.arena.node? place = some ⟨other, spanOther⟩)
    (new : sides.left.arena.size ≤ id.index) (newOther : sides.right.arena.size ≤ place.index) :
    (Agreement.node id place).holds after := by
  obtain ⟨texts, shows, showsOther⟩ := Agreement.fieldsShown alike.fields
  -- The attributes on the left are at every moment those on the right now.
  refine ⟨"(" ++ kind.name ++ String.join ((SyntaxTree.attributes ⟨sides.right.arena,
      sides.right.names, ⟨0⟩⟩ other).map (" " ++ ·)) ++ String.join texts ++ ")",
    ⟨(Array.getElem?_eq_some_iff.mp found).choose, fun later further root depth deep => ?_⟩,
    ⟨(Array.getElem?_eq_some_iff.mp foundOther).choose, fun later further root depth deep => ?_⟩⟩
  · obtain ⟨depth, rfl⟩ := Nat.exists_eq_succ_of_ne_zero (Nat.ne_zero_of_lt deep)
    have isKind : SyntaxTree.kind ⟨later.arena, later.names, root⟩ id = kind := by
      rw [SyntaxTree.kind, Arena.kind, further.arena.node? found]
      rfl
    have leftGrows := grows.left.trans further
    have attributes := alike.attributes ⟨later, sides.right⟩ ⟨leftGrows, .refl _⟩ root ⟨0⟩
    rw [SyntaxTree.sexpWithin_of_kind isKind alike.inner.1, attributes,
      Agreement.map_fieldText shows leftGrows root (by omega)]
  · obtain ⟨depth, rfl⟩ := Nat.exists_eq_succ_of_ne_zero (Nat.ne_zero_of_lt deep)
    have isKind : SyntaxTree.kind ⟨later.arena, later.names, root⟩ place = other := by
      rw [SyntaxTree.kind, Arena.kind, further.arena.node? foundOther]
      rfl
    have rightGrows := grows.right.trans further
    have here := alike.attributes sides (.refl _) ⟨0⟩ ⟨0⟩
    have there := alike.attributes ⟨sides.left, later⟩ ⟨.refl _, rightGrows⟩ ⟨0⟩ root
    rw [SyntaxTree.sexpWithin_of_kind isKind alike.inner.2, ← there, here, alike.name,
      Agreement.map_fieldText showsOther rightGrows root (by omega)]

/-- Kinds of nodes that are shown alike. -/
def Agreement.kind : Agreement NodeKind := fun kind other =>
  { holds := fun sides => kind.Alike sides other
    mono := fun grows alike => ⟨alike.name, alike.inner,
      fun _ further => alike.attributes _ (grows.trans further),
      (Agreement.list Agreement.field kind.fields other.fields).mono grows alike.fields⟩ }

end Vibescript
