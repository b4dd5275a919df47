import Vibescript.Proofs.Tree.Descent
import Vibescript.Proofs.Tree.Displays
import Vibescript.Proofs.Tree.Payload

/-!
# S-expressions are unambiguous

The S-expression of a node tells its production, what it holds and its fields with their labels, and
ends where its brackets close. So trees of parses with one S-expression are alike: they differ in
spans and in the numbers of nodes and names at most, and a `yield` may be bare in the one and have an
empty list of arguments in the other.
-/
namespace Vibescript

open Text

/-- Nodes with one name hold things of one form. -/
theorem SyntaxTree.form_eq_of_name (left right : SyntaxTree) {kind other : NodeKind}
    (same : kind.name = other.name) : (left.payload kind).ctorIdx = (right.payload other).ctorIdx := by
  have form (tree : SyntaxTree) (kind : NodeKind) :
      (NodeKind.ofName? kind.name).map (fun outline => (left.payload outline).ctorIdx) =
        some (tree.payload kind).ctorIdx := by
    cases kind
    case accessorDeclaration keyword names => cases keyword <;> rfl
    case typeName reference isNilable => cases reference <;> rfl
    all_goals rfl
  exact Option.some.inj ((form left kind).symm.trans (same ▸ form right other))

/-! ### Texts of nodes -/

/-- Texts, each after a space. -/
def eachAfterSpace (shown : NodeId → List Char) (ids : List NodeId) : List Char :=
  ids.flatMap fun id => ' ' :: shown id

/-- The text of a field that is filled. -/
def Arena.fieldChars (arena : Arena) (shown : NodeId → List Char) (field : String × Child) :
    List Char :=
  ' ' :: (field.1.toList ++ ':' :: ' ' :: match field.2 with
    | .node id => shown id
    | .list range => '[' :: ((eachAfterSpace shown (arena.list range)).tail ++ [']']))

namespace SyntaxTree

variable {tree : SyntaxTree} {id : NodeId}

/-- A node is shown alike at every depth that reaches below it. -/
theorem sexpWithin_eq (ordered : tree.IsOrdered) {depth more : Nat} (member : id ∈ tree.arena.ids)
    (deep : id.index < depth) (deepToo : id.index < more) :
    tree.sexpWithin depth id = tree.sexpWithin more id := by
  induction depth generalizing id more with
  | zero => exact absurd deep (Nat.not_lt_zero _)
  | succ depth ih =>
    obtain ⟨more, rfl⟩ := Nat.exists_eq_succ_of_ne_zero (Nat.ne_zero_of_lt deepToo)
    refine sexpWithin_congr rfl rfl (fun _ _ => rfl) fun child isChild => ?_
    have less := ordered.descends id member child isChild
    exact ih (ordered.child_mem member isChild) (by omega) (by omega)

/-- The characters by which a node is shown. -/
def chars (tree : SyntaxTree) (id : NodeId) : List Char := (tree.sexpOf id).toList

/-- Joined texts are the texts after spaces, without the first space. -/
theorem tail_eachAfterSpace (render : NodeId → String) (ids : List NodeId) :
    (eachAfterSpace (fun id => (render id).toList) ids).tail =
      (String.intercalate " " (ids.map render)).toList := by
  rw [String.toList_intercalate, List.map_map]
  cases ids with
  | nil => rfl
  | cons id ids =>
    induction ids generalizing id with
    | nil => simp [eachAfterSpace]
    | cons next ids ih =>
      have rest := ih next
      simp only [eachAfterSpace, List.flatMap_cons, List.tail_cons, List.cons_append, List.map_cons,
        Function.comp_apply, List.intercalate_cons_cons] at rest ⊢
      rw [← rest]
      simp

/-- Fields are shown by the texts of those that are filled. -/
theorem toList_join_fieldText (render : NodeId → String) (fields : List (String × Child)) :
    (String.join (fields.map fun (field, child) => fieldText render tree field child)).toList =
      (tree.arena.filled fields).flatMap
        (tree.arena.fieldChars fun id => (render id).toList) := by
  rw [String.toList_join]
  induction fields with
  | nil => rfl
  | cons field fields ih =>
    obtain ⟨label, child⟩ := field
    rw [List.map_cons, List.flatMap_cons, ih]
    dsimp only
    cases child with
    | node id =>
      rw [Arena.filled_node, List.flatMap_cons]
      simp [fieldText, Arena.fieldChars, toString]
    | list range =>
      rw [fieldText.eq_def]
      dsimp only
      by_cases empty : tree.arena.list range = []
      · rw [Arena.filled_empty empty, empty]
        rfl
      · obtain ⟨id, ids, isList⟩ := List.exists_cons_of_ne_nil empty
        rw [Arena.filled_list empty, List.flatMap_cons, Arena.fieldChars]
        dsimp only
        rw [tail_eachAfterSpace, isList]
        simp [toString]

/-- The children of a node, as it is shown: statements after spaces, or fields with their labels. -/
def bodyChars (tree : SyntaxTree) (shown : NodeId → List Char) : NodeKind → List Char
  | .program body => eachAfterSpace shown (tree.arena.list body)
  | kind => (tree.arena.filled kind.fields).flatMap (tree.arena.fieldChars shown)

/-- A node is shown by the name of its production, the words of what it holds, and its children. -/
theorem chars_eq (ordered : tree.IsOrdered) (member : id ∈ tree.arena.ids) :
    tree.chars id = '(' :: ((tree.kind id).name.toList ++
      (spaced ((tree.payload (tree.kind id)).words.map String.toList) ++
        (tree.bodyChars tree.chars (tree.kind id) ++ [')']))) := by
  have deep : tree.sexpOf id = tree.sexpWithin (tree.arena.size + 1) id :=
    sexpWithin_eq ordered member (Arena.mem_ids.mp member) (by have := Arena.mem_ids.mp member; omega)
  have words : (String.join ((tree.attributes (tree.kind id)).map (" " ++ ·))).toList =
      spaced ((tree.payload (tree.kind id)).words.map String.toList) := by
    rw [attributes_eq (ordered.nameRanges id member), String.toList_join, List.flatMap_map, spaced,
      List.flatMap_map]
    simp
  rw [chars, deep]
  by_cases isProgram : ∃ body, tree.kind id = .program body
  · obtain ⟨body, isProgram⟩ := isProgram
    have statements : (String.join ((tree.arena.list body).map fun statement =>
        " " ++ tree.sexpWithin tree.arena.size statement)).toList =
          tree.bodyChars tree.chars (.program body) := by
      rw [String.toList_join, List.flatMap_map]
      simp [bodyChars, eachAfterSpace, chars, sexpOf]
    rw [isProgram] at words
    rw [sexpWithin, isProgram]
    dsimp only
    rw [String.toList_append, String.toList_append, String.toList_append, String.toList_append,
      words, statements]
    simp
  · have inner : ∀ body, tree.kind id ≠ .program body := fun body same => isProgram ⟨body, same⟩
    have fields : tree.bodyChars tree.chars (tree.kind id) =
        (tree.arena.filled (tree.kind id).fields).flatMap (tree.arena.fieldChars tree.chars) := by
      cases same : tree.kind id <;> first | rfl | exact absurd same (inner _)
    have render : (fun child => (tree.sexpWithin tree.arena.size child).toList) = tree.chars := rfl
    rw [sexpWithin_of_kind rfl inner, String.toList_append, String.toList_append,
      String.toList_append, String.toList_append, words, toList_join_fieldText, fields, render]
    simp

end SyntaxTree

/-! ### Texts that end by themselves -/

section Delimits

variable {left right : Arena} {shown shownToo : NodeId → List Char} {matched : NodeId → NodeId → Prop}
  {ids others : List NodeId} {rest more : List Char}

/-- The text of a node is told apart from what follows it, and so it matches the other. -/
def Delimits (shown shownToo : NodeId → List Char) (matched : NodeId → NodeId → Prop)
    (id other : NodeId) : Prop :=
  ∀ rest more : List Char, shown id ++ rest = shownToo other ++ more →
    matched id other ∧ rest = more

/-- Texts of nodes after spaces are told apart from what follows them. -/
theorem eachAfterSpace_inj {close : Char} (closes : close ≠ ' ')
    (delimits : ∀ id ∈ ids, ∀ other ∈ others, Delimits shown shownToo matched id other)
    (same : eachAfterSpace shown ids ++ close :: rest =
      eachAfterSpace shownToo others ++ close :: more) :
    List.Forall₂ matched ids others ∧ rest = more := by
  induction ids generalizing others with
  | nil =>
    cases others with
    | nil => exact ⟨.nil, (List.cons.inj same).2⟩
    | cons other others => exact absurd (List.cons.inj same).1 closes
  | cons id ids ih =>
    cases others with
    | nil => exact absurd (List.cons.inj same).1.symm closes
    | cons other others =>
      have tails : shown id ++ (eachAfterSpace shown ids ++ close :: rest) =
          shownToo other ++ (eachAfterSpace shownToo others ++ close :: more) := by
        simpa [eachAfterSpace] using same
      obtain ⟨first, later⟩ := delimits id List.mem_cons_self other List.mem_cons_self _ _ tails
      obtain ⟨matches_, rest⟩ := ih (fun id member other memberToo =>
        delimits id (List.mem_cons_of_mem _ member) other (List.mem_cons_of_mem _ memberToo)) later
      exact ⟨.cons first matches_, rest⟩

/-- Texts after spaces begin with a space. -/
theorem eachAfterSpace_eq_cons (some : ids ≠ []) :
    eachAfterSpace shown ids = ' ' :: (eachAfterSpace shown ids).tail := by
  obtain ⟨id, rest, rfl⟩ := List.exists_cons_of_ne_nil some
  rfl

/-- A field is shown with a label before some children in brackets. -/
structure Arena.Shows (arena : Arena) (shown : NodeId → List Char) (field : String × Child) :
    Prop where
  /-- The label is made of label characters. -/
  label : ∀ char ∈ field.1.toList, NodeKind.isLabelChar char = true
  /-- There are children. -/
  filled : field.2.ids arena ≠ []
  /-- They are shown in brackets. -/
  brackets : ∀ id ∈ field.2.ids arena, ∃ inner, shown id = '(' :: inner

/-- A filled field is told apart from what follows it. -/
theorem fieldChars_inj {field other : String × Child} (shows : left.Shows shown field)
    (showsToo : right.Shows shownToo other)
    (delimits : ∀ id ∈ field.2.ids left, ∀ child ∈ other.2.ids right,
      Delimits shown shownToo matched id child)
    (same : left.fieldChars shown field ++ rest = right.fieldChars shownToo other ++ more) :
    FieldsMatch left right matched field other ∧ rest = more := by
  obtain ⟨label, child⟩ := field
  obtain ⟨labelToo, childToo⟩ := other
  simp only [Arena.fieldChars, List.cons_append, List.append_assoc] at same
  obtain ⟨texts, tails⟩ := run_inj shows.label showsToo.label (stops_cons rfl _) (stops_cons rfl _)
    (List.cons.inj same).2
  obtain rfl := String.toList_inj.mp texts
  replace tails := (List.cons.inj (List.cons.inj tails).2).2
  cases child with
  | node id =>
    cases childToo with
    | node other =>
      obtain ⟨first, rest⟩ := delimits id List.mem_cons_self other List.mem_cons_self _ _ tails
      exact ⟨⟨rfl, first⟩, rest⟩
    | list other =>
      obtain ⟨inner, bracket⟩ := shows.brackets id List.mem_cons_self
      dsimp only at tails
      rw [bracket] at tails
      exact absurd (List.cons.inj tails).1 (by decide)
  | list range =>
    cases childToo with
    | node other =>
      obtain ⟨inner, bracket⟩ := showsToo.brackets other List.mem_cons_self
      dsimp only at tails
      rw [bracket] at tails
      exact absurd (List.cons.inj tails).1 (by decide)
    | list other =>
      have filled : left.list range ≠ [] := shows.filled
      have filledToo : right.list other ≠ [] := showsToo.filled
      have items : eachAfterSpace shown (left.list range) ++ ']' :: rest =
          eachAfterSpace shownToo (right.list other) ++ ']' :: more := by
        rw [eachAfterSpace_eq_cons filled, eachAfterSpace_eq_cons filledToo]
        simpa using tails
      obtain ⟨all, rest⟩ := eachAfterSpace_inj (by decide) delimits items
      exact ⟨⟨rfl, all⟩, rest⟩

/-- Filled fields are told apart from what follows them. -/
theorem fieldsChars_inj {fields places : List (String × Child)}
    (shows : ∀ field ∈ fields, left.Shows shown field)
    (showsToo : ∀ field ∈ places, right.Shows shownToo field)
    (delimits : ∀ field ∈ fields, ∀ other ∈ places, ∀ id ∈ field.2.ids left,
      ∀ child ∈ other.2.ids right, Delimits shown shownToo matched id child)
    (same : fields.flatMap (left.fieldChars shown) ++ ')' :: rest =
      places.flatMap (right.fieldChars shownToo) ++ ')' :: more) :
    List.Forall₂ (FieldsMatch left right matched) fields places ∧ rest = more := by
  induction fields generalizing places with
  | nil =>
    cases places with
    | nil => exact ⟨.nil, (List.cons.inj same).2⟩
    | cons other places => exact absurd (List.cons.inj same).1 (by decide)
  | cons field fields ih =>
    cases places with
    | nil => exact absurd (List.cons.inj same).1 (by decide)
    | cons other places =>
      obtain ⟨own, later⟩ := List.forall_mem_cons.mp shows
      obtain ⟨ownToo, laterToo⟩ := List.forall_mem_cons.mp showsToo
      rw [List.flatMap_cons, List.flatMap_cons, List.append_assoc, List.append_assoc] at same
      obtain ⟨first, tails⟩ := fieldChars_inj own ownToo
        (delimits _ List.mem_cons_self _ List.mem_cons_self) same
      obtain ⟨all, rest⟩ := ih later laterToo (fun field member other memberToo =>
        delimits field (List.mem_cons_of_mem _ member) other (List.mem_cons_of_mem _ memberToo)) tails
      exact ⟨.cons first all, rest⟩

/-- What can follow what a node holds stands before its fields and its end. -/
theorem endsHead_fieldsChars {fields : List (String × Child)}
    (shows : ∀ field ∈ fields, left.Shows shown field) (rest : List Char) :
    EndsHead (fields.flatMap (left.fieldChars shown) ++ ')' :: rest) := by
  cases fields with
  | nil => exact .close rest
  | cons field fields =>
    rw [List.flatMap_cons, Arena.fieldChars]
    simp only [List.cons_append, List.append_assoc]
    exact .field (shows field List.mem_cons_self).label _

end Delimits

/-! ### Nodes and trees -/

/-- A `yield` without arguments: a bare one, or one with an empty list. -/
def SyntaxTree.IsPlainYield (tree : SyntaxTree) (kind : NodeKind) : Prop :=
  kind = .yieldJump none ∨ ∃ range, kind = .yieldJump (some range) ∧ tree.arena.list range = []

/-- Nodes of two trees are alike, apart from spans and numbers: they are of one production, they
hold the same besides their children, and their fields have the same labels and children that match;
only a `yield` may be bare in one tree and have an empty list of arguments in the other. -/
structure AlikeNode (left right : SyntaxTree) (matched : NodeId → NodeId → Prop) (id other : NodeId) :
    Prop where
  /-- They are of one production. -/
  production : (left.kind id).ctorIdx = (right.kind other).ctorIdx
  /-- It has one name: declarations of accessors are named by their keywords. -/
  name : (left.kind id).name = (right.kind other).name
  /-- They hold the same. -/
  payload : left.payload (left.kind id) = right.payload (right.kind other)
  /-- Their children match, field by field. -/
  fields : left.IsPlainYield (left.kind id) ∧ right.IsPlainYield (right.kind other) ∨
    List.Forall₂ (FieldsMatch left.arena right.arena matched) (left.kind id).fields
      (right.kind other).fields

namespace SyntaxTree

/-- The values of the float literals. -/
def floats (tree : SyntaxTree) : List Binary64 :=
  tree.arena.ids.filterMap fun id =>
    match tree.kind id with
    | .float value => some value
    | _ => none

/-- A node that holds a float is a float literal. -/
theorem mem_floats (tree : SyntaxTree) {id : NodeId} {value : Binary64}
    (member : id ∈ tree.arena.ids) (holds : tree.payload (tree.kind id) = .float value) :
    value ∈ tree.floats := by
  refine List.mem_filterMap.mpr ⟨id, member, ?_⟩
  cases same : tree.kind id <;> rw [same] at holds
  case float other =>
    obtain rfl := Payload.float.inj holds
    rfl
  case typeName reference isNilable => cases reference <;> exact Payload.noConfusion holds
  all_goals exact Payload.noConfusion holds

/-- The texts of float literals tell the literals of two trees apart. -/
def TellsFloats (left right : SyntaxTree) : Prop :=
  ∀ value ∈ left.floats, ∀ other ∈ right.floats, value.text = other.text → value = other

instance (left right : SyntaxTree) : Decidable (left.TellsFloats right) :=
  inferInstanceAs (Decidable (∀ _ ∈ _, ∀ _ ∈ _, _ → _))

/-- A tree in which nodes hold names under their names. -/
structure IsNamed (tree : SyntaxTree) : Prop where
  /-- It is whole. -/
  whole : tree.IsWhole
  /-- Its names are names. -/
  named : ∀ id ∈ tree.arena.ids, tree.arena.Named tree.names (tree.kind id)

variable {tree left right : SyntaxTree} {matched : NodeId → NodeId → Prop} {id other : NodeId}
  {rest more : List Char}

/-- What a filled field of a node holds are children of the node. -/
theorem mem_children_of_filled {field : String × Child}
    (listed : field ∈ tree.arena.filled (tree.kind id).fields) {child : NodeId}
    (held : child ∈ field.2.ids tree.arena) : child ∈ tree.children id :=
  List.mem_flatMap.mpr ⟨field, List.mem_of_mem_filter listed, held⟩

/-- The filled fields of a node are shown with labels before children in brackets. -/
theorem IsWhole.shows_filled (whole : tree.IsWhole) (member : id ∈ tree.arena.ids) :
    ∀ field ∈ tree.arena.filled (tree.kind id).fields, tree.arena.Shows tree.chars field := by
  intro field listed
  refine ⟨NodeKind.isLabelChar_fields _ field (List.mem_of_mem_filter listed), ?_, ?_⟩
  · have filled := (List.mem_filter.mp listed).2
    simpa using filled
  · intro child held
    have isChild := mem_children_of_filled listed held
    exact ⟨_, chars_eq whole.isOrdered (whole.isOrdered.child_mem member isChild)⟩

/-- The name of a production ends before what a node holds and its children. -/
theorem stops_head (shown : NodeId → List Char) (kind : NodeKind) (words : List (List Char))
    (rest : List Char) :
    Stops NodeKind.isLabelChar (spaced words ++ (tree.bodyChars shown kind ++ ')' :: rest)) := by
  refine stops_spaced rfl ?_
  have fields (fields : List (String × Child)) :
      Stops NodeKind.isLabelChar
        (fields.flatMap (tree.arena.fieldChars shown) ++ ')' :: rest) := by
    cases fields <;> exact stops_cons rfl _
  cases kind
  case program body =>
    rw [bodyChars]
    cases tree.arena.list body <;> exact stops_cons rfl _
  all_goals exact fields _

/-- The children of a node match, field by field, when they match in the fields that are filled. -/
theorem fields_match (same : (left.kind id).name = (right.kind other).name)
    (filled : List.Forall₂ (FieldsMatch left.arena right.arena matched)
      (left.arena.filled (left.kind id).fields) (right.arena.filled (right.kind other).fields)) :
    left.IsPlainYield (left.kind id) ∧ right.IsPlainYield (right.kind other) ∨
      List.Forall₂ (FieldsMatch left.arena right.arena matched) (left.kind id).fields
        (right.kind other).fields := by
  generalize left.kind id = kind at same filled ⊢
  generalize right.kind other = second at same filled ⊢
  have plain {tree : SyntaxTree} {kind : NodeKind}
      (production : kind.ctorIdx = (NodeKind.yieldJump none).ctorIdx)
      (empty : tree.arena.filled kind.fields = []) : tree.IsPlainYield kind := by
    obtain ⟨arguments, rfl⟩ := NodeKind.eq_yieldJump production
    cases arguments with
    | none => exact .inl rfl
    | some range =>
      refine .inr ⟨range, rfl, ?_⟩
      by_contra some
      have held := List.filter_eq_nil_iff.mp empty ("arguments", .list range) List.mem_cons_self
      exact some (by simpa [Child.ids] using held)
  by_cases bare : kind = .yieldJump none
  · subst bare
    refine .inl ⟨.inl rfl, plain (NodeKind.ctorIdx_eq_of_name same).symm ?_⟩
    exact List.forall₂_nil_left_iff.mp filled
  by_cases bareToo : second = .yieldJump none
  · subst bareToo
    refine .inl ⟨plain (NodeKind.ctorIdx_eq_of_name same) ?_, .inl rfl⟩
    exact List.forall₂_nil_right_iff.mp filled
  · obtain ⟨outline, isOutline, distinct, _, fits⟩ := NodeKind.exists_ofName? bare
    obtain ⟨_, isOutlineToo, _, _, fitsToo⟩ := NodeKind.exists_ofName? bareToo
    rw [← same, isOutline] at isOutlineToo
    obtain rfl := Option.some.inj isOutlineToo
    exact .inr (fits.agree fitsToo distinct filled)

/-- A node is told apart from what follows it when its children are. -/
theorem IsNamed.delimits (namedLeft : left.IsNamed) (namedRight : right.IsNamed)
    (floats : left.TellsFloats right) (member : id ∈ left.arena.ids)
    (memberToo : other ∈ right.arena.ids)
    (delimits : ∀ child ∈ left.children id, ∀ childToo ∈ right.children other,
      Delimits left.chars right.chars matched child childToo) :
    Delimits left.chars right.chars (AlikeNode left right matched) id other := by
  intro rest more same
  rw [chars_eq namedLeft.whole.isOrdered member,
    chars_eq namedRight.whole.isOrdered memberToo] at same
  simp only [List.cons_append, List.append_assoc, List.nil_append, List.cons.injEq, true_and] at same
  obtain ⟨names, heads⟩ := run_inj (NodeKind.isLabelChar_name _) (NodeKind.isLabelChar_name _)
    (stops_head _ _ _ rest) (stops_head _ _ _ more) same
  replace names := String.toList_inj.mp names
  have production := NodeKind.ctorIdx_eq_of_name names
  by_cases isProgram : ∃ body, left.kind id = .program body
  · obtain ⟨body, isProgram⟩ := isProgram
    rw [isProgram] at production
    obtain ⟨statements, isProgramToo⟩ := NodeKind.eq_program production.symm
    rw [isProgram, isProgramToo] at heads
    have children : left.children id = left.arena.list body := by
      rw [SyntaxTree.children, Arena.children, show left.arena.kind id = _ from isProgram]
      exact List.append_nil _
    have childrenToo : right.children other = right.arena.list statements := by
      rw [SyntaxTree.children, Arena.children, show right.arena.kind other = _ from isProgramToo]
      exact List.append_nil _
    rw [children, childrenToo] at delimits
    obtain ⟨all, tails⟩ := eachAfterSpace_inj (by decide) delimits heads
    rw [← isProgram] at production
    refine ⟨⟨production, names, ?_, .inr ?_⟩, tails⟩
    · rw [isProgram, isProgramToo]
      rfl
    · rw [isProgram, isProgramToo]
      exact .cons ⟨rfl, all⟩ .nil
  · have bodies (tree : SyntaxTree) (kind : NodeKind)
        (same : kind.ctorIdx = (left.kind id).ctorIdx) : tree.bodyChars tree.chars kind =
          (tree.arena.filled kind.fields).flatMap (tree.arena.fieldChars tree.chars) := by
      cases kind <;> first | rfl | exact absurd (NodeKind.eq_program same.symm) isProgram
    rw [bodies left _ rfl, bodies right _ production.symm] at heads
    have shows := namedLeft.whole.shows_filled member
    have showsToo := namedRight.whole.shows_filled memberToo
    have form := form_eq_of_name left right names
    have named := isNamed_payload (namedLeft.named id member)
    have namedToo := isNamed_payload (namedRight.named other memberToo)
    obtain ⟨words, tails⟩ := Payload.words_inj form named namedToo
      (endsHead_fieldsChars shows rest) (endsHead_fieldsChars showsToo more) heads
    obtain ⟨all, tails⟩ := fieldsChars_inj shows showsToo
      (fun field listed place listedToo child held childToo heldToo => delimits child
        (mem_children_of_filled listed held) childToo (mem_children_of_filled listedToo heldToo)) tails
    refine ⟨⟨production, names, ?_, fields_match names all⟩, tails⟩
    refine Payload.eq_of_words form named namedToo (fun value another isFloat isFloatToo texts => ?_)
      words
    exact floats value (left.mem_floats member isFloat) another (right.mem_floats memberToo isFloatToo)
      texts

/-- Trees are alike: their roots correspond, and nodes that correspond are alike, with children that
correspond. -/
def Alike (left right : SyntaxTree) : Prop :=
  ∃ matched : NodeId → NodeId → Prop, matched left.root right.root ∧
    ∀ id other, matched id other → AlikeNode left right matched id other

/-- Trees with one S-expression are alike. -/
theorem IsNamed.alike (namedLeft : left.IsNamed) (namedRight : right.IsNamed)
    (floats : left.TellsFloats right) (same : left.toSexp = right.toSexp) : left.Alike right := by
  -- Nodes correspond when they have one S-expression.
  let matched (id other : NodeId) : Prop := id ∈ left.arena.ids ∧ other ∈ right.arena.ids ∧
    left.chars id = right.chars other
  have delimits (bound : Nat) : ∀ id ∈ left.arena.ids, id.index < bound →
      ∀ other ∈ right.arena.ids, Delimits left.chars right.chars
        (fun id other => matched id other ∧ AlikeNode left right matched id other) id other := by
    induction bound with
    | zero => exact fun id _ less => absurd less (Nat.not_lt_zero _)
    | succ bound ih =>
      intro id member less other memberToo rest more same
      have children : ∀ child ∈ left.children id, ∀ childToo ∈ right.children other,
          Delimits left.chars right.chars matched child childToo := by
        intro child isChild childToo isChildToo rest more same
        have lower := namedLeft.whole.descends id member child isChild
        obtain ⟨⟨found, _⟩, tails⟩ :=
          ih child (namedLeft.whole.isOrdered.child_mem member isChild) (by omega)
          childToo (namedRight.whole.isOrdered.child_mem memberToo isChildToo) rest more same
        exact ⟨found, tails⟩
      obtain ⟨alike, rfl⟩ := namedLeft.delimits namedRight floats member memberToo children rest more
        same
      exact ⟨⟨⟨member, memberToo, List.append_cancel_right same⟩, alike⟩, rfl⟩
  refine ⟨matched, ⟨?_, ?_, congrArg String.toList same⟩, ?_⟩
  · exact Arena.mem_ids.mpr (by have := namedLeft.whole.root; omega)
  · exact Arena.mem_ids.mpr (by have := namedRight.whole.root; omega)
  · rintro id other ⟨member, memberToo, texts⟩
    exact (delimits _ id member (Nat.lt_succ_self _) other memberToo [] []
      (congrArg (· ++ []) texts)).1.2

end SyntaxTree

/-- In the tree of a parse nodes hold names under their names. -/
theorem isNamed_parseWith (options : ParseOptions) (source : String) :
    (parseWith options source).tree.IsNamed :=
  ⟨isWhole_parseWith options source, named_parseWith options source⟩

/-- S-expressions tell the trees of parses apart, whatever their source texts and options, errors and
nesting limits: trees with one S-expression are alike, as long as float literals are told apart by
their texts. -/
theorem alike_of_toSexp (options others : ParseOptions) (source text : String)
    (floats : (parseWith options source).tree.TellsFloats (parseWith others text).tree)
    (same : (parseWith options source).tree.toSexp = (parseWith others text).tree.toSexp) :
    (parseWith options source).tree.Alike (parseWith others text).tree :=
  (isNamed_parseWith options source).alike (isNamed_parseWith others text) floats same

/-- Two texts with one S-expression, which differ in spaces and in the arguments of a `yield`. -/
theorem alike_yield :
    (parseWith .usual "x = 1.5 yield").tree.TellsFloats (parseWith .usual "x  =  1.50 yield()").tree ∧
      (parseWith .usual "x = 1.5 yield").tree.toSexp =
        (parseWith .usual "x  =  1.50 yield()").tree.toSexp ∧
      (parseWith .usual "x = 1.5 yield").tree.Alike (parseWith .usual "x  =  1.50 yield()").tree :=
  have floats : (parseWith .usual "x = 1.5 yield").tree.TellsFloats
      (parseWith .usual "x  =  1.50 yield()").tree := by decide +kernel
  have same : (parseWith .usual "x = 1.5 yield").tree.toSexp =
      (parseWith .usual "x  =  1.50 yield()").tree.toSexp := by decide +kernel
  ⟨floats, same, alike_of_toSexp .usual .usual "x = 1.5 yield" "x  =  1.50 yield()" floats same⟩

end Vibescript
