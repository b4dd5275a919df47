import Mathlib.Data.List.Forall2
import Vibescript.Proofs.Tree.Children

/-!
# Productions by their names

The name of a production tells the production, and so the fields that its nodes have: a child may be
absent from its field, but a list of children is always in its field, apart from the arguments of a
bare `yield`. So nodes of one production have the same fields when those that are not empty match.
-/
namespace Vibescript

namespace NodeKind

/-- A node with all fields of the production with a name. -/
def ofName? : String → Option NodeKind
  | "program" => some (program default)
  | "method" => some (method false ⟨false, default⟩ (some default) (some default) default)
  | "export_method" => some (exportMethod default)
  | "parameters" => some (parameters default)
  | "simple_parameter" => some (simpleParameter default (some default))
  | "typed_parameter" => some (typedParameter default default (some default))
  | "ivar_parameter" => some (variableParameter default (some default))
  | "type_annotation" => some (typeUnion default)
  | "type_name" => some (typeName .nil false)
  | "class" => some (classDeclaration default default)
  | "property_declaration" => some (accessorDeclaration .property default)
  | "getter_declaration" => some (accessorDeclaration .getter default)
  | "setter_declaration" => some (accessorDeclaration .setter default)
  | "class_variable_assignment" => some (classVariableAssignment default default)
  | "if" => some (ifStatement default default default (some default))
  | "elsif" => some (elsifClause default default)
  | "else" => some (elseClause default)
  | "unless" => some (unlessStatement default default (some default))
  | "case" => some (caseStatement default default (some default))
  | "when" => some (whenClause default default)
  | "while" => some (whileLoop default default)
  | "until" => some (untilLoop default default)
  | "for" => some (forLoop default default default)
  | "begin" => some (beginBlock default default (some default))
  | "rescue" => some (rescueClause none default)
  | "ensure" => some (ensureClause default)
  | "return" => some (returnJump (some default))
  | "break" => some breakJump
  | "next" => some nextJump
  | "raise" => some (raiseJump default)
  | "yield" => some (yieldJump (some default))
  | "require" => some (requireImport default default (some default))
  | "version_directive" => some (versionDirective 0 0)
  | "uses_directive" => some (usesDirective default)
  | "assignment" => some (assignment default default)
  | "compound_assignment" => some (compoundAssignment .add default default)
  | "binary" => some (binary .or default default)
  | "unary" => some (unary .not default)
  | "call" => some (call (some default) default default (some default))
  | "member_access" => some (memberAccess default default (some default))
  | "subscript" => some (subscript default default)
  | "block" => some (block default default)
  | "keyword_argument" => some (keywordArgument default default)
  | "identifier" => some (identifier default)
  | "constant" => some (constant default)
  | "integer" => some (integer 0)
  | "float" => some (float default)
  | "string" => some (string default)
  | "symbol" => some (symbol default)
  | "true" => some trueLiteral
  | "false" => some falseLiteral
  | "nil" => some nilLiteral
  | "self" => some selfReference
  | "instance_variable" => some (instanceVariable default)
  | "class_variable" => some (classVariable default)
  | "array" => some (array default)
  | "hash" => some (hash default)
  | "hash_entry" => some (hashEntry default default)
  | "parenthesized" => some (parenthesized default)
  | "error" => some error
  | _ => none

/-- The production with the name of a node is its own. -/
theorem ofName?_name (kind : NodeKind) :
    (ofName? kind.name).map NodeKind.ctorIdx = some kind.ctorIdx := by
  cases kind
  case accessorDeclaration keyword names => cases keyword <;> rfl
  all_goals rfl

/-- Nodes with one name are of one production. -/
theorem ctorIdx_eq_of_name {left right : NodeKind} (same : left.name = right.name) :
    left.ctorIdx = right.ctorIdx :=
  Option.some.inj ((ofName?_name left).symm.trans (same ▸ ofName?_name right))

/-- A character of the name of a production or of a field. -/
def isLabelChar (char : Char) : Bool := char.isLower || char == '_'

/-- The name of a production is made of label characters. -/
theorem isLabelChar_name (kind : NodeKind) : ∀ char ∈ kind.name.toList, isLabelChar char = true := by
  cases kind
  case accessorDeclaration keyword names =>
    cases keyword <;> (dsimp only [name]; exact List.all_eq_true.mp (by decide +kernel))
  all_goals
    dsimp only [name]
    exact List.all_eq_true.mp (by decide +kernel)

end NodeKind

/-- Fields fill the places of others: a child may be absent, a list of children may not. -/
inductive Fits : List (String × Child) → List (String × Child) → Prop
  /-- There are no places. -/
  | nil : Fits [] []
  /-- A child is there. -/
  | node {places fields : List (String × Child)} {label : String} {place id : NodeId}
    (fits : Fits places fields) : Fits ((label, .node place) :: places) ((label, .node id) :: fields)
  /-- A child is absent. -/
  | absent {places fields : List (String × Child)} {label : String} {place : NodeId}
    (fits : Fits places fields) : Fits ((label, .node place) :: places) fields
  /-- A list of children is there. -/
  | list {places fields : List (String × Child)} {label : String} {place range : NodeRange}
    (fits : Fits places fields) :
    Fits ((label, .list place) :: places) ((label, .list range) :: fields)

namespace Fits

open NodeKind

variable {places fields more others : List (String × Child)}

/-- Fields after fields. -/
theorem append (first : Fits places fields) (second : Fits more others) :
    Fits (places ++ more) (fields ++ others) := by
  induction first with
  | nil => exact second
  | node _ ih => exact ih.node
  | absent _ ih => exact ih.absent
  | list _ ih => exact ih.list

/-- A field with one child. -/
theorem one (label : String) (place id : NodeId) :
    Fits (NodeKind.one label place) (NodeKind.one label id) := .node .nil

/-- A field with a list of children. -/
theorem many (label : String) (place range : NodeRange) :
    Fits (NodeKind.many label place) (NodeKind.many label range) := .list .nil

/-- A field with a child that may be absent. -/
theorem optional (label : String) (place : NodeId) (id : Option NodeId) :
    Fits (NodeKind.optional label (some place)) (NodeKind.optional label id) := by
  cases id with
  | none => exact .absent .nil
  | some id => exact .node .nil

/-- Fields have the labels of places. -/
theorem labels (fits : Fits places fields) : fields.map Prod.fst ⊆ places.map Prod.fst := by
  induction fits with
  | nil => exact List.Subset.refl _
  | node _ ih => exact List.cons_subset_cons _ ih
  | absent _ ih => exact List.subset_cons_of_subset _ ih
  | list _ ih => exact List.cons_subset_cons _ ih

end Fits

/-- The fields that hold children. -/
def Arena.filled (arena : Arena) (fields : List (String × Child)) : List (String × Child) :=
  fields.filter fun field => !(field.2.ids arena).isEmpty

/-- Children match: one matches one, and of two lists each matches the one at its place. -/
def Child.Matches (left right : Arena) (matched : NodeId → NodeId → Prop) : Child → Child → Prop
  | node id, node other => matched id other
  | list range, list other => List.Forall₂ matched (left.list range) (right.list other)
  | _, _ => False

/-- Fields match: they have one label, and what they hold matches. -/
def FieldsMatch (left right : Arena) (matched : NodeId → NodeId → Prop)
    (field other : String × Child) : Prop :=
  field.1 = other.1 ∧ field.2.Matches left right matched other.2

section Filled

variable {left right arena : Arena} {matched : NodeId → NodeId → Prop}
  {places fields others : List (String × Child)} {label : String} {id : NodeId} {range : NodeRange}

/-- A field with one child is filled. -/
@[simp] theorem Arena.filled_node :
    arena.filled ((label, .node id) :: fields) = (label, .node id) :: arena.filled fields := rfl

/-- A field with an empty list is not filled. -/
theorem Arena.filled_empty (empty : arena.list range = []) :
    arena.filled ((label, .list range) :: fields) = arena.filled fields := by
  simp [filled, Child.ids, empty]

/-- A field with a list of some children is filled. -/
theorem Arena.filled_list (some : arena.list range ≠ []) :
    arena.filled ((label, .list range) :: fields) =
      (label, .list range) :: arena.filled fields := by
  simp [filled, Child.ids, some]

/-- Matching is the same both ways. -/
theorem FieldsMatch.flip {field other : String × Child}
    (match_ : FieldsMatch left right matched field other) :
    FieldsMatch right left (fun id other => matched other id) other field := by
  obtain ⟨label, child⟩ := field
  obtain ⟨_, second⟩ := other
  obtain ⟨rfl, children⟩ := match_
  refine ⟨rfl, ?_⟩
  cases child <;> cases second
  · exact children
  · exact children.elim
  · exact children.elim
  · exact List.Forall₂.flip children

/-- A field that matches a filled one has the label of a place. -/
theorem Fits.label_mem {field : String × Child} (fits : Fits places others)
    (agree : List.Forall₂ (FieldsMatch left right matched) (field :: fields)
      (arena.filled others)) : field.1 ∈ places.map Prod.fst := by
  generalize same : arena.filled others = filled at agree
  cases agree with
  | @cons _ other _ rest first _ =>
    have member : other ∈ others := List.mem_of_mem_filter (same ▸ List.mem_cons_self)
    rw [first.1]
    exact fits.labels (List.mem_map_of_mem member)

/-- Fields of one production match when those that are filled do. -/
theorem Fits.agree (fits : Fits places fields) (fitsToo : Fits places others)
    (distinct : (places.map Prod.fst).Nodup)
    (agree : List.Forall₂ (FieldsMatch left right matched) (left.filled fields)
      (right.filled others)) : List.Forall₂ (FieldsMatch left right matched) fields others := by
  induction fits generalizing others with
  | nil =>
    cases fitsToo
    exact .nil
  | @node places fields label place id fits ih =>
    obtain ⟨fresh, distinct⟩ := List.nodup_cons.mp distinct
    cases fitsToo with
    | node fitsToo =>
      obtain ⟨first, rest⟩ := List.forall₂_cons.mp agree
      exact .cons first (ih fitsToo distinct rest)
    | absent fitsToo => exact absurd (fitsToo.label_mem agree) fresh
  | @absent places fields label place fits ih =>
    obtain ⟨fresh, distinct⟩ := List.nodup_cons.mp distinct
    cases fitsToo with
    | node fitsToo =>
      exact absurd (fits.label_mem (List.Forall₂.flip (agree.imp fun _ _ => FieldsMatch.flip))) fresh
    | absent fitsToo => exact ih fitsToo distinct agree
  | @list places fields label place range fits ih =>
    obtain ⟨fresh, distinct⟩ := List.nodup_cons.mp distinct
    cases fitsToo with
    | @list _ others _ _ other fitsToo =>
      by_cases empty : left.list range = [] <;> by_cases emptyToo : right.list other = []
      · rw [Arena.filled_empty empty, Arena.filled_empty emptyToo] at agree
        refine .cons ⟨rfl, ?_⟩ (ih fitsToo distinct agree)
        rw [Child.Matches, empty, emptyToo]
        exact .nil
      · rw [Arena.filled_empty empty, Arena.filled_list emptyToo] at agree
        exact absurd (fits.label_mem (List.Forall₂.flip (agree.imp fun _ _ => FieldsMatch.flip))) fresh
      · rw [Arena.filled_list empty, Arena.filled_empty emptyToo] at agree
        exact absurd (fitsToo.label_mem agree) fresh
      · rw [Arena.filled_list empty, Arena.filled_list emptyToo] at agree
        obtain ⟨first, rest⟩ := List.forall₂_cons.mp agree
        exact .cons first (ih fitsToo distinct rest)

end Filled

namespace NodeKind
/-- The fields of a node are those of its production, apart from the arguments of a bare `yield`. -/
theorem exists_ofName? {kind : NodeKind} (other : kind ≠ .yieldJump none) :
    ∃ outline, ofName? kind.name = some outline ∧ (outline.fields.map Prod.fst).Nodup ∧
      (∀ label ∈ outline.fields.map Prod.fst, label.toList.all isLabelChar = true) ∧
      Fits outline.fields kind.fields := by
  cases kind
  case accessorDeclaration keyword names =>
    cases keyword <;> exact ⟨_, rfl, by decide +kernel, by decide +kernel, .nil⟩
  case yieldJump arguments =>
    obtain ⟨range, rfl⟩ := Option.ne_none_iff_exists'.mp fun none => other (congrArg _ none)
    exact ⟨_, rfl, by decide +kernel, by decide +kernel, .list .nil⟩
  all_goals
    refine ⟨_, rfl, by decide +kernel, by decide +kernel, ?_⟩
    repeat' first
      | exact Fits.nil
      | exact Fits.one ..
      | exact Fits.many ..
      | exact Fits.optional ..
      | apply Fits.append

/-- The labels of the fields of a node are made of label characters. -/
theorem isLabelChar_fields (kind : NodeKind) :
    ∀ field ∈ kind.fields, ∀ char ∈ field.1.toList, isLabelChar char = true := by
  by_cases bare : kind = .yieldJump none
  · subst bare
    exact List.forall_mem_nil _
  · obtain ⟨outline, _, _, labels, fits⟩ := exists_ofName? bare
    exact fun field member =>
      List.all_eq_true.mp (labels field.1 (fits.labels (List.mem_map_of_mem member)))

/-- A node of the production of `yield`. -/
theorem eq_yieldJump {kind : NodeKind} (same : kind.ctorIdx = (yieldJump none).ctorIdx) :
    ∃ arguments, kind = yieldJump arguments := by
  cases kind <;> first | exact ⟨_, rfl⟩ | cases same

/-- A node of the production of a whole text. -/
theorem eq_program {kind : NodeKind} {body : NodeRange}
    (same : kind.ctorIdx = (program body).ctorIdx) : ∃ statements, kind = program statements := by
  cases kind <;> first | exact ⟨_, rfl⟩ | cases same

end NodeKind

end Vibescript
