import Vibescript.Proofs.Tree.Spelling

/-!
# The children of a node

The children of a node, field by field, are the children of its production, from left to right:
separators, keywords and other tokens have none, and a list of children stands where its range
is named.
-/
namespace Vibescript

namespace Part

variable {arena : Arena}

/-- Children one after another are their own. -/
theorem children_map_node (category : Category) (ids : List NodeId) :
    (ids.map (Part.node category)).flatMap (children arena) = ids := by
  induction ids with
  | nil => rfl
  | cons id ids ih => exact congrArg (id :: ·) ih

/-- A separator without children adds none. -/
theorem children_joined {separator : Part} (bare : separator.children arena = [])
    (items : List Part) :
    (joined separator items).flatMap (children arena) = items.flatMap (children arena) := by
  induction items with
  | nil => rfl
  | cons item items ih =>
    cases items with
    | nil => rfl
    | cons next items =>
      rw [joined] at ih ⊢
      rw [List.intersperse_cons_cons, List.flatMap_cons, List.flatMap_cons, ih, bare]
      rfl

/-- The commas of a list add no children. -/
theorem children_commaList (items : List Part) :
    (commaList items).flatMap (children arena) = items.flatMap (children arena) := by
  rw [commaList]
  split
  · next empty => rw [List.isEmpty_iff.mp empty]
  · rw [List.flatMap_append, children_joined rfl]
    exact List.append_nil _

/-- The parts that a part stands for have its children. -/
theorem children_expand? {part : Part} {parts : List Part}
    (stands : part.expand? arena = some parts) :
    parts.flatMap (children arena) = part.children arena := by
  cases part <;> simp only [expand?, Option.some.injEq, reduceCtorEq] at stands <;>
    obtain rfl := stands
  case nodes category range => exact children_map_node category _
  case separated category separator range =>
    rw [children_joined rfl, children_map_node]
    rfl
  case listed category range =>
    rw [children_commaList, children_map_node]
    rfl
  case nameList range =>
    rw [children_joined rfl, List.flatMap_map]
    exact List.flatMap_eq_nil_iff.mpr fun _ _ => rfl

/-- A child that may be absent is at most one child. -/
theorem children_possible (category : Category) (id : Option NodeId) :
    (possible category id).flatMap (children arena) = id.toList := by
  cases id <;> rfl

/-- A token that introduces a child adds none. -/
theorem children_introduced (kind : TokenKind Name) (category : Category) (id : Option NodeId) :
    (introduced (.token kind) category id).flatMap (children arena) = id.toList := by
  cases id <;> rfl

/-- The children of a body are its statements. -/
theorem children_body (statements : NodeRange) :
    (body statements).flatMap (children arena) = arena.list statements :=
  List.append_nil _

end Part

/-- The children in a field. -/
def Child.ids (arena : Arena) : Child → List NodeId
  | node id => [id]
  | list range => arena.list range

namespace NodeKind

/-- The children of a node of a kind, field by field. -/
def children (arena : Arena) (kind : NodeKind) : List NodeId :=
  kind.fields.flatMap fun field => field.2.ids arena

variable {arena : Arena}

/-- A field with one child. -/
theorem children_one (field : String) (id : NodeId) :
    (one field id).flatMap (fun field => field.2.ids arena) = [id] := rfl

/-- A field with a list of children. -/
theorem children_many (field : String) (range : NodeRange) :
    (many field range).flatMap (fun field => field.2.ids arena) = arena.list range :=
  List.append_nil _

/-- A field with a child that may be absent. -/
theorem children_optional (field : String) (id : Option NodeId) :
    (optional field id).flatMap (fun field => field.2.ids arena) = id.toList := by
  cases id <;> rfl

/-- The children of a kind, field by field, are the children of its production, from left to
right. -/
theorem children_production (kind : NodeKind) :
    kind.production.flatMap (Part.children arena) = kind.children arena := by
  unfold children
  cases kind <;> simp only [fields, production, children_one, children_many, children_optional,
    List.flatMap_append, List.flatMap_cons, List.flatMap_nil, Part.children_possible,
    Part.children_introduced, Part.children_body, Part.children, Part.word, Part.anyExpression,
    List.nil_append, List.append_nil, List.append_assoc]
  case method isPrivate name inputs returnType statements =>
    split <;> split <;> rfl
  case rescueClause filter statements => cases filter <;> rfl
  case yieldJump arguments => cases arguments <;> rfl
  case requireImport target path asName => cases asName <;> rfl
  case call receiver callee arguments doBlock => cases receiver <;> rfl
  case block inputs statements => split <;> rfl

end NodeKind

/-- The children of a node that is found are those of its kind. -/
theorem Arena.children_of_node? {arena : Arena} {id : NodeId} {kind : NodeKind} {span : Span}
    (found : arena.node? id = some ⟨kind, span⟩) : arena.children id = kind.children arena := by
  rw [Arena.children, Arena.kind, found]
  rfl

namespace Forest

variable {forest : Forest} {parts : List Part} {nodes : List NodeId}
  {tokens : List (Token String)}

/-- A part that is written with tokens alone has no children. -/
theorem Writes.children {part : Part} (written : forest.Writes part tokens) :
    part.children forest.arena = [] := by
  cases written <;> rfl

end Forest

end Vibescript
