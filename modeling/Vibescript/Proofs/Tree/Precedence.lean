import Vibescript.Proofs.Tree.Whole

/-!
# Precedence in trees

A tree is written with the productions of its nodes, so every child belongs to the category of
its place. The categories of operands are powers: a tree that the parser returns keeps to the
table of binding powers at every node, whatever errors were met.
-/
namespace Vibescript

namespace Part

/-- The children at a place belong to the category of the place. -/
def Admitted (arena : Arena) : Part → Prop
  | node category id => category.admits (arena.kind id) = true
  | nodes category range | separated category _ range | listed category range =>
    ∀ id ∈ arena.list range, category.admits (arena.kind id) = true
  | _ => True

/-- The items of a list are among its parts. -/
theorem mem_commaList {item : Part} {items : List Part} (member : item ∈ items) :
    item ∈ commaList items := by
  have filled : items.isEmpty = false := List.isEmpty_eq_false_iff_exists_mem.mpr ⟨item, member⟩
  rw [commaList, filled]
  exact List.mem_append_left _ (mem_joined _ member)

/-- A place has admitted children when the parts that it stands for have. -/
theorem admitted_expand? {arena : Arena} {part : Part} {parts : List Part}
    (stands : part.expand? arena = some parts) (admitted : ∀ other ∈ parts, other.Admitted arena) :
    part.Admitted arena := by
  have child : ∀ {category : Category} {ids : List NodeId},
      (∀ other ∈ ids.map (node category), other ∈ parts) →
      ∀ id ∈ ids, category.admits (arena.kind id) = true :=
    fun among id member => admitted _ (among _ (List.mem_map_of_mem member))
  cases part <;> simp only [expand?, Option.some.injEq, reduceCtorEq] at stands <;> subst stands
  case nodes category range => exact child fun other member => member
  case separated category separator range => exact child fun other member => mem_joined _ member
  case listed category range => exact child fun other member => mem_commaList member
  case nameList range => trivial

end Part

namespace Forest

variable {forest : Forest}

/-- A part that is written with tokens alone has no child that could be out of place. -/
theorem Writes.admitted {part : Part} {tokens : List (Token String)}
    (written : forest.Writes part tokens) : part.Admitted forest.arena := by
  cases written <;> trivial

/-- The children of some parts belong to the categories of their places, and so do the children
of every node below them. -/
theorem Spells.admitted {parts : List Part} {nodes : List NodeId} {tokens : List (Token String)}
    (spells : forest.Spells parts nodes tokens) :
    (∀ part ∈ parts, part.Admitted forest.arena) ∧
      ∀ id ∈ nodes, ∀ part ∈ (forest.arena.kind id).production, part.Admitted forest.arena := by
  induction spells with
  | nil => exact ⟨List.forall_mem_nil _, List.forall_mem_nil _⟩
  | write written _ ih => exact ⟨List.forall_mem_cons.mpr ⟨written.admitted, ih.1⟩, ih.2⟩
  | expand stands _ _ ih =>
    obtain ⟨first, rest⟩ := List.forall_mem_append.mp ih.1
    exact ⟨List.forall_mem_cons.mpr ⟨Part.admitted_expand? stands first, rest⟩, ih.2⟩
  | @node category id kind span rest below nodes tokens others found admitted _ _ _ inner more =>
    have own : forest.arena.kind id = kind := Arena.kind_of_node? found
    have place : (Part.node category id).Admitted forest.arena := by
      show category.admits (forest.arena.kind id) = true
      rw [own]
      exact admitted
    exact ⟨List.forall_mem_cons.mpr ⟨place, more.1⟩,
      List.forall_mem_append.mpr ⟨inner.2, List.forall_mem_cons.mpr ⟨own ▸ inner.1, more.2⟩⟩⟩

end Forest

namespace Parser

/-- Every child in a program belongs to the category of its place. -/
theorem ReadsProgram.admitted {source : String} {root : NodeId} {final : Parser}
    {body : NodeRange} {below : List NodeId} {taken rest : List (Token String)}
    (reads : ReadsProgram source root final body below taken rest) {id : NodeId} {part : Part}
    (member : part ∈ (final.arena.kind id).production) : part.Admitted final.arena := by
  obtain ⟨top, inner⟩ := reads.spells.admitted
  by_cases known : id ∈ final.arena.ids
  · rw [reads.nodes] at known
    rcases List.mem_append.mp known with early | last
    · exact inner id early part member
    · obtain rfl := List.mem_singleton.mp last
      rw [Arena.kind_of_node? reads.found] at member
      exact top part member
  · -- A number that is out of range stands for an error, whose production has no children.
    have unknown : final.arena.node? id = none :=
      Option.eq_none_iff_forall_ne_some.mpr fun node found => known (Arena.mem_ids_of_node? found)
    rw [Arena.kind, unknown] at member
    obtain rfl := List.mem_singleton.mp member
    trivial

end Parser

namespace NodeKind

/-- Whether a node is an assignment, with or without the old value. -/
def isAssignment : NodeKind → Bool
  | assignment .. | compoundAssignment .. => true
  | _ => false

/-- The power of the operator of a binary node. -/
def binaryPower? : NodeKind → Option BindingPower
  | binary op _ _ => some op.power
  | _ => none

/-- The target of an assignment. -/
def target? : NodeKind → Option NodeId
  | assignment target _ | compoundAssignment _ target _ => some target
  | _ => none

/-- What a call, a member or a subscript is applied to. -/
def receiver? : NodeKind → Option NodeId
  | call receiver _ _ _ => receiver
  | memberAccess receiver _ _ | subscript receiver _ => some receiver
  | _ => none

variable {kind : NodeKind} {least : BindingPower}

/-- An expression that binds tighter than an assignment is none. -/
theorem isAssignment_of_bindsAt (binds : kind.bindsAt least = true) (tight : 0 < least.rank) :
    kind.isAssignment = false := by
  cases kind
  case assignment => exact absurd (of_decide_eq_true binds) (Nat.not_le_of_lt tight)
  case compoundAssignment => exact absurd (of_decide_eq_true binds) (Nat.not_le_of_lt tight)
  all_goals rfl

/-- The operator of a binary node binds as tightly as the node. -/
theorem le_binaryPower?_of_bindsAt (binds : kind.bindsAt least = true) {power : BindingPower}
    (isBinary : kind.binaryPower? = some power) : least.rank ≤ power.rank := by
  cases kind <;> simp only [binaryPower?, Option.some.injEq, reduceCtorEq] at isBinary
  case binary op left right =>
    subst isBinary
    exact of_decide_eq_true binds

/-- No binary operator binds as tightly as a unary operator. -/
theorem binaryPower?_of_bindsAt (binds : kind.bindsAt least = true)
    (tight : BindingPower.unary.rank ≤ least.rank) : kind.binaryPower? = none := by
  cases isBinary : kind.binaryPower? with
  | none => rfl
  | some power =>
    have le := le_binaryPower?_of_bindsAt binds isBinary
    have below : power.rank < BindingPower.unary.rank := by
      cases kind <;> simp only [binaryPower?, Option.some.injEq, reduceCtorEq] at isBinary
      case binary op left right =>
        subst isBinary
        cases op <;> decide
    omega

/-- The target of an assignment stands where nothing looser than `or` can. -/
theorem mem_production_of_target? {target : NodeId} (isTarget : target ∈ kind.target?) :
    .node (.expression .or) target ∈ kind.production := by
  cases kind <;>
    simp only [target?, Option.mem_def, Option.some.injEq, reduceCtorEq] at isTarget <;>
    subst isTarget <;> exact List.mem_cons_self

/-- A receiver stands where no operator can. -/
theorem mem_production_of_receiver? {receiver : NodeId} (isReceiver : receiver ∈ kind.receiver?) :
    .node (.expression .postfixed) receiver ∈ kind.production := by
  cases kind <;>
    simp only [receiver?, Option.mem_def, Option.some.injEq, reduceCtorEq] at isReceiver <;>
    subst isReceiver <;> exact List.mem_cons_self

end NodeKind

/-- Every operator binds more tightly than an assignment. -/
theorem BinaryOp.rank_power_pos (op : BinaryOp) : 0 < op.power.rank := by
  cases op <;> decide

/-- Every operator is looser than a call. -/
theorem BinaryOp.rank_tighter_power (op : BinaryOp) :
    op.power.tighter.rank = op.power.rank + 1 :=
  BindingPower.rank_tighter _ (by cases op <;> decide)

/-- The operands of every node of a tree bind as tightly as their places ask for. -/
structure SyntaxTree.RespectsPrecedence (tree : SyntaxTree) : Prop where
  /-- The left operand of an operator is no assignment, and no operator of a looser power. -/
  left : ∀ id op left right, tree.kind id = .binary op left right →
    (tree.kind left).isAssignment = false ∧
      ∀ power ∈ (tree.kind left).binaryPower?, ¬ power.rank < op.power.rank
  /-- The right operand of an operator is no assignment, and no operator of the same power or a
  looser one. -/
  right : ∀ id op left right, tree.kind id = .binary op left right →
    (tree.kind right).isAssignment = false ∧
      ∀ power ∈ (tree.kind right).binaryPower?, ¬ power.rank ≤ op.power.rank
  /-- The target of an assignment is no assignment. -/
  target : ∀ id, ∀ target ∈ (tree.kind id).target?, (tree.kind target).isAssignment = false
  /-- The operand of a unary operator is no assignment and no binary operator. -/
  operand : ∀ id op operand, tree.kind id = .unary op operand →
    (tree.kind operand).isAssignment = false ∧ (tree.kind operand).binaryPower? = none
  /-- The receiver of a call, a member or a subscript is no assignment, no binary and no unary
  operator. -/
  receiver : ∀ id, ∀ receiver ∈ (tree.kind id).receiver?,
    (tree.kind receiver).isAssignment = false ∧ (tree.kind receiver).binaryPower? = none ∧
      ∀ op operand, tree.kind receiver ≠ .unary op operand

/-- The operands of a tree bind as tightly as their places ask for when its children belong to
the categories of their places. -/
theorem SyntaxTree.respectsPrecedence_of_admitted {tree : SyntaxTree}
    (admitted : ∀ id, ∀ part ∈ (tree.kind id).production, part.Admitted tree.arena) :
    tree.RespectsPrecedence := by
  -- An operand that stands in a production binds at the power of its place.
  have binds : ∀ id child least, .node (.expression least) child ∈ (tree.kind id).production →
      (tree.kind child).bindsAt least = true := fun id _ _ member => admitted id _ member
  refine ⟨fun id op left right same => ?_, fun id op left right same => ?_,
    fun id target isTarget => ?_, fun id op operand same => ?_,
    fun id receiver isReceiver => ?_⟩
  · have place : .node (.expression op.power) left ∈ (tree.kind id).production := by
      rw [same]
      exact List.mem_cons_self
    have tight := binds id left op.power place
    refine ⟨NodeKind.isAssignment_of_bindsAt tight op.rank_power_pos, fun power isBinary => ?_⟩
    have le := NodeKind.le_binaryPower?_of_bindsAt tight isBinary
    omega
  · have place : .node (.expression op.power.tighter) right ∈ (tree.kind id).production := by
      rw [same]
      exact List.mem_of_getLast? rfl
    have tight := binds id right op.power.tighter place
    have next := op.rank_tighter_power
    refine ⟨NodeKind.isAssignment_of_bindsAt tight (by omega), fun power isBinary => ?_⟩
    have le := NodeKind.le_binaryPower?_of_bindsAt tight isBinary
    omega
  · have place : .node (.expression .or) target ∈ (tree.kind id).production :=
      NodeKind.mem_production_of_target? isTarget
    exact NodeKind.isAssignment_of_bindsAt (binds id target .or place) (by decide)
  · have place : .node (.expression .unary) operand ∈ (tree.kind id).production := by
      rw [same]
      exact List.mem_of_getLast? rfl
    have tight := binds id operand .unary place
    exact ⟨NodeKind.isAssignment_of_bindsAt tight (by decide),
      NodeKind.binaryPower?_of_bindsAt tight (Nat.le_refl _)⟩
  · have place : .node (.expression .postfixed) receiver ∈ (tree.kind id).production :=
      NodeKind.mem_production_of_receiver? isReceiver
    have tight := binds id receiver .postfixed place
    refine ⟨NodeKind.isAssignment_of_bindsAt tight (by decide),
      NodeKind.binaryPower?_of_bindsAt tight (by decide), fun op operand same => ?_⟩
    rw [same] at tight
    have le : BindingPower.postfixed.rank ≤ BindingPower.unary.rank := of_decide_eq_true tight
    exact absurd le (by decide)

/-- Every tree that the parser returns keeps to the table of binding powers: also when there are
errors, and wherever the nesting limit cuts the parse. -/
theorem respectsPrecedence_parseWith (options : ParseOptions) (source : String) :
    (parseWith options source).tree.RespectsPrecedence := by
  obtain ⟨body, below, taken, rest, reads⟩ := Parser.reads_run options source
  rw [parseWith_eq, Parser.tree_finish]
  generalize Parser.run options source = result at reads ⊢
  exact SyntaxTree.respectsPrecedence_of_admitted fun id part member => reads.admitted member

end Vibescript
