import Vibescript.Proofs.Source.Shapes
import Vibescript.Proofs.Tree.Whole

/-!
# The names in a tree

What a node holds under a name was a name in the text: the tokens that a node is written with give
their names the shape of their kind, and the names of a uses directive are those that its comment
declares. Only the value of a string literal may be any text.
-/
namespace Vibescript

namespace Part

/-- Whether any text may stand at a place. -/
def isText : Part → Bool
  | token (.stringContent _) | string _ => true
  | _ => false

/-- The names at a place have the shapes of names. -/
def Named (arena : Arena) (names : NameTable) : Part → Prop
  | token kind => (kind.map names.text).IsShaped
  | type (.named name) _ => Text.IsName (names.text name).toList ∧ names.text name ≠ "nil" ∧
    (names.text name).toList.getLast? ≠ some '?'
  | nameList range => ∀ name ∈ arena.nameList range, Text.IsName (names.text name).toList
  | _ => True

end Part

/-- Whether a node is a string literal. -/
def NodeKind.isString : NodeKind → Bool
  | string _ => true
  | _ => false

/-- Any text may stand in a string literal only. -/
theorem NodeKind.any_isText_production (kind : NodeKind) :
    kind.production.any Part.isText = kind.isString := by
  cases kind <;> simp [production, isString, Part.isText, Part.word, Part.body, Part.possible,
    Part.introduced, Part.anyExpression, List.any_append, List.any_flatMap]
  case method => exact fun _ _ word => by rcases word with rfl | rfl <;> rfl
  case block => split <;> simp

/-- The names that a node holds are names, apart from the value of a string literal. -/
structure Arena.Named (arena : Arena) (names : NameTable) (kind : NodeKind) : Prop where
  /-- The names. -/
  own : kind.isString = false → ∀ name ∈ kind.names, Text.IsName (names.text name).toList
  /-- The list of names. -/
  listed : ∀ range ∈ kind.nameRange?,
    ∀ name ∈ arena.nameList range, Text.IsName (names.text name).toList
  /-- The name of a type has no mark and is not that of the missing value. -/
  type : ∀ name isNilable, kind = .typeName (.named name) isNilable →
    names.text name ≠ "nil" ∧ (names.text name).toList.getLast? ≠ some '?'

/-- The word of a type name holds a name without a mark. -/
theorem TokenKind.NamesType.isName {kind : TokenKind String} {text : String} {isMarked : Bool}
    (reads : kind.NamesType (some text) isMarked) (shaped : kind.IsShaped) :
    Text.IsName text.toList ∧ text ≠ "nil" ∧ text.toList.getLast? ≠ some '?' := by
  cases reads with
  | constant =>
    have shape : Text.IsConstant text.toList := shaped
    refine ⟨shape.isName, ?_, shape.getLast?_ne⟩
    rintro rfl
    obtain ⟨first, body, same, starts, -⟩ := shape
    obtain ⟨rfl, -⟩ := List.cons.inj same
    contradiction
  | identifier plain => exact ⟨shaped.1.isName, shaped.2, plain⟩
  | marked other =>
    have shape := shaped.1
    rw [String.toList_append] at shape
    obtain ⟨filled, plain⟩ := Text.IsIdentifier.getLast?_ne shape
    exact ⟨⟨filled, fun char member => shape.isName.all char (List.mem_append_left _ member)⟩,
      other, plain⟩

namespace Forest

variable {forest : Forest}

/-- What is written with tokens of the right shapes has names of the right shapes. -/
theorem Writes.named {part : Part} {tokens : List (Token String)}
    (written : forest.Writes part tokens) (shaped : ∀ token ∈ tokens, token.kind.IsShaped) :
    part.Named forest.arena forest.names := by
  cases written with
  | token reads =>
    show TokenKind.IsShaped _
    rw [← reads]
    exact shaped _ List.mem_cons_self
  | @type reference isMarked word mark reads =>
    cases reference with
    | named name => exact reads.isName (shaped word List.mem_cons_self)
    | nil => trivial
  | _ => trivial

/-- The names in parts that are written with tokens of the right shapes have the right shapes. -/
theorem Spells.named {parts : List Part} {nodes : List NodeId} {tokens : List (Token String)}
    (spells : forest.Spells parts nodes tokens)
    (shaped : ∀ token ∈ tokens, token.kind.IsShaped) :
    ∀ part ∈ parts, part.Named forest.arena forest.names := by
  induction spells with
  | nil => exact List.forall_mem_nil _
  | write written _ ih =>
    obtain ⟨first, rest⟩ := List.forall_mem_append.mp shaped
    exact List.forall_mem_cons.mpr ⟨written.named first, ih rest⟩
  | @expand part parts _ _ _ stands _ _ ih =>
    obtain ⟨first, rest⟩ := List.forall_mem_append.mp (ih shaped)
    refine List.forall_mem_cons.mpr ⟨?_, rest⟩
    cases part <;> simp only [Part.expand?, Option.some.injEq, reduceCtorEq] at stands <;>
      try trivial
    case nameList range =>
      subst stands
      intro name member
      have own : (TokenKind.identifier (forest.names.text name)).IsShaped :=
        first (.token (.identifier name)) (Part.mem_joined _ (List.mem_map_of_mem member))
      exact own.1.isName
  | node _ _ _ _ _ _ ihMore =>
    exact List.forall_mem_cons.mpr ⟨trivial, ihMore (List.forall_mem_append.mp shaped).2⟩

end Forest

namespace Arena

variable {arena : Arena} {names : NameTable}

/-- The names in a node are those in its production; a uses directive declares its own. -/
theorem named_of_production {kind : NodeKind}
    (parts : ∀ part ∈ kind.production, part.Named arena names)
    (declares : ∀ range, kind = .usesDirective range →
      ∀ name ∈ arena.nameList range, Text.IsName (names.text name).toList) :
    arena.Named names kind := by
  obtain ⟨-, -, own⟩ := kind.holds_production
  refine ⟨fun noString name held => ?_, fun range held => ?_, ?_⟩
  · rw [← own] at held
    obtain ⟨part, inside, same⟩ := List.mem_filterMap.mp held
    have noText := List.any_eq_false.mp (kind.any_isText_production.trans noString) part inside
    have named := parts part inside
    cases part <;> simp only [Part.name?, reduceCtorEq] at same
    case token word =>
      refine TokenKind.IsShaped.isName named (fun text isText => noText ?_) _ ?_
      · cases word <;> first | rfl | contradiction
      · rw [TokenKind.name?_map, same]
        rfl
    case string => exact absurd rfl noText
    case type reference isNilable =>
      cases reference with
      | named other =>
        obtain rfl := Option.some.inj same
        exact named.1
      | nil => contradiction
  · cases kind <;> simp only [NodeKind.nameRange?, Option.mem_def, Option.some.injEq,
      reduceCtorEq] at held <;> subst held
    case accessorDeclaration keyword range =>
      exact parts (.nameList range) (List.mem_cons_of_mem _ List.mem_cons_self)
    case usesDirective range => exact declares range rfl
    case block range body =>
      refine parts (.nameList range) ?_
      rw [NodeKind.production]
      split <;> simp
  · rintro name isNilable rfl
    exact (parts (.type (.named name) isNilable) List.mem_cons_self).2

end Arena

namespace Parser

variable {source : String} {root : NodeId} {final : Parser} {body : NodeRange}
  {below : List NodeId} {taken rest : List (Token String)}

/-- The names in the nodes of a program that was read are names. -/
theorem ReadsProgram.named (reads : ReadsProgram source root final body below taken rest) :
    ∀ id ∈ final.arena.ids, final.arena.Named final.cursor.lexer.names (final.arena.kind id) := by
  have shaped := reads.consumes.forall_taken (·.kind.IsShaped)
    (fun _ _ symbol => Token.isShaped_halves symbol) fun _ => Piece.isShaped_of_mem_tokens
  rw [reads.nodes]
  refine List.forall_mem_append.mpr ⟨fun id member => ?_, List.forall_mem_singleton.mpr ?_⟩
  · obtain ⟨⟨kind, span⟩, own, under, found, -, inner, within⟩ := reads.spells.exists_own id member
    rw [show final.arena.kind id = kind from Arena.kind_of_node? found]
    refine Arena.named_of_production
      (inner.named fun token inside => shaped token (within.subset inside)) ?_
    rintro range rfl name listed
    obtain ⟨-, -, texts⟩ := reads.declares id member range span found
    exact Directive.isName_of_mem_usesNames (texts ▸ List.mem_map_of_mem listed)
  · rw [Arena.kind_of_node? reads.found]
    exact ⟨fun _ => List.forall_mem_nil _, fun _ none => absurd none (Option.not_mem_none _),
      fun _ _ other => NodeKind.noConfusion other⟩

end Parser

/-- In every tree that a parse returns, what nodes hold under a name are names: also when there are
errors, and wherever the nesting limit cuts the parse. -/
theorem named_parseWith (options : ParseOptions) (source : String) :
    ∀ id ∈ (parseWith options source).tree.arena.ids,
      (parseWith options source).tree.arena.Named (parseWith options source).tree.names
        ((parseWith options source).tree.kind id) := by
  obtain ⟨body, below, taken, rest, reads⟩ := Parser.reads_run options source
  rw [parseWith_eq, Parser.tree_finish]
  generalize Parser.run options source = result at reads ⊢
  exact reads.named

end Vibescript
