import Vibescript.Proofs.Tree.Children
import Vibescript.Proofs.Tree.Yield

/-!
# Directives in a tree

A directive that is written in a tree is the only token of a directive node. So the directives
among the tokens of an undamaged tree are exactly those whose spans its directive nodes have.
-/
namespace Vibescript

/-- Whether a node is a directive. -/
def NodeKind.isDirective : NodeKind → Bool
  | versionDirective .. | usesDirective _ => true
  | _ => false

/-- Whether a part is written with a directive. -/
def Part.isDirective : Part → Bool
  | token kind | separated _ kind _ => kind.isDirective
  | _ => false

/-- A node is a directive when its production has one. -/
theorem NodeKind.any_isDirective_production (kind : NodeKind) :
    kind.production.any Part.isDirective = kind.isDirective := by
  cases kind <;> simp [production, isDirective, Part.isDirective, TokenKind.isDirective,
    Part.word, Part.body, Part.possible, Part.introduced, Part.anyExpression, List.any_append,
    List.any_flatMap]
  case method => exact fun _ _ word => by rcases word with rfl | rfl <;> rfl
  case block => split <;> simp

/-- The parts that a part stands for are directives only when it is. -/
theorem Part.isDirective_of_mem {arena : Arena} {part other : Part} {parts : List Part}
    (stands : part.expand? arena = some parts) (plain : part.isDirective = false)
    (member : other ∈ parts) : other.isDirective = false := by
  obtain ⟨category, id, rfl⟩ | rfl | ⟨kind, rfl, same⟩ := of_mem_expand? stands member
  · rfl
  · rfl
  · obtain ⟨category, range, rfl⟩ | rfl | ⟨name, rfl⟩ := same
    · exact plain
    · rfl
    · rfl

namespace TokenKind

/-- A directive has the tag of one. -/
theorem tag_of_isDirective {kind : TokenKind String} (directive : kind.isDirective = true) :
    kind.tag = .versionDirective ∨ kind.tag = .usesDirective := by
  cases kind <;> first | contradiction | exact .inl rfl | exact .inr rfl

/-- An infix operator is no directive. -/
theorem isDirective_operator {token : Token String} {op : InfixOp}
    (reads : InfixOp.ofTag? token.tag = some op) : token.kind.isDirective = false := by
  refine Bool.eq_false_iff.mpr fun directive => ?_
  obtain same | same := tag_of_isDirective directive <;> rw [Token.tag, same] at reads <;>
    contradiction

/-- A unary operator is no directive. -/
theorem isDirective_sign {token : Token String} {op : UnaryOp}
    (reads : UnaryOp.ofTag? token.tag = some op) : token.kind.isDirective = false := by
  refine Bool.eq_false_iff.mpr fun directive => ?_
  obtain same | same := tag_of_isDirective directive <;> rw [Token.tag, same] at reads <;>
    contradiction

/-- A piece of a string literal is no directive. -/
theorem isDirective_piece {kind : TokenKind String} (piece : kind.pieceText?.isSome = true) :
    kind.isDirective = false := by
  cases kind <;> first | rfl | contradiction

/-- The word of a type name is no directive. -/
theorem NamesType.isDirective {kind : TokenKind String} {text : Option String}
    {isFolded : Bool} (names : kind.NamesType text isFolded) : kind.isDirective = false := by
  cases names <;> rfl

end TokenKind

namespace Forest

variable {forest : Forest}

/-- The directives of some tokens are those whose spans the directive nodes have. -/
structure Claims (forest : Forest) (nodes : List NodeId) (tokens : List (Token String)) :
    Prop where
  /-- Every directive is the span of a directive node. -/
  claimed : ∀ token ∈ tokens, token.kind.isDirective = true →
    ∃ id ∈ nodes, (forest.arena.kind id).isDirective = true ∧ forest.arena.span id = token.span
  /-- Every directive node has the span of a directive. -/
  taken : ∀ id ∈ nodes, (forest.arena.kind id).isDirective = true →
    ∃ token ∈ tokens, token.kind.isDirective = true ∧ forest.arena.span id = token.span

/-- Tokens without a directive. -/
theorem Claims.of_plain {tokens : List (Token String)}
    (plain : ∀ token ∈ tokens, token.kind.isDirective = false) : forest.Claims [] tokens :=
  ⟨fun token member directive => absurd directive (by simp [plain token member]), nofun⟩

/-- Two sequences one after the other. -/
theorem Claims.append {nodes others : List NodeId} {tokens more : List (Token String)}
    (left : forest.Claims nodes tokens) (right : forest.Claims others more) :
    forest.Claims (nodes ++ others) (tokens ++ more) := by
  refine ⟨fun token member directive => ?_, fun id member directive => ?_⟩
  · rcases List.mem_append.mp member with early | late
    · obtain ⟨id, inside, found⟩ := left.claimed token early directive
      exact ⟨id, List.mem_append_left _ inside, found⟩
    · obtain ⟨id, inside, found⟩ := right.claimed token late directive
      exact ⟨id, List.mem_append_right _ inside, found⟩
  · rcases List.mem_append.mp member with early | late
    · obtain ⟨token, inside, found⟩ := left.taken id early directive
      exact ⟨token, List.mem_append_left _ inside, found⟩
    · obtain ⟨token, inside, found⟩ := right.taken id late directive
      exact ⟨token, List.mem_append_right _ inside, found⟩

/-- A directive and the node that claims it. -/
theorem Claims.single {id : NodeId} {token : Token String}
    (directive : token.kind.isDirective = true)
    (isDirective : (forest.arena.kind id).isDirective = true)
    (spans : forest.arena.span id = token.span) : forest.Claims [id] [token] := by
  refine ⟨fun other member _ => ?_, fun other member _ => ?_⟩
  · obtain rfl := List.mem_singleton.mp member
    exact ⟨id, List.mem_singleton_self _, isDirective, spans⟩
  · obtain rfl := List.mem_singleton.mp member
    exact ⟨token, List.mem_singleton_self _, directive, spans⟩

/-- A node that is no directive claims nothing. -/
theorem Claims.concat {nodes : List NodeId} {tokens : List (Token String)} {id : NodeId}
    (claims : forest.Claims nodes tokens)
    (plain : (forest.arena.kind id).isDirective = false) :
    forest.Claims (nodes ++ [id]) tokens := by
  refine ⟨fun token member directive => ?_, fun other member directive => ?_⟩
  · obtain ⟨found, inside, holds⟩ := claims.claimed token member directive
    exact ⟨found, List.mem_append_left _ inside, holds⟩
  · rcases List.mem_append.mp member with early | late
    · exact claims.taken other early directive
    · rw [List.mem_singleton.mp late, plain] at directive
      contradiction

/-- The tokens of an undamaged part that is no directive are none. -/
theorem Writes.isDirective {part : Part} {tokens : List (Token String)}
    (written : forest.Writes part tokens) (whole : ¬ forest.isDamaged)
    (plain : part.isDirective = false) : ∀ token ∈ tokens, token.kind.isDirective = false := by
  cases written with
  | @token kind token reads known =>
    refine List.forall_mem_singleton.mpr ?_
    rw [reads, TokenKind.isDirective_map]
    exact plain
  | identifier reads => exact List.forall_mem_singleton.mpr (by rw [reads]; rfl)
  | operator reads => exact List.forall_mem_singleton.mpr (TokenKind.isDirective_operator reads)
  | sign reads => exact List.forall_mem_singleton.mpr (TokenKind.isDirective_sign reads)
  | comma reads => exact List.forall_mem_singleton.mpr (by rw [reads]; rfl)
  | @string value opening closing pieces opens closes reads known =>
    refine List.forall_mem_append.mpr ⟨List.forall_mem_cons.mpr ⟨by rw [opens]; rfl, ?_⟩,
      List.forall_mem_singleton.mpr (by rw [closes]; rfl)⟩
    exact fun token member => TokenKind.isDirective_piece (reads.all token member)
  | @type reference isFolded word mark reads known marks =>
    refine List.forall_mem_cons.mpr ⟨reads.isDirective, fun token member => ?_⟩
    rw [marks token (Option.mem_toList.mp member)]
    rfl
  | noComma => exact List.forall_mem_nil _
  | comment => exact List.forall_mem_nil _
  | whole => exact List.forall_mem_nil _
  | skipped damaged tokens => exact absurd damaged whole

/-- Names in a comment are written with no token. -/
theorem Spells.comment_inv {names : NameRange} {nodes : List NodeId}
    {tokens : List (Token String)} (spells : forest.Spells [.comment names] nodes tokens) :
    nodes = [] ∧ tokens = [] := by
  cases spells with
  | expand stands => simp [Part.expand?] at stands
  | write written more =>
    cases more
    cases written
    exact ⟨rfl, rfl⟩

/-- A directive node is written with its directive alone. -/
theorem Spells.of_isDirective {kind : NodeKind} {nodes : List NodeId}
    {tokens : List (Token String)} (spells : forest.Spells kind.production nodes tokens)
    (directive : kind.isDirective = true) :
    nodes = [] ∧ ∃ token, tokens = [token] ∧ token.kind.isDirective = true := by
  cases kind <;> try contradiction
  case versionDirective major minor =>
    obtain ⟨token, rfl, rfl, written⟩ := spells.token_inv
    cases written with
    | token reads known => exact ⟨rfl, token, rfl, by rw [reads]; rfl⟩
  case usesDirective names =>
    have parts : forest.Spells ([.token .usesDirective] ++ [.comment names]) nodes tokens := spells
    obtain ⟨_, _, _, _, rfl, rfl, first, second⟩ := parts.split
    obtain ⟨token, rfl, rfl, written⟩ := first.token_inv
    obtain ⟨rfl, rfl⟩ := second.comment_inv
    cases written with
    | token reads known => exact ⟨rfl, token, rfl, by rw [reads]; rfl⟩

/-- The directives of an undamaged forest are those that its directive nodes claim. -/
theorem Spells.claims {parts : List Part} {nodes : List NodeId} {tokens : List (Token String)}
    (spells : forest.Spells parts nodes tokens) (whole : ¬ forest.isDamaged)
    (plain : ∀ part ∈ parts, part.isDirective = false) : forest.Claims nodes tokens := by
  induction spells with
  | nil => exact .of_plain (List.forall_mem_nil _)
  | write written _ ih =>
    obtain ⟨first, rest⟩ := List.forall_mem_cons.mp plain
    exact (Claims.of_plain (written.isDirective whole first)).append (ih rest)
  | expand stands _ _ ih =>
    obtain ⟨first, rest⟩ := List.forall_mem_cons.mp plain
    exact ih (List.forall_mem_append.mpr
      ⟨fun other member => Part.isDirective_of_mem stands first member, rest⟩)
  | @node category id kind span rest below nodes tokens others found _ hull inner _ ihInner ihMore =>
    have beside := ihMore (List.forall_mem_cons.mp plain).2
    have own : forest.arena.kind id = kind := Arena.kind_of_node? found
    rw [← List.singleton_append, ← List.append_assoc]
    refine Claims.append ?_ beside
    cases directive : kind.isDirective with
    | true =>
      obtain ⟨rfl, token, rfl, same⟩ := inner.of_isDirective directive
      obtain ⟨first, isFirst, last, isLast, spans⟩ := hull
      obtain rfl := Option.some.inj isFirst
      obtain rfl := Option.some.inj isLast
      refine .single same (own ▸ directive) ?_
      exact (Arena.span_of_node? found).trans spans
    | false =>
      refine (ihInner fun part member => ?_).concat (own ▸ directive)
      rw [← kind.any_isDirective_production] at directive
      simpa using List.any_eq_false.mp directive part member

end Forest

end Vibescript
