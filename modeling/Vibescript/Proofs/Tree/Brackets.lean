import Mathlib.Data.List.Forall2
import Vibescript.Proofs.Tree.Children
import Vibescript.Proofs.Tree.Yield

/-!
# Openers and ends

Ten keywords open a block that the word `end` closes. In the tokens of an undamaged tree they match
as brackets do: the production of a block has its opener near its front and its `end` at its back,
and no other part is written with one. So the matched pairs are those of the blocks, each once.
-/
namespace Vibescript

namespace Tag

/-- Whether a tag is that of a word that opens a block. -/
def opensBlock : Tag → Bool
  | kwDef | kwIf | kwUnless | kwCase | kwWhile | kwUntil | kwFor | kwBegin | kwClass | kwDo => true
  | _ => false

/-- Whether a tag is that of a word that opens or ends a block. -/
def isBracket (tag : Tag) : Bool := tag.opensBlock || tag == kwEnd

/-- A word that opens a block is a bracket. -/
theorem isBracket_of_opensBlock {tag : Tag} (opens : tag.opensBlock = true) :
    tag.isBracket = true := by
  rw [isBracket, opens, Bool.true_or]

end Tag

/-- The word that opens a node, if it is a block. -/
def NodeKind.opener? : NodeKind → Option Tag
  | method .. => some .kwDef
  | ifStatement .. => some .kwIf
  | unlessStatement .. => some .kwUnless
  | caseStatement .. => some .kwCase
  | whileLoop .. => some .kwWhile
  | untilLoop .. => some .kwUntil
  | forLoop .. => some .kwFor
  | beginBlock .. => some .kwBegin
  | classDeclaration .. => some .kwClass
  | block .. => some .kwDo
  | _ => none

namespace Token

variable {ν : Type}

/-- Tokens in which every opener is matched by an `end`, with the matched pairs in the order of
their ends. -/
inductive Bracketed : List (Token ν) → List (Token ν × Token ν) → Prop
  /-- No tokens. -/
  | nil : Bracketed [] []
  /-- A token that is no bracket. -/
  | other {token : Token ν} {rest : List (Token ν)} {pairs : List (Token ν × Token ν)}
      (outside : token.tag.isBracket = false) (more : Bracketed rest pairs) :
      Bracketed (token :: rest) pairs
  /-- An opener and the `end` that matches it. -/
  | pair {opener closer : Token ν} {inner rest : List (Token ν)}
      {within pairs : List (Token ν × Token ν)} (opens : opener.tag.opensBlock = true)
      (closes : closer.tag = .kwEnd) (inside : Bracketed inner within)
      (more : Bracketed rest pairs) :
      Bracketed (opener :: (inner ++ closer :: rest)) (within ++ (opener, closer) :: pairs)

namespace Bracketed

variable {tokens others : List (Token ν)} {pairs more : List (Token ν × Token ν)}

/-- Tokens without brackets. -/
theorem of_forall (outside : ∀ token ∈ tokens, token.tag.isBracket = false) :
    Bracketed tokens [] := by
  induction tokens with
  | nil => exact .nil
  | cons token rest ih =>
    exact .other (outside token List.mem_cons_self)
      (ih fun other member => outside other (List.mem_cons_of_mem _ member))

/-- Two sequences one after the other. -/
theorem append (first : Bracketed tokens pairs) (second : Bracketed others more) :
    Bracketed (tokens ++ others) (pairs ++ more) := by
  induction first with
  | nil => exact second
  | other outside _ ih => exact .other outside ih
  | pair opens closes inside _ _ ih =>
    have whole := Bracketed.pair opens closes inside ih
    simpa only [List.cons_append, List.append_assoc] using whole

/-- Tokens match as their brackets do. -/
theorem filter (bracketed : Bracketed tokens pairs) :
    Bracketed (tokens.filter (·.tag.isBracket)) pairs := by
  induction bracketed with
  | nil => exact .nil
  | other outside _ ih => rwa [List.filter_cons_of_neg (by simp [outside])]
  | pair opens closes _ _ inner rest =>
    have opening := Tag.isBracket_of_opensBlock opens
    have closing : Tag.isBracket .kwEnd = true := rfl
    simpa [List.filter_cons, opening, closing, closes] using Bracketed.pair opens closes inner rest

/-- When the brackets among tokens match, the tokens do. -/
theorem of_filter (bracketed : Bracketed (tokens.filter (·.tag.isBracket)) pairs) :
    Bracketed tokens pairs := by
  generalize same : tokens.filter (·.tag.isBracket) = brackets at bracketed
  induction bracketed generalizing tokens with
  | nil =>
    refine of_forall fun token member => ?_
    simpa using List.filter_eq_nil_iff.mp same token member
  | @other token rest _ outside _ _ =>
    have member : token ∈ tokens.filter (·.tag.isBracket) := by simp [same]
    rw [(List.mem_filter.mp member).2] at outside
    contradiction
  | @pair opener closer inner rest within pairs opens closes _ _ ihInner ihRest =>
    obtain ⟨early, later, rfl, skipped, _, isLater⟩ := List.filter_eq_cons_iff.mp same
    obtain ⟨middle, last, rfl, isInner, isLast⟩ := List.filter_eq_append_iff.mp isLater
    obtain ⟨gap, rest', rfl, between, _, isRest⟩ := List.filter_eq_cons_iff.mp isLast
    have inside : Bracketed (middle ++ gap) within := by
      refine ihInner ?_
      have none : gap.filter (·.tag.isBracket) = [] := List.filter_eq_nil_iff.mpr between
      rw [List.filter_append, isInner, none, List.append_nil]
    have before : Bracketed early [] :=
      of_forall fun token member => by simpa using skipped token member
    have whole := before.append (.pair opens closes inside (ihRest isRest))
    simpa only [List.append_assoc, List.nil_append] using whole

end Bracketed

end Token

namespace Part

/-- Whether no bracket is written at a place itself. -/
def isClear : Part → Bool
  | token kind | separated _ kind _ => !kind.tag.isBracket
  | _ => true

@[simp] theorem isClear_node (category : Category) (id : NodeId) :
    (node category id).isClear = true := rfl

@[simp] theorem isClear_nodes (category : Category) (range : NodeRange) :
    (nodes category range).isClear = true := rfl

@[simp] theorem isClear_nameList (range : NameRange) : (nameList range).isClear = true := rfl

@[simp] theorem isClear_identifier (name : Name) :
    (token (.identifier name)).isClear = true := rfl

@[simp] theorem isClear_word (tag : Tag) (spelled : tag.spelling?.isSome = true) :
    (word tag spelled).isClear = !tag.isBracket := rfl

@[simp] theorem isClear_anyExpression (id : NodeId) : (anyExpression id).isClear = true := rfl

@[simp] theorem all_isClear_body (statements : NodeRange) :
    (body statements).all isClear = true := rfl

@[simp] theorem all_isClear_possible (category : Category) (id : Option NodeId) :
    (possible category id).all isClear = true := by
  cases id <;> rfl

@[simp] theorem all_isClear_introduced (lead : Part) (category : Category) (id : Option NodeId)
    (clear : lead.isClear = true) : (introduced lead category id).all isClear = true := by
  cases id <;> simp [introduced, clear]

/-- Where no bracket is written, none is at the parts that a part stands for. -/
theorem isClear_of_mem {arena : Arena} {part other : Part} {parts : List Part}
    (stands : part.expand? arena = some parts) (clear : part.isClear = true)
    (member : other ∈ parts) : other.isClear = true := by
  obtain ⟨category, id, rfl⟩ | rfl | ⟨kind, rfl, same⟩ := of_mem_expand? stands member
  · rfl
  · rfl
  · obtain ⟨category, range, rfl⟩ | rfl | ⟨name, rfl⟩ := same
    · exact clear
    · rfl
    · rfl

end Part

namespace NodeKind

/-- A node that is no block is written without brackets of its own. -/
theorem isClear_of_opener?_eq_none {kind : NodeKind} (other : kind.opener? = none) :
    ∀ part ∈ kind.production, part.isClear = true := by
  refine List.all_eq_true.mp ?_
  cases kind <;> first
    | contradiction
    | simp [production, Part.isClear, TokenKind.tag, Tag.isBracket, Tag.opensBlock, Part.word,
        Part.body, Part.possible, Part.introduced, Part.anyExpression, List.all_append,
        List.all_flatMap]

/-- A block that starts with its opener and ends with an `end`. -/
theorem exists_block {kind : NodeKind} (tag : Tag) (spelled : tag.spelling?.isSome = true)
    (inner : List Part)
    (written : kind.production = Part.token (.fixed tag spelled) :: (inner ++ [Part.word .kwEnd]))
    (clear : inner.all Part.isClear = true) :
    ∃ lead inner spelled, kind.production =
        lead ++ Part.token (.fixed tag spelled) :: (inner ++ [Part.word .kwEnd]) ∧
      (∀ part ∈ lead, part = .word .kwPrivate) ∧ inner.all Part.isClear = true :=
  ⟨[], inner, spelled, written, List.forall_mem_nil _, clear⟩

/-- A block is written with its opener near its front and an `end` at its back, and with no other
brackets of its own. -/
theorem production_of_opener? {kind : NodeKind} {tag : Tag} (opens : kind.opener? = some tag) :
    ∃ lead inner spelled, kind.production =
        lead ++ Part.token (.fixed tag spelled) :: (inner ++ [Part.word .kwEnd]) ∧
      (∀ part ∈ lead, part = .word .kwPrivate) ∧ inner.all Part.isClear = true := by
  cases kind <;> first | contradiction | cases opens
  case method isPrivate name inputs returnType statements =>
    refine ⟨if isPrivate then [.word .kwPrivate] else [],
      (if name.isSingleton then [.word .kwSelf, .word .dot] else []) ++
        .token (.identifier name.name) :: (Part.possible .parameterList inputs ++
          Part.introduced (.word .arrow) .typeUnion returnType ++ Part.body statements),
      rfl, ?_, ?_, ?_⟩
    · simp [production, Part.word]
    · cases isPrivate <;> simp
    · have arrow : (Part.word .arrow).isClear = true := rfl
      have qualifier : [Part.word .kwSelf, Part.word .dot].all Part.isClear = true := rfl
      cases name.isSingleton
      · simp [arrow]
      · simpa [arrow] using qualifier
  case classDeclaration name members =>
    exact exists_block .kwClass rfl [.token (.constant name), .nodes .member members, .skipped]
      rfl rfl
  case ifStatement condition statements elsifs otherwise =>
    exact exists_block .kwIf rfl (.anyExpression condition :: (Part.body statements ++
      .nodes .elsifClause elsifs :: Part.possible .elseClause otherwise))
      (by simp [production, Part.word]) (by simp)
  case unlessStatement condition statements otherwise =>
    exact exists_block .kwUnless rfl (.anyExpression condition :: (Part.body statements ++
      Part.possible .elseClause otherwise)) (by simp [production, Part.word]) (by simp)
  case caseStatement subject whens otherwise =>
    exact exists_block .kwCase rfl (.anyExpression subject :: .nodes .whenClause whens ::
      Part.possible .elseClause otherwise) (by simp [production, Part.word]) (by simp)
  case whileLoop condition statements =>
    exact exists_block .kwWhile rfl (.anyExpression condition :: Part.body statements)
      (by simp [production, Part.word]) (by simp)
  case untilLoop condition statements =>
    exact exists_block .kwUntil rfl (.anyExpression condition :: Part.body statements)
      (by simp [production, Part.word]) (by simp)
  case forLoop target iterable statements =>
    exact exists_block .kwFor rfl (.node .name target :: .word .kwIn :: .anyExpression iterable ::
      Part.body statements) (by simp [production, Part.word]) rfl
  case beginBlock statements rescues ensure =>
    exact exists_block .kwBegin rfl (Part.body statements ++ .nodes .rescueClause rescues ::
      Part.possible .ensureClause ensure) (by simp [production, Part.word]) (by simp)
  case block inputs statements =>
    exact exists_block .kwDo rfl ((if inputs.size = 0 then [Part.nameList inputs]
      else [Part.word .bar, Part.nameList inputs, Part.word .bar]) ++ Part.body statements)
      (by simp [production, Part.word]) (by split <;> rfl)

end NodeKind

/-- Whether a tag is neither a bracket nor a colon. -/
def Tag.isPlain (tag : Tag) : Bool := !tag.isBracket && tag != .colon

/-- The word of a type name is neither a bracket nor a colon. -/
theorem TokenKind.NamesType.isPlain {kind : TokenKind String} {text : Option String}
    {isFolded : Bool} (names : kind.NamesType text isFolded) : kind.tag.isPlain = true := by
  cases names <;> rfl

namespace Forest

variable {forest : Forest} {parts : List Part} {nodes : List NodeId}
  {tokens : List (Token String)}

/-- A part is written with its own token, or with tokens that are neither brackets nor colons. -/
theorem Writes.tag_or_isPlain (whole : ¬ forest.isDamaged) {part : Part}
    (written : forest.Writes part tokens) :
    (∃ kind token, part = .token kind ∧ tokens = [token] ∧ token.tag = kind.tag) ∨
      ∀ token ∈ tokens, token.tag.isPlain = true := by
  cases written with
  | @token kind token reads known =>
    refine .inl ⟨kind, token, rfl, rfl, ?_⟩
    rw [Token.tag, reads, TokenKind.tag_map]
  | @identifier _ token reads =>
    refine .inr (List.forall_mem_singleton.mpr ?_)
    rw [Token.tag, reads]
    rfl
  | @operator _ token reads =>
    refine .inr (List.forall_mem_singleton.mpr ?_)
    generalize token.tag = tag at reads
    cases tag <;> first | rfl | contradiction
  | @sign _ token reads =>
    refine .inr (List.forall_mem_singleton.mpr ?_)
    generalize token.tag = tag at reads
    cases tag <;> first | rfl | contradiction
  | noComma => exact .inr nofun
  | @comma token reads =>
    refine .inr (List.forall_mem_singleton.mpr ?_)
    rw [Token.tag, reads]
    rfl
  | @string value opening closing pieces opens closes reads known =>
    refine .inr fun token member => ?_
    simp only [List.cons_append, List.mem_cons, List.mem_append, List.not_mem_nil, or_false]
      at member
    rw [Token.tag]
    rcases member with rfl | piece | rfl
    · rw [opens]
      rfl
    · have isText := reads.all token piece
      generalize token.kind = kind at isText
      cases kind <;> first | rfl | contradiction
    · rw [closes]
      rfl
  | @type _ _ word mark reads known marks =>
    refine .inr fun token member => ?_
    rw [Token.tag]
    rcases List.mem_cons.mp member with rfl | last
    · exact reads.isPlain
    · rw [marks token (by simpa using last)]
      rfl
  | comment => exact .inr nofun
  | whole => exact .inr nofun
  | skipped damaged => exact absurd damaged whole

/-- A clear part is written without brackets. -/
theorem Writes.isBracket_eq_false (whole : ¬ forest.isDamaged) {part : Part}
    (written : forest.Writes part tokens) (clear : part.isClear = true) :
    ∀ token ∈ tokens, token.tag.isBracket = false := by
  obtain ⟨kind, token, rfl, rfl, same⟩ | plain := written.tag_or_isPlain whole
  · refine List.forall_mem_singleton.mpr ?_
    rw [same]
    simpa [Part.isClear] using clear
  · intro token member
    have both := plain token member
    rw [Tag.isPlain, Bool.and_eq_true, Bool.not_eq_true'] at both
    exact both.1

/-- A block stands between its opener and its `end`: its span starts where the opener does, or at
words before it that open no block, and it ends where the `end` does. -/
structure Delimits (forest : Forest) (tokens : List (Token String)) (id : NodeId)
    (pair : Token String × Token String) : Prop where
  /-- The block is of the kind that the opener opens. -/
  opens : (forest.arena.kind id).opener? = some pair.1.tag
  /-- The tokens of the block. -/
  stands : ∃ lead inner, (∀ token ∈ lead, token.tag.opensBlock = false) ∧
    (forest.arena.span id).Hull (lead ++ pair.1 :: (inner ++ [pair.2])) ∧
    (lead ++ pair.1 :: (inner ++ [pair.2])) <:+: tokens

/-- A block stands where it does among more tokens. -/
theorem Delimits.of_isInfix {more : List (Token String)} {id : NodeId}
    {pair : Token String × Token String} (delimits : forest.Delimits tokens id pair)
    (inside : tokens <:+: more) : forest.Delimits more id pair := by
  obtain ⟨opens, lead, inner, bare, spans, stands⟩ := delimits
  exact ⟨opens, lead, inner, bare, spans, stands.trans inside⟩

/-- Blocks stand where they do among more tokens. -/
theorem forall₂_delimits_of_isInfix {more : List (Token String)} {ids : List NodeId}
    {pairs : List (Token String × Token String)}
    (delimits : List.Forall₂ (forest.Delimits tokens) ids pairs) (inside : tokens <:+: more) :
    List.Forall₂ (forest.Delimits more) ids pairs :=
  delimits.imp fun _ _ holds => holds.of_isInfix inside

/-- The blocks among some nodes. -/
def blocks (forest : Forest) (nodes : List NodeId) : List NodeId :=
  nodes.filter fun id => (forest.arena.kind id).opener?.isSome

/-- Copies of a word have no nodes and are written with that word. -/
theorem Spells.of_forall_word {tag : Tag} {spelled : tag.spelling?.isSome = true}
    (spells : forest.Spells parts nodes tokens) (words : ∀ part ∈ parts, part = .word tag spelled) :
    nodes = [] ∧ ∀ token ∈ tokens, token.tag = tag := by
  induction spells with
  | nil => exact ⟨rfl, nofun⟩
  | @write part _ _ _ _ written _ ih =>
    obtain ⟨isWord, rest⟩ := List.forall_mem_cons.mp words
    subst isWord
    obtain ⟨none, others⟩ := ih rest
    cases written with
    | token reads =>
      refine ⟨none, List.forall_mem_append.mpr ⟨List.forall_mem_singleton.mpr ?_, others⟩⟩
      rw [Token.tag, reads, TokenKind.tag_map]
      rfl
  | expand stands =>
    rw [(List.forall_mem_cons.mp words).1] at stands
    contradiction
  | node =>
    have isWord := (List.forall_mem_cons.mp words).1
    contradiction

/-- What is written for parts, and how its brackets match the blocks among its nodes. -/
def Matches (forest : Forest) (nodes : List NodeId) (tokens : List (Token String)) : Prop :=
  ∃ pairs, Token.Bracketed tokens pairs ∧
    List.Forall₂ (forest.Delimits tokens) (forest.blocks nodes) pairs

/-- Tokens without brackets match no nodes. -/
theorem Matches.of_forall (outside : ∀ token ∈ tokens, token.tag.isBracket = false) :
    forest.Matches [] tokens :=
  ⟨[], .of_forall outside, .nil⟩

/-- Two sequences one after the other. -/
theorem Matches.append {others : List NodeId} {more : List (Token String)}
    (first : forest.Matches nodes tokens) (second : forest.Matches others more) :
    forest.Matches (nodes ++ others) (tokens ++ more) := by
  obtain ⟨pairs, bracketed, delimits⟩ := first
  obtain ⟨pairs', bracketed', delimits'⟩ := second
  refine ⟨pairs ++ pairs', bracketed.append bracketed', ?_⟩
  rw [blocks, List.filter_append]
  exact List.rel_append
    (forall₂_delimits_of_isInfix delimits (List.prefix_append tokens more).isInfix)
    (forall₂_delimits_of_isInfix delimits' (List.suffix_append tokens more).isInfix)

/-- A node that is no block matches when what is below it does. -/
theorem Matches.child {id : NodeId} {kind : NodeKind} {span : Span}
    (found : forest.arena.node? id = some ⟨kind, span⟩) (other : kind.opener? = none)
    (inside : forest.Matches nodes tokens) : forest.Matches (nodes ++ [id]) tokens := by
  have own : forest.arena.kind id = kind := Arena.kind_of_node? found
  have noBlock : forest.blocks [id] = [] := by simp [blocks, own, other]
  have same : forest.blocks (nodes ++ [id]) = forest.blocks nodes := by
    rw [blocks, List.filter_append, ← blocks, ← blocks, noBlock, List.append_nil]
  rw [Matches, same]
  exact inside

/-- A block matches when what is inside it does. -/
theorem Matches.block {id : NodeId} {kind : NodeKind} {span : Span} {lead inner : List (Token String)}
    {opener closer : Token String} (found : forest.arena.node? id = some ⟨kind, span⟩)
    (opens : kind.opener? = some opener.tag) (closes : closer.tag = .kwEnd)
    (bare : ∀ token ∈ lead, token.tag.isBracket = false)
    (spans : span.Hull (lead ++ opener :: (inner ++ [closer])))
    (inside : forest.Matches nodes inner) :
    forest.Matches (nodes ++ [id]) (lead ++ opener :: (inner ++ [closer])) := by
  obtain ⟨within, bracketed, delimits⟩ := inside
  have isOpener : opener.tag.opensBlock = true := by
    generalize opener.tag = tag at opens
    cases kind <;> first | contradiction | (cases opens; rfl)
  have own : forest.arena.kind id = kind := Arena.kind_of_node? found
  have ownSpan : forest.arena.span id = span := Arena.span_of_node? found
  refine ⟨within ++ [(opener, closer)], ?_, ?_⟩
  · exact (Token.Bracketed.of_forall bare).append (.pair isOpener closes bracketed .nil)
  · have isBlock : forest.blocks [id] = [id] := by simp [blocks, own, opens]
    rw [blocks, List.filter_append, ← blocks, ← blocks, isBlock]
    refine List.rel_append (forall₂_delimits_of_isInfix delimits ?_) (.cons ?_ .nil)
    · exact ⟨lead ++ [opener], [closer], by simp⟩
    · refine ⟨own ▸ opens, lead, inner, fun token member => ?_, ownSpan ▸ spans, List.infix_rfl⟩
      have outside := bare token member
      rw [Tag.isBracket, Bool.or_eq_false_iff] at outside
      exact outside.1

/-- A block is written as its opener, what is inside it and its `end`. -/
theorem Spells.delimited {kind : NodeKind} {tag : Tag}
    (spells : forest.Spells kind.production nodes tokens) (opens : kind.opener? = some tag) :
    ∃ inner lead opener between closer, forest.Spells inner nodes between ∧
      inner.all Part.isClear = true ∧ tokens = lead ++ opener :: (between ++ [closer]) ∧
      (∀ token ∈ lead, token.tag.isBracket = false) ∧ opener.tag = tag ∧ closer.tag = .kwEnd := by
  obtain ⟨front, inner, spelled, same, words, clear⟩ := kind.production_of_opener? opens
  have start : front ++ Part.token (.fixed tag spelled) :: (inner ++ [Part.word .kwEnd]) =
      front ++ ([Part.token (.fixed tag spelled)] ++ (inner ++ [Part.word .kwEnd])) := rfl
  rw [same, start] at spells
  obtain ⟨n₁, _, lead, _, rfl, rfl, first, spells⟩ := spells.split
  obtain ⟨n₂, _, _, _, rfl, rfl, second, spells⟩ := spells.split
  obtain ⟨n₃, n₄, between, _, rfl, rfl, third, last⟩ := spells.split
  obtain ⟨rfl, bare⟩ := first.of_forall_word words
  obtain ⟨opener, rfl, rfl, opening⟩ := second.token_inv
  obtain ⟨closer, rfl, rfl, closing⟩ := last.token_inv
  refine ⟨inner, lead, opener, between, closer, by simpa using third, clear, rfl, ?_, ?_, ?_⟩
  · intro token member
    rw [bare token member]
    rfl
  · cases opening with
    | token reads => rw [Token.tag, reads, TokenKind.tag_map]; rfl
  · cases closing with
    | token reads => rw [Token.tag, reads, TokenKind.tag_map]; rfl

/-- The tokens of clear parts of an undamaged forest match as brackets do. -/
theorem Spells.matches (whole : ¬ forest.isDamaged) (spells : forest.Spells parts nodes tokens)
    (clear : ∀ part ∈ parts, part.isClear = true) : forest.Matches nodes tokens := by
  -- The parts between an opener and its `end` are written for fewer nodes than the block.
  induction same : nodes.length using Nat.strongRecOn generalizing parts nodes tokens with
  | ind size smaller =>
    have fewer : nodes.length ≤ size := Nat.le_of_eq same
    clear same
    induction spells with
    | nil => exact .of_forall nofun
    | write written _ ih =>
      obtain ⟨first, rest⟩ := List.forall_mem_cons.mp clear
      exact (Matches.of_forall (written.isBracket_eq_false whole first)).append (ih rest fewer)
    | expand stands _ _ ih =>
      obtain ⟨first, rest⟩ := List.forall_mem_cons.mp clear
      refine ih (List.forall_mem_append.mpr ⟨fun other member => ?_, rest⟩) fewer
      exact Part.isClear_of_mem stands first member
    | @node category id kind span rest below nodes tokens others found _ spans under _ _ ih =>
      rw [List.length_append, List.length_cons] at fewer
      have after := ih (List.forall_mem_cons.mp clear).2 (by omega)
      have shorter : below.length < size := by omega
      rw [List.append_cons]
      refine Matches.append ?_ after
      cases opens : kind.opener? with
      | none =>
        have inside := smaller _ shorter under (NodeKind.isClear_of_opener?_eq_none opens) rfl
        exact inside.child found opens
      | some tag =>
        obtain ⟨inner, lead, opener, between, closer, parts, clears, rfl, bare, opening, closing⟩ :=
          under.delimited opens
        have inside := smaller _ shorter parts (List.all_eq_true.mp clears) rfl
        exact inside.block found (opening ▸ opens) closing bare spans

end Forest

end Vibescript
