import Vibescript.Proofs.Source.Tokens
import Vibescript.Proofs.Tree.Growth
import Vibescript.Proofs.Tree.Production

/-!
# How trees are written

`Forest.Spells parts nodes tokens` says that the tokens are what the parts are written with, and
lists the nodes below the parts, each after its children. It is the derivation relation of the
grammar: a child is written as the production of its kind says, it belongs to the category of
its place, and its span reaches from its first token to its last.

What a production leaves open is open here: a comma after the last item of a list, two spellings
of an operator, how a string literal is cut into pieces, and where the mark of a type name
stands. Only a damaged forest skips tokens.
-/
namespace Vibescript

namespace TokenKind

/-- What the word of a type name refers to, and whether a question mark that the word ends in
allows the missing value. -/
inductive NamesType : TokenKind String → Option String → Bool → Prop
  /-- A constant. -/
  | constant (text : String) : NamesType (.constant text) (some text) false
  /-- An identifier without a mark. -/
  | identifier {text : String} (plain : text.toList.getLast? ≠ some '?') :
      NamesType (.identifier text) (some text) false
  /-- An identifier with a mark. -/
  | marked {text : String} (other : text ≠ "nil") :
      NamesType (.identifier (text ++ "?")) (some text) true
  /-- The missing value. -/
  | nil : NamesType (.fixed .kwNil) none false
  /-- The missing value with a mark that says nothing new. -/
  | markedNil : NamesType (.identifier "nil?") none true

end TokenKind

/-- The pieces of a string literal with a value. -/
structure StringPieces (pieces : List (Token String)) (value : String) : Prop where
  /-- Every token is text or an escape. -/
  all : ∀ piece ∈ pieces, piece.kind.pieceText?.isSome = true
  /-- Joined, they are the value. -/
  joined : String.join (pieces.filterMap (·.kind.pieceText?)) = value

/-- A span from the start of the first of some tokens to the end of the last. -/
def Span.Hull (span : Span) (tokens : List (Token String)) : Prop :=
  ∃ first ∈ tokens.head?, ∃ last ∈ tokens.getLast?, span = ⟨first.span.start, last.span.stop⟩

/-- The text that a type refers to; none for the type of the missing value. -/
def TypeReference.text? (names : NameTable) : TypeReference → Option String
  | named name => some (names.text name)
  | nil => none

/-- A reference to a name that a table holds. -/
def TypeReference.Known (names : NameTable) : TypeReference → Prop
  | named name => names.Holds name
  | nil => True

namespace Part

/-- The range of a part lies in its pool. -/
def Inside (arena : Arena) : Part → Prop
  | nodes _ range | separated _ _ range | listed _ range => arena.Contains range
  | nameList range => arena.ContainsNames range
  | _ => True

variable {before after : Arena}

/-- A range stays inside while the arena grows. -/
theorem Inside.mono (grows : before.Grows after) {part : Part} (inside : part.Inside before) :
    part.Inside after := by
  cases part <;> first
    | exact grows.contains inside
    | exact grows.containsNames inside
    | trivial

/-- The parts that a part stands for stay while the arena grows. -/
theorem Inside.expand? (grows : before.Grows after) {part : Part} (inside : part.Inside before) :
    part.expand? after = part.expand? before := by
  cases part <;> simp only [Part.expand?]
  case nodes => rw [grows.list inside]
  case separated => rw [grows.list inside]
  case listed => rw [grows.list inside]
  case nameList => rw [grows.nameList inside]

end Part

namespace Forest

/-- The tokens of a part without children. -/
inductive Writes (forest : Forest) : Part → List (Token String) → Prop
  /-- A token of the kind. -/
  | token {kind : TokenKind Name} {token : Token String}
      (reads : token.kind = kind.map forest.names.text) (known : kind.Known forest.names) :
      Writes forest (.token kind) [token]
  /-- An identifier with the text. -/
  | identifier {text : String} {token : Token String} (reads : token.kind = .identifier text) :
      Writes forest (.identifier text) [token]
  /-- A spelling of the operator. -/
  | operator {op : InfixOp} {token : Token String} (reads : InfixOp.ofTag? token.tag = some op) :
      Writes forest (.operator op) [token]
  /-- The sign. -/
  | sign {op : UnaryOp} {token : Token String} (reads : UnaryOp.ofTag? token.tag = some op) :
      Writes forest (.sign op) [token]
  /-- No comma after the last item. -/
  | noComma : Writes forest .trailingComma []
  /-- A comma after the last item. -/
  | comma {token : Token String} (reads : token.kind = .fixed .comma) :
      Writes forest .trailingComma [token]
  /-- A string literal. -/
  | string {value : Name} {opening closing : Token String} {pieces : List (Token String)}
      (opens : opening.kind = .stringOpen) (closes : closing.kind = .stringClose)
      (reads : StringPieces pieces (forest.names.text value))
      (known : forest.names.Holds value) :
      Writes forest (.string value) (opening :: pieces ++ [closing])
  /-- A type name; its mark is part of the word, a token of its own, or both. -/
  | type {reference : TypeReference} {isFolded : Bool} {word : Token String}
      (mark : Option (Token String))
      (reads : word.kind.NamesType (reference.text? forest.names) isFolded)
      (known : reference.Known forest.names)
      (marks : ∀ token ∈ mark, token.kind = .fixed .question) :
      Writes forest (.type reference (isFolded || mark.isSome)) (word :: mark.toList)
  /-- Names in a comment. -/
  | comment {range : NameRange} (inside : forest.arena.ContainsNames range)
      (known : ∀ name ∈ forest.arena.nameList range, forest.names.Holds name) :
      Writes forest (.comment range) []
  /-- Nothing was skipped. -/
  | whole : Writes forest .skipped []
  /-- Tokens were skipped after an error. -/
  | skipped (damaged : forest.isDamaged) (tokens : List (Token String)) :
      Writes forest .skipped tokens

/-- The tokens of a sequence of parts, and the nodes below it, each after its children. -/
inductive Spells (forest : Forest) : List Part → List NodeId → List (Token String) → Prop
  /-- No part. -/
  | nil : Spells forest [] [] []
  /-- A part without children. -/
  | write {part : Part} {rest : List Part} {nodes : List NodeId}
      {tokens others : List (Token String)} (written : forest.Writes part tokens)
      (more : Spells forest rest nodes others) :
      Spells forest (part :: rest) nodes (tokens ++ others)
  /-- A part that stands for others. -/
  | expand {part : Part} {parts rest : List Part} {nodes : List NodeId}
      {tokens : List (Token String)} (stands : part.expand? forest.arena = some parts)
      (inside : part.Inside forest.arena) (more : Spells forest (parts ++ rest) nodes tokens) :
      Spells forest (part :: rest) nodes tokens
  /-- A child. -/
  | node {category : Category} {id : NodeId} {kind : NodeKind} {span : Span} {rest : List Part}
      {below nodes : List NodeId} {tokens others : List (Token String)}
      (found : forest.arena.node? id = some ⟨kind, span⟩)
      (admitted : category.admits kind = true) (spans : span.Hull tokens)
      (inner : Spells forest kind.production below tokens)
      (more : Spells forest rest nodes others) :
      Spells forest (.node category id :: rest) (below ++ id :: nodes) (tokens ++ others)

/-- A part without children is written the same in a grown forest. -/
theorem Writes.mono {before after : Forest} (grows : before.Grows after) {part : Part}
    {tokens : List (Token String)} (written : before.Writes part tokens) :
    after.Writes part tokens := by
  cases written with
  | token reads known =>
    exact .token (reads.trans (known.map_text grows.names).symm) (known.mono grows.names)
  | identifier reads => exact .identifier reads
  | operator reads => exact .operator reads
  | sign reads => exact .sign reads
  | noComma => exact .noComma
  | comma reads => exact .comma reads
  | string opens closes reads known =>
    refine .string opens closes ?_ (grows.names.holds known)
    rw [grows.names.text known]
    exact reads
  | @type reference isFolded word mark reads known marks =>
    cases reference with
    | named name =>
      refine .type mark ?_ (grows.names.holds known) marks
      rw [TypeReference.text?, grows.names.text known]
      exact reads
    | nil => exact .type mark reads trivial marks
  | comment inside known =>
    refine .comment (grows.arena.containsNames inside) fun name member => ?_
    rw [grows.arena.nameList inside] at member
    exact grows.names.holds (known name member)
  | whole => exact .whole
  | skipped damaged tokens => exact .skipped (grows.damage damaged) tokens

namespace Spells

variable {forest : Forest}

/-- A sequence of parts is written the same in a grown forest. -/
theorem mono {before after : Forest} (grows : before.Grows after) {parts : List Part}
    {nodes : List NodeId} {tokens : List (Token String)}
    (spells : before.Spells parts nodes tokens) : after.Spells parts nodes tokens := by
  induction spells with
  | nil => exact .nil
  | write written _ ih => exact .write (written.mono grows) ih
  | expand stands inside _ ih =>
    exact .expand ((inside.expand? grows.arena).trans stands) (inside.mono grows.arena) ih
  | node found admitted spans _ _ inner more =>
    exact .node (grows.arena.node? found) admitted spans inner more

/-- Two sequences one after the other. -/
theorem append {left right : List Part} {nodes others : List NodeId}
    {tokens more : List (Token String)} (first : forest.Spells left nodes tokens)
    (second : forest.Spells right others more) :
    forest.Spells (left ++ right) (nodes ++ others) (tokens ++ more) := by
  induction first with
  | nil => exact second
  | write written _ ih =>
    rw [List.append_assoc]
    exact .write written ih
  | expand stands inside _ ih =>
    rw [List.append_assoc] at ih
    exact .expand stands inside ih
  | node found admitted spans inner _ _ ih =>
    rw [List.append_assoc, List.append_assoc]
    exact .node found admitted spans inner ih

/-- What is written for two sequences is written for the first and then for the second. -/
theorem split {left right : List Part} {nodes : List NodeId} {tokens : List (Token String)}
    (spells : forest.Spells (left ++ right) nodes tokens) :
    ∃ firstNodes secondNodes firstTokens secondTokens,
      nodes = firstNodes ++ secondNodes ∧ tokens = firstTokens ++ secondTokens ∧
      forest.Spells left firstNodes firstTokens ∧
      forest.Spells right secondNodes secondTokens := by
  generalize whole : left ++ right = parts at spells
  induction spells generalizing left with
  | nil =>
    obtain ⟨rfl, rfl⟩ := List.append_eq_nil_iff.mp whole
    exact ⟨[], [], [], [], rfl, rfl, .nil, .nil⟩
  | write written more ih =>
    cases left with
    | nil =>
      obtain rfl := whole
      exact ⟨[], _, [], _, rfl, rfl, .nil, .write written more⟩
    | cons part left =>
      obtain ⟨rfl, rest⟩ := List.cons.inj whole
      obtain ⟨n₁, n₂, t₁, t₂, rfl, rfl, first, second⟩ := ih rest
      exact ⟨n₁, n₂, _ ++ t₁, t₂, rfl, (List.append_assoc ..).symm, .write written first, second⟩
  | expand stands inside more ih =>
    cases left with
    | nil =>
      obtain rfl := whole
      exact ⟨[], _, [], _, rfl, rfl, .nil, .expand stands inside more⟩
    | cons part left =>
      obtain ⟨rfl, rfl⟩ := List.cons.inj whole
      obtain ⟨n₁, n₂, t₁, t₂, rfl, rfl, first, second⟩ := ih (List.append_assoc ..)
      exact ⟨n₁, n₂, t₁, t₂, rfl, rfl, .expand stands inside first, second⟩
  | node found admitted spans inner more _ ih =>
    cases left with
    | nil =>
      obtain rfl := whole
      exact ⟨[], _, [], _, rfl, rfl, .nil, .node found admitted spans inner more⟩
    | cons part left =>
      obtain ⟨rfl, rest⟩ := List.cons.inj whole
      obtain ⟨n₁, n₂, t₁, t₂, rfl, rfl, first, second⟩ := ih rest
      exact ⟨_ ++ _ :: n₁, n₂, _ ++ t₁, t₂, by simp, by simp,
        .node found admitted spans inner first, second⟩

/-- A single part without children. -/
theorem of_writes {part : Part} {tokens : List (Token String)}
    (written : forest.Writes part tokens) : forest.Spells [part] [] tokens := by
  simpa using Spells.write written .nil

/-- A single child. -/
theorem of_node {category : Category} {id : NodeId} {kind : NodeKind} {span : Span}
    {below : List NodeId} {tokens : List (Token String)}
    (found : forest.arena.node? id = some ⟨kind, span⟩) (admitted : category.admits kind = true)
    (spans : span.Hull tokens) (inner : forest.Spells kind.production below tokens) :
    forest.Spells [.node category id] (below ++ [id]) tokens := by
  simpa using Spells.node found admitted spans inner .nil

/-- What is known of a single child. -/
theorem node_inv {category : Category} {id : NodeId} {nodes : List NodeId}
    {tokens : List (Token String)} (spells : forest.Spells [.node category id] nodes tokens) :
    ∃ kind span below, nodes = below ++ [id] ∧
      forest.arena.node? id = some ⟨kind, span⟩ ∧ category.admits kind = true ∧
      span.Hull tokens ∧ forest.Spells kind.production below tokens := by
  cases spells with
  | write written more => cases written
  | expand stands => simp [Part.expand?] at stands
  | @node _ _ kind span _ below _ _ _ found admitted spans inner more =>
    cases more
    exact ⟨kind, span, below, rfl, found, admitted, by simpa using spans, by simpa using inner⟩

/-- What is known of a single token. -/
theorem token_inv {kind : TokenKind Name} {nodes : List NodeId} {tokens : List (Token String)}
    (spells : forest.Spells [.token kind] nodes tokens) :
    ∃ token, nodes = [] ∧ tokens = [token] ∧ forest.Writes (.token kind) [token] := by
  cases spells with
  | expand stands => simp [Part.expand?] at stands
  | write written more =>
    cases more
    cases written with
    | @token _ token reads known => exact ⟨token, rfl, rfl, .token reads known⟩

/-- A child belongs to every category that admits its kind. -/
theorem recategorize {category other : Category} {id : NodeId} {nodes : List NodeId}
    {tokens : List (Token String)} (spells : forest.Spells [.node category id] nodes tokens)
    (wider : ∀ kind, category.admits kind = true → other.admits kind = true) :
    forest.Spells [.node other id] nodes tokens := by
  obtain ⟨kind, span, below, rfl, found, admitted, spans, inner⟩ := spells.node_inv
  exact .of_node found (wider kind admitted) spans inner

/-- Below parts that are spelled, every node is spelled with some of the tokens. -/
theorem exists_own {parts : List Part} {nodes : List NodeId} {tokens : List (Token String)}
    (spells : forest.Spells parts nodes tokens) :
    ∀ id ∈ nodes, ∃ node own below, forest.arena.node? id = some node ∧ node.span.Hull own ∧
      forest.Spells node.kind.production below own ∧ own <:+: tokens := by
  induction spells with
  | nil => nofun
  | @write _ _ _ tokens others _ _ ih =>
    intro id member
    obtain ⟨node, own, below, found, hull, inner, inside⟩ := ih id member
    exact ⟨node, own, below, found, hull, inner,
      inside.trans (List.suffix_append tokens others).isInfix⟩
  | expand _ _ _ ih => exact ih
  | @node _ id kind span _ below nodes tokens others found _ hull inner _ ih ihMore =>
    intro other member
    have first : tokens <:+: tokens ++ others := (List.prefix_append tokens others).isInfix
    rcases List.mem_append.mp member with early | late
    · obtain ⟨node, own, below, found, hull, inner, inside⟩ := ih other early
      exact ⟨node, own, below, found, hull, inner, inside.trans first⟩
    · rcases List.mem_cons.mp late with rfl | later
      · exact ⟨_, tokens, below, found, hull, inner, first⟩
      · obtain ⟨node, own, below, found, hull, inner, inside⟩ := ihMore other later
        exact ⟨node, own, below, found, hull, inner,
          inside.trans (List.suffix_append tokens others).isInfix⟩

end Spells

end Forest

end Vibescript
