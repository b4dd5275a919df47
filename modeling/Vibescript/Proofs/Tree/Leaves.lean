import Mathlib.Algebra.GroupWithZero.Nat
import Vibescript.Proofs.Parser.Program
import Vibescript.Proofs.Source.Literals
import Vibescript.Proofs.Source.Recorded
import Vibescript.Proofs.Source.Wording

/-!
# What leaves say

The tokens of a leaf are tokens of the text, or the halves of a symbol, and those of a string literal
follow each other in the text as they do in the tree. So a leaf says what the text under its span
says: a name is the text without the sigils, an integer is the value of its digits, and a string is
what stands between its quotation marks with the escapes decoded.
-/
namespace Vibescript

namespace Consumes

variable {whole taken rest : List (Token String)}

/-- A string literal that is taken opens where one opens in the tokens before. -/
theorem exists_opening (consumes : Consumes whole taken rest) {early late : List (Token String)}
    {opening : Token String} (same : taken = early ++ opening :: late)
    (opens : opening.kind = .stringOpen) :
    ∃ before after, whole = before ++ opening :: after ∧ Consumes after late rest := by
  induction consumes generalizing early with
  | done => simp at same
  | @take token others _ _ more ih =>
    cases early with
    | nil =>
      obtain ⟨rfl, rfl⟩ := List.cons.inj same
      exact ⟨[], others, rfl, more⟩
    | cons first early =>
      obtain ⟨before, after, rfl, consumes⟩ := ih (List.cons.inj same).2
      exact ⟨token :: before, after, rfl, consumes⟩
  | @demote token _ _ _ _ _ ih =>
    obtain ⟨before, after, rfl, consumes⟩ := ih same
    exact ⟨token :: before, after, rfl, consumes⟩
  | @split name span marks others _ _ directive _ ih =>
    obtain ⟨before, after, found, consumes⟩ := ih same
    -- The literal opens neither among the directives nor with a half of the symbol.
    have plain : opening ∉ marks ++ [.colonOf span, .wordOf name span] := by
      simp only [List.mem_append, List.mem_cons, List.not_mem_nil, or_false, not_or]
      refine ⟨fun isMark => ?_, ?_, ?_⟩
      · have isDirective := directive opening isMark
        rw [opens] at isDirective
        contradiction
      · rintro rfl
        contradiction
      · rintro rfl
        exact TokenKind.tag_ofWord_ne name rfl Tag.noConfusion Tag.noConfusion
          (congrArg TokenKind.tag opens)
    have apart : marks ++ .colonOf span :: .wordOf name span :: others =
        (marks ++ [.colonOf span, .wordOf name span]) ++ others := by simp
    rw [apart, List.append_eq_append_iff] at found
    rcases found with ⟨middle, rfl, rfl⟩ | ⟨middle, isMarks, whole⟩
    · exact ⟨marks ++ ⟨.symbol name, span⟩ :: middle, after, by simp, consumes⟩
    · cases middle with
      | nil =>
        obtain rfl : opening :: after = others := whole
        exact ⟨marks ++ [⟨.symbol name, span⟩], after, by simp, consumes⟩
      | cons first middle =>
        obtain ⟨rfl, -⟩ := List.cons.inj whole
        exact absurd (isMarks ▸ by simp) plain

/-- In a string literal, the next token is the next that is taken. -/
theorem uncons_inside {token : Token String} (consumes : Consumes whole (token :: taken) rest)
    (inside : Token.Closes true whole) :
    ∃ others, whole = token :: others ∧ Consumes others taken rest := by
  cases consumes with
  | take more => exact ⟨_, rfl, more⟩
  | demote directive _ =>
    rw [Token.Closes, Token.isQuoted_of_isDirective directive] at inside
    exact absurd inside.1 Bool.false_ne_true
  | @split name span marks others _ _ directive _ =>
    cases marks with
    | nil => exact absurd inside.1 Bool.false_ne_true
    | cons mark marks =>
      rw [List.cons_append, Token.Closes,
        Token.isQuoted_of_isDirective (directive mark List.mem_cons_self)] at inside
      exact absurd inside.1 Bool.false_ne_true

/-- In a string literal, what is taken comes first among the tokens before. -/
theorem exists_inside {pieces late : List (Token String)} {closing : Token String}
    (consumes : Consumes whole (pieces ++ closing :: late) rest)
    (inside : Token.Closes true whole)
    (arePieces : ∀ piece ∈ pieces, piece.kind.pieceText?.isSome = true) :
    ∃ after, whole = pieces ++ closing :: after := by
  induction pieces generalizing whole with
  | nil =>
    obtain ⟨after, rfl, _⟩ := consumes.uncons_inside inside
    exact ⟨after, rfl⟩
  | cons piece pieces ih =>
    obtain ⟨others, rfl, more⟩ := consumes.uncons_inside inside
    have quotes : piece.tag.quotes = true := by
      have isPiece := arePieces piece List.mem_cons_self
      obtain ⟨kind, span⟩ := piece
      cases kind <;> first | rfl | contradiction
    have further := inside.2
    rw [quotes] at further
    obtain ⟨after, rfl⟩ := ih more further
      fun other member => arePieces other (List.mem_cons_of_mem _ member)
    exact ⟨after, rfl⟩

end Consumes

namespace Token

/-- After a token, others close its literal. -/
theorem Closes.after {inside : Bool} {token : Token String} {before rest : List (Token String)}
    (closes : Closes inside (before ++ token :: rest)) : Closes token.tag.quotes rest := by
  induction before generalizing inside with
  | nil => exact closes.2
  | cons _ _ ih => exact ih closes.2

end Token

/-- A leaf says what the text under its span says. -/
def Node.Echoes (source : String) (names : NameTable) (node : Node) : Prop :=
  match node.kind with
  | .identifier name | .constant name =>
    Text.slice? source.toList node.span = some (names.text name).toList
  | .symbol name =>
    Text.slice? source.toList node.span = some (':' :: (names.text name).toList)
  | .instanceVariable name =>
    Text.slice? source.toList node.span = some ('@' :: (names.text name).toList)
  | .classVariable name =>
    Text.slice? source.toList node.span = some ('@' :: '@' :: (names.text name).toList)
  | .integer value => ∃ text, Text.slice? source.toList node.span = some text ∧
    Content.IsDigits text ∧
    (value = Content.decimal text ∧ value < 2 ^ 64 ∨
      value = 0 ∧ 2 ^ 64 ≤ Content.decimal text ∧
        ⟨.integerOverflow, node.span⟩ ∈ (lex source).lexer.errors.toList)
  | .string value => node.span.CoversLiteral source.toList (names.text value).toList
  | _ => True

/-- Every leaf of a tree says what the text under its span says. -/
def SyntaxTree.Echoes (source : String) (tree : SyntaxTree) : Prop :=
  ∀ id node, tree.arena.node? id = some node → node.Echoes source tree.names

namespace Forest.Spells

variable {forest : Forest} {below : List NodeId} {own : List (Token String)} {span : Span}

/-- The token of a leaf has the span of the leaf. -/
theorem exists_leaf {kind : TokenKind Name} (spells : forest.Spells [.token kind] below own)
    (hull : span.Hull own) : own = [⟨kind.map forest.names.text, span⟩] := by
  obtain ⟨token, -, rfl, written⟩ := spells.token_inv
  obtain ⟨first, isFirst, last, isLast, rfl⟩ := hull
  obtain rfl : token = first := Option.some.inj isFirst
  obtain rfl : token = last := Option.some.inj isLast
  cases written with
  | token reads _ => rw [← reads]

/-- The tokens of a string reach from its start to its end. -/
theorem exists_literal {value : Name} (spells : forest.Spells [.string value] below own)
    (hull : span.Hull own) : ∃ opening pieces closing, own = opening :: pieces ++ [closing] ∧
      opening.kind = .stringOpen ∧ closing.kind = .stringClose ∧
      (∀ piece ∈ pieces, piece.kind.pieceText?.isSome = true) ∧
      Token.inner pieces = (forest.names.text value).toList ∧
      span = ⟨opening.span.start, closing.span.stop⟩ := by
  cases spells with
  | expand stands => simp [Part.expand?] at stands
  | write written more =>
    cases more
    cases written with
    | @string _ opening closing pieces opens closes reads _ =>
      obtain ⟨first, isFirst, last, isLast, rfl⟩ := hull
      rw [List.append_nil] at *
      obtain rfl : opening = first := Option.some.inj isFirst
      rw [List.getLast?_append, List.getLast?_singleton, Option.some_or] at isLast
      obtain rfl : closing = last := Option.some.inj isLast
      refine ⟨opening, pieces, closing, rfl, opens, closes, reads.all, ?_, rfl⟩
      rw [← reads.joined, String.toList_join]
      rfl

end Forest.Spells

namespace Parser

variable {source : String} {root : NodeId} {final : Parser} {body : NodeRange}
  {below : List NodeId} {taken rest : List (Token String)}

/-- A string literal that was read covers its text. -/
theorem ReadsProgram.coversLiteral (reads : ReadsProgram source root final body below taken rest)
    {opening closing : Token String} {pieces : List (Token String)}
    (within : opening :: pieces ++ [closing] <:+: taken) (opens : opening.kind = .stringOpen)
    (arePieces : ∀ piece ∈ pieces, piece.kind.pieceText?.isSome = true)
    (closes : closing.kind = .stringClose) :
    Span.CoversLiteral ⟨opening.span.start, closing.span.stop⟩ source.toList
      (Token.inner pieces) := by
  obtain ⟨early, late, whole⟩ := within
  have opened : taken = early ++ opening :: (pieces ++ closing :: late) := by
    rw [← whole]
    simp
  obtain ⟨before, after, tokens, consumes⟩ := reads.consumes.exists_opening opened opens
  have inside : Token.Closes true after := by
    have closed := Token.Closes.of_source source.toList
    rw [← sourceTokens, tokens] at closed
    have further := closed.after
    rwa [Token.tag, opens] at further
  obtain ⟨more, rfl⟩ := consumes.exists_inside inside arePieces
  exact Token.coversLiteral tokens opens arePieces closes

/-- The leaves of a program that was read echo the text. -/
theorem ReadsProgram.echoes (reads : ReadsProgram source root final body below taken rest)
    {id : NodeId} {node : Node} (found : final.arena.node? id = some node) :
    node.Echoes source final.cursor.lexer.names := by
  have isNode := Arena.mem_ids_of_node? found
  rw [reads.nodes] at isNode
  rcases List.mem_append.mp isNode with below | root
  · obtain ⟨other, own, under, same, hull, inner, within⟩ := reads.spells.exists_own id below
    obtain rfl : other = node := Option.some.inj (same.symm.trans found)
    -- A leaf that is one token echoes the text when the token does.
    have leaf (kind : TokenKind Name) (isLeaf : other.kind.production = [.token kind]) :
        Token.Echoes source.toList ⟨kind.map final.cursor.lexer.names.text, other.span⟩ := by
      rw [isLeaf] at inner
      have single := inner.exists_leaf hull
      have member := within.subset (single ▸ List.mem_cons_self)
      exact reads.consumes.forall_taken (Token.Echoes source.toList)
        (fun _ _ echoes => echoes.halves) (fun _ => Piece.echoes_of_mem_tokens) _ member
    obtain ⟨kind, span⟩ := other
    cases kind
    case identifier name => exact (leaf _ rfl).slice?
    case constant name => exact (leaf _ rfl).slice?
    case symbol name => exact (leaf _ rfl).slice?
    case instanceVariable name => exact (leaf _ rfl).slice?
    case classVariable name => exact (leaf _ rfl).slice?
    case integer value =>
      obtain ⟨text, covers, digits, value⟩ := leaf _ rfl
      rw [← (recorded_lex source).1] at value
      exact ⟨text, covers.slice?, digits, value⟩
    case string value =>
      obtain ⟨opening, pieces, closing, rfl, opens, closes, arePieces, value, rfl⟩ :=
        inner.exists_literal hull
      have covers := reads.coversLiteral within opens arePieces closes
      rwa [value] at covers
    all_goals exact trivial
  · obtain rfl := List.mem_singleton.mp root
    obtain rfl := Option.some.inj (reads.found.symm.trans found)
    exact trivial

end Parser

/-- In every tree that a parse returns, every leaf says what the text under its span says: also when
there are errors, and wherever the nesting limit cuts the parse. -/
theorem echoes_parseWith (options : ParseOptions) (source : String) :
    (parseWith options source).tree.Echoes source := by
  obtain ⟨body, below, taken, rest, reads⟩ := Parser.reads_run options source
  rw [parseWith_eq, Parser.tree_finish]
  generalize Parser.run options source = result at reads ⊢
  exact fun id node found => reads.echoes found

end Vibescript
