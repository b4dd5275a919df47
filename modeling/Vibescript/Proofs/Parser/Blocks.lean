import Vibescript.Proofs.Parser.Fidelity
import Vibescript.Proofs.Tree.Colons
import Vibescript.Proofs.Tree.Whole

/-!
# Every opener has its end

In a source text without errors the words that open blocks and the words `end` match as brackets
do. The matched pairs are those of the blocks of the tree: a block starts where its opener does,
or at a word before it, and ends where the matching `end` does. So a text in which openers and
ends are not equally many has an error.
-/
namespace Vibescript

/-- Where symbols are split only before values, the brackets stay. -/
theorem Splits.filter_isBracket {tokens taken : List (Token String)} (splits : Splits tokens taken)
    (chain : taken.IsChain Token.MayFollow) :
    tokens.filter (·.tag.isBracket) = taken.filter (·.tag.isBracket) := by
  induction splits with
  | nil => rfl
  | keep _ ih => rw [List.filter_cons, List.filter_cons, ih chain.tail]
  | @split name span rest taken more ih =>
    obtain ⟨follows, later⟩ := List.isChain_cons_cons.mp chain
    have word := follows rfl
    have symbol : Token.tag ⟨.symbol name, span⟩ = .symbol := rfl
    have colon : (Token.colonOf span).tag = .colon := rfl
    rw [List.filter_cons_of_neg (by simp [symbol, Tag.isBracket, Tag.opensBlock]),
      List.filter_cons_of_neg (by simp [colon, Tag.isBracket, Tag.opensBlock]),
      List.filter_cons_of_neg (by simp [word]), ih later.tail]

namespace SyntaxTree

/-- The blocks of a tree. -/
def blocks (tree : SyntaxTree) : List NodeId :=
  (tree.preorder tree.root).filter fun id => (tree.kind id).opener?.isSome

/-- A block is opened by the first of two tokens and ended by the second. -/
structure Encloses (tree : SyntaxTree) (tokens : List (Token String)) (id : NodeId)
    (pair : Token String × Token String) : Prop where
  /-- The block is of the kind that the opener opens. -/
  keyword : (tree.kind id).opener? = some pair.1.tag
  /-- The opener stands in the block. -/
  inside : (tree.span id).start ≤ pair.1.span.start
  /-- No opener stands before it in the block. -/
  first : ∀ token ∈ tokens, token.tag.opensBlock = true →
    (tree.span id).start ≤ token.span.start → pair.1.span.start ≤ token.span.start
  /-- The block ends where the second token does. -/
  ends : (tree.span id).stop = pair.2.span.stop

end SyntaxTree

/-- A block that stands among tokens in a line is enclosed by its opener and its `end`. -/
theorem Forest.Delimits.encloses {tree : SyntaxTree} {damaged : Prop} {source : List Char}
    {tokens : List (Token String)} {id : NodeId} {pair : Token String × Token String}
    (delimits : Forest.Delimits ⟨tree.arena, tree.names, damaged⟩ tokens id pair)
    (line : Token.InLine source tokens) : tree.Encloses tokens id pair := by
  obtain ⟨opens, lead, inner, bare, ⟨first, isFirst, last, isLast, spans⟩, before, after, rfl⟩ :=
    delimits
  have hull : tree.span id = ⟨first.span.start, last.span.stop⟩ := spans
  obtain ⟨front, _, beyond⟩ := Token.InLine.append_iff.mp line
  obtain ⟨_, block, apart⟩ := Token.InLine.append_iff.mp front
  obtain ⟨_, inside, _⟩ := Token.InLine.append_iff.mp block
  obtain ⟨within, _, _⟩ := Token.InLine.cons_iff.mp inside
  have member : first ∈ lead ++ pair.1 :: (inner ++ [pair.2]) := List.mem_of_mem_head? isFirst
  have isEnd : (lead ++ pair.1 :: (inner ++ [pair.2])).getLast? = some pair.2 := by
    rw [← List.cons_append, ← List.append_assoc, List.getLast?_concat]
  constructor
  · exact opens
  · rw [hull]
    exact block.le_start isFirst (by simp)
  · intro token stands opening later
    rw [hull] at later
    dsimp only at later
    rcases List.mem_append.mp stands with stands | late
    · rcases List.mem_append.mp stands with early | stands
      · have precedes := (apart token early first member).2
        omega
      · rcases List.mem_append.mp stands with isLead | stands
        · rw [bare token isLead] at opening
          contradiction
        · rcases List.mem_cons.mp stands with rfl | later
          · exact Nat.le_refl _
          · exact Nat.le_of_lt (within token later).2
    · exact Nat.le_of_lt (beyond pair.1 (by simp) token late).2
  · have same : last = pair.2 := Option.some.inj (isLast.symm.trans isEnd)
    rw [hull, same]

namespace SyntaxTree

variable {tree : SyntaxTree} {tokens others : List (Token String)}

/-- Blocks are enclosed among all tokens whose openers are among others. -/
theorem Encloses.of_subset {id : NodeId} {pair : Token String × Token String}
    (encloses : tree.Encloses tokens id pair)
    (subset : ∀ token ∈ others, token.tag.opensBlock = true → token ∈ tokens) :
    tree.Encloses others id pair :=
  ⟨encloses.keyword, encloses.inside,
    fun token member opening => encloses.first token (subset token member opening) opening,
    encloses.ends⟩

end SyntaxTree

namespace Parser

variable {source : String} {root : NodeId} {final : Parser} {body : NodeRange}
  {below : List NodeId} {taken rest : List (Token String)}

/-- The blocks of a program are those below its root. -/
theorem ReadsProgram.blocks_perm (reads : ReadsProgram source root final body below taken rest) :
    (final.forest.blocks below).Perm
      (SyntaxTree.blocks ⟨final.arena, final.cursor.lexer.names, root⟩) := by
  have reached := reads.isWhole.reached
  have own : (final.arena.kind root).opener? = none := by
    rw [Arena.kind_of_node? reads.found]
    rfl
  have all : (SyntaxTree.mk final.arena final.cursor.lexer.names root).arena.ids =
      below ++ [root] := reads.nodes
  rw [all] at reached
  have blocks := reached.filter fun id => (final.arena.kind id).opener?.isSome
  rw [List.filter_append, List.filter_cons_of_neg (by simp [own]), List.filter_nil,
    List.append_nil] at blocks
  exact blocks.symm

/-- The brackets that an undamaged program was read from are those of the source text. -/
theorem ReadsProgram.filter_isBracket
    (reads : ReadsProgram source root final body below taken rest)
    (whole : ¬ final.forest.isDamaged) :
    (lex source).written.filter (·.tag.isBracket) = taken.filter (·.tag.isBracket) := by
  have introduced := reads.spells.introduced whole (NodeKind.program body).phrased_production
  have splits := reads.consumes.splits (reads.whole whole) (Token.InLine.of_source source.toList)
    (SyntaxTree.counts ⟨final.arena, final.cursor.lexer.names, root⟩)
    (fun token plain => by rw [SyntaxTree.counts, plain]; rfl)
    fun token member directive => reads.counts_iff whole member directive
  have counted : ∀ token : Token String, token.tag.isBracket = true →
      SyntaxTree.counts ⟨final.arena, final.cursor.lexer.names, root⟩ token = true := by
    intro token bracket
    have plain : token.kind.isDirective = false := by
      refine Bool.eq_false_iff.mpr fun directive => ?_
      obtain same | same := TokenKind.tag_of_isDirective directive <;>
        rw [Token.tag, same] at bracket <;> contradiction
    rw [SyntaxTree.counts, plain]
    rfl
  have kept : (sourceTokens source).filter (·.tag.isBracket) =
      (lex source).written.filter (·.tag.isBracket) := by
    rw [written_lex, List.filter_append]
    exact (List.append_nil _).symm
  rw [← splits.filter_isBracket introduced.chain, ← kept, List.filter_filter]
  refine List.filter_congr fun token _ => ?_
  cases bracket : token.tag.isBracket with
  | false => rfl
  | true => rw [counted token bracket, Bool.and_self]

/-- The brackets of an undamaged program match, and the pairs that match are those of the blocks
below its root. -/
theorem ReadsProgram.bracketed (reads : ReadsProgram source root final body below taken rest)
    (whole : ¬ final.forest.isDamaged) :
    ∃ pairs, Token.Bracketed (lex source).written pairs ∧
      List.Forall₂ (SyntaxTree.Encloses ⟨final.arena, final.cursor.lexer.names, root⟩
        (lex source).written) (final.forest.blocks below) pairs := by
  have line := (reads.consumes.inLine (Token.InLine.of_source source.toList)).1
  rw [reads.whole whole, List.append_nil] at line
  have clear := @NodeKind.isClear_of_opener?_eq_none (.program body) rfl
  obtain ⟨pairs, bracketed, delimits⟩ := reads.spells.matches whole clear
  have same := reads.filter_isBracket whole
  refine ⟨pairs, ?_, ?_⟩
  · have brackets := bracketed.filter
    rw [← same] at brackets
    exact brackets.of_filter
  · refine delimits.imp fun id pair holds => ?_
    have encloses : SyntaxTree.Encloses ⟨final.arena, final.cursor.lexer.names, root⟩
        taken id pair := Forest.Delimits.encloses holds line
    refine encloses.of_subset fun token member opening => ?_
    have bracket : token ∈ (lex source).written.filter (·.tag.isBracket) :=
      List.mem_filter.mpr ⟨member, Tag.isBracket_of_opensBlock opening⟩
    rw [same] at bracket
    exact (List.mem_filter.mp bracket).1

/-- A parse without errors read a program, and nothing was damaged. -/
theorem reads_clean (options : ParseOptions) (source : String)
    (clean : (parseWith options source).errors = []) :
    ∃ body below taken rest, ReadsProgram source (Parser.run options source).1
      (Parser.run options source).2 body below taken rest ∧
      ¬ (Parser.run options source).2.forest.isDamaged := by
  obtain ⟨body, below, taken, rest, reads⟩ := reads_run options source
  rw [parseWith_eq, errors_finish] at clean
  refine ⟨body, below, taken, rest, reads, ?_⟩
  rintro (errors | lexical)
  · exact errors clean.2
  · exact lexical clean.1

end Parser

/-- In a source text without errors openers and ends match as brackets do, and the pairs that
match are those of the blocks of the tree, each once. -/
theorem bracketed_parseWith (options : ParseOptions) (source : String)
    (clean : (parseWith options source).errors = []) :
    ∃ pairs, Token.Bracketed (lex source).written pairs ∧
      ∃ nodes, nodes.Nodup ∧ nodes.Perm (parseWith options source).tree.blocks ∧
        List.Forall₂ ((parseWith options source).tree.Encloses (lex source).written)
          nodes pairs := by
  obtain ⟨body, below, taken, rest, reads, whole⟩ := Parser.reads_clean options source clean
  rw [parseWith_eq, Parser.tree_finish]
  generalize Parser.run options source = result at reads whole ⊢
  obtain ⟨pairs, bracketed, encloses⟩ := reads.bracketed whole
  refine ⟨pairs, bracketed, result.2.forest.blocks below, ?_, reads.blocks_perm, encloses⟩
  have ordered := result.2.arena.pairwise_ids
  rw [reads.nodes] at ordered
  have distinct : below.Nodup := by
    refine (List.pairwise_append.mp ordered).1.imp ?_
    rintro left _ before rfl
    exact Nat.lt_irrefl _ before
  exact distinct.filter _

/-- A private method, a block after a call and a clause, with an opener's name as a symbol. -/
theorem bracketed_parseWith_class :
    (parseWith .usual "class A private def f() g(:do) do x end if y elsif z end end end").errors =
        [] ∧
      ∃ pairs, Token.Bracketed
          (lex "class A private def f() g(:do) do x end if y elsif z end end end").written pairs ∧
        ∃ nodes, nodes.Nodup ∧
          nodes.Perm (parseWith .usual
            "class A private def f() g(:do) do x end if y elsif z end end end").tree.blocks ∧
          List.Forall₂ ((parseWith .usual
            "class A private def f() g(:do) do x end if y elsif z end end end").tree.Encloses
              (lex "class A private def f() g(:do) do x end if y elsif z end end end").written)
            nodes pairs :=
  ⟨by decide +kernel, bracketed_parseWith .usual
    "class A private def f() g(:do) do x end if y elsif z end end end" (by decide +kernel)⟩

end Vibescript
