import Vibescript.Proofs.Parser.Program
import Vibescript.Proofs.Source.Stream
import Vibescript.Proofs.Tree.Directives
import Vibescript.Proofs.Tree.Spans

/-!
# No token is lost

A source text without errors is written as its tree says: its tokens, without the directives that
no node claims, are the tokens of the yield. Between the two stand only symbols that were split
into a colon and a name.
-/
namespace Vibescript

/-- Tokens are the same up to symbols that are split into a colon and a name. -/
inductive Splits : List (Token String) → List (Token String) → Prop
  /-- No tokens. -/
  | nil : Splits [] []
  /-- A token stays. -/
  | keep {token : Token String} {rest taken : List (Token String)} (more : Splits rest taken) :
      Splits (token :: rest) (token :: taken)
  /-- A symbol is split. -/
  | split {name : String} {span : Span} {rest taken : List (Token String)}
      (more : Splits rest taken) :
      Splits (⟨.symbol name, span⟩ :: rest) (.colonOf span :: .wordOf name span :: taken)

namespace Splits

variable {token : Token String} {rest taken : List (Token String)}

/-- What is no symbol stays. -/
theorem of_cons (splits : Splits (token :: rest) taken) (notSymbol : token.tag ≠ .symbol) :
    ∃ more, taken = token :: more ∧ Splits rest more := by
  cases splits with
  | keep more => exact ⟨_, rfl, more⟩
  | split => exact absurd rfl notSymbol

/-- A colon and a name are a symbol that is split, after directives. -/
theorem of_split {before : List (Token String)} {name : String} {span : Span}
    (directives : ∀ mark ∈ before, mark.kind.isDirective = true)
    (splits : Splits (before ++ .colonOf span :: .wordOf name span :: rest) taken) :
    Splits (before ++ ⟨.symbol name, span⟩ :: rest) taken := by
  induction before generalizing taken with
  | nil =>
    obtain ⟨_, rfl, more⟩ := splits.of_cons (TokenKind.fixed_tag_ne rfl rfl)
    obtain ⟨_, rfl, last⟩ := more.of_cons (Consumes.tag_wordOf_ne name span)
    exact .split last
  | cons mark before ih =>
    obtain ⟨directive, others⟩ := List.forall_mem_cons.mp directives
    have notSymbol : mark.tag ≠ .symbol := by
      obtain same | same := TokenKind.tag_of_isDirective directive <;> rw [Token.tag, same] <;>
        decide
    obtain ⟨_, rfl, more⟩ := splits.of_cons notSymbol
    exact .keep (ih others more)

end Splits

/-- The tokens that are taken up to the end are those of the source, without the directives that
are passed over, up to symbols that are split. -/
theorem Consumes.splits {source : List Char} {whole taken rest : List (Token String)}
    (consumes : Consumes whole taken rest) (atEnd : rest = [])
    (line : Token.InLine source whole) (keep : Token String → Bool)
    (plain : ∀ token : Token String, token.kind.isDirective = false → keep token = true)
    (kept : ∀ token ∈ whole, token.kind.isDirective = true →
      (keep token = true ↔ token ∈ taken)) :
    Splits (whole.filter keep) taken := by
  induction consumes with
  | done =>
    subst atEnd
    exact .nil
  | @take token rest taken left more ih =>
    obtain ⟨first, _, tail⟩ := Token.InLine.cons_iff.mp line
    have keeps : keep token = true := by
      by_cases directive : token.kind.isDirective = true
      · exact (kept token List.mem_cons_self directive).mpr List.mem_cons_self
      · exact plain token (by simpa using directive)
    rw [List.filter_cons_of_pos keeps]
    refine .keep (ih atEnd tail fun other member directive => ?_)
    rw [kept other (List.mem_cons_of_mem _ member) directive, List.mem_cons]
    refine ⟨fun found => found.resolve_left ?_, .inr⟩
    rintro rfl
    exact Nat.lt_irrefl _ (first other member).2
  | @demote token rest taken left directive more ih =>
    obtain ⟨first, _, tail⟩ := Token.InLine.cons_iff.mp line
    have later := (more.inLine tail).2 (token.span.start + 1) fun other member =>
      (first other member).2
    have dropped : ¬ keep token = true := by
      rw [kept token List.mem_cons_self directive]
      intro member
      have starts := later token (List.mem_append_left _ member)
      omega
    rw [List.filter_cons_of_neg dropped]
    exact ih atEnd tail fun other member => kept other (List.mem_cons_of_mem _ member)
  | @split name span before rest taken left directives more ih =>
    have symbol := plain ⟨.symbol name, span⟩ rfl
    have colon := plain (.colonOf span) rfl
    have word := plain (.wordOf name span) (TokenKind.isDirective_ofWord name)
    have splits := ih atEnd line.split_symbol_after fun token member directive => by
      refine kept token ?_ directive
      simp only [List.mem_append, List.mem_cons] at member ⊢
      rcases member with early | rfl | rfl | late
      · exact .inl early
      · exact Bool.noConfusion directive
      · rw [Token.wordOf, TokenKind.isDirective_ofWord] at directive
        contradiction
      · exact .inr (.inr late)
    rw [List.filter_append, List.filter_cons_of_pos colon, List.filter_cons_of_pos word] at splits
    rw [List.filter_append, List.filter_cons_of_pos symbol]
    exact splits.of_split fun mark member => directives mark (List.mem_filter.mp member).1

/-- Every directive that is taken stood among the tokens. -/
theorem Consumes.mem_of_isDirective {whole taken rest : List (Token String)}
    (consumes : Consumes whole taken rest) {token : Token String} (member : token ∈ taken)
    (directive : token.kind.isDirective = true) : token ∈ whole := by
  induction consumes with
  | done => contradiction
  | take _ ih =>
    rcases List.mem_cons.mp member with rfl | later
    · exact List.mem_cons_self
    · exact List.mem_cons_of_mem _ (ih later)
  | demote _ _ ih => exact List.mem_cons_of_mem _ (ih member)
  | split _ _ ih =>
    have found := ih member
    simp only [List.mem_append, List.mem_cons] at found ⊢
    rcases found with early | rfl | rfl | late
    · exact .inl early
    · exact Bool.noConfusion directive
    · rw [Token.wordOf, TokenKind.isDirective_ofWord] at directive
      contradiction
    · exact .inr (.inr late)

/-- Of two tokens in a line that are not the same, one precedes the other. -/
theorem Token.InLine.trichotomy {source : List Char} {tokens : List (Token String)}
    (line : Token.InLine source tokens) {left right : Token String} (first : left ∈ tokens)
    (second : right ∈ tokens) : left = right ∨ left.Precedes right ∨ right.Precedes left := by
  have all : ∀ token ∈ tokens, ∀ other ∈ tokens,
      token = other ∨ token.Precedes other ∨ other.Precedes token :=
    fun _ early _ late => List.Pairwise.forall_of_forall_of_flip
      (R := fun token other => token = other ∨ token.Precedes other ∨ other.Precedes token)
      (fun _ _ => .inl rfl) (line.ordered.imp fun precedes => .inr (.inl precedes))
      (line.ordered.imp fun precedes => .inr (.inr precedes)) early late
  exact all left first right second

/-- Of two tokens in a line, a directive lies inside the other only when they are the same. -/
theorem Token.InLine.eq_of_inside {source : List Char} {tokens : List (Token String)}
    (line : Token.InLine source tokens) {token other : Token String} (first : token ∈ tokens)
    (second : other ∈ tokens) (directive : token.kind.isDirective = true)
    (inside : token.span.Inside other.span) : token = other := by
  have filled := (line.stands token first).directive directive
  obtain ⟨start, stop⟩ := inside
  obtain same | ⟨_, later⟩ | ⟨earlier, _⟩ := line.trichotomy first second
  · exact same
  · omega
  · omega

/-- Whether a token counts for a tree: a directive does only when it lies in a directive node. -/
def SyntaxTree.counts (tree : SyntaxTree) (token : Token String) : Bool :=
  !token.kind.isDirective || tree.arena.ids.any fun id =>
    (tree.kind id).isDirective && token.span.Inside (tree.span id)

namespace Parser

variable {source : String} {root : NodeId} {final : Parser} {body : NodeRange}
  {below : List NodeId} {taken rest : List (Token String)}

/-- The errors of a parse are those of the lexer and those of the parser. -/
theorem errors_finish (parser : Parser) (options : ParseOptions) (root : NodeId) :
    (parser.finish options root).errors = [] ↔
      parser.cursor.lexer.errors = #[] ∧ parser.errors = #[] := by
  have whole : (parser.finish options root).errors = [] ↔
      parser.cursor.lexer.errors.toList.map ParseError.ofLexical ++ parser.errors.toList = [] := by
    have same : parser.cursor.finish.errors = parser.cursor.lexer.errors := rfl
    rw [finish]
    dsimp only
    rw [same, ← List.length_eq_zero_iff, ← List.length_eq_zero_iff]
    split
    · rw [List.length_take, List.length_mergeSort]
      omega
    · rw [List.length_mergeSort]
  rw [whole, List.append_eq_nil_iff, List.map_eq_nil_iff, Array.toList_eq_nil_iff,
    Array.toList_eq_nil_iff]

/-- A directive counts for the tree of a program when it was taken. -/
theorem ReadsProgram.counts_iff (reads : ReadsProgram source root final body below taken rest)
    (whole : ¬ final.forest.isDamaged) {token : Token String}
    (member : token ∈ sourceTokens source) (directive : token.kind.isDirective = true) :
    SyntaxTree.counts ⟨final.arena, final.cursor.lexer.names, root⟩ token = true ↔
      token ∈ taken := by
  have line := Token.InLine.of_source source.toList
  have claims := reads.spells.claims whole fun part member => by
    have plain := NodeKind.any_isDirective_production (.program body)
    simpa using List.any_eq_false.mp plain part member
  have own : (final.arena.kind root).isDirective = false := by
    rw [Arena.kind_of_node? reads.found]
    rfl
  have claims := claims.concat own
  rw [← reads.nodes] at claims
  rw [SyntaxTree.counts, directive, Bool.not_true, Bool.false_or, List.any_eq_true]
  constructor
  · rintro ⟨id, inArena, both⟩
    rw [Bool.and_eq_true, decide_eq_true_eq] at both
    obtain ⟨other, inTaken, isDirective, spans⟩ := claims.taken id inArena both.1
    have inSource := reads.consumes.mem_of_isDirective inTaken isDirective
    have inside : token.span.Inside other.span := spans ▸ both.2
    rw [line.eq_of_inside member inSource directive inside]
    exact inTaken
  · intro inTaken
    obtain ⟨id, inArena, isDirective, spans⟩ := claims.claimed token inTaken directive
    refine ⟨id, inArena, ?_⟩
    rw [Bool.and_eq_true, decide_eq_true_eq]
    refine ⟨isDirective, ?_⟩
    change token.span.Inside (final.forest.arena.span id)
    rw [spans]
    exact ⟨Nat.le_refl _, Nat.le_refl _⟩

/-- The tokens that a program was read from are those of its yield. -/
theorem ReadsProgram.yield (reads : ReadsProgram source root final body below taken rest)
    (whole : ¬ final.forest.isDamaged) :
    Forest.WritesAll ⟨final.arena, final.cursor.lexer.names, False⟩
      (SyntaxTree.yield ⟨final.arena, final.cursor.lexer.names, root⟩) taken := by
  have ordered := final.arena.pairwise_ids
  rw [reads.nodes] at ordered
  obtain ⟨first, _, apart⟩ := List.pairwise_append.mp ordered
  have undamaged : final.forest = ⟨final.arena, final.cursor.lexer.names, False⟩ := by
    rw [forest, Forest.mk.injEq]
    exact ⟨rfl, rfl, eq_false whole⟩
  have spells := reads.spells
  rw [undamaged] at spells
  have written := Forest.Spells.yield ⟨final.arena, final.cursor.lexer.names, root⟩ spells first
    root.index fun id member => apart id member root List.mem_cons_self
  have isKind : final.arena.kind root = .program body := Arena.kind_of_node? reads.found
  rw [SyntaxTree.yield, ← Arena.last_of_ids reads.nodes, SyntaxTree.yieldWithin,
    SyntaxTree.kind, isKind]
  exact written

end Parser

/-- A source text without errors is written as its tree says: its tokens, without the end and
without the directives that no directive node claims, are the tokens of the yield, up to symbols
that are split into a colon and a name. -/
theorem yield_parseWith (options : ParseOptions) (source : String)
    (clean : (parseWith options source).errors = []) :
    ∃ tokens, Splits (((lex source).written.filter fun token => token.tag ≠ .endOfInput).filter
        (parseWith options source).tree.counts) tokens ∧
      Forest.WritesAll ⟨(parseWith options source).tree.arena,
          (parseWith options source).tree.names, False⟩
        (parseWith options source).tree.yield tokens := by
  obtain ⟨body, below, taken, rest, reads⟩ := Parser.reads_run options source
  rw [parseWith_eq, Parser.errors_finish] at clean
  rw [parseWith_eq, Parser.tree_finish]
  generalize Parser.run options source = result at reads clean ⊢
  have whole : ¬ result.2.forest.isDamaged := by
    rintro (errors | lexical)
    · exact errors clean.2
    · exact lexical clean.1
  refine ⟨taken, ?_, reads.yield whole⟩
  rw [filter_written_lex]
  exact reads.consumes.splits (reads.whole whole) (Token.InLine.of_source source.toList) _
    (fun token plain => by rw [SyntaxTree.counts, plain]; rfl)
    fun token member directive => reads.counts_iff whole member directive

/-- A key that was split off a symbol, a comma after the last argument and an escape. -/
theorem yield_parseWith_call :
    (parseWith .usual "f(a:b, c: \"d\\n\",)").errors = [] ∧
      ∃ tokens, Splits (((lex "f(a:b, c: \"d\\n\",)").written.filter
          fun token => token.tag ≠ .endOfInput).filter
            (parseWith .usual "f(a:b, c: \"d\\n\",)").tree.counts) tokens ∧
        Forest.WritesAll ⟨(parseWith .usual "f(a:b, c: \"d\\n\",)").tree.arena,
            (parseWith .usual "f(a:b, c: \"d\\n\",)").tree.names, False⟩
          (parseWith .usual "f(a:b, c: \"d\\n\",)").tree.yield tokens :=
  ⟨by decide +kernel, yield_parseWith .usual "f(a:b, c: \"d\\n\",)" (by decide +kernel)⟩

end Vibescript
