import Vibescript.Proofs.Parser.DepthLimit
import Vibescript.Proofs.Parser.Resumption

/-!
# No token is lost

Every token that a parse passes over belongs to a statement at the top level: to what was read, or
to the error node that takes the place of what failed. A parse that recovers from errors ends at
the end of the text, also at the nesting limit. So every token lies inside the span of one such
statement, and of one only, since a statement begins at a token that is not empty. A symbol that
the grammar splits can lie across two of them; then its halves take its place.
-/
namespace Vibescript

open Cursor

/-- A span lies inside the span of exactly one of some nodes. -/
def Arena.CoversOnce (arena : Arena) (ids : List NodeId) (span : Span) : Prop :=
  ∃! id, id ∈ ids ∧ span.Inside (arena.span id)

/-- A node begins where one of some tokens does that is not empty. -/
def Arena.BeginsAt (arena : Arena) (tokens : List (Token String)) (id : NodeId) : Prop :=
  ∃ node token, arena.node? id = some node ∧ token ∈ tokens ∧
    token.span.start = node.span.start ∧ token.span.start < token.span.stop

/-- A node stays where it begins while the arena grows and more tokens are taken. -/
theorem Arena.BeginsAt.mono {before after : Arena} {tokens others : List (Token String)}
    {id : NodeId} (begins : before.BeginsAt tokens id) (grows : before.Grows after)
    (more : tokens ⊆ others) : after.BeginsAt others id := by
  obtain ⟨node, token, found, member, starts, filled⟩ := begins
  exact ⟨node, token, grows.node? found, more member, starts, filled⟩

/-- Each of some tokens lies inside exactly one statement at the top level of a tree, or it is a
symbol and its colon and its name do. -/
def SyntaxTree.Accounts (tree : SyntaxTree) (tokens : List (Token String)) : Prop :=
  ∀ token ∈ tokens, tree.arena.CoversOnce tree.statements token.span ∨
    ∃ name, token.kind = .symbol name ∧
      tree.arena.CoversOnce tree.statements (Token.colonOf token.span).span ∧
      tree.arena.CoversOnce tree.statements (Token.wordOf name token.span).span

/-- The statements of a program that was added are those that it lists. -/
theorem SyntaxTree.statements_add {arena : Arena} {body : NodeRange} (inside : arena.Contains body)
    (names : NameTable) (span : Span) :
    statements ⟨(arena.add (.program body) span).2, names, (arena.add (.program body) span).1⟩ =
      arena.list body := by
  rw [statements, SyntaxTree.kind, Arena.kind, Arena.node?_add]
  exact (arena.grows_add (.program body) span).list inside

namespace Forest.Spells

variable {forest : Forest} {source : List Char} {category : Category} {ids : List NodeId}
  {nodes : List NodeId} {tokens : List (Token String)}

/-- A token of a sequence of nodes lies inside one of them. -/
theorem exists_inside (spells : forest.Spells (ids.map (.node category)) nodes tokens)
    (line : Token.InLine source tokens) {token : Token String} (member : token ∈ tokens) :
    ∃ id ∈ ids, token.span.Inside (forest.arena.span id) := by
  induction ids generalizing nodes tokens with
  | nil =>
    cases spells
    contradiction
  | cons id ids ih =>
    obtain ⟨_, _, first, second, _, rfl, own, others⟩ :=
      (show forest.Spells ([.node category id] ++ ids.map (.node category)) nodes tokens from
        spells).split
    obtain ⟨early, late, _⟩ := Token.InLine.append_iff.mp line
    rcases List.mem_append.mp member with inFirst | inSecond
    · obtain ⟨kind, span, _, _, found, _, hull, _⟩ := own.node_inv
      refine ⟨id, List.mem_cons_self, ?_⟩
      have same : forest.arena.span id = span := Arena.span_of_node? found
      rw [same]
      exact Span.Within.inside ⟨token, inFirst, token, inFirst, rfl⟩ hull early
    · obtain ⟨other, inside, within⟩ := ih others late inSecond
      exact ⟨other, List.mem_cons_of_mem _ inside, within⟩

/-- A token of a sequence of nodes that begin at tokens that are not empty lies inside exactly one
of them. -/
theorem coversOnce (spells : forest.Spells (ids.map (.node category)) nodes tokens)
    (line : Token.InLine source tokens) (begins : ∀ id ∈ ids, forest.arena.BeginsAt tokens id)
    {token : Token String} (member : token ∈ tokens) :
    forest.arena.CoversOnce ids token.span := by
  have apart := (spells.nested line).apart
  rw [Part.children_map_node] at apart
  have ordered := (line.stands token member).ordered
  -- Inside two nodes a token would be empty, and start where the second one does.
  have once : ∀ left right : NodeId, right ∈ ids →
      (forest.arena.span left).stop ≤ (forest.arena.span right).start →
      token.span.Inside (forest.arena.span left) → token.span.Inside (forest.arena.span right) →
      False := by
    intro left right inIds before insideLeft insideRight
    have stop := insideLeft.2
    have start := insideRight.1
    obtain ⟨node, first, found, inTokens, begins, filled⟩ := begins right inIds
    have own : forest.arena.span right = node.span := Arena.span_of_node? found
    rw [own] at start before
    obtain rfl | precedes | precedes := line.trichotomy inTokens member
    · omega
    · have earlier := precedes.2
      omega
    · have later := precedes.2
      omega
  obtain ⟨id, inIds, inside⟩ := spells.exists_inside line member
  refine ⟨id, ⟨inIds, inside⟩, fun other ⟨isOther, insideOther⟩ => ?_⟩
  have sides : other = id ∨ (forest.arena.span other).stop ≤ (forest.arena.span id).start ∨
      (forest.arena.span id).stop ≤ (forest.arena.span other).start :=
    List.Pairwise.forall_of_forall_of_flip
      (R := fun left right => left = right ∨
        (forest.arena.span left).stop ≤ (forest.arena.span right).start ∨
        (forest.arena.span right).stop ≤ (forest.arena.span left).start)
      (fun _ _ => .inl rfl) (apart.imp fun before => .inr (.inl before))
      (apart.imp fun before => .inr (.inr before)) isOther inIds
  rcases sides with same | before | after
  · exact same
  · exact (once other id inIds before insideOther inside).elim
  · exact (once id other isOther after inside insideOther).elim

end Forest.Spells

/-- Where no ordinary token is left, an ordinary token was taken, or it is a symbol and its halves
were. -/
theorem Consumes.mem_or_halves {whole taken rest : List (Token String)}
    (consumes : Consumes whole taken rest) (ended : Token.ordinary rest = [])
    {token : Token String} (member : token ∈ whole) (plain : token.kind.isDirective = false) :
    token ∈ taken ∨ ∃ name, token.kind = .symbol name ∧ Token.colonOf token.span ∈ taken ∧
      Token.wordOf name token.span ∈ taken := by
  induction consumes generalizing token with
  | done tokens =>
    have ordinary : token ∈ Token.ordinary tokens :=
      List.mem_filter.mpr ⟨member, by rw [plain]; rfl⟩
    rw [ended] at ordinary
    contradiction
  | take _ ih =>
    rcases List.mem_cons.mp member with rfl | later
    · exact .inl List.mem_cons_self
    · refine (ih ended later plain).imp (List.mem_cons_of_mem _) ?_
      exact fun ⟨name, isSymbol, colon, word⟩ =>
        ⟨name, isSymbol, List.mem_cons_of_mem _ colon, List.mem_cons_of_mem _ word⟩
  | demote directive _ ih =>
    rcases List.mem_cons.mp member with rfl | later
    · rw [directive] at plain
      contradiction
    · exact ih ended later plain
  | @split name span before rest _ _ _ _ ih =>
    -- The halves of the symbol are no symbols, so they were taken themselves.
    have half (other : Token String) (inside : other ∈ before ++ Token.colonOf span ::
        Token.wordOf name span :: rest) (ordinary : other.kind.isDirective = false)
        (notSymbol : other.kind.tag ≠ .symbol) := by
      refine (ih ended inside ordinary).resolve_right fun ⟨_, isSymbol, _⟩ => notSymbol ?_
      rw [isSymbol]
      rfl
    rcases List.mem_append.mp member with early | late
    · exact ih ended (List.mem_append_left _ early) plain
    · rcases List.mem_cons.mp late with rfl | later
      · refine .inr ⟨name, rfl, half _ (by simp) rfl Tag.noConfusion, half _ (by simp) ?_ ?_⟩
        · exact TokenKind.isDirective_ofWord name
        · exact TokenKind.tag_ofWord_ne name rfl Tag.noConfusion Tag.noConfusion
      · exact ih ended (by simp [later]) plain

namespace Parser

open Grammar

variable {soft : SoftNames} {rounds limit count : Nat} {start now : Parser}
  {tokens taken rest : List (Token String)} {ids : Array NodeId}

/-- A statement that is read outside string literals begins at a token that is not empty. -/
theorem Run.beginsAt {after : Parser} {id : NodeId} {category : Category}
    {item left : List (Token String)}
    (run : now.Run soft rounds rest [.node category id] item left after)
    (strung : Token.Strung now.cursor.source rest)
    (outside : now.cursor.current.tag.isQuoted = false) : after.arena.BeginsAt item id := by
  have pending := run.ready.pending
  have consumes := run.passes.moves.consumes
  obtain ⟨kind, span, _, _, found, _, ⟨first, isFirst, _, _, hull⟩, _⟩ := run.spells.node_inv
  have member := List.mem_of_mem_head? isFirst
  refine ⟨_, first, found, member, by rw [hull], ?_⟩
  cases directive : first.kind.isDirective with
  | true =>
    have line := (consumes.inLine pending.line).1
    exact (line.stands first (List.mem_append_left _ member)).directive directive
  | false =>
    have begins : Token.Opens (fun tag => tag.isQuoted = false) rest :=
      (@Cursor.Pending.opens_iff _ _ (fun tag => tag.isQuoted = false) pending rfl).mpr outside
    have plain := (begins.consumes rfl consumes).2 first isFirst directive
    have whole : Token.Strung now.cursor.source (item ++ left) :=
      @Token.Strung.append_consumes _ _ _ _ [] consumes pending.line strung
    refine whole.solid first (List.mem_append_left _ member) fun closes => ?_
    rw [Token.tag, closes] at plain
    contradiction

/-- The statements that were read so far are those of the tokens that were taken, each begins at
a token that is not empty, and so many tokens at most are left. -/
def Collects (soft : SoftNames) (rounds : Nat) (start : Parser) (tokens : List (Token String))
    (count : Nat) (ids : Array NodeId) (now : Parser) : Prop :=
  (Limited rounds now ∧ now.cursor.current.tag.isQuoted = false) ∧ ∃ taken rest,
    start.Run soft rounds tokens (ids.toList.map (.node .statement)) taken rest now ∧
    (∀ id ∈ ids.toList, now.arena.BeginsAt taken id) ∧ Consumes.weight rest = count

/-- The statements are those of the tokens that were taken, and no ordinary token is left. -/
def Collected (soft : SoftNames) (rounds : Nat) (start : Parser) (tokens : List (Token String))
    (ids : Array NodeId) (now : Parser) : Prop :=
  ∃ taken rest, start.Run soft rounds tokens (ids.toList.map (.node .statement)) taken rest now ∧
    (∀ id ∈ ids.toList, now.arena.BeginsAt taken id) ∧ Token.ordinary rest = []

/-- A statement more was read. -/
theorem Collects.push {after : Parser} {id : NodeId} {item left : List (Token String)}
    (run : start.Run soft rounds tokens (ids.toList.map (.node .statement)) taken rest now)
    (begins : ∀ id ∈ ids.toList, now.arena.BeginsAt taken id)
    (strung : Token.Strung now.cursor.source rest)
    (outside : now.cursor.current.tag.isQuoted = false)
    (next : now.Run soft rounds rest [.node .statement id] item left after) (filled : item ≠ [])
    (limited : Limited rounds after) (stays : after.cursor.current.tag.isQuoted = false) :
    ∃ fewer < Consumes.weight rest,
      start.Collects soft rounds tokens fewer (ids.push id) after := by
  have less := next.passes.moves.consumes.weight_le
  have length := List.length_pos_iff.mpr filled
  refine ⟨Consumes.weight left, by omega, ⟨limited, stays⟩, taken ++ item, left, ?_, ?_, rfl⟩
  · have whole := run.append next
    simpa using whole
  · intro other member
    rw [Array.toList_push] at member
    rcases List.mem_append.mp member with early | last
    · exact (begins other early).mono next.passes.arena (List.subset_append_left _ _)
    · obtain rfl := List.mem_singleton.mp last
      exact (next.beginsAt strung outside).mono (.refl _) (List.subset_append_right _ _)

/-- At the end of the text, the statements were collected. -/
theorem Collects.finish
    (run : start.Run soft rounds tokens (ids.toList.map (.node .statement)) taken rest now)
    (begins : ∀ id ∈ ids.toList, now.arena.BeginsAt taken id)
    (atEnd : now.cursor.isAtEnd = true) : start.Collected soft rounds tokens ids now :=
  ⟨taken, rest, run, begins, (run.passes.moves.pending.atEnd atEnd).2.2⟩

/-- One round at the top level collects a statement, or every token was taken. -/
theorem Collects.bodyStep (strung : Token.Strung start.cursor.source tokens)
    (collects : start.Collects soft rounds tokens count ids now) :
    Build.Outcome ((level (.recovering limit) soft rounds limit).bodyStep .empty ids) now
      (Round (start.Collects soft rounds tokens) (start.Collected soft rounds tokens) count) := by
  obtain ⟨⟨limited, outside⟩, taken, rest, run, begins, rfl⟩ := collects
  have left := run.passes.moves.strung run.ready.pending strung
  have parallel : Parallel (level (.recovering limit) soft rounds limit)
      (level (.recovering limit) soft rounds limit) rounds (anywhere rounds limit)
      (Reaches rounds 0) (fun _ => Reaches rounds 0)
      (liftM ((level (.recovering limit) soft rounds limit).bodyStep .empty ids))
      (liftM ((level (.recovering limit) soft rounds limit).bodyStep .empty ids)) :=
    Alike.bodyStep (fun _ stands => stands) .empty ids
  have limits : Build.Outcome ((level (.recovering limit) soft rounds limit).bodyStep .empty ids)
      now fun _ final => now.cursor.Onward final.cursor ∧ Limited rounds final ∧
        final.cursor.Reaches rounds 0 :=
    parallel.settles (maintains_limited rounds) (settled_limited limit soft rounds limit) now
      limited.1 limited
  have steps : Build.Outcome ((level (.recovering limit) soft rounds limit).bodyStep .empty ids)
      now fun result final => Limited rounds final →
        Round (start.Collects soft rounds tokens) (start.Collected soft rounds tokens)
          (Consumes.weight rest) result final := by
    refine outcome_bodyStep run.readyNow .empty ?_ ?_ ?_ ?_
    · intro halts _
      have halted : now.isHalted = true := by
        change (now.isHalted || false) = true at halts
        rwa [Bool.or_false] at halts
      obtain ⟨goesOn, _⟩ | ⟨_, atEnd, _⟩ := limited.2
      · rw [halted] at goesOn
        contradiction
      · rw [Cursor.skipToEnd, Cursor.skipUntil_atEnd atEnd]
        exact Collects.finish run begins atEnd
    · intro id mark later after directive next stays
      refine Collects.push run begins left outside next (List.cons_ne_nil _ _) stays ?_
      by_contra inside
      obtain ⟨_, last, isLast, quotes⟩ := next.passes.moves.inside run.readyNow.pending left outside
        (Bool.not_eq_false _ ▸ inside)
      rw [List.mem_singleton.mp (List.mem_of_getLast? isLast),
        Token.quotes_of_isDirective directive] at quotes
      contradiction
    · exact fun ends _ => Collects.finish run begins (ends.2.resolve_right fun terminated => by
        rw [TagSet.contains_empty] at terminated
        contradiction)
    · intro notEnd
      have deepens := deepens_descend (.recovering limit) soft rounds limit
      refine Build.Outcome.mono (Build.Outcome.and (outcome_statementStep deepens run.readyNow notEnd)
        (outside_statementStep limited.1 outside))
        fun result after ⟨⟨id, item, more, same, filled, next⟩, stays⟩ limited => ?_
      rw [same]
      exact Collects.push run begins left outside next filled limited stays
  exact (limits.and steps).mono fun result final ⟨limited, holds⟩ => holds limited.2.1

/-- A program accounts for tokens: its statements are written with those that were taken, which are
all, and each begins at a token that is not empty. -/
def AccountsFor (tokens : List (Token String)) (root : NodeId) (final : Parser) : Prop :=
  ∃ below taken rest,
    final.forest.Spells ((SyntaxTree.statements ⟨final.arena, final.cursor.lexer.names, root⟩).map
      (.node .statement)) below taken ∧
    Consumes tokens taken rest ∧ Token.ordinary rest = [] ∧
    ∀ id ∈ SyntaxTree.statements ⟨final.arena, final.cursor.lexer.names, root⟩,
      final.arena.BeginsAt taken id

/-- The statements that were collected are those of the tree that they are the program of. -/
theorem Collected.accountsFor {arena : Arena} {root : NodeId}
    (collected : start.Collected soft rounds tokens ids now) (grows : now.arena.Grows arena)
    (statements : SyntaxTree.statements ⟨(now.withArena arena).arena,
      (now.withArena arena).cursor.lexer.names, root⟩ = ids.toList) :
    AccountsFor tokens root (now.withArena arena) := by
  obtain ⟨taken, rest, run, starts, ended⟩ := collected
  have further := Passes.of_grows run.passes.moves.pending grows
  refine ⟨start.nodesSince now, taken, rest, ?_, run.passes.moves.consumes, ended, ?_⟩
  · rw [statements]
    exact run.spells.mono further.forest
  · rw [statements]
    exact fun id member => (starts id member).mono grows (List.Subset.refl taken)

/-- A parse that recovers from errors accounts for the tokens of the whole text. -/
theorem Begins.accountsFor {source : String} (begins : Begins source soft start) (limit : Nat) :
    Build.Outcome (outermost (.recovering limit) soft (Parser.rounds source)).program start
      fun root final => AccountsFor (sourceTokens source) root final := by
  have strung : Token.Strung start.cursor.source (sourceTokens source) := by
    rw [begins.text]
    exact .of_source source.toList
  have first : start.Collects soft (Parser.rounds source) (sourceTokens source)
      (Consumes.weight (sourceTokens source)) #[] start := by
    refine ⟨⟨.start begins.reaches begins.errors begins.halted, ?_⟩, [], sourceTokens source,
      .refl begins.ready, nofun, rfl⟩
    exact (@Cursor.Pending.opens_iff _ _ (fun tag => tag.isQuoted = false) begins.ready.pending
      rfl).mp (Token.Opens.of_source source.toList)
  have round (count : Nat) (ids : Array NodeId) (parser : Parser)
      (collects : start.Collects soft (Parser.rounds source) (sourceTokens source) count ids parser) :=
    @Collects.bodyStep soft (Parser.rounds source) limit count start parser (sourceTokens source) ids
      strung collects
  have items := Build.Outcome.repeatWithin _ round begins.ready.rounds first
  refine .bind (.bind (items.mono fun ids now collected => ?_))
  refine outcome_onArena.mpr (Build.outcome_cursor.mpr (outcome_onArena.mpr ?_))
  have listGrows := now.arena.grows_addList ids.toList
  have inside := now.arena.contains_addList ids.toList
  have isList := now.arena.list_addList ids.toList
  generalize now.arena.addList ids.toList = listed at listGrows inside isList
  exact collected.accountsFor (listGrows.trans (listed.2.grows_add _ _))
    ((SyntaxTree.statements_add inside now.cursor.lexer.names _).trans isList)

/-- A parse that recovers from errors accounts for every token of the text. -/
theorem accounts_run (limit : Nat) (source : String) :
    SyntaxTree.Accounts ⟨(Parser.run (.recovering limit) source).2.arena,
      (Parser.run (.recovering limit) source).2.cursor.lexer.names,
      (Parser.run (.recovering limit) source).1⟩ (Token.ordinary (sourceTokens source)) := by
  have begins := begins_start source
  rw [run_eq]
  generalize Parser.start source = start at begins
  obtain ⟨below, taken, rest, spells, consumes, ended, starts⟩ := begins.accountsFor limit
  have line := (consumes.inLine (Token.InLine.of_source source.toList)).1
  have first := (Token.InLine.append_iff.mp line).1
  intro token isOrdinary
  obtain ⟨member, plain⟩ := List.mem_filter.mp isOrdinary
  rw [Bool.not_eq_true'] at plain
  exact (consumes.mem_or_halves ended member plain).imp (spells.coversOnce first starts)
    fun ⟨name, isSymbol, colon, word⟩ => ⟨name, isSymbol, spells.coversOnce first starts colon,
      spells.coversOnce first starts word⟩

end Parser

/-- Whatever the errors and wherever the nesting limit cuts the parse, a parse that recovers from
errors loses no token: every token of the text, its end and directives apart, lies inside exactly
one statement at the top level, or it is a symbol and its colon and its name do. -/
theorem accounts_parseWith (limit : Nat) (source : String) :
    (parseWith (.recovering limit) source).tree.Accounts
      ((lex source).written.filter fun token =>
        token.tag ≠ .endOfInput ∧ token.kind.isDirective = false) := by
  have same : ((lex source).written.filter fun token =>
      token.tag ≠ .endOfInput ∧ token.kind.isDirective = false) =
      Token.ordinary (Parser.sourceTokens source) := by
    rw [Parser.sourceTokens, ← filter_written_lex, Token.ordinary, List.filter_filter]
    refine List.filter_congr fun token _ => ?_
    cases token.kind.isDirective <;> simp
  rw [same, parseWith_eq, Parser.tree_finish]
  exact Parser.accounts_run limit source

/-- A symbol where a type should stand is split, and its name begins another statement. -/
theorem not_coversOnce_split :
    ¬ ∀ token ∈ (lex "def f(x :if)").written.filter fun token =>
        token.tag ≠ .endOfInput ∧ token.kind.isDirective = false,
      (parseWith (.recovering 256) "def f(x :if)").tree.arena.CoversOnce
        (parseWith (.recovering 256) "def f(x :if)").tree.statements token.span := by
  intro covered
  have outside : ∀ id ∈ (parseWith (.recovering 256) "def f(x :if)").tree.statements,
      ¬ Span.Inside ⟨8, 11⟩ ((parseWith (.recovering 256) "def f(x :if)").tree.arena.span id) := by
    decide +kernel
  obtain ⟨id, ⟨member, inside⟩, _⟩ := covered ⟨.symbol "if", ⟨8, 11⟩⟩ (by decide +kernel)
  exact outside id member inside

end Vibescript
