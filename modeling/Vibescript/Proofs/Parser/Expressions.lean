import Vibescript.Proofs.Parser.Lists

/-!
# What expressions read

One statement for each production of the grammar of expressions: it reads the parts of the node
that it builds.
-/
namespace Vibescript.Parser

open Build Parse

variable {soft : SoftNames} {rounds : Nat} {start now : Parser} {grammar : Grammar}
  {tokens taken rest : List (Token String)} {parts : List Part}

/-- The current token is passed over. -/
theorem Passes.advance (pending : now.cursor.Pending rest) (notEnd : now.cursor.isAtEnd = false) :
    ∃ left, now.Passes rest [now.cursor.current.written now.cursor.lexer.names] left
      (now.withCursor now.cursor.advance.2) := by
  obtain ⟨left, moves⟩ := Cursor.moves_advance_of_pending pending notEnd
  exact ⟨left, .of_moves moves⟩

/-- The pieces of a string literal were passed over, after the quotation mark that opens it. -/
def ReadsPieces (start : Parser) (tokens : List (Token String)) (count : Nat) (text : String)
    (now : Parser) : Prop :=
  ∃ opening pieces rest, start.Passes tokens (opening :: pieces) rest now ∧
    now.arena = start.arena ∧ opening.kind = .stringOpen ∧ StringPieces pieces text ∧
    Consumes.weight rest = count

/-- A string literal was passed over. -/
def ReadsString (start : Parser) (tokens : List (Token String)) (text : String) (now : Parser) :
    Prop :=
  ∃ opening pieces closing rest, start.Passes tokens (opening :: pieces ++ [closing]) rest now ∧
    now.arena = start.arena ∧ opening.kind = .stringOpen ∧ closing.kind = .stringClose ∧
    StringPieces pieces text

/-- A piece more belongs to a string literal. -/
theorem ReadsPieces.push {count : Nat} {text more : String}
    (reads : start.ReadsPieces tokens count text now) (notEnd : now.cursor.isAtEnd = false)
    (piece : (now.cursor.current.written now.cursor.lexer.names).kind.pieceText? = some more) :
    ∃ fewer < count, start.ReadsPieces tokens fewer (text ++ more)
      (now.withCursor now.cursor.advance.2) := by
  obtain ⟨opening, pieces, rest, passes, arena, opens, string, rfl⟩ := reads
  obtain ⟨left, step⟩ := Passes.advance passes.moves.pending notEnd
  have less := step.moves.consumes.weight_le
  rw [List.length_singleton] at less
  refine ⟨Consumes.weight left, by omega, opening, _, left, passes.trans step, arena, opens,
    ⟨?_, ?_⟩, rfl⟩
  · intro token member
    rcases List.mem_append.mp member with early | late
    · exact string.all token early
    · rw [List.mem_singleton.mp late, piece]
      rfl
  · simp [List.filterMap_append, piece, ← string.joined, String.join_append]

/-- One round of a string literal passes over a piece of it or over its end. -/
theorem ReadsPieces.round {count : Nat} {text : String} (ready : start.Ready soft rounds tokens)
    (reads : start.ReadsPieces tokens count text now) :
    Parse.Outcome
      (do
        let cursor ← Build.cursor
        match cursor.current.kind with
        | .stringContent run =>
          let _ ← Build.advance
          return .yield (text ++ cursor.nameText run)
        | .stringEscape char =>
          let _ ← Build.advance
          return .yield (text.push char)
        | .stringClose =>
          let _ ← Build.advance
          return .done text
        | _ =>
          throw ((← unexpected .unexpectedToken (.singleton .stringClose)).within .string))
      now (Round (start.ReadsPieces tokens) (start.ReadsString tokens) count)
      fun _ after => start.Strays soft rounds tokens after := by
  refine Parse.outcome_cursor.mpr ?_
  cases same : now.cursor.current.kind with
  | stringContent run =>
    have notEnd : now.cursor.isAtEnd = false :=
      notAtEnd (congrArg TokenKind.tag same) Tag.noConfusion
    refine .bind (.lift (outcome_onCursor.mpr (.pure (reads.push notEnd ?_))))
    rw [Token.written, same]
    rfl
  | stringEscape char =>
    have notEnd : now.cursor.isAtEnd = false :=
      notAtEnd (congrArg TokenKind.tag same) Tag.noConfusion
    refine .bind (.lift (outcome_onCursor.mpr (.pure ?_)))
    rw [← String.append_singleton]
    refine reads.push notEnd ?_
    rw [Token.written, same]
    rfl
  | stringClose =>
    have notEnd : now.cursor.isAtEnd = false :=
      notAtEnd (congrArg TokenKind.tag same) Tag.noConfusion
    obtain ⟨opening, pieces, rest, passes, arena, opens, string, _⟩ := reads
    obtain ⟨left, step⟩ := Passes.advance passes.moves.pending notEnd
    refine .bind (.lift (outcome_onCursor.mpr (.pure ?_)))
    refine ⟨opening, pieces, _, left, passes.trans step, arena, opens, ?_, string⟩
    rw [Token.written, same]
    rfl
  | _ =>
    obtain ⟨opening, pieces, rest, passes, _, opens, _⟩ := reads
    refine Parse.outcome_unexpected.mpr (.throw ⟨_, rest, ready, passes, ?_⟩)
    intro token first
    rw [← Option.some.inj first, opens]
    rfl

/-- A string literal that was passed over is read once its value has a name. -/
theorem ReadsString.named {text : String} (reads : start.ReadsString tokens text now)
    (ready : start.Ready soft rounds tokens) {failure : ParseError → Parser → Prop} :
    Parse.Outcome (liftM (Build.intern text)) now
      (fun value after => start.Reading soft rounds tokens [.string value] after) failure := by
  obtain ⟨opening, pieces, closing, rest, passes, arena, opens, closes, string⟩ := reads
  have pending := passes.moves.pending
  have step : now.Passes rest [] rest (now.withCursor (now.cursor.intern text).2) :=
    .of_moves (Cursor.looks_intern pending text).moves
  have whole := passes.trans step
  rw [List.append_nil] at whole
  refine .lift (outcome_onCursor.mpr ⟨_, rest, .of_passes ready whole
    (congrArg Arena.size arena) ?_, ?_, by simp⟩)
  · refine .of_writes (.string opens closes ?_ (NameTable.holds_intern pending.sound text))
    have same := NameTable.text_intern pending.sound text
    rw [← same] at string
    exact string
  · intro token first
    rw [← Option.some.inj first, opens]
    rfl

/-- A string literal. -/
theorem reads_stringLiteral (sameRounds : grammar.rounds = rounds) {category : Category}
    (admitted : ∀ value, category.admits (.string value) = true) :
    grammar.stringLiteral.Reads soft rounds fun id => [.node category id] := by
  intro start tokens ready _
  unfold Grammar.stringLiteral
  refine .bind (Parse.outcome_check.mpr ?_)
  by_cases found : start.cursor.check .stringOpen = true
  · rw [if_pos found]
    have tag : start.cursor.current.tag = .stringOpen := beq_iff_eq.mp found
    have notEnd : start.cursor.isAtEnd = false := notAtEnd tag Tag.noConfusion
    obtain ⟨rest, passes⟩ := Passes.advance ready.pending notEnd
    have opens : (start.cursor.current.written start.cursor.lexer.names).kind = .stringOpen :=
      TokenKind.eq_stringOpen (by rwa [← Token.tag, Token.tag_written])
    have less : Consumes.weight rest < grammar.rounds := by
      have bound := (passes.ready ready).rounds
      rwa [sameRounds]
    have begins : start.ReadsPieces tokens (Consumes.weight rest) ""
        (start.withCursor start.cursor.advance.2) :=
      ⟨_, [], rest, passes, rfl, opens, ⟨by simp, rfl⟩, rfl⟩
    have loop := Parse.Outcome.repeatWithin _
      (fun count text now reads => ReadsPieces.round ready reads) less begins
    refine .lift (outcome_onCursor.mpr (.bind (loop.imp fun text after reads => ?_)))
    refine .bind ((reads.named ready).imp fun value after read => ?_)
    have starts := congrArg (fun token => token.span.start) start.cursor.advance_fst
    exact read.close rfl (List.cons_ne_nil _ _) (admitted value) starts
  · rw [if_neg found]
    exact Parse.outcome_unexpected.mpr (.throw (Reading.refl ready).strays)

/-- A full expression. -/
theorem reads_expression (deepens : grammar.Deepens soft rounds) :
    grammar.expression.Reads soft rounds fun id => [.anyExpression id] :=
  deepens.expression .assignment (by decide)

/-- An array literal. -/
theorem reads_arrayLiteral (deepens : grammar.Deepens soft rounds) :
    grammar.arrayLiteral.ReadsAt soft rounds .leftBracket
      fun id => [.node (.expression .postfixed) id] := by
  intro start tokens ready opens
  unfold Grammar.arrayLiteral
  refine .bind (((Reading.refl ready).advance_word opens rfl).imp
    fun opening now ⟨read, same, _⟩ => ?_)
  refine .bind ((read.itemsUntil deepens.sameRounds .rightBracket
    (reads_expression deepens)).imp fun elements now read => ?_)
  refine .bind ((read.expectCloser _ .rightBracket rfl _).imp fun _ now read => ?_)
  refine .bind ((read.addListBefore (.listed (.expression .assignment)) (by simp)
    (fun arena range list => ?_) (fun arena range inside => inside)).imp fun range now read => ?_)
  · rw [Part.expand?, list]
    rfl
  · exact read.close rfl (by simp) rfl (by rw [same])

/-- An entry of a hash literal. -/
theorem reads_hashEntry (deepens : grammar.Deepens soft rounds) :
    grammar.hashEntry.Reads soft rounds fun id => [.node .entry id] := by
  intro start tokens ready _
  unfold Grammar.hashEntry
  refine Parse.outcome_current.mpr ?_
  have value : ∀ key now, start.Reading soft rounds tokens [.node .key key] now →
      Parse.Outcome
        (do
          let _ ← Build.splitSymbol
          let _ ← expect .colon .hash
          let value ← grammar.expression
          Build.close (.hashEntry key value) start.cursor.current.span)
        now (fun id after => start.Reading soft rounds tokens [.node .entry id] after)
        fun _ after => start.Strays soft rounds tokens after := by
    intro key now read
    refine .bind (read.splitSymbol.imp fun _ now ⟨read, _⟩ => ?_)
    refine .bind ((read.expect .colon rfl _).imp fun _ now ⟨read, _⟩ => ?_)
    refine .bind ((read.andThen (reads_expression deepens)).imp fun value now read => ?_)
    exact read.close rfl (by simp) rfl rfl
  dsimp only
  split
  · next name same =>
    have notEnd : start.cursor.isAtEnd = false :=
      notAtEnd (congrArg TokenKind.tag same) Tag.noConfusion
    refine .bind (((Reading.refl ready).advance_token notEnd same).imp
      fun token now result => ?_)
    obtain ⟨read, _, stepped⟩ := result
    have previous := Cursor.advance_previous notEnd
    exact .bind ((read.leaf rfl rfl (stepped ▸ previous.symm)).imp value)
  · exact .bind (((reads_stringLiteral deepens.sameRounds fun _ => rfl) start tokens ready
      trivial).imp value)
  · exact Parse.outcome_unexpected.mpr (.bind (.throw (Reading.refl ready).strays))

/-- A hash literal. -/
theorem reads_hashLiteral (deepens : grammar.Deepens soft rounds) :
    grammar.hashLiteral.ReadsAt soft rounds .leftBrace
      fun id => [.node (.expression .postfixed) id] := by
  intro start tokens ready opens
  unfold Grammar.hashLiteral
  refine .bind (((Reading.refl ready).advance_word opens rfl).imp
    fun opening now ⟨read, same, _⟩ => ?_)
  refine .bind ((read.itemsUntil deepens.sameRounds .rightBrace
    (reads_hashEntry deepens)).imp fun entries now read => ?_)
  refine .bind ((read.expectCloser _ .rightBrace rfl _).imp fun _ now read => ?_)
  refine .bind ((read.addListBefore (.listed .entry) (by simp)
    (fun arena range list => ?_) (fun arena range inside => inside)).imp fun range now read => ?_)
  · rw [Part.expand?, list]
  · exact read.close rfl (by simp) rfl (by rw [same])

/-- An expression in parentheses. -/
theorem reads_parenthesized (deepens : grammar.Deepens soft rounds) :
    grammar.parenthesized.ReadsAt soft rounds .leftParen
      fun id => [.node (.expression .postfixed) id] := by
  intro start tokens ready opens
  unfold Grammar.parenthesized
  refine .bind (((Reading.refl ready).advance_word opens rfl).imp
    fun opening now ⟨read, same, _⟩ => ?_)
  refine .bind ((read.andThen (reads_expression deepens)).imp fun inner now read => ?_)
  refine .bind ((read.expect .rightParen rfl _).imp fun _ now ⟨read, _⟩ => ?_)
  exact read.close rfl (by simp) rfl (by rw [same])

/-- An argument, by its key or by its place. -/
theorem reads_argument (deepens : grammar.Deepens soft rounds) :
    grammar.argument.Reads soft rounds fun id => [.node .argument id] := by
  intro start tokens ready _
  have positional : ∀ now : Parser, start.Reading soft rounds tokens [] now →
      grammar.expression.Outcome now
        (fun id after => start.Reading soft rounds tokens [.node .argument id] after)
        fun _ after => start.Strays soft rounds tokens after := by
    intro now read
    refine (read.andThen (reads_expression deepens)).imp fun id after read => ?_
    refine read.recast (fun _ _ spells => spells.recategorize fun kind admitted => ?_) (by simp)
    cases kind <;> first | rfl | exact admitted
  unfold Grammar.argument
  refine Parse.outcome_current.mpr ?_
  split
  · next name same =>
    refine .bind (((Reading.refl ready).ask fun _ _ => Lookahead.tells_isKeyword).imp
      fun isKeyword now ⟨read, current, rest, ready, answer⟩ => ?_)
    cases isKeyword with
    | false => exact positional now read
    | true =>
      rw [← current] at same
      have notEnd : now.cursor.isAtEnd = false :=
        notAtEnd (congrArg TokenKind.tag same) Tag.noConfusion
      have colon : now.cursor.advance.2.current.tag = .colon ∨
          now.cursor.advance.2.current.tag = .symbol := by
        rw [ready.pending.tag_advance notEnd]
        simpa using answer.symm
      rw [if_pos rfl]
      refine .bind ((read.advance_token notEnd same).imp fun _ named ⟨read, _, stepped⟩ => ?_)
      obtain ⟨left, pendingNamed⟩ := read.pending
      refine .bind (read.splitSymbol.imp fun _ split ⟨read, splitted⟩ => ?_)
      have isColon : split.cursor.current.tag = .colon := by
        rw [splitted, stepped]
        rw [stepped] at pendingNamed
        exact Cursor.tag_splitSymbol pendingNamed colon
      refine .bind ((read.advance_word isColon rfl).imp fun _ now ⟨read, _⟩ => ?_)
      refine .bind ((read.leafBefore rfl
        (show Category.name.admits (.identifier name) = true from rfl) ?_).imp fun key now read => ?_)
      · rw [← current, Token.tag, same]
        exact Tag.noConfusion
      · refine .bind ((read.andThen (reads_expression deepens)).imp fun value now read => ?_)
        exact read.close rfl (by simp) rfl rfl
  · exact positional start (.refl ready)

/-- Arguments in parentheses go on with what was read before. -/
theorem Reading.arguments (reading : start.Reading soft rounds tokens parts now)
    (deepens : grammar.Deepens soft rounds) :
    grammar.arguments.Outcome now
      (fun range after => start.Reading soft rounds tokens
        (parts ++ [.word .leftParen, .listed .argument range, .word .rightParen]) after)
      fun _ after => start.Strays soft rounds tokens after := by
  unfold Grammar.arguments
  refine .bind ((reading.expect .leftParen rfl _).imp fun opening now ⟨read, _⟩ => ?_)
  refine .bind ((read.itemsUntil deepens.sameRounds .rightParen
    (reads_argument deepens)).imp fun items now read => ?_)
  refine .bind ((read.expectCloser _ .rightParen rfl _).imp fun _ now read => ?_)
  refine (read.addListBefore (.listed .argument) (by simp)
    (fun arena range list => ?_) (fun arena range inside => inside)).imp fun range now read => ?_
  · rw [Part.expand?, list]
  · simpa using read

/-- A name is read as an identifier. -/
theorem reads_expectIdentifier (construct : Construct) :
    (expectIdentifier construct).Reads soft rounds fun found =>
      [.token (.identifier found.1)] :=
  fun _ _ ready _ =>
    ((Reading.refl ready).expectIdentifier construct).imp fun _ _ read => read.1

/-- The names between the bars of a block go on with what was read before. -/
theorem Reading.blockParameters (reading : start.Reading soft rounds tokens parts now)
    (sameRounds : grammar.rounds = rounds) (nonempty : parts ≠ []) :
    grammar.blockParameters.Outcome now
      (fun range after => start.Reading soft rounds tokens
        (parts ++ if range.size = 0 then [.nameList range]
          else [.word .bar, .nameList range, .word .bar]) after)
      fun _ after => start.Strays soft rounds tokens after := by
  unfold Grammar.blockParameters
  refine .bind ((reading.eat .bar rfl).imp fun eaten now result => ?_)
  rcases result with ⟨rfl, read⟩ | ⟨rfl, rfl, _⟩
  · refine .bind ((read.oneOrMore sameRounds .comma rfl (reads_expectIdentifier .block)).imp
      fun names now ⟨filled, read⟩ => ?_)
    refine .bind ((read.expect .bar rfl _).imp fun _ now ⟨read, _⟩ => ?_)
    refine (read.addNamesBefore .nameList (by simp) (fun arena range list => ?_)
      (fun arena range inside => inside)).imp fun range now result => ?_
    · simp [Part.expand?, list, Function.comp_def]
    · obtain ⟨read, size⟩ := result
      rw [if_neg (by simpa [size] using filled)]
      simpa using read
  · rw [← List.append_nil parts] at reading nonempty
    refine (reading.addNames .nameList nonempty
      (fun arena range list => ?_) (fun arena range inside => inside)).imp
        fun range now result => ?_
    · simp [Part.expand?, list, Part.joined]
    · obtain ⟨read, size⟩ := result
      have none : range.size = 0 := by simpa using size
      rw [if_pos none]
      simpa using read

/-- A block, if one follows, goes on with what was read before. -/
theorem Reading.block? (reading : start.Reading soft rounds tokens parts now)
    (deepens : grammar.Deepens soft rounds) :
    grammar.block?.Outcome now
      (fun id after => start.Reading soft rounds tokens (parts ++ Part.possible .block id) after)
      fun _ after => start.Strays soft rounds tokens after := by
  unfold Grammar.block?
  refine Parse.outcome_check.mpr ?_
  by_cases found : now.cursor.check .kwDo = true
  · rw [if_pos found]
    refine reading.andThenWhen (fun kind => kind.tag = .kwDo)
      (fun start tokens ready opens => ?_) (beq_iff_eq.mp found)
    refine .bind (((Reading.refl ready).advance_word opens rfl).imp
      fun opening now ⟨read, same, _⟩ => ?_)
    refine .bind ((read.blockParameters deepens.sameRounds (by simp)).imp
      fun names now read => ?_)
    refine .bind ((read.body (by simp) deepens .blockEnd).imp fun statements now read => ?_)
    refine .bind ((read.expectEnd _ _ _).imp fun _ now read => ?_)
    refine .bind ((read.close ?_ (by simp)
      (show Category.block.admits (.block names statements) = true from rfl) (by rw [same])).imp
      fun id now read => .pure read)
    simp [NodeKind.production]
  · rw [if_neg found]
    exact .pure (by simpa [Part.possible] using reading)

/-- A name, or a call of the method with that name. -/
theorem reads_nameOrCall (deepens : grammar.Deepens soft rounds) (name : Name) :
    (grammar.nameOrCall name).ReadsWhen soft rounds (fun kind => kind = .identifier name)
      fun id => [.node (.expression .postfixed) id] := by
  intro start tokens ready same
  have notEnd : start.cursor.isAtEnd = false :=
    notAtEnd (congrArg TokenKind.tag same) Tag.noConfusion
  unfold Grammar.nameOrCall
  refine .bind (((Reading.refl ready).advance_token notEnd same).imp
    fun token now ⟨read, isToken, stepped⟩ => ?_)
  refine Parse.outcome_check.mpr ?_
  split
  · refine .bind ((read.arguments deepens).imp fun arguments now read => ?_)
    refine .bind ((read.block? deepens).imp fun block now read => ?_)
    exact read.close rfl (by simp) rfl (by rw [isToken])
  · refine read.leaf rfl rfl ?_
    rw [isToken, stepped]
    exact (Cursor.advance_previous notEnd).symm

/-- A token that is a node by itself. -/
theorem reads_leaf {kind : TokenKind Name} {node : NodeKind} {category : Category}
    (single : node.production = [.token kind]) (admitted : category.admits node = true)
    (real : kind.tag ≠ .endOfInput) :
    Parse.ReadsWhen soft rounds (fun current => current = kind) (liftM (Build.leaf node))
      fun id => [.node category id] := by
  intro start tokens ready same
  have notEnd : start.cursor.isAtEnd = false := notAtEnd (congrArg TokenKind.tag same) real
  -- A leaf is one step; as a reading it is two.
  change Parse.Outcome (liftM Build.advance >>= fun token =>
    liftM (Build.addNode node token.span)) start _ _
  refine .bind (((Reading.refl ready).advance_token notEnd same).imp
    fun token now ⟨read, isToken, stepped⟩ => ?_)
  refine read.leaf single admitted ?_
  rw [isToken, stepped]
  exact (Cursor.advance_previous notEnd).symm

/-- A token that is an expression by itself. -/
theorem reads_literal {kind : TokenKind Name} {literal : NodeKind}
    (isLiteral : Grammar.literal? kind = some literal) :
    Parse.ReadsWhen soft rounds (fun current => current = kind) (liftM (Build.leaf literal))
      fun id => [.node (.expression .postfixed) id] := by
  have production : literal.production = [.token kind] ∧
      (Category.expression .postfixed).admits literal = true ∧ kind.tag ≠ .endOfInput := by
    unfold Grammar.literal? at isLiteral
    split at isLiteral <;>
      first | contradiction | (cases isLiteral; exact ⟨rfl, rfl, Tag.noConfusion⟩)
  exact reads_leaf production.1 production.2.1 production.2.2

end Vibescript.Parser
