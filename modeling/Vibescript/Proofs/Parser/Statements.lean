import Vibescript.Proofs.Parser.Declarations
import Vibescript.Proofs.Parser.Faces

/-!
# What statements read

One statement for each production of the grammar of statements. The shape of an import was
matched before it is read, so the words in it are known to be the ones that the production is
written with.
-/
namespace Vibescript

/-- An identifier is written as its text. -/
theorem Forest.Spells.identifier {forest : Forest} {parts : List Part} {name : Name}
    {nodes : List NodeId} {tokens : List (Token String)}
    (spells : forest.Spells (parts ++ [.token (.identifier name)]) nodes tokens) :
    forest.Spells (parts ++ [.identifier (forest.names.text name)]) nodes tokens := by
  obtain ⟨_, _, _, _, rfl, rfl, first, last⟩ := spells.split
  obtain ⟨token, rfl, rfl, written⟩ := last.token_inv
  cases written with
  | token reads _ => exact first.append (.of_writes (.identifier reads))

namespace Parser

open Build Parse

variable {soft : SoftNames} {rounds : Nat} {start now : Parser} {grammar : Grammar}
  {tokens taken rest : List (Token String)} {parts : List Part}
  {kinds : List (TokenKind String)}

/-- A clause that may follow goes on with what was read before. -/
theorem Reading.whenNext {clause : Parse (Option NodeId)} {category : Category} {keyword : Tag}
    (reading : start.Reading soft rounds tokens parts now)
    (reads : clause.ReadsAt soft rounds keyword fun id => Part.possible category id) :
    Parse.Outcome
      (do if ← Build.check keyword then clause else return none)
      now
      (fun id after => start.Reading soft rounds tokens (parts ++ Part.possible category id) after)
      fun _ after => start.Strays soft rounds tokens after := by
  refine Parse.outcome_check.mpr ?_
  by_cases found : now.cursor.check keyword = true
  · rw [if_pos found]
    exact reading.andThenWhen (fun kind => kind.tag = keyword) reads (beq_iff_eq.mp found)
  · rw [if_neg found]
    exact .pure (by simpa [Part.possible] using reading)

/-- The `else` of a conditional, if one follows. -/
theorem Reading.else? (reading : start.Reading soft rounds tokens parts now)
    (deepens : grammar.Deepens soft rounds) :
    grammar.else?.Outcome now
      (fun id after =>
        start.Reading soft rounds tokens (parts ++ Part.possible .elseClause id) after)
      fun _ after => start.Strays soft rounds tokens after := by
  refine reading.whenNext fun start tokens ready opens => ?_
  refine .bind (((Reading.refl ready).advance_word opens rfl).imp
    fun first now ⟨read, same, _⟩ => ?_)
  refine .bind ((read.body (by simp) deepens .blockEnd).imp fun body now read => ?_)
  refine .bind ((read.close ?_ (by simp)
    (show Category.elseClause.admits (.elseClause body) = true from rfl) (by rw [same])).imp
      fun id now read => .pure read)
  simp [NodeKind.production]

/-- `ensure` and a body, if it follows. -/
theorem Reading.ensure? (reading : start.Reading soft rounds tokens parts now)
    (deepens : grammar.Deepens soft rounds) :
    grammar.ensure?.Outcome now
      (fun id after =>
        start.Reading soft rounds tokens (parts ++ Part.possible .ensureClause id) after)
      fun _ after => start.Strays soft rounds tokens after := by
  refine reading.whenNext fun start tokens ready opens => ?_
  refine .bind (((Reading.refl ready).advance_word opens rfl).imp
    fun first now ⟨read, same, _⟩ => ?_)
  refine .bind ((read.body (by simp) deepens .blockEnd).imp fun body now read => ?_)
  refine .bind ((read.close ?_ (by simp)
    (show Category.ensureClause.admits (.ensureClause body) = true from rfl)
      (by rw [same])).imp fun id now read => .pure read)
  simp [NodeKind.production]

/-- `elsif`, a condition and a body. -/
theorem reads_elsifClause (deepens : grammar.Deepens soft rounds) :
    grammar.elsifClause.ReadsAt soft rounds .kwElsif fun id => [.node .elsifClause id] := by
  intro start tokens ready opens
  unfold Grammar.elsifClause
  refine .bind (((Reading.refl ready).advance_word opens rfl).imp
    fun first now ⟨read, same, _⟩ => ?_)
  refine .bind ((read.andThen (reads_expression deepens)).imp fun condition now read => ?_)
  refine .bind ((read.body (by simp) deepens .ifBodyEnd).imp fun body now read => ?_)
  exact read.close rfl (by simp) rfl (by rw [same])

/-- `if`, a condition and a body, further conditions, and an alternative. -/
theorem reads_ifStatement (deepens : grammar.Deepens soft rounds) :
    grammar.ifStatement.ReadsAt soft rounds .kwIf fun id => [.node .statement id] := by
  intro start tokens ready opens
  unfold Grammar.ifStatement
  refine .bind (((Reading.refl ready).advance_word opens rfl).imp
    fun opening now ⟨read, same, _⟩ => ?_)
  refine .bind ((read.andThen (reads_expression deepens)).imp fun condition now read => ?_)
  refine .bind ((read.body (by simp) deepens .ifBodyEnd).imp fun body now read => ?_)
  refine .bind ((read.clauses deepens.sameRounds (reads_elsifClause deepens)).imp
    fun elsifs now read => ?_)
  refine .bind ((read.addList (.nodes .elsifClause) (by simp) (fun arena range list => ?_)
    (fun arena range inside => inside)).imp fun range now read => ?_)
  · rw [Part.expand?, list]
  · refine .bind ((read.else? deepens).imp fun otherwise now read => ?_)
    refine .bind ((read.expectEnd _ _ _).imp fun _ now read => ?_)
    exact read.close rfl (by simp) rfl (by rw [same])

/-- `unless`, a condition and a body, and an alternative. -/
theorem reads_unlessStatement (deepens : grammar.Deepens soft rounds) :
    grammar.unlessStatement.ReadsAt soft rounds .kwUnless fun id => [.node .statement id] := by
  intro start tokens ready opens
  unfold Grammar.unlessStatement
  refine .bind (((Reading.refl ready).advance_word opens rfl).imp
    fun opening now ⟨read, same, _⟩ => ?_)
  refine .bind ((read.andThen (reads_expression deepens)).imp fun condition now read => ?_)
  refine .bind ((read.body (by simp) deepens .unlessBodyEnd).imp fun body now read => ?_)
  refine .bind ((read.else? deepens).imp fun otherwise now read => ?_)
  refine .bind ((read.expectEnd _ _ _).imp fun _ now read => ?_)
  exact read.close rfl (by simp) rfl (by rw [same])

/-- `when`, patterns and a body. -/
theorem reads_whenClause (deepens : grammar.Deepens soft rounds) :
    grammar.whenClause.ReadsAt soft rounds .kwWhen fun id => [.node .whenClause id] := by
  intro start tokens ready opens
  unfold Grammar.whenClause
  refine .bind (((Reading.refl ready).advance_word opens rfl).imp
    fun first now ⟨read, same, _⟩ => ?_)
  refine .bind ((read.oneOrMore deepens.sameRounds .comma rfl (reads_expression deepens)).imp
    fun patterns now ⟨_, read⟩ => ?_)
  refine .bind ((read.addList (.separated (.expression .assignment) (.fixed .comma)) (by simp)
    (fun arena range list => ?_) (fun arena range inside => inside)).imp fun range now read => ?_)
  · rw [Part.expand?, list]
    rfl
  · refine .bind ((read.body (by simp) deepens .whenBodyEnd).imp fun body now read => ?_)
    exact read.close rfl (by simp) rfl (by rw [same])

/-- `case`, a subject, its branches, and an alternative. -/
theorem reads_caseStatement (deepens : grammar.Deepens soft rounds) :
    grammar.caseStatement.ReadsAt soft rounds .kwCase fun id => [.node .statement id] := by
  intro start tokens ready opens
  unfold Grammar.caseStatement
  refine .bind (((Reading.refl ready).advance_word opens rfl).imp
    fun opening now ⟨read, same, _⟩ => ?_)
  refine .bind ((read.andThen (reads_expression deepens)).imp fun subject now read => ?_)
  refine .bind ((read.clauses deepens.sameRounds (reads_whenClause deepens)).imp
    fun whens now read => ?_)
  have finish : ∀ now, start.Reading soft rounds tokens
      ([.word .kwCase, .anyExpression subject] ++ whens.toList.map (.node .whenClause)) now →
      Parse.Outcome
        (do
          let whens ← Build.addList whens
          let otherwise ← grammar.else?
          expectEnd .kwCase opening.span .caseStatement
          Build.close (.caseStatement subject whens otherwise) opening.span)
        now (fun id after => start.Reading soft rounds tokens [.node .statement id] after)
        fun _ after => start.Strays soft rounds tokens after := by
    intro now read
    refine .bind ((read.addList (.nodes .whenClause) (by simp) (fun arena range list => ?_)
      (fun arena range inside => inside)).imp fun range now read => ?_)
    · rw [Part.expand?, list]
    · refine .bind ((read.else? deepens).imp fun otherwise now read => ?_)
      refine .bind ((read.expectEnd _ _ _).imp fun _ now read => ?_)
      exact read.close rfl (by simp) rfl (by rw [same])
  dsimp only
  split
  · refine Parse.outcome_unexpected.mpr ?_
    exact .bind (.lift ((read.report grammar _).mono fun _ now read => finish now read))
  · exact finish now read

/-- `while`, a condition and a body. -/
theorem reads_whileLoop (deepens : grammar.Deepens soft rounds) :
    grammar.whileLoop.ReadsAt soft rounds .kwWhile fun id => [.node .statement id] := by
  intro start tokens ready opens
  unfold Grammar.whileLoop
  refine .bind (((Reading.refl ready).advance_word opens rfl).imp
    fun opening now ⟨read, same, _⟩ => ?_)
  refine .bind ((read.andThen (reads_expression deepens)).imp fun condition now read => ?_)
  refine .bind ((read.body (by simp) deepens .blockEnd).imp fun body now read => ?_)
  refine .bind ((read.expectEnd _ _ _).imp fun _ now read => ?_)
  exact read.close rfl (by simp) rfl (by rw [same])

/-- `until`, a condition and a body. -/
theorem reads_untilLoop (deepens : grammar.Deepens soft rounds) :
    grammar.untilLoop.ReadsAt soft rounds .kwUntil fun id => [.node .statement id] := by
  intro start tokens ready opens
  unfold Grammar.untilLoop
  refine .bind (((Reading.refl ready).advance_word opens rfl).imp
    fun opening now ⟨read, same, _⟩ => ?_)
  refine .bind ((read.andThen (reads_expression deepens)).imp fun condition now read => ?_)
  refine .bind ((read.body (by simp) deepens .blockEnd).imp fun body now read => ?_)
  refine .bind ((read.expectEnd _ _ _).imp fun _ now read => ?_)
  exact read.close rfl (by simp) rfl (by rw [same])

/-- An identifier that was just read becomes a node. -/
theorem Reading.nameNode {after : Parser} {found : Name × Span}
    (read : start.Reading soft rounds tokens (parts ++ [.token (.identifier found.1)]) after)
    (current : now.cursor.current = ⟨.identifier found.1, found.2⟩)
    (stepped : after = now.withCursor now.cursor.advance.2)
    {failure : ParseError → Parser → Prop} :
    Parse.Outcome (liftM (Build.addNode (.identifier found.1) found.2)) after
      (fun id final => start.Reading soft rounds tokens (parts ++ [.node .name id]) final)
      failure := by
  have notEnd : now.cursor.isAtEnd = false :=
    notAtEnd (congrArg Token.tag current) Tag.noConfusion
  refine read.leaf rfl rfl ?_
  rw [stepped]
  exact (congrArg Token.span current).symm.trans (Cursor.advance_previous notEnd).symm

/-- `for`, a variable, what it ranges over, and a body. -/
theorem reads_forLoop (deepens : grammar.Deepens soft rounds) :
    grammar.forLoop.ReadsAt soft rounds .kwFor fun id => [.node .statement id] := by
  intro start tokens ready opens
  unfold Grammar.forLoop
  refine .bind (((Reading.refl ready).advance_word opens rfl).imp
    fun opening now ⟨read, same, _⟩ => ?_)
  refine .bind ((read.expectIdentifier _).imp
    fun found named ⟨read, current, stepped⟩ => ?_)
  refine .bind ((read.nameNode current stepped).imp fun target now read => ?_)
  refine .bind ((read.expect .kwIn rfl _).imp fun _ now ⟨read, _⟩ => ?_)
  refine .bind ((read.andThen (reads_expression deepens)).imp fun iterable now read => ?_)
  refine .bind ((read.body (by simp) deepens .blockEnd).imp fun body now read => ?_)
  refine .bind ((read.expectEnd _ _ _).imp fun _ now read => ?_)
  exact read.close rfl (by simp) rfl (by rw [same])

/-- The constant that names the errors to rescue, if it follows, goes on with what was read
before. -/
theorem Reading.rescueFilter? (reading : start.Reading soft rounds tokens parts now) :
    Grammar.rescueFilter?.Outcome now
      (fun filter after => start.Reading soft rounds tokens
        (parts ++ filter.toList.flatMap fun name =>
          [.word .leftParen, .token (.constant name), .word .rightParen]) after)
      fun _ after => start.Strays soft rounds tokens after := by
  unfold Grammar.rescueFilter?
  refine .bind ((reading.ask fun _ _ => Lookahead.tells_isRescueFilter).imp
    fun isFilter now ⟨read, _, rest, ready, filters⟩ => ?_)
  cases isFilter with
  | false => exact .pure (by simpa using read)
  | true =>
    have opens := (filters rfl).1
    rw [← ready.pending.tag] at opens
    rw [if_pos rfl]
    refine .bind ((read.advance_word opens rfl).imp fun _ now opened => ?_)
    refine .bind ((opened.1.expectConstant _).imp fun name now read => ?_)
    refine .bind ((read.expect .rightParen rfl _).imp fun _ now closed => .pure ?_)
    simpa using closed.1

/-- `rescue`, the errors it is for, and a body. -/
theorem reads_rescueClause (deepens : grammar.Deepens soft rounds) :
    grammar.rescueClause.ReadsAt soft rounds .kwRescue fun id => [.node .rescueClause id] := by
  intro start tokens ready opens
  unfold Grammar.rescueClause
  refine .bind (((Reading.refl ready).advance_word opens rfl).imp
    fun first now ⟨read, same, _⟩ => ?_)
  refine .bind (read.rescueFilter?.imp fun filter now read => ?_)
  refine .bind ((read.body (by simp) deepens .beginBodyEnd).imp fun body now read => ?_)
  exact read.close rfl (by simp) rfl (by rw [same])

/-- `begin` and a body, what to do about errors, and what to do in any case. -/
theorem reads_beginBlock (deepens : grammar.Deepens soft rounds) :
    grammar.beginBlock.ReadsAt soft rounds .kwBegin fun id => [.node .statement id] := by
  intro start tokens ready opens
  unfold Grammar.beginBlock
  refine .bind (((Reading.refl ready).advance_word opens rfl).imp
    fun opening now ⟨read, same, _⟩ => ?_)
  refine .bind ((read.body (by simp) deepens .beginBodyEnd).imp fun body now read => ?_)
  refine .bind ((read.clauses deepens.sameRounds (reads_rescueClause deepens)).imp
    fun rescues now read => ?_)
  refine .bind ((read.addList (.nodes .rescueClause) (by simp) (fun arena range list => ?_)
    (fun arena range inside => inside)).imp fun range now read => ?_)
  · rw [Part.expand?, list]
  · refine .bind ((read.ensure? deepens).imp fun ensure now read => ?_)
    refine .bind ((read.expectEnd _ _ _).imp fun _ now read => ?_)
    exact read.close rfl (by simp) rfl (by rw [same])

/-- `return`, with or without a value. -/
theorem reads_returnJump (deepens : grammar.Deepens soft rounds) :
    grammar.returnJump.ReadsAt soft rounds .kwReturn fun id => [.node .statement id] := by
  intro start tokens ready opens
  unfold Grammar.returnJump
  refine .bind (((Reading.refl ready).advance_word opens rfl).imp
    fun first now ⟨read, same, _⟩ => ?_)
  refine Parse.outcome_currentTag.mpr ?_
  dsimp only
  refine read.optional (reads_expression deepens) _ fun value now read => ?_
  exact read.close rfl (by simp) rfl (by rw [same])

/-- `raise` and an expression in parentheses. -/
theorem reads_raiseJump (deepens : grammar.Deepens soft rounds) :
    grammar.raiseJump.ReadsAt soft rounds .kwRaise fun id => [.node .statement id] := by
  intro start tokens ready opens
  unfold Grammar.raiseJump
  refine .bind (((Reading.refl ready).advance_word opens rfl).imp
    fun first now ⟨read, same, _⟩ => ?_)
  refine .bind ((read.expect .leftParen rfl _).imp fun _ now ⟨read, _⟩ => ?_)
  refine .bind ((read.andThen (reads_expression deepens)).imp fun value now read => ?_)
  refine .bind ((read.expect .rightParen rfl _).imp fun _ now ⟨read, _⟩ => ?_)
  exact read.close rfl (by simp) rfl (by rw [same])

/-- `yield`, bare or with arguments. -/
theorem reads_yieldJump (deepens : grammar.Deepens soft rounds) :
    grammar.yieldJump.ReadsAt soft rounds .kwYield fun id => [.node .statement id] := by
  intro start tokens ready opens
  unfold Grammar.yieldJump
  refine .bind (((Reading.refl ready).advance_word opens rfl).imp
    fun first now ⟨read, same, _⟩ => ?_)
  refine Parse.outcome_check.mpr ?_
  dsimp only
  split
  · refine .bind (.map ((read.arguments deepens).imp fun arguments now read => ?_))
    exact read.close rfl (by simp) rfl (by rw [same])
  · exact .bind (.pure (read.close rfl (by simp) rfl (by rw [same])))

/-- A word with a meaning of its own in an import is read as that word. -/
theorem Reading.expectText {text : String} (reading : start.Reading soft rounds tokens parts now)
    (faces : now.Faces soft rounds (.identifier text :: kinds)) (construct : Construct) :
    (Parse.expectIdentifier construct).Outcome now
      (fun _ after => start.Reading soft rounds tokens (parts ++ [.identifier text]) after ∧
        after.Faces soft rounds kinds)
      fun _ after => start.Strays soft rounds tokens after := by
  refine ((succeeds_expectIdentifier faces construct).also
    (reading.expectIdentifier construct)).imp
      fun found after ⟨⟨read, _⟩, _, more, _, same, _⟩ => ⟨?_, more⟩
  rw [← same]
  exact read.recast (fun _ _ => .identifier) (by simp)

/-- A string literal that is there goes on with what was read before. -/
theorem Reading.string {place past : Nat} (reading : start.Reading soft rounds tokens parts now)
    (sameRounds : grammar.rounds = rounds)
    (faces : now.Faces soft rounds (kinds.drop place))
    (stands : Lookahead.StringAt kinds place past) :
    grammar.stringLiteral.Outcome now
      (fun id after => start.Reading soft rounds tokens (parts ++ [.node .string id]) after ∧
        after.Faces soft rounds (kinds.drop past))
      fun _ after => start.Strays soft rounds tokens after := by
  obtain ⟨opens, pieces, later, all⟩ := stands
  rw [opens, later] at faces
  have reads := reading.andThen (reads_stringLiteral sameRounds
    (show ∀ value, Category.string.admits (.string value) = true from fun _ => rfl))
  exact ((succeeds_stringLiteral sameRounds faces all).also reads).imp
    fun id after ⟨read, _, more, _⟩ => ⟨read, more⟩

/-- The local name of an import, if one follows. -/
theorem Reading.asName? {place : Nat} {source : List Char} {left : List (Token String)}
    (reading : start.Reading soft rounds tokens parts now) (sameRounds : grammar.rounds = rounds)
    (faces : now.Faces soft rounds ((Token.kinds left).drop place))
    (ends : Lookahead.ImportEndsAt source left place) :
    grammar.asName?.Outcome now
      (fun id after => start.Reading soft rounds tokens
        (parts ++ id.toList.flatMap fun id =>
          [.word .comma, .identifier "as", .word .colon, .node .string id]) after)
      fun _ after => start.Strays soft rounds tokens after := by
  unfold Grammar.asName?
  rcases ends with closes | ⟨comma, past, string, _⟩
  · rw [closes.closes] at faces
    refine .bind ((succeeds_eat_none faces Tag.noConfusion).also (reading.eat .comma rfl) |>.imp
      fun eaten after both => ?_)
    obtain ⟨result, _, _, absent⟩ := both
    rcases result with ⟨rfl, _⟩ | ⟨rfl, rfl, _⟩
    · contradiction
    · exact .pure (by simpa using reading)
  · rw [comma] at faces
    refine .bind ((succeeds_eat faces).also (reading.eat .comma rfl) |>.imp
      fun eaten now both => ?_)
    obtain ⟨result, _, faces, eats⟩ := both
    rcases result with ⟨rfl, read⟩ | ⟨rfl, _⟩
    · refine .bind ((read.expectText faces _).imp fun _ now result => ?_)
      obtain ⟨read, faces⟩ := result
      refine .bind ((succeeds_expect faces _).also (read.expect .colon rfl _) |>.imp
        fun _ now both => ?_)
      obtain ⟨⟨read, _⟩, _, faces, _⟩ := both
      refine .bind ((read.string sameRounds faces string).imp fun id now result => .pure ?_)
      simpa using result.1
    · contradiction

/-- An import whose shape was matched. -/
theorem Reading.requireImport {source : List Char} {left : List (Token String)}
    (reading : start.Reading soft rounds tokens [] now) (sameRounds : grammar.rounds = rounds)
    (faces : now.Faces soft rounds (Token.kinds left))
    (isImport : Lookahead.IsImport source left)
    (same : now.cursor.current = start.cursor.current) :
    grammar.requireImport.Outcome now
      (fun id after => start.Reading soft rounds tokens [.node .statement id] after)
      fun _ after => start.Strays soft rounds tokens after := by
  obtain ⟨target, past, shape, path, ends⟩ := isImport
  rw [shape] at faces
  unfold Grammar.requireImport
  refine .bind ((succeeds_expectIdentifier faces _).also (reading.expectIdentifier _) |>.imp
    fun found named ⟨⟨read, current, stepped⟩, _, faces, _⟩ => ?_)
  have starts : found.2.start = start.cursor.current.span.start := by
    rw [← same, current]
  refine .bind ((succeeds_addNode faces _ _).also (read.nameNode current stepped) |>.imp
    fun target now ⟨read, _, faces, _⟩ => ?_)
  refine .bind ((succeeds_expect faces _).also (read.expect .assign rfl _) |>.imp
    fun _ now ⟨⟨read, _⟩, _, faces, _⟩ => ?_)
  refine .bind ((read.expectText faces _).imp fun _ now ⟨read, faces⟩ => ?_)
  refine .bind ((succeeds_expect faces _).also (read.expect .leftParen rfl _) |>.imp
    fun _ now ⟨⟨read, _⟩, _, faces, _⟩ => ?_)
  refine .bind ((read.string sameRounds faces path).imp fun path now ⟨read, faces⟩ => ?_)
  refine .bind ((read.asName? sameRounds faces ends).imp fun asName now read => ?_)
  refine .bind ((read.expect .rightParen rfl _).imp fun _ now ⟨read, _⟩ => ?_)
  exact read.close rfl (by simp) rfl starts

/-- A statement that no keyword introduces. -/
theorem reads_plainStatement (deepens : grammar.Deepens soft rounds) :
    grammar.plainStatement.Reads soft rounds fun id => [.node .statement id] := by
  intro start tokens ready _
  have expression : ∀ now, start.Reading soft rounds tokens [] now →
      grammar.expression.Outcome now
        (fun id after => start.Reading soft rounds tokens [.node .statement id] after)
        fun _ after => start.Strays soft rounds tokens after := by
    intro now read
    refine (read.andThen (reads_expression deepens)).imp fun id after read => ?_
    refine read.recast (fun _ _ spells => spells.recategorize fun kind admitted => ?_) (by simp)
    cases kind <;> first | rfl | contradiction
  unfold Grammar.plainStatement
  refine Parse.outcome_currentTag.mpr ?_
  dsimp only
  split
  · have isImport : (soft.importName, "require") ∈ soft.spelling := by
      simp [SoftNames.spelling, SoftNames.all, softKeywords]
    have isAs : (soft.asKey, "as") ∈ soft.spelling := by
      simp [SoftNames.spelling, SoftNames.all, softKeywords]
    rw [deepens.sameSoft]
    refine .bind (((Reading.refl ready).ask fun _ _ =>
      Lookahead.tells_startsImport isImport isAs).imp fun imports now told => ?_)
    obtain ⟨read, current, rest, ready, shape⟩ := told
    cases imports with
    | false => exact expression now read
    | true =>
      exact read.requireImport deepens.sameRounds ⟨rest, ready, rfl⟩ (shape rfl) current
  · split
    · exact Parse.outcome_unexpected.mpr (.throw (Reading.refl ready).strays)
    · exact expression start (.refl ready)

/-- A statement. -/
theorem reads_statement (deepens : grammar.Deepens soft rounds) :
    grammar.statement.Reads soft rounds fun id => [.node .statement id] := by
  intro start tokens ready _
  unfold Grammar.statement
  refine Parse.outcome_currentTag.mpr ?_
  split
  · exact reads_method deepens (fun _ _ _ _ _ => rfl) start tokens ready trivial
  · exact reads_method deepens (fun _ _ _ _ _ => rfl) start tokens ready trivial
  · next opens => exact reads_exportedMethod deepens start tokens ready opens
  · next opens => exact reads_classDeclaration deepens start tokens ready opens
  · next opens => exact reads_ifStatement deepens start tokens ready opens
  · next opens => exact reads_unlessStatement deepens start tokens ready opens
  · next opens => exact reads_caseStatement deepens start tokens ready opens
  · next opens => exact reads_whileLoop deepens start tokens ready opens
  · next opens => exact reads_untilLoop deepens start tokens ready opens
  · next opens => exact reads_forLoop deepens start tokens ready opens
  · next opens => exact reads_beginBlock deepens start tokens ready opens
  · next opens => exact reads_returnJump deepens start tokens ready opens
  · next opens =>
    exact reads_leaf rfl rfl Tag.noConfusion start tokens ready (TokenKind.eq_fixed opens rfl)
  · next opens =>
    exact reads_leaf rfl rfl Tag.noConfusion start tokens ready (TokenKind.eq_fixed opens rfl)
  · next opens => exact reads_raiseJump deepens start tokens ready opens
  · next opens => exact reads_yieldJump deepens start tokens ready opens
  · exact reads_plainStatement deepens start tokens ready trivial

end Parser

end Vibescript
