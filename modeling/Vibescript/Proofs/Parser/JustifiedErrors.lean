import Vibescript.Proofs.Parser.Justification
import Vibescript.Proofs.Parser.Levels
import Vibescript.Proofs.Source.Words

/-!
# Errors are justified

Every production reports and fails with justified errors only, wherever it begins. So whatever the
nesting limit, an error that lists acceptable tokens does not list the one that it complains about,
unless that is an identifier where a class member should start; and a block that is said to be left
open was opened by a keyword of the text, which lies below an error node of the tree.
-/
namespace Vibescript

open Cursor

/-- A token that opens a block is no directive. -/
theorem Token.isDirective_of_opensBlock (token : Token String) (opens : token.tag.opensBlock = true) :
    token.kind.isDirective = false := by
  rw [Token.tag] at opens
  cases same : token.kind <;> rw [same] at opens <;> first | rfl | contradiction

/-- A name that introduces no accessor declaration is none of their words. -/
theorem SoftNames.text_ne_keyword {soft : SoftNames} {names : NameTable} {name : Name}
    (knows : names.Knows soft.spelling) (sound : names.Sound) (holds : names.Holds name)
    (other : soft.accessor? name = none) (kind : AccessorKind) : names.text name ≠ kind.keyword := by
  -- The word of a kind introduces an accessor declaration, of this kind or of an earlier one.
  obtain ⟨word, member, introduces⟩ : ∃ word, (word, kind.keyword) ∈ soft.spelling ∧
      soft.accessor? word ≠ none := by
    cases kind
    · exact ⟨soft.property, by simp [spelling, all, softKeywords, AccessorKind.keyword],
        by simp [accessor?]⟩
    · refine ⟨soft.getter, by simp [spelling, all, softKeywords, AccessorKind.keyword], ?_⟩
      unfold accessor?
      split <;> simp
    · refine ⟨soft.setter, by simp [spelling, all, softKeywords, AccessorKind.keyword], ?_⟩
      unfold accessor?
      split
      · simp
      · split <;> simp
  intro same
  obtain ⟨known, text⟩ := knows word kind.keyword member
  obtain rfl := sound.text_inj holds known (same.trans text.symm)
  exact introduces other

/-- A token that is no primary expression and no unary operator starts no expression. -/
theorem Grammar.contains_expressionStart {kind : TokenKind Name}
    (noName : ∀ name, kind = .identifier name → False) (noString : kind = .stringOpen → False)
    (noBracket : ∀ spelled, kind = .fixed .leftBracket spelled → False)
    (noBrace : ∀ spelled, kind = .fixed .leftBrace spelled → False)
    (noParen : ∀ spelled, kind = .fixed .leftParen spelled → False)
    (noLiteral : literal? kind = none) (noOperator : UnaryOp.ofTag? kind.tag = none) :
    TagSet.expressionStart.contains kind.tag = false := by
  rw [TagSet.expressionStart, TagSet.contains_ofList, decide_eq_false_iff_not]
  intro member
  cases kind with
  | identifier name => exact noName name rfl
  | stringOpen => exact noString rfl
  | fixed tag spelled =>
    simp only [TokenKind.tag, List.mem_cons, List.not_mem_nil, or_false] at member
    rcases member with rfl | rfl | rfl | rfl | rfl | rfl | rfl | rfl | rfl | rfl | rfl | rfl | rfl |
      rfl | rfl | rfl | rfl
    all_goals first
      | exact absurd spelled Bool.false_ne_true
      | exact absurd noLiteral (Option.some_ne_none _)
      | exact absurd noOperator (Option.some_ne_none _)
      | exact noBracket _ rfl
      | exact noBrace _ rfl
      | exact noParen _ rfl
  | stringContent | stringEscape | stringClose | versionDirective | usesDirective | endOfInput =>
    simp [TokenKind.tag] at member
  | _ => exact absurd noLiteral (Option.some_ne_none _)

namespace Parser

variable {soft : SoftNames} {rounds : Nat} {context : List (Token String)} {start now : Parser}
  {tokens taken rest : List (Token String)}

/-- What was left open lies below the error node that takes the place of what was passed over. -/
theorem Passes.excuses (passes : start.Passes tokens taken rest now)
    (pending : start.cursor.Pending tokens) {error : ParseError}
    (justified : error.Justified start.cursor.source taken) (unclosed : error.code = .unclosedBlock)
    {place : RelatedPlace} (isPlace : place ∈ error.related) :
    (start.arena.add .error ⟨start.cursor.current.span.start,
      max now.cursor.previous.stop start.cursor.current.span.start⟩).2.Excuses place.span := by
  obtain ⟨token, member, opens, _, _, related⟩ := justified.opener unclosed
  rw [related] at isPlace
  obtain rfl := Option.mem_some.mp isPlace
  obtain ⟨starts, stops⟩ := passes.moves.within pending member (token.isDirective_of_opensBlock opens)
  exact ⟨_, _, Arena.node?_add .., rfl, starts, Nat.le_trans stops (Nat.le_max_left _ _)⟩

/-- A construct that failed gives way to an error node. Its errors stay justified, and what they say
is left open lies below that node. -/
theorem Prepared.abandon (prepared : start.Prepared soft rounds context tokens)
    (notEnd : start.cursor.isAtEnd = false) (passes : start.Passes tokens taken rest now)
    (errors : ∀ error ∈ now.errors.toList, error ∈ start.errors.toList ∨
      error.Justified start.cursor.source taken) :
    Build.Outcome (Grammar.abandon start.checkpoint) now fun _ after =>
      ∃ taken rest, start.Proceeds tokens taken rest after := by
  obtain ⟨all, left, passes, filled, within, _⟩ := passes.stepFrom prepared.ready.pending notEnd
  have position := passes.moves.position
  have length := List.length_pos_iff.mpr filled
  rw [Build.Outcome, abandon_eq start now (by omega) passes.arena]
  refine ⟨all, left, ⟨passes.moves, Arena.grows_add _ _ _, passes.errors, passes.halted⟩,
    fun error member => ?_⟩
  change error ∈ (start.stepFrom now).errors.toList at member
  rw [errors_stepFrom] at member
  refine (errors error member).imp_right fun justified => ?_
  have justified := justified.mono within
  exact ⟨justified, fun unclosed place isPlace =>
    passes.excuses prepared.ready.pending justified unclosed isPlace⟩

/-- Asking for a checkpoint before a reading. -/
theorem outcome_liftM_checkpoint {α : Type} {next : Grammar.Checkpoint → Parse α}
    {success : α → Parser → Prop} {failure : ParseError → Parser → Prop} :
    Parse.Outcome (liftM Grammar.checkpoint >>= next) now success failure ↔
      (next now.checkpoint).Outcome now success failure := Iff.rfl

/-- Reporting an error. -/
theorem outcome_liftM_report {α : Type} {grammar : Grammar} {error : ParseError} {next : Unit → Parse α}
    {success : α → Parser → Prop} {failure : ParseError → Parser → Prop} :
    Parse.Outcome (liftM (grammar.report error) >>= next) now success failure ↔
      (next ()).Outcome (now.reported grammar.options.recovery error) success failure := Iff.rfl

end Parser

namespace Grammar

open Build Parse

/-- Interning texts builds nothing. -/
theorem arena_internAll (texts : List String) (parser : Parser) :
    Build.Outcome (texts.mapM intern) parser fun _ after => after.arena = parser.arena := by
  induction texts generalizing parser with
  | nil => exact .pure rfl
  | cons text texts ih =>
    rw [List.mapM_cons]
    exact .bind (Parser.outcome_onCursor.mpr (.bind ((ih _).mono fun _ _ same => .pure same)))

/-- A claimed directive adds to the arena. -/
theorem grows_directive (token : Token Name) (parser : Parser) :
    parser.arena.Grows (directive token parser).2.arena := by
  show Build.Outcome (directive token) parser fun _ after => parser.arena.Grows after.arena
  unfold directive
  split
  · exact parser.arena.grows_add _ _
  · refine Build.outcome_cursor.mpr (.bind (Build.Outcome.mono (arena_internAll _ parser) ?_))
    intro names after same
    refine .bind (Parser.outcome_onArena.mpr (Parser.outcome_onArena.mpr ?_))
    rw [← same]
    exact (Arena.grows_addNames _ _).trans (Arena.grows_add _ _ _)

/-- Whatever is read one level deeper, the errors are justified. -/
def JustifiesDeeper (grammar : Grammar) : Prop :=
  ∀ request, grammar.JustifiesAny [] (grammar.deeper request)

variable {grammar : Grammar} {context : List (Token String)} {before : Token Name → Prop}

namespace Justifies

/-- A construct whose failure is reported, and gives way to an error node. -/
theorem attempt {α β : Type} {reading : Parse NodeId} {next : NodeId → Parse β}
    {after : β → Token Name → Prop} {skip : Cursor → α × Cursor} {stop : Cursor → Bool}
    (skips : ∀ cursor, (skip cursor).2 = cursor.skipUntil stop)
    (reads : grammar.JustifiesAny [] reading)
    (goes : ∀ id, grammar.Justifies context (fun _ => True) after (next id)) :
    grammar.Justifies context (fun token => token.tag ≠ .endOfInput) after
      (liftM checkpoint >>= fun start => liftM reading.run >>= fun result =>
        match result with
        | .ok id => next id
        | .error error => liftM (grammar.report error) >>= fun _ =>
            liftM (onCursor skip) >>= fun _ => liftM (abandon start) >>= next) := by
  intro start tokens prepared notEnd
  have goesOn : start.cursor.isAtEnd = false := beq_false_of_ne notEnd
  have later {taken rest : List (Token String)} {now : Parser}
      (proceeds : start.Proceeds tokens taken rest now) (id : NodeId) := proceeds.andThen
    (List.subset_append_left context taken) (goes id now rest
      ((prepared.proceeds proceeds).mono (List.subset_append_left context taken)) trivial)
  have accounts := reads start tokens (prepared.mono (List.nil_subset _)) trivial
  rw [Parse.Accounts, Parse.Outcome] at accounts
  refine Parser.outcome_liftM_checkpoint.mpr (.bind (.lift (accounts.mono ?_)))
  intro result failed holds
  cases result with
  | ok id =>
    obtain ⟨taken, rest, proceeds, _⟩ := holds
    exact later proceeds id
  | error error =>
    obtain ⟨taken, rest, proceeds, justified⟩ := holds
    refine Parser.outcome_liftM_report.mpr
      (.bind (.lift (Parser.outcome_onCursor.mpr (.bind (.lift ?_)))))
    obtain ⟨reports, _⟩ := Parser.Passes.report grammar error (proceeds.passes.ready prepared.ready)
    obtain ⟨more, left, skipped, _⟩ := Parser.Passes.skipUntil reports.moves.pending stop
    rw [← skips] at skipped
    have passes := (proceeds.passes.trans reports).trans skipped
    have errors : ∀ other ∈ (failed.reported grammar.options.recovery error).errors.toList,
        other ∈ start.errors.toList ∨
          other.Justified start.cursor.source (taken ++ [] ++ more) := by
      intro other member
      rw [List.append_nil]
      rcases Parser.mem_errors_reported member with early | rfl
      · exact (proceeds.errors other early).imp_right fun known =>
          known.1.mono (List.subset_append_left _ _)
      · exact .inr (justified.mono (List.subset_append_left _ _))
    refine (prepared.abandon goesOn passes errors).mono ?_
    rintro id final ⟨_, _, proceeds⟩
    exact later proceeds id

/-- Asking whether to halt. -/
theorem shouldHalt :
    grammar.Justifies context before (fun _ _ => True) (liftM grammar.shouldHalt) :=
  .question (fun _ => rfl) fun _ _ => trivial

/-- Skipping the rest of the text leads to its end. -/
theorem skipToEnd :
    grammar.Justifies context before (fun _ token => token.tag = .endOfInput)
      (liftM Build.skipToEnd) :=
  .moves (fun cursor => cursor.onward_skipUntil fun _ => false) fun cursor _ _ _ =>
    beq_iff_eq.mp cursor.isAtEnd_skipToEnd

/-- A claimed directive becomes a node. -/
theorem directive (token : Token Name) :
    grammar.Justifies context before (fun _ _ => True) (liftM (Grammar.directive token)) :=
  .step (isQuiet_directive token) (grows_directive token) fun _ _ _ _ => trivial

/-- Items up to a closing token: a list that does not end at the closing token does not end at a
comma either. -/
theorem itemsUntil {α : Type} {closer : Tag} {item : Parse α}
    (reads : grammar.Justifies context (fun token => token.tag ≠ closer) (fun _ _ => True) item) :
    grammar.Justifies context before (fun _ token => token.tag ≠ closer → token.tag ≠ .comma)
      (grammar.itemsUntil closer item) := by
  intro start tokens prepared _
  -- Every round that goes on takes a comma, so the rounds are never used up.
  refine Parse.Outcome.repeatWithin (fun count _ now => ∃ taken rest,
    start.Proceeds tokens taken rest now ∧ Consumes.weight rest = count)
    (fun count items now holds => ?_) prepared.ready.rounds
    ⟨[], tokens, .refl prepared.ready.pending, rfl⟩
  obtain ⟨taken, rest, proceeds, rfl⟩ := holds
  have later := (prepared.proceeds proceeds).mono (List.subset_append_left context taken)
  refine Parse.outcome_check.mpr ?_
  by_cases closes : now.cursor.check closer = true
  · rw [if_pos closes]
    exact .pure ⟨taken, rest, proceeds, fun other => absurd (beq_iff_eq.mp closes) other⟩
  · rw [if_neg closes]
    have opens : now.cursor.current.tag ≠ closer := fun same => closes (beq_iff_eq.mpr same)
    have accounts := reads now rest later opens
    refine .bind (Parse.Outcome.mono (Parse.Outcome.and
      (proceeds.andThen (List.subset_append_left _ _) accounts) accounts) ?_
        fun _ _ ⟨failed, _⟩ => failed)
    rintro answer final ⟨_, more, left, further, _⟩
    have fewer := further.passes.moves.consumes.weight_le
    refine .bind (.lift (Parser.outcome_onCursor.mpr ?_))
    rw [Cursor.eat]
    by_cases comma : final.cursor.check .comma = true
    · have notEnd := Parser.notAtEnd (beq_iff_eq.mp comma) Tag.noConfusion
      obtain ⟨marks, others, rfl, directives, _, _⟩ :=
        further.passes.moves.pending.ahead notEnd
      have step := moves_advance further.passes.moves.pending directives notEnd
      have less := step.consumes.weight_le
      rw [List.length_singleton] at less
      rw [if_pos comma]
      exact .pure ⟨Consumes.weight others, by omega, _, others,
        (proceeds.trans further).trans (.of_moves step), rfl⟩
    · rw [if_neg comma]
      exact .pure ⟨_, _, proceeds.trans further, fun _ same => comma (beq_iff_eq.mpr same)⟩

/-- Clauses that start with a keyword: where none is read, none stands. -/
theorem clauses {keyword : Tag} {clause : Parse NodeId}
    (reads : grammar.Justifies context (fun token => token.tag = keyword) (fun _ _ => True) clause) :
    grammar.Justifies context before
      (fun items token => items.isEmpty = true → token.tag ≠ keyword)
      (grammar.clauses keyword clause) := by
  have round (items : Array NodeId) {before : Token Name → Prop} :
      grammar.Justifies context before
        (Rolls (fun (items : Array NodeId) _ => items.isEmpty = false)
          fun (items : Array NodeId) token => items.isEmpty = true → token.tag ≠ keyword)
        (do if ← Build.check keyword then return .yield (items.push (← clause)) else return .done items) :=
    .bind (.check keyword) fun found => .branch
      (.bind reads fun id => .pure _ fun _ _ => by simp [Rolls])
      (.pure _ fun _ known _ => known.2)
  refine .loop (round #[]) (fun items => round items) fun items token filled none => ?_
  rw [filled] at none
  contradiction

/-- The type that an identifier names. -/
theorem namedType (name : Name) :
    grammar.Justifies context before (fun _ _ => True) (liftM (Grammar.namedType name)) := by
  rw [Grammar.namedType, liftM_bind]
  refine .bind .cursor fun cursor => ?_
  dsimp only
  split
  · split
    · exact .answer _
    · rw [liftM_bind]
      exact .bind (.intern _) fun _ => .answer _
  · exact .answer _

/-- The failure where no member of a class starts: of the tokens that it lists only an identifier can
stand there, and not the word of an accessor declaration. -/
theorem invalidMember {token : Token Name} {after : NodeId → Token Name → Prop}
    (listed : TagSet.memberStart.contains token.tag = true →
      ∃ name, token.kind = .identifier name ∧ grammar.soft.accessor? name = none) :
    grammar.Justifies context (fun current => before current ∧ current = token) after
      Grammar.invalidMember := by
  rintro start tokens prepared ⟨_, rfl⟩
  refine Parse.outcome_unexpected.mpr (.throw ⟨[], tokens, .refl prepared.ready.pending, ?_, ?_⟩)
  · intro tag isFound contains
    obtain rfl := Option.mem_some.mp isFound
    obtain ⟨name, isName, other⟩ := listed contains
    have isIdentifier : start.cursor.current.tag = .identifier := congrArg TokenKind.tag isName
    have notEnd := Parser.notAtEnd isIdentifier Tag.noConfusion
    obtain ⟨marks, rest, rfl, _, _, known⟩ := prepared.ready.pending.ahead notEnd
    have stems := prepared.stems (start.cursor.current.written start.cursor.lexer.names) (by simp)
    rw [Token.written, isName] at stems
    rw [isName] at known
    exact ⟨rfl, isIdentifier, _, stems, SoftNames.text_ne_keyword prepared.ready.soft
      prepared.ready.pending.sound (known name rfl) other⟩
  · exact fun unclosed => ErrorCode.noConfusion unclosed

section Deeper

variable (deeper : grammar.JustifiesDeeper)

include deeper

/-- What is read one level deeper. -/
theorem request (request : Request) :
    grammar.Justifies context before (fun _ _ => True) (grammar.deeper request) :=
  anywhere ((deeper request).within (List.nil_subset _))

/-- A round of a body. -/
theorem bodyStep (terminators : TagSet) (statements : Array NodeId) :
    grammar.JustifiesAny context (liftM (grammar.bodyStep terminators statements)) := by
  rw [liftM_bodyStep]
  refine .bind .shouldHalt fun halts => .choose (.bind .skipToEnd fun _ => .answer _) ?_
  refine .bind (.quiet onward_takeDirective) fun claimed => ?_
  cases claimed with
  | some token => exact .bind (.directive token) fun _ => .answer _
  | none =>
    refine .bind .currentTag fun tag => ?_
    by_cases stops : (tag == .endOfInput || terminators.contains tag) = true
    · rw [if_pos stops]
      exact .answer _
    · rw [if_neg stops]
      refine (attempt (fun _ => rfl) (deeper .statement) fun id => .answer _).imp ?_
        fun _ _ ends => ends
      rintro token ⟨_, rfl⟩ atEnd
      simp [atEnd] at stops

/-- A body. -/
theorem body (terminators : TagSet) :
    grammar.Justifies context before (fun _ _ => True) (liftM (grammar.body terminators)) := by
  rw [Grammar.body, liftM_bind, Grammar.loop, liftM_repeatWithin]
  exact .bind (.loopAny fun statements => bodyStep deeper terminators statements) fun _ =>
    .addList _

omit deeper in
/-- The closing bracket of a list, where no comma stands instead. -/
theorem expectCloser {code : ErrorCode} (closed : code ≠ .unclosedBlock) (closer : Tag)
    (construct : Construct) :
    grammar.Justifies context (fun token => token.tag ≠ closer → token.tag ≠ .comma)
      (fun _ _ => True) (Grammar.expectCloser code closer construct) := by
  refine .bind (.eat closer) fun found => ?_
  cases found with
  | true => exact .answer _
  | false =>
    refine .fail (fun _ => ⟨rfl, rfl, rfl⟩) closed fun token known => ?_
    obtain ⟨noComma, other⟩ := known rfl
    simp [other.symm, (noComma other).symm]

/-- An expression. -/
theorem expression : grammar.Justifies context before (fun _ _ => True) grammar.expression :=
  request deeper _

omit deeper in
/-- A string literal. -/
theorem stringLiteral : grammar.Justifies context before (fun _ _ => True) grammar.stringLiteral := by
  rw [stringLiteral_eq]
  refine .bind (.expect _ _) fun opening => .bind (.loopAny fun text => ?_) fun value =>
    .bind (.intern _) fun _ => .close _ _
  refine .bind .cursor fun cursor => ?_
  cases same : cursor.current.kind with
  | stringContent run => exact .bind .advance fun _ => .answer _
  | stringEscape char => exact .bind .advance fun _ => .answer _
  | stringClose => exact .bind .advance fun _ => .answer _
  | _ =>
    refine .fail (fun _ => ⟨rfl, rfl, rfl⟩) ErrorCode.noConfusion fun token known => ?_
    rw [known.2, TagSet.contains_singleton, decide_eq_false_iff_not]
    intro closes
    have isClose := TokenKind.eq_stringClose closes.symm
    rw [same] at isClose
    contradiction

/-- An array literal. -/
theorem arrayLiteral : grammar.Justifies context before (fun _ _ => True) grammar.arrayLiteral :=
  .bind .advance fun _ => .bind (.itemsUntil (expression deeper)) fun _ =>
    .bind (expectCloser ErrorCode.noConfusion _ _) fun _ => .bind (.addList _) fun _ => .close _ _

/-- An entry of a hash literal, where the literal is not closed. -/
theorem hashEntry :
    grammar.Justifies context (fun token => token.tag ≠ .rightBrace) (fun _ _ => True)
      grammar.hashEntry := by
  refine .bind .current fun first => ?_
  have value (key : NodeId) : grammar.Justifies context (fun _ => True) (fun _ _ => True) (do
      let _ ← Build.splitSymbol
      let _ ← Parse.expect .colon .hash
      let value ← grammar.expression
      Build.close (.hashEntry key value) first.span) :=
    .bind .splitSymbol fun _ => .bind (.expect _ _) fun _ => .bind (expression deeper) fun _ =>
      .close _ _
  dsimp only
  split
  · exact .bind .advance fun _ => .bind (.addNode _ _) value
  · exact .bind stringLiteral value
  · next noName noString =>
    refine .failFirst (fun _ => ⟨rfl, rfl, rfl⟩) ErrorCode.noConfusion fun token known => ?_
    obtain ⟨open_, rfl⟩ := known
    rw [TagSet.contains_ofList, decide_eq_false_iff_not]
    intro member
    simp only [List.mem_cons, List.not_mem_nil, or_false] at member
    rcases member with same | same | same
    · obtain ⟨name, isName⟩ := TokenKind.eq_identifier same
      exact noName name isName
    · exact noString (TokenKind.eq_stringOpen same)
    · exact open_ same

/-- A hash literal. -/
theorem hashLiteral : grammar.Justifies context before (fun _ _ => True) grammar.hashLiteral :=
  .bind .advance fun _ => .bind (.itemsUntil (hashEntry deeper)) fun _ =>
    .bind (expectCloser ErrorCode.noConfusion _ _) fun _ => .bind (.addList _) fun _ => .close _ _

/-- An expression in parentheses. -/
theorem parenthesized : grammar.Justifies context before (fun _ _ => True) grammar.parenthesized :=
  .bind .advance fun _ => .bind (expression deeper) fun _ => .bind (.expect _ _) fun _ => .close _ _

/-- An argument. -/
theorem argument : grammar.Justifies context before (fun _ _ => True) grammar.argument := by
  refine .bind .current fun token => ?_
  split
  · refine .bind (.ask Lookahead.Peeks.isKeyword) fun found => .choose ?_ (expression deeper)
    exact .bind .advance fun _ => .bind .splitSymbol fun _ => .bind .advance fun _ =>
      .bind (.addNode _ _) fun _ => .bind (expression deeper) fun _ => .close _ _
  · exact expression deeper

/-- Arguments in parentheses. -/
theorem arguments : grammar.Justifies context before (fun _ _ => True) grammar.arguments :=
  .bind (.expect _ _) fun _ => .bind (.itemsUntil (argument deeper)) fun _ =>
    .bind (expectCloser ErrorCode.noConfusion _ _) fun _ => .addList _

omit deeper in
/-- One or more items. -/
theorem oneOrMore {α : Type} {separator : Tag} {item : Parse α}
    (reads : grammar.JustifiesAny context item) :
    grammar.Justifies context before (fun _ _ => True) (grammar.oneOrMore separator item) :=
  .loopAny fun _ => .bind reads fun _ => .bind (.eat _) fun _ => .answer _

omit deeper in
/-- The names between the bars of a block. -/
theorem blockParameters :
    grammar.Justifies context before (fun _ _ => True) grammar.blockParameters := by
  refine .bind (.eat _) fun found => ?_
  dsimp only
  split
  · exact .bind (oneOrMore (.expectIdentifier _)) fun _ => .bind (.expect _ _) fun _ => .addNames _
  · exact .addNames _

/-- A block, if one follows. -/
theorem block? : grammar.Justifies context before (fun _ _ => True) grammar.block? := by
  refine .bind (.check .kwDo) fun found => .branch (.opening rfl rfl fun opening => ?_) (.answer _)
  exact .bind blockParameters fun _ => .bind (body deeper _) fun _ =>
    .bind (.expectEnd rfl (.head _) _) fun _ => .bind (.close _ _) fun _ => .answer _

/-- The arguments and the block of a call. -/
theorem call (receiver : Option NodeId) (method : Name) (start : Span) :
    grammar.Justifies context before (fun _ _ => True) (grammar.call receiver method start) :=
  .bind (arguments deeper) fun _ => .bind (block? deeper) fun _ => .close _ _

/-- What follows the point after an operand. -/
theorem member (receiver : NodeId) (start : Span) :
    grammar.Justifies context before (fun _ _ => True) (grammar.member receiver start) := by
  refine .bind .advance fun _ => .bind (.expectIdentifier _) fun named => ?_
  exact .bind (.check .leftParen) fun found => .choose (call deeper _ _ _)
    (.bind (block? deeper) fun _ => .close _ _)

/-- An index in brackets after an operand. -/
theorem subscript (receiver : NodeId) (start : Span) :
    grammar.Justifies context before (fun _ _ => True) (grammar.subscript receiver start) :=
  .bind .advance fun _ => .bind (expression deeper) fun _ => .bind (.expect _ _) fun _ => .close _ _

/-- Calls, members and subscripts after an operand. -/
theorem chain (operand : NodeId) :
    grammar.Justifies context before (fun _ _ => True) (grammar.chain operand) := by
  refine .loopAny fun left => .bind (.nodeSpan left) fun start => .bind .currentTag fun tag => ?_
  split
  · exact .bind (member deeper left start) fun _ => .answer _
  · exact .bind (subscript deeper left start) fun _ => .answer _
  · exact .answer _

/-- A name, or a call. -/
theorem nameOrCall (name : Name) :
    grammar.Justifies context before (fun _ _ => True) (grammar.nameOrCall name) :=
  .bind .advance fun _ => .bind (.check .leftParen) fun _ => .choose (call deeper _ _ _)
    (.addNode _ _)

/-- A primary expression, where no unary operator stands. -/
theorem primary :
    grammar.Justifies context (fun token => UnaryOp.ofTag? token.tag = none) (fun _ _ => True)
      grammar.primary := by
  refine .bind .current fun token => ?_
  obtain ⟨kind, span⟩ := token
  dsimp only
  split
  · exact nameOrCall deeper _
  · exact stringLiteral
  · exact arrayLiteral deeper
  · exact hashLiteral deeper
  · exact parenthesized deeper
  · split
    · exact .bind .advance fun _ => .addNode _ _
    · next noName noString noBracket noBrace noParen _ noLiteral =>
      refine .fail (fun _ => ⟨rfl, rfl, rfl⟩) ErrorCode.noConfusion fun token known => ?_
      obtain ⟨noOperator, rfl⟩ := known
      exact contains_expressionStart noName noString noBracket noBrace noParen noLiteral noOperator

/-- An operand. -/
theorem operand : grammar.Justifies context before (fun _ _ => True) grammar.operand := by
  refine .bind .currentTag fun tag => ?_
  split
  · exact .bind .advance fun _ => .bind (request deeper _) fun _ => .close _ _
  · next none =>
    refine .bind ((primary deeper).imp (fun token known => ?_) fun _ _ ends => ends) fun _ =>
      chain deeper _
    rw [known.2]
    exact none

/-- An expression. -/
theorem expressionFrom (least : BindingPower) :
    grammar.Justifies context before (fun _ _ => True) (grammar.expressionFrom least) := by
  rw [expressionFrom_eq]
  refine .bind (operand deeper) fun first => .loopAny fun left => .bind .currentTag fun tag => ?_
  split
  · exact .answer _
  · split
    · exact .answer _
    · exact .bind .advance fun _ => .bind (.nodeSpan left) fun _ => .bind (request deeper _) fun _ =>
        .bind (.close _ _) fun _ => .answer _

omit deeper in
/-- A type name. -/
theorem typeName : grammar.Justifies context before (fun _ _ => True) Grammar.typeName := by
  refine .bind .current fun token => ?_
  obtain ⟨kind, span⟩ := token
  have word (reference : TypeReference) (isMarked : Bool) :
      grammar.Justifies context (fun _ => True) (fun _ _ => True) (do
        let _ ← Build.advance
        let isMarkedAfter ← Build.eat .question
        Build.close (.typeName reference (isMarked || isMarkedAfter)) span) :=
    .bind .advance fun _ => .bind (.eat _) fun _ => .close _ _
  dsimp only
  split
  · exact .bind (.namedType _) fun _ => word _ _
  · exact .bind (.answer _) fun _ => word _ _
  · exact .bind (.answer _) fun _ => word _ _
  · next noName noConstant noNil =>
    refine .failFirst (fun _ => ⟨rfl, rfl, rfl⟩) ErrorCode.noConfusion fun token known => ?_
    rw [known.2, TagSet.typeStart, TagSet.contains_ofList, decide_eq_false_iff_not]
    intro member
    simp only [List.mem_cons, List.not_mem_nil, or_false] at member
    rcases member with same | same | same
    · obtain ⟨name, isName⟩ := TokenKind.eq_identifier same
      exact noName name isName
    · obtain ⟨name, isName⟩ := TokenKind.eq_constant same
      exact noConstant name isName
    · exact noNil _ (TokenKind.eq_fixed same rfl)

omit deeper in
/-- A type. -/
theorem typeUnion : grammar.Justifies context before (fun _ _ => True) grammar.typeUnion :=
  .bind .current fun _ => .bind (oneOrMore typeName) fun _ => .bind (.addList _) fun _ => .close _ _

/-- The value that a parameter has when it is not given. -/
theorem default? : grammar.Justifies context before (fun _ _ => True) grammar.default? :=
  .bind (.eat _) fun _ => .choose (.bind (expression deeper) fun _ => .answer _) (.answer _)

omit deeper in
/-- A type after a colon. -/
theorem variableType? : grammar.Justifies context before (fun _ _ => True) grammar.variableType? :=
  .bind .splitSymbol fun _ => .bind (.eat _) fun _ => .choose
    (.bind typeUnion fun _ => .answer _) (.answer _)

/-- A parameter of the shape that was seen. -/
theorem parameterOf (shape : Lookahead.ParameterShape) :
    grammar.Justifies context (fun token => token.tag = shape.firstTag) (fun _ _ => True)
      (grammar.parameterOf shape) := by
  refine .bind .advance fun token => ?_
  by_cases known : token.tag = shape.firstTag
  · cases shape with
    | instanceVariable =>
      obtain ⟨name, same⟩ := TokenKind.eq_instanceVariable known
      rw [same]
      exact .bind variableType? fun _ => .close _ _
    | typed =>
      obtain ⟨name, same⟩ := TokenKind.eq_identifier known
      rw [same]
      exact .bind .splitSymbol fun _ => .bind (.expect _ _) fun _ => .bind typeUnion fun _ =>
        .bind (default? deeper) fun _ => .close _ _
    | simple =>
      obtain ⟨name, same⟩ := TokenKind.eq_identifier known
      rw [same]
      exact .bind (default? deeper) fun _ => .close _ _
  · exact fun _ _ _ same => absurd same known

/-- A parameter, where the list is not closed. -/
theorem parameter :
    grammar.Justifies context (fun token => token.tag ≠ .rightParen) (fun _ _ => True)
      grammar.parameter := by
  refine .bind .askParameter? fun found => ?_
  cases found with
  | some shape =>
    exact (parameterOf deeper shape).imp (fun _ known => known.2.1 shape rfl) fun _ _ ends => ends
  | none =>
    refine .fail (fun _ => ⟨rfl, rfl, rfl⟩) ErrorCode.noConfusion fun token known => ?_
    rw [TagSet.contains_insert, known.2.2 rfl, Bool.false_or, decide_eq_false_iff_not]
    exact known.1.symm

/-- A parameter list. -/
theorem parameters : grammar.Justifies context before (fun _ _ => True) grammar.parameters :=
  .bind (.expect _ _) fun _ => .bind (.itemsUntil (parameter deeper)) fun _ =>
    .bind (expectCloser ErrorCode.noConfusion _ _) fun _ => .bind (.addList _) fun _ => .close _ _

omit deeper in
/-- The name of a method. -/
theorem methodName : grammar.Justifies context before (fun _ _ => True) Grammar.methodName := by
  refine .bind (.ask Lookahead.Peeks.isSelfQualifier) fun isSingleton => ?_
  dsimp only
  split
  · exact .bind .advance fun _ => .bind .advance fun _ => .bind (.expectIdentifier _) fun _ =>
      .answer _
  · exact .bind (.expectIdentifier _) fun _ => .answer _

/-- A method declaration. -/
theorem method : grammar.Justifies context before (fun _ _ => True) grammar.method := by
  refine .bind .current fun first => .bind (.eat _) fun isPrivate =>
    .expectOpening rfl rfl _ fun opening => .bind methodName fun name => ?_
  refine .bind (.check .leftParen) fun found => .chosen (parameters deeper) fun inputs => ?_
  refine .bind (.eat .arrow) fun found => .chosen typeUnion fun returnType => ?_
  exact .bind (body deeper _) fun _ => .bind (.expectEnd rfl (.head _) _) fun _ => .close _ _

/-- An exported method. -/
theorem exportedMethod : grammar.Justifies context before (fun _ _ => True) grammar.exportedMethod := by
  refine .bind .advance fun first => .bind .currentTag fun tag => ?_
  split
  · exact .bind (method deeper) fun _ => .close _ _
  · next other =>
    refine .fail (fun _ => ⟨rfl, rfl, rfl⟩) ErrorCode.noConfusion fun token known => ?_
    rw [known.2]
    exact Bool.not_eq_true _ ▸ other

omit deeper in
/-- Accessor declarations. -/
theorem accessors (kind : AccessorKind) :
    grammar.Justifies context before (fun _ _ => True) (grammar.accessors kind) :=
  .bind .advance fun _ => .bind (oneOrMore (.expectIdentifier _)) fun _ =>
    .bind (.addNames _) fun _ => .close _ _

/-- The first value of a class variable. -/
theorem classVariable (name : Name) :
    grammar.Justifies context before (fun _ _ => True) (grammar.classVariable name) :=
  .bind .advance fun _ => .bind (.expect _ _) fun _ => .bind (expression deeper) fun _ => .close _ _

/-- A member of a class. -/
theorem classMember : grammar.Justifies context before (fun _ _ => True) grammar.classMember := by
  refine .bind .current fun token => ?_
  split
  · exact method deeper
  · exact method deeper
  · exact classVariable deeper _
  · next name isName =>
    split
    · exact accessors _
    · next other => exact invalidMember fun _ => ⟨name, isName, other⟩
  · next noDef noPrivate noVariable noName =>
    refine invalidMember fun contains => ?_
    simp only [TagSet.memberStart, TagSet.contains_ofList, decide_eq_true_eq, List.mem_cons,
      List.not_mem_nil, or_false] at contains
    rcases contains with same | same | same | same
    · exact (noDef rfl (TokenKind.eq_fixed same rfl)).elim
    · exact (noPrivate rfl (TokenKind.eq_fixed same rfl)).elim
    · obtain ⟨name, isName⟩ := TokenKind.eq_classVariable same
      exact (noVariable name isName).elim
    · obtain ⟨name, isName⟩ := TokenKind.eq_identifier same
      exact (noName name isName).elim

/-- The members of a class: where there is none, none starts. -/
theorem classBody :
    grammar.Justifies context before
      (fun members token => members.isEmpty = true →
        TagSet.memberStart.contains token.tag = false)
      (liftM grammar.classBody) := by
  have round (members : Array NodeId) {before : Token Name → Prop} :
      grammar.Justifies context before
        (Rolls (fun (members : Array NodeId) _ => members.isEmpty = false)
          fun (members : Array NodeId) token => members.isEmpty = true →
            TagSet.memberStart.contains token.tag = false)
        (liftM (grammar.memberStep members)) := by
    rw [liftM_memberStep]
    refine .bind .shouldHalt fun halts => .choose (.bind .skipToEnd fun _ =>
      .pure _ fun token ended _ => ?_) ?_
    · rw [ended]
      rfl
    · refine .bind .currentTag fun tag => ?_
      by_cases stops : (tag == .kwEnd || tag == .endOfInput) = true
      · rw [if_pos stops]
        refine .pure _ fun token known _ => ?_
        rw [known.2]
        rw [Bool.or_eq_true, beq_iff_eq, beq_iff_eq] at stops
        rcases stops with rfl | rfl <;> rfl
      · rw [if_neg stops]
        refine (attempt (fun _ => rfl) (classMember deeper) fun id => .pure _ fun _ _ => ?_).imp ?_
          fun _ _ ends => ends
        · simp [Rolls]
        · rintro token ⟨_, rfl⟩ atEnd
          simp [atEnd] at stops
  rw [Grammar.classBody, Grammar.loop, liftM_repeatWithin]
  refine .loop (round #[]) (fun members => round members) fun members token filled none => ?_
  rw [filled] at none
  contradiction

/-- A class declaration. -/
theorem classDeclaration :
    grammar.Justifies context (fun token => token.tag = .kwClass) (fun _ _ => True)
      grammar.classDeclaration := by
  refine .opening rfl rfl fun opening => .bind (.expectConstant _) fun name =>
    .bind (classBody deeper) fun members => ?_
  have ends : grammar.Justifies (⟨.fixed .kwClass, opening.span⟩ :: context) (fun _ => True)
      (fun _ _ => True) (do
        let range ← Build.addList members
        Parse.expectEnd .kwClass opening.span .classBody
        Build.close (.classDeclaration name range) opening.span) :=
    .bind (.addList _) fun _ => .bind (.expectEnd rfl (.head _) _) fun _ => .close _ _
  dsimp only
  split
  · next none =>
    refine .bind .cursor fun cursor => .reportFirst (fun _ => ⟨rfl, rfl, rfl⟩)
      ErrorCode.noConfusion (fun token known => known.1 none) ends
  · exact anywhere ends

/-- The `else` of a conditional. -/
theorem else? : grammar.Justifies context before (fun _ _ => True) grammar.else? :=
  .bind (.check _) fun _ => .choose
    (.bind .advance fun _ => .bind (body deeper _) fun _ => .bind (.close _ _) fun _ => .answer _)
    (.answer _)

/-- `elsif`, a condition and a body. -/
theorem elsifClause : grammar.Justifies context before (fun _ _ => True) grammar.elsifClause :=
  .bind .advance fun _ => .bind (expression deeper) fun _ => .bind (body deeper _) fun _ => .close _ _

/-- `if`, a condition and a body, further conditions, and an alternative. -/
theorem ifStatement :
    grammar.Justifies context (fun token => token.tag = .kwIf) (fun _ _ => True)
      grammar.ifStatement := by
  refine .opening rfl rfl fun opening => .bind (expression deeper) fun _ =>
    .bind (body deeper _) fun _ => .bind (clauses (elsifClause deeper)) fun _ => ?_
  exact .bind (.addList _) fun _ => .bind (else? deeper) fun _ =>
    .bind (.expectEnd rfl (.head _) _) fun _ => .close _ _

/-- `unless`, a condition and a body, and an alternative. -/
theorem unlessStatement :
    grammar.Justifies context (fun token => token.tag = .kwUnless) (fun _ _ => True)
      grammar.unlessStatement := by
  refine .opening rfl rfl fun opening => .bind (expression deeper) fun _ =>
    .bind (body deeper _) fun _ => ?_
  exact .bind (else? deeper) fun _ => .bind (.expectEnd rfl (.head _) _) fun _ => .close _ _

/-- `when`, patterns and a body. -/
theorem whenClause : grammar.Justifies context before (fun _ _ => True) grammar.whenClause :=
  .bind .advance fun _ => .bind (oneOrMore (expression deeper)) fun _ => .bind (.addList _) fun _ =>
    .bind (body deeper _) fun _ => .close _ _

/-- `case`, a subject, its branches, and an alternative: without a branch no `when` stands. -/
theorem caseStatement :
    grammar.Justifies context (fun token => token.tag = .kwCase) (fun _ _ => True)
      grammar.caseStatement := by
  refine .opening rfl rfl fun opening => .bind (expression deeper) fun subject =>
    .bind (clauses (whenClause deeper)) fun whens => ?_
  have ends : grammar.Justifies (⟨.fixed .kwCase, opening.span⟩ :: context) (fun _ => True)
      (fun _ _ => True) (do
        let whens ← Build.addList whens
        let otherwise ← grammar.else?
        Parse.expectEnd .kwCase opening.span .caseStatement
        Build.close (.caseStatement subject whens otherwise) opening.span) :=
    .bind (.addList _) fun _ => .bind (else? deeper) fun _ =>
      .bind (.expectEnd rfl (.head _) _) fun _ => .close _ _
  dsimp only
  split
  · next none =>
    refine .reportFirst (fun _ => ⟨rfl, rfl, rfl⟩) ErrorCode.noConfusion (fun token known => ?_) ends
    rw [TagSet.contains_singleton, decide_eq_false_iff_not]
    exact (known none).symm
  · exact anywhere ends

/-- `while`, a condition and a body. -/
theorem whileLoop :
    grammar.Justifies context (fun token => token.tag = .kwWhile) (fun _ _ => True)
      grammar.whileLoop :=
  .opening rfl rfl fun _ => .bind (expression deeper) fun _ => .bind (body deeper _) fun _ =>
    .bind (.expectEnd rfl (.head _) _) fun _ => .close _ _

/-- `until`, a condition and a body. -/
theorem untilLoop :
    grammar.Justifies context (fun token => token.tag = .kwUntil) (fun _ _ => True)
      grammar.untilLoop :=
  .opening rfl rfl fun _ => .bind (expression deeper) fun _ => .bind (body deeper _) fun _ =>
    .bind (.expectEnd rfl (.head _) _) fun _ => .close _ _

/-- `for`, a variable, what it ranges over, and a body. -/
theorem forLoop :
    grammar.Justifies context (fun token => token.tag = .kwFor) (fun _ _ => True)
      grammar.forLoop := by
  refine .opening rfl rfl fun _ => .bind (.expectIdentifier _) fun _ => .bind (.addNode _ _) fun _ =>
    .bind (.expect _ _) fun _ => .bind (expression deeper) fun _ => ?_
  exact .bind (body deeper _) fun _ => .bind (.expectEnd rfl (.head _) _) fun _ => .close _ _

omit deeper in
/-- The constant that names the errors to rescue. -/
theorem rescueFilter? :
    grammar.Justifies context before (fun _ _ => True) Grammar.rescueFilter? :=
  .bind (.ask Lookahead.Peeks.isRescueFilter) fun _ => .choose
    (.bind .advance fun _ => .bind (.expectConstant _) fun _ => .bind (.expect _ _) fun _ =>
      .answer _) (.answer _)

/-- `rescue`, the errors it is for, and a body. -/
theorem rescueClause : grammar.Justifies context before (fun _ _ => True) grammar.rescueClause :=
  .bind .advance fun _ => .bind rescueFilter? fun _ => .bind (body deeper _) fun _ => .close _ _

/-- `ensure` and a body. -/
theorem ensure? : grammar.Justifies context before (fun _ _ => True) grammar.ensure? :=
  .bind (.check _) fun _ => .choose
    (.bind .advance fun _ => .bind (body deeper _) fun _ => .bind (.close _ _) fun _ => .answer _)
    (.answer _)

/-- `begin` and a body, what to do about errors, and what to do in any case. -/
theorem beginBlock :
    grammar.Justifies context (fun token => token.tag = .kwBegin) (fun _ _ => True)
      grammar.beginBlock := by
  refine .opening rfl rfl fun opening => .bind (body deeper _) fun _ =>
    .bind (clauses (rescueClause deeper)) fun _ => .bind (.addList _) fun _ => ?_
  exact .bind (ensure? deeper) fun _ => .bind (.expectEnd rfl (.head _) _) fun _ => .close _ _

/-- `return`, with or without a value. -/
theorem returnJump : grammar.Justifies context before (fun _ _ => True) grammar.returnJump :=
  .bind .advance fun _ => .bind .currentTag fun _ => .chosen (expression deeper) fun _ => .close _ _

/-- `raise` and an expression in parentheses. -/
theorem raiseJump : grammar.Justifies context before (fun _ _ => True) grammar.raiseJump :=
  .bind .advance fun _ => .bind (.expect _ _) fun _ => .bind (expression deeper) fun _ =>
    .bind (.expect _ _) fun _ => .close _ _

/-- `yield`, bare or with arguments. -/
theorem yieldJump : grammar.Justifies context before (fun _ _ => True) grammar.yieldJump :=
  .bind .advance fun _ => .bind (.check _) fun _ => .chosen (arguments deeper) fun _ => .close _ _

omit deeper in
/-- The local name of an import. -/
theorem asName? : grammar.Justifies context before (fun _ _ => True) grammar.asName? :=
  .bind (.eat _) fun _ => .choose
    (.bind (.expectIdentifier _) fun _ => .bind (.expect _ _) fun _ => .bind stringLiteral fun _ =>
      .answer _) (.answer _)

omit deeper in
/-- An import. -/
theorem requireImport : grammar.Justifies context before (fun _ _ => True) grammar.requireImport := by
  refine .bind (.expectIdentifier _) fun _ => .bind (.addNode _ _) fun _ => .bind (.expect _ _) fun _ =>
    .bind (.expectIdentifier _) fun _ => .bind (.expect _ _) fun _ => ?_
  exact .bind stringLiteral fun _ => .bind asName? fun _ => .bind (.expect _ _) fun _ => .close _ _

/-- A statement that no keyword introduces. -/
theorem plainStatement : grammar.Justifies context before (fun _ _ => True) grammar.plainStatement := by
  refine .bind .currentTag fun tag => .choose ?_ (.choose ?_ (expression deeper))
  · exact .bind (.ask (Lookahead.Peeks.startsImport _ _)) fun _ =>
      .choose requireImport (expression deeper)
  · exact .fail (fun _ => ⟨rfl, rfl, rfl⟩) ErrorCode.noConfusion fun token _ =>
      TagSet.contains_empty token.tag

omit deeper in
/-- A jump that is one word. -/
theorem jump (kind : NodeKind) :
    grammar.Justifies context before (fun _ _ => True) (liftM (Build.leaf kind)) := by
  rw [Build.leaf, liftM_bind]
  exact .bind .advance fun _ => .addNode _ _

/-- A statement. -/
theorem statement : grammar.Justifies context before (fun _ _ => True) grammar.statement := by
  have known {tag : Tag} {reading : Parse NodeId}
      (reads : grammar.Justifies context (fun token => token.tag = tag) (fun _ _ => True) reading) :
      grammar.Justifies context (fun token => before token ∧ token.tag = tag) (fun _ _ => True)
        reading :=
    reads.imp (fun _ both => both.2) fun _ _ ends => ends
  refine .bind .currentTag fun tag => ?_
  split
  · exact method deeper
  · exact method deeper
  · exact exportedMethod deeper
  · exact known (classDeclaration deeper)
  · exact known (ifStatement deeper)
  · exact known (unlessStatement deeper)
  · exact known (caseStatement deeper)
  · exact known (whileLoop deeper)
  · exact known (untilLoop deeper)
  · exact known (forLoop deeper)
  · exact known (beginBlock deeper)
  · exact returnJump deeper
  · exact jump _
  · exact jump _
  · exact raiseJump deeper
  · exact yieldJump deeper
  · exact plainStatement deeper

/-- Whatever a request reads, the errors are justified. -/
theorem reading (request : Request) : grammar.JustifiesAny [] (grammar.reading request) := by
  cases request with
  | statement => exact statement deeper
  | expression least => exact expressionFrom deeper least
  | operand => exact operand deeper

end Deeper

/-- Refusing to go deeper fails with an error that complains about no token. -/
theorem refuse (limit : Nat) : grammar.JustifiesAny [] (Grammar.refuse limit) := by
  intro start tokens prepared _
  obtain ⟨taken, rest, proceeds⟩ := Parser.Proceeds.of_quiet (Build.isQuiet_skipToEnd start)
    (.refl _) prepared.ready.pending
  refine Parse.outcome_current.mpr (.bind (.lift (Parser.outcome_onCursor.mpr (.throw
    ⟨taken, rest, proceeds, .of_fresh nofun ErrorCode.noConfusion⟩))))

end Justifies

/-- At every level the errors are justified. -/
theorem justifiesDeeper_level (options : ParseOptions) (soft : SoftNames) (rounds levels : Nat) :
    (level options soft rounds levels).JustifiesDeeper := by
  induction levels with
  | zero => exact fun _ => Justifies.refuse options.maxDepth
  | succ levels ih =>
    intro request
    show (level options soft rounds (levels + 1)).JustifiesAny []
      (descend options soft rounds (levels + 1) request)
    rw [descend_succ]
    exact Justifies.reading ih request

end Grammar

end Vibescript
