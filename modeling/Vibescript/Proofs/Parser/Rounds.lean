import Vibescript.Proofs.Parser.Steady

/-!
# Productions with more rounds

Two grammars whose loops have different numbers of rounds read the same, as long as both have
enough for the source text: every round of every loop consumes a token or a directive, or leaves
the loop.
-/
namespace Vibescript

namespace Grammar

open Build Parse Cursor

variable {first second : Grammar} {rounds : Nat} {tags : Tag → Prop}

/-- Two grammars that differ in the number of rounds only, both with enough of them. -/
structure Twins (first second : Grammar) (rounds : Nat) : Prop where
  /-- How to parse. -/
  options : first.options = second.options
  /-- The words that mean something in some places only. -/
  soft : first.soft = second.soft
  /-- The first has enough rounds. -/
  enough : rounds ≤ first.rounds
  /-- The second has enough rounds. -/
  enoughToo : rounds ≤ second.rounds
  /-- What is one level deeper is steady, and consumes something when it succeeds. -/
  deeper : ∀ request : Request, Steady rounds (fun _ => True) (fun _ => True)
    (first.deeper request) (second.deeper request)
  /-- A statement that begins with a string literal consumes its first token, or it fails at the
  end. -/
  opens : ∀ parser : Parser, parser.Calm rounds → parser.cursor.current.tag = .stringOpen →
    (first.deeper .statement).Outcome parser (fun _ _ => True) fun _ final =>
      final.cursor.isAtEnd = true ∨ parser.cursor.position < final.cursor.position

variable {α : Type} {last : α → Prop}

/-- The type that an identifier names, before other readings. -/
theorem steady_namedType {name : Name} {leftNext rightNext : TypeReference × Bool → Parse α}
    (next : ∀ answer, Steady rounds tags last (leftNext answer) (rightNext answer)) :
    Steady rounds tags last (liftM (namedType name) >>= leftNext)
      (liftM (namedType name) >>= rightNext) := by
  rw [namedType, liftM_bind, bind_assoc, bind_assoc]
  refine .cursor fun cursor => ?_
  dsimp only
  split
  · split
    · exact next _
    · rw [liftM_bind, bind_assoc, bind_assoc]
      exact .intern fun _ => next _
  · exact next _

/-- A type name. -/
theorem steady_typeName : Steady rounds tags (fun _ => True) typeName typeName := by
  refine .current fun token _ => ?_
  obtain ⟨kind, span⟩ := token
  have ends (reference : TypeReference × Bool) {tag : Tag} (whole : tag.isWhole = true) :
      Steady rounds (fun current => current = tag) (fun _ => True)
        (do
          let _ ← liftM advance
          let isMarkedAfter ← liftM (eat .question)
          liftM (close (.typeName reference.1 (reference.2 || isMarkedAfter)) span))
        (do
          let _ ← liftM advance
          let isMarkedAfter ← liftM (eat .question)
          liftM (close (.typeName reference.1 (reference.2 || isMarkedAfter)) span)) :=
    .andThen (.advance fun _ same => same ▸ whole) fun _ => .bind (.eat rfl) fun _ =>
      .close (by nofun) _
  dsimp only
  split
  · exact steady_namedType fun reference => ends reference rfl
  · exact ends _ rfl
  · exact ends _ rfl
  · exact .fail

/-- The constant in parentheses that names the errors to rescue. -/
theorem steady_rescueFilter? :
    Steady rounds tags (fun _ => False) rescueFilter? rescueFilter? := by
  refine @Steady.step _ _ _ _ _ _ _ _ (fun found tag => found = true → tag = .leftParen)
    (fun parser calm _ => ?_) fun found => ?_
  · obtain ⟨leads, _, tokens, pending, tells⟩ :=
      calm.asks fun source tokens => @Lookahead.tells_isRescueFilter source tokens []
    exact ⟨leads, fun yes => pending.tag.trans (tells yes).1⟩
  · cases found with
    | true =>
      refine .bind (.advance fun _ same => same rfl ▸ rfl) fun _ => ?_
      exact .bind .expectConstant fun _ => .bind (.expect rfl) fun _ => .pure _
    | false => exact .pure _

/-- The name of a method. -/
theorem steady_methodName : Steady rounds tags (fun _ => False) methodName methodName := by
  intro parser calm _
  obtain ⟨leads, current, tokens, pending, tells⟩ :=
    calm.asks fun source tokens => @Lookahead.tells_isSelfQualifier source tokens []
  have named (isSingleton : Bool) : Steady rounds (fun _ => True) (fun _ => False)
      (Parse.expectIdentifier .method >>= fun found =>
        (pure ⟨isSingleton, found.1⟩ : Parse MethodName))
      (Parse.expectIdentifier .method >>= fun found => pure ⟨isSingleton, found.1⟩) :=
    .bind .expectIdentifier fun _ => .pure _
  refine .step ?_
  cases found : (Lookahead.isSelfQualifier parser.cursor).1 with
  | false =>
    have same : (ask Lookahead.isSelfQualifier parser).1 = false := found
    rw [same]
    exact (named false).later calm leads trivial
  | true =>
    have same : (ask Lookahead.isSelfQualifier parser).1 = true := found
    obtain ⟨isSelf, isDot⟩ := tells found
    obtain ⟨qualified, _, dot⟩ := leads.calm.pastFirst pending isSelf rfl isDot
    have rest : Steady rounds (fun tag => tag = .dot) (fun _ => False)
        (liftM advance >>= fun _ => Parse.expectIdentifier .method >>= fun found =>
          (pure ⟨true, found.1⟩ : Parse MethodName))
        (liftM advance >>= fun _ => Parse.expectIdentifier .method >>= fun found =>
          pure ⟨true, found.1⟩) :=
      .bind (.advance fun _ same => same ▸ rfl) fun _ => named true
    rw [same]
    exact .step (rest.later calm (leads.trans qualified) dot)

/-- An operator between operands lies outside string literals. -/
theorem isWhole_of_infix {tag : Tag} {op : InfixOp} (found : InfixOp.ofTag? tag = some op) :
    tag.isWhole = true := by
  unfold InfixOp.ofTag? at found
  split at found <;> first | rfl | contradiction

/-- A token that is no piece of a string literal and does not close one lies outside. -/
theorem isQuoted_eq_false {token : Token Name}
    (content : ∀ run, token.kind ≠ .stringContent run)
    (escape : ∀ char, token.kind ≠ .stringEscape char) (close : token.kind ≠ .stringClose) :
    token.tag.isQuoted = false := by
  obtain ⟨kind, span⟩ := token
  cases kind with
  | fixed tag spelled => exact Tag.isQuoted_of_spelling spelled
  | stringContent run => exact absurd rfl (content run)
  | stringEscape char => exact absurd rfl (escape char)
  | stringClose => exact absurd rfl close
  | _ => rfl

/-- A construct is read, or it is reported and abandoned when it fails. -/
def attemptStep (grammar : Grammar) (reading : Parse NodeId) (skip : Cursor → α × Cursor)
    (ids : Array NodeId) : Build (ForInStep (Array NodeId)) := do
  let start ← checkpoint
  match ← reading.run with
  | .ok id => return .yield (ids.push id)
  | .error error =>
    grammar.report error
    let _ ← onCursor skip
    return .yield (ids.push (← abandon start))

/-- An attempt at a construct as a reading. -/
theorem liftM_attemptStep (grammar : Grammar) (reading : Parse NodeId)
    (skip : Cursor → α × Cursor) (ids : Array NodeId) :
    (liftM (grammar.attemptStep reading skip ids) : Parse (ForInStep (Array NodeId))) =
      (liftM checkpoint >>= fun start =>
        liftM reading.run >>= fun result =>
          match result with
          | .ok id => pure (.yield (ids.push id))
          | .error error =>
            liftM (grammar.report error) >>= fun _ => do
              let _ ← liftM (onCursor skip)
              return .yield (ids.push (← liftM (abandon start)))) := by
  simp only [attemptStep, liftM_bind]
  congr 1
  funext start
  congr 1
  funext result
  cases result <;> simp only [liftM_bind, liftM_pure]

/-- What follows the reading of a construct. -/
def settle (grammar : Grammar) (skip : Cursor → α × Cursor) (ids : Array NodeId)
    (start : Checkpoint) : Except ParseError NodeId → Build (ForInStep (Array NodeId))
  | .ok id => return .yield (ids.push id)
  | .error error => do
    grammar.report error
    let _ ← onCursor skip
    return .yield (ids.push (← abandon start))

/-- A construct is read, and what follows depends on how that went. -/
theorem attemptStep_eq (grammar : Grammar) (reading : Parse NodeId) (skip : Cursor → α × Cursor)
    (ids : Array NodeId) (parser : Parser) :
    grammar.attemptStep reading skip ids parser =
      grammar.settle skip ids parser.checkpoint (reading.run parser).1 (reading.run parser).2 := rfl

/-- A node of a single token. -/
theorem steady_leaf {kind : NodeKind} {tag : Tag} (plain : kind ≠ .error)
    (whole : tag.isWhole = true) :
    Steady rounds (fun current => current = tag) (fun _ => True) (liftM (leaf kind))
      (liftM (leaf kind)) := by
  rw [leaf, liftM_bind]
  exact .andThen (.advance fun _ same => same ▸ whole) fun _ => .addNode plain _

/-- Interning texts one after another. -/
theorem steady_internAll (texts : List String) :
    Steady rounds tags (fun _ => False) (liftM (texts.mapM intern)) (liftM (texts.mapM intern)) := by
  induction texts with
  | nil => exact .pure _
  | cons text texts ih =>
    rw [List.mapM_cons, liftM_bind]
    refine .intern fun _ => ?_
    rw [liftM_bind]
    exact .bind ih fun _ => .pure _

/-- A claimed directive becomes a node. -/
theorem steady_directive (token : Token Name) :
    Steady rounds tags (fun _ => False) (liftM (directive token)) (liftM (directive token)) := by
  unfold directive
  split
  · exact .addNode (by nofun) _
  · rw [liftM_bind]
    refine .cursor fun cursor => ?_
    rw [liftM_bind]
    refine .bind (steady_internAll _) fun names => ?_
    rw [liftM_bind]
    exact .bind (.addNames _) fun _ => .addNode (by nofun) _

/-- A directive before the current token is claimed, or none. -/
theorem steady_takeDirective :
    Steady rounds tags (fun claimed => claimed.isSome = true)
      (liftM (onCursor Cursor.takeDirective)) (liftM (onCursor Cursor.takeDirective)) := by
  refine .lift fun parser calm _ => ?_
  have current : parser.cursor.takeDirective.2.current = parser.cursor.current := by
    unfold Cursor.takeDirective
    split
    · rfl
    · split <;> rfl
  have outside : parser.cursor.takeDirective.2.current.tag.isQuoted = false := by
    rw [current]
    exact calm.stands.tag
  refine ⟨calm.withCursor parser.cursor.onward_takeDirective outside, fun claimed => ?_⟩
  change parser.cursor.takeDirective.1.isSome = true at claimed
  obtain ⟨tokens, pending, _⟩ := calm.stands.pending
  rcases moves_takeDirective pending with ⟨none, _⟩ | ⟨mark, rest, _, _, moves⟩
  · rw [none] at claimed
    contradiction
  · have counted := moves.position
    rw [List.length_singleton] at counted
    exact Nat.lt_of_lt_of_eq (Nat.lt_succ_self _) counted.symm

/-- The rest of the text is skipped. -/
theorem steady_skipToEnd :
    Steady rounds tags (fun _ => False) (liftM skipToEnd) (liftM skipToEnd) := by
  refine .lift fun parser calm _ => ⟨calm.withCursor (isQuiet_skipToEnd parser).onward ?_, nofun⟩
  rw [beq_iff_eq.mp (isAtEnd_skipToEnd parser.cursor)]
  rfl

/-- A round of a body in which the statement is one reading. -/
theorem liftM_bodyStep_statementStep (grammar : Grammar) (terminators : TagSet)
    (statements : Array NodeId) :
    (liftM (grammar.bodyStep terminators statements) : Parse (ForInStep (Array NodeId))) =
      (liftM grammar.shouldHalt >>= fun halts =>
        if halts = true then liftM skipToEnd >>= fun _ => pure (.done statements)
        else
          liftM (onCursor Cursor.takeDirective) >>= fun claimed =>
            match claimed with
            | some token => do return .yield (statements.push (← liftM (directive token)))
            | none =>
              liftM currentTag >>= fun tag =>
                if (tag == .endOfInput || terminators.contains tag) = true then
                  pure (.done statements)
                else liftM (grammar.statementStep statements)) := by
  have attempt : grammar.statementStep statements = grammar.attemptStep
      (grammar.deeper .statement) (fun cursor => cursor.synchronize .statementBoundary)
      statements := rfl
  rw [attempt, liftM_attemptStep]
  exact liftM_bodyStep grammar terminators statements

/-- No string literal goes on before or after a token that starts a member. -/
theorem startsMember_plain {grammar : Grammar} {token : Token Name}
    (starts : grammar.startsMember token = true) :
    token.tag.isQuoted = false ∧ token.tag.quotes = false := by
  rw [startsMember, Bool.or_eq_true] at starts
  rcases starts with boundary | named
  · revert boundary
    cases token.tag <;> decide
  · split at named
    · next name same =>
      have tag : token.tag = .identifier := congrArg TokenKind.tag same
      rw [tag]
      exact ⟨rfl, rfl⟩
    · contradiction

/-- Skipping after a member failed stops outside string literals, and so does a forced step. -/
theorem outside_skipMember (grammar : Grammar) (start : Parser) {failed : Parser}
    (stands : failed.cursor.Reaches rounds 0) :
    (failed.cursor.skipUntil fun cursor =>
      grammar.startsMember cursor.current).current.tag.isQuoted = false ∧
    (start.stepFrom (failed.withCursor (failed.cursor.skipUntil fun cursor =>
      grammar.startsMember cursor.current))).cursor.current.tag.isQuoted = false := by
  have onward := failed.cursor.onward_skipUntil fun cursor => grammar.startsMember cursor.current
  have stops := failed.cursor.stops_skipUntil fun cursor => grammar.startsMember cursor.current
  have reached := stands.onward onward
  generalize (failed.cursor.skipUntil fun cursor => grammar.startsMember cursor.current) =
    skipped at stops reached
  have outside : skipped.current.tag.isQuoted = false := by
    rcases stops with atEnd | starts
    · rw [beq_iff_eq.mp atEnd]
      rfl
    · exact (startsMember_plain starts).1
  refine ⟨outside, ?_⟩
  rw [Parser.cursor_stepFrom]
  split
  · next forced =>
    rw [Bool.and_eq_true, Bool.not_eq_true'] at forced
    have starts := stops.resolve_left (by
      show ¬skipped.isAtEnd = true
      have notEnd : skipped.isAtEnd = false := forced.2
      rw [notEnd]
      nofun)
    exact reached.outside_advance forced.2 (startsMember_plain starts).2
  · exact outside

/-- A round of a class in which the member is one reading. -/
theorem liftM_memberStep_attemptStep (grammar : Grammar) (members : Array NodeId) :
    (liftM (grammar.memberStep members) : Parse (ForInStep (Array NodeId))) =
      (liftM grammar.shouldHalt >>= fun halts =>
        if halts = true then liftM skipToEnd >>= fun _ => pure (.done members)
        else
          liftM currentTag >>= fun tag =>
            if (tag == .kwEnd || tag == .endOfInput) = true then pure (.done members)
            else
              liftM (grammar.attemptStep grammar.classMember (fun cursor =>
                ((), cursor.skipUntil fun cursor => grammar.startsMember cursor.current))
                members)) := by
  rw [liftM_attemptStep]
  exact liftM_memberStep grammar members

namespace Twins

variable (twins : Twins first second rounds)

include twins

/-- An expression. -/
theorem expression :
    Steady rounds tags (fun _ => True) first.expression second.expression :=
  (twins.deeper _).anywhere

/-- A loop whose rounds consume something. -/
theorem loop {σ : Type} {left right : σ → Parse (ForInStep σ)} {start : σ}
    (round : ∀ state, Steady rounds (fun _ => True) goesOn (left state) (right state)) :
    Steady rounds tags (fun _ => False) (first.loop start left) (second.loop start right) :=
  .loop twins.enough twins.enoughToo round

/-- One or more items. -/
theorem oneOrMore {separator : Tag} (whole : separator.isWhole = true) {left right : Parse α}
    (item : Steady rounds (fun _ => True) (fun _ => True) left right) :
    Steady rounds tags (fun _ => False) (first.oneOrMore separator left)
      (second.oneOrMore separator right) :=
  twins.loop fun _ => .andThen item fun _ => .bind (.eat whole) fun _ => .pure _

/-- Items up to a closing token. -/
theorem itemsUntil {closer : Tag} {left right : Parse α}
    (item : Steady rounds (fun _ => True) (fun _ => True) left right) :
    Steady rounds tags (fun _ => False) (first.itemsUntil closer left)
      (second.itemsUntil closer right) := by
  refine twins.loop fun items => .check (.done _) ?_
  exact .andThen item fun _ => .bind (.eat rfl) fun _ => .pure _

/-- The pieces of a string literal, which end outside the literal or fail there. -/
theorem pieces {parser : Parser} (stands : parser.cursor.Reaches rounds 0)
    (errors : parser.arena.ErrorsBefore parser.cursor.lexer.length) :
    (first.loop "" pieceStep).Same (second.loop "" pieceStep) parser
      (fun _ final => parser.cursor.Onward final.cursor ∧ final.Calm rounds)
      fun _ final => parser.cursor.Onward final.cursor ∧ final.Calm rounds := by
  refine @Parse.Same.repeatWithin _ pieceStep pieceStep
    (fun now => now.cursor.Reaches rounds 0 ∧ now.arena.ErrorsBefore now.cursor.lexer.length)
    (fun _ => Parser.Calm rounds) (Parser.Calm rounds) ?_ _ _ _ twins.enough twins.enoughToo "" parser
    ⟨stands, errors⟩ stands
  intro text now ⟨stands, errors⟩
  have onward := now.cursor.onward_advance
  have ahead (notEnd : now.cursor.isAtEnd = false) :
      (now.cursor.advance.2.Reaches rounds 0 ∧
        now.arena.ErrorsBefore now.cursor.advance.2.lexer.length) ∧
      now.cursor.position < now.cursor.advance.2.position := by
    obtain ⟨reached, moved⟩ := Parser.beyond_advance stands notEnd
    refine ⟨⟨reached, ?_⟩, moved⟩
    rw [stands.length_eq onward]
    exact errors
  refine ⟨rfl, Parse.outcome_cursor.mpr ?_⟩
  cases same : now.cursor.current.kind with
  | stringContent run =>
    have notEnd := Parser.notAtEnd (congrArg TokenKind.tag same) Tag.noConfusion
    exact .bind (.lift (Parser.outcome_onCursor.mpr (.pure ⟨onward, ahead notEnd⟩)))
  | stringEscape char =>
    have notEnd := Parser.notAtEnd (congrArg TokenKind.tag same) Tag.noConfusion
    exact .bind (.lift (Parser.outcome_onCursor.mpr (.pure ⟨onward, ahead notEnd⟩)))
  | stringClose =>
    have closes : now.cursor.current.tag = .stringClose := congrArg TokenKind.tag same
    have notEnd := Parser.notAtEnd closes Tag.noConfusion
    obtain ⟨⟨reached, kept⟩, _⟩ := ahead notEnd
    have outside := stands.outside_advance notEnd (by rw [closes]; rfl)
    refine .bind (.lift (Parser.outcome_onCursor.mpr (.pure ⟨onward, ?_⟩)))
    exact ⟨⟨reached.pending, reached.floor, outside⟩, kept⟩
  | _ =>
    have outside : now.cursor.current.tag.isQuoted = false :=
      isQuoted_eq_false (by rw [same]; nofun) (by rw [same]; nofun) (by rw [same]; nofun)
    refine Parse.outcome_unexpected.mpr (.throw ⟨.refl _, ?_⟩)
    exact ⟨⟨stands.pending, stands.floor, outside⟩, errors⟩

/-- A string literal. -/
theorem stringLiteral :
    Steady rounds tags (fun _ => True) first.stringLiteral second.stringLiteral := by
  intro parser calm _
  have opening : (Parse.expect .stringOpen .string).Same (Parse.expect .stringOpen .string) parser
      (fun _ now => (parser.cursor.Onward now.cursor ∧ now.cursor.Reaches rounds 0) ∧
        now.arena.ErrorsBefore now.cursor.lexer.length ∧
        parser.cursor.position < now.cursor.position)
      fun _ final => parser.Leads rounds final := by
    refine ⟨rfl, Parse.outcome_check.mpr ?_⟩
    by_cases found : parser.cursor.check .stringOpen = true
    · rw [if_pos found]
      have notEnd := Parser.notAtEnd (beq_iff_eq.mp found) Tag.noConfusion
      have onward := parser.cursor.onward_advance
      obtain ⟨reached, moved⟩ := Parser.beyond_advance calm.stands.reaches notEnd
      refine .lift (Parser.outcome_onCursor.mpr ⟨⟨onward, reached⟩, ?_, moved⟩)
      show parser.arena.ErrorsBefore parser.cursor.advance.2.lexer.length
      rw [calm.stands.length_eq onward]
      exact calm.errors
    · rw [if_neg found]
      exact Parse.outcome_unexpected.mpr (.throw calm.leads)
  rw [stringLiteral_eq, stringLiteral_eq]
  refine opening.bind fun token now ⟨⟨onward, reached⟩, errors, moved⟩ => ?_
  have pieces := (twins.pieces reached errors).mono
    (fun _ _ holds => holds) fun _ final ⟨further, ended⟩ =>
      (⟨ended, onward.trans further⟩ : parser.Leads rounds final)
  refine pieces.bind fun value middle ⟨further, ended⟩ => ?_
  have leads : parser.Leads rounds middle := ⟨ended, onward.trans further⟩
  have past : parser.cursor.position < middle.cursor.position :=
    Nat.lt_of_lt_of_le moved (reached.position_le further)
  have named : Steady rounds (fun _ => True) (fun _ => False)
      (liftM (intern value) >>= fun name => liftM (close (.string name) token.span))
      (liftM (intern value) >>= fun name => liftM (close (.string name) token.span)) :=
    .intern fun name => .close (by nofun) _
  refine (named middle ended trivial).mono ?_ fun _ _ last => leads.trans last
  intro id final ⟨last, _⟩
  exact ⟨leads.trans last, fun _ => Nat.lt_of_lt_of_le past (ended.stands.position_le last.onward)⟩

/-- An array literal. -/
theorem arrayLiteral : Steady rounds (fun tag => tag = .leftBracket) (fun _ => True)
    first.arrayLiteral second.arrayLiteral :=
  .andThen (.advance fun _ same => same ▸ rfl) fun _ => .bind (twins.itemsUntil twins.expression)
    fun _ => .bind (.expectCloser rfl) fun _ => .bind (.addList _) fun _ => .close (by nofun) _

/-- An entry of a hash literal. -/
theorem hashEntry : Steady rounds tags (fun _ => True) first.hashEntry second.hashEntry := by
  refine .current fun opening _ => ?_
  have value : ∀ key, Steady rounds (fun _ => True) (fun _ => False)
      (do
        let _ ← splitSymbol
        let _ ← expect .colon .hash
        let value ← first.expression
        close (.hashEntry key value) opening.span)
      (do
        let _ ← splitSymbol
        let _ ← expect .colon .hash
        let value ← second.expression
        close (.hashEntry key value) opening.span) := fun key =>
    .bind .splitSymbol fun _ => .bind (.expect rfl) fun _ => .bind twins.expression fun _ =>
      .close (by nofun) _
  dsimp only
  split
  · next name same =>
    have tag : opening.tag = .identifier := congrArg TokenKind.tag same
    rw [tag]
    exact .andThen (.advance fun _ same => same ▸ rfl) fun _ => .bind (.addNode (by nofun) _) value
  · exact .andThen twins.stringLiteral value
  · exact .fail

/-- A hash literal. -/
theorem hashLiteral : Steady rounds (fun tag => tag = .leftBrace) (fun _ => True)
    first.hashLiteral second.hashLiteral :=
  .andThen (.advance fun _ same => same ▸ rfl) fun _ => .bind (twins.itemsUntil twins.hashEntry)
    fun _ => .bind (.expectCloser rfl) fun _ => .bind (.addList _) fun _ => .close (by nofun) _

/-- An expression in parentheses. -/
theorem parenthesized : Steady rounds (fun tag => tag = .leftParen) (fun _ => True)
    first.parenthesized second.parenthesized :=
  .andThen (.advance fun _ same => same ▸ rfl) fun _ => .bind twins.expression fun _ =>
    .bind (.expect rfl) fun _ => .close (by nofun) _

/-- What follows the key of an argument. -/
theorem keywordValue (name : Name) (span : Span) :
    Steady rounds (fun tag => tag = .colon ∨ tag = .symbol) (fun _ => True)
      (do
        let _ ← liftM splitSymbol
        let _ ← liftM advance
        let key ← liftM (addNode (.identifier name) span)
        let value ← first.expression
        liftM (close (.keywordArgument key value) span))
      (do
        let _ ← liftM splitSymbol
        let _ ← liftM advance
        let key ← liftM (addNode (.identifier name) span)
        let value ← second.expression
        liftM (close (.keywordArgument key value) span)) := by
  refine @Steady.step _ _ _ _ _ _ _ _ (fun _ tag => tag = .colon) (fun parser calm colon => ?_)
    fun _ => ?_
  · obtain ⟨tokens, pending, _⟩ := calm.stands.pending
    have outside := isQuoted_splitSymbol calm.stands.tag
    exact ⟨calm.withCursor parser.cursor.onward_splitSymbol outside,
      Cursor.tag_splitSymbol pending colon⟩
  · exact .andThen (.advance fun _ same => same ▸ rfl) fun _ => .bind (.addNode (by nofun) _)
      fun _ => .bind twins.expression fun _ => .close (by nofun) _

/-- An argument. -/
theorem argument : Steady rounds tags (fun _ => True) first.argument second.argument := by
  refine .current fun token _ => ?_
  split
  · next name isKey =>
    intro parser calm stands
    obtain ⟨leads, current, tokens, pending, tells⟩ :=
      calm.asks fun source tokens => @Lookahead.tells_isKeyword source tokens []
    refine .step ?_
    cases found : (Lookahead.isKeyword parser.cursor).1 with
    | false =>
      have same : (ask Lookahead.isKeyword parser).1 = false := found
      rw [same]
      exact (twins.deeper _).later calm leads trivial
    | true =>
      have same : (ask Lookahead.isKeyword parser).1 = true := found
      have isName : (Lookahead.isKeyword parser.cursor).2.current.tag = .identifier := by
        rw [current, stands]
        exact congrArg TokenKind.tag isKey
      rw [found, eq_comm, Bool.or_eq_true, beq_iff_eq, beq_iff_eq] at tells
      obtain ⟨keyed, _, colon⟩ := leads.calm.pastFirst pending (pending.tag.symm.trans isName) rfl rfl
      rw [same]
      exact .step ((twins.keywordValue name token.span).later calm (leads.trans keyed)
        (colon ▸ tells))
  · exact twins.expression

/-- Arguments in parentheses. -/
theorem arguments : Steady rounds tags (fun _ => True) first.arguments second.arguments :=
  .andThen (.expect rfl) fun _ => .bind (twins.itemsUntil twins.argument) fun _ =>
    .bind (.expectCloser rfl) fun _ => .addList _

/-- The names between the bars of a block. -/
theorem blockParameters :
    Steady rounds tags (fun _ => False) first.blockParameters second.blockParameters := by
  refine .bind (.eat rfl) fun found => ?_
  dsimp only
  split
  · exact .bind (twins.oneOrMore rfl .expectIdentifier) fun _ => .bind (.expect rfl) fun _ =>
      .addNames _
  · exact .addNames _

/-- Both report errors alike. -/
theorem report_eq : first.report = second.report := by
  funext error
  rw [report, report, twins.options]

/-- Both halt alike. -/
theorem shouldHalt_eq : first.shouldHalt = second.shouldHalt := by
  rw [shouldHalt, shouldHalt, twins.options]

/-- An error that is reported before other steps. -/
theorem reportFirst {code : ErrorCode} {expected : TagSet} {dress : ParseError → ParseError}
    {left right : Parse α} (next : Steady rounds tags last left right) :
    Steady rounds tags last
      (liftM (unexpected code expected) >>= fun error =>
        liftM (first.report (dress error)) >>= fun _ => left)
      (liftM (unexpected code expected) >>= fun error =>
        liftM (second.report (dress error)) >>= fun _ => right) := by
  rw [twins.report_eq]
  refine .builds (fun _ => ⟨rfl, fun _ _ found => found⟩) fun error => .builds (fun parser => ?_)
    fun _ => next
  have same : (second.report (dress error) parser).2 =
    parser.reported second.options.recovery (dress error) := rfl
  rw [same, Parser.cursor_reported, Parser.arena_reported]
  exact ⟨rfl, fun _ _ found => found⟩

/-- A construct that is read, or that is reported and abandoned when it fails. -/
theorem attemptStep {parser : Parser} {left right : Parse NodeId} {skip : Cursor → α × Cursor}
    {ids : Array NodeId} (calm : parser.Calm rounds) (notEnd : parser.cursor.isAtEnd = false)
    (skips : ∀ cursor : Cursor, cursor.Onward (skip cursor).2)
    (reads : left.Same right parser
      (fun _ final => parser.Leads rounds final ∧ parser.cursor.position < final.cursor.position)
      fun _ failed => parser.Leads rounds failed ∧ (parser.stepFrom (failed.withCursor
        (skip failed.cursor).2)).cursor.current.tag.isQuoted = false) :
    Parse.Same (liftM (first.attemptStep left skip ids)) (liftM (second.attemptStep right skip ids))
      parser
      (fun result final => parser.Leads rounds final ∧
        (goesOn result → parser.cursor.position < final.cursor.position))
      fun _ final => parser.Leads rounds final := by
  obtain ⟨same, outcome⟩ := reads
  constructor
  · rw [run_lift, run_lift, Grammar.attemptStep, Grammar.attemptStep, Build.run_bind,
      Build.run_bind, Build.run_bind, Build.run_bind, twins.report_eq]
    have equal : left.run (checkpoint parser).2 = right.run (checkpoint parser).2 := same
    rw [equal]
  · refine .lift (Parser.outcome_checkpoint.mpr (.bind (Build.Outcome.mono outcome
      fun result after holds => ?_)))
    cases result with
    | ok id => exact .pure ⟨holds.1, fun _ => holds.2⟩
    | error error =>
      obtain ⟨leads, outside⟩ := holds
      have reported := leads.reported first.options.recovery error
      have errors := reported.calm.errors
      rw [calm.stands.length_eq reported.onward] at errors
      rw [Parser.cursor_stepFrom] at outside
      refine Parser.outcome_report.mpr (.bind (Parser.outcome_onCursor.mpr (.bind ?_)))
      obtain ⟨ends, moved⟩ := calm.abandoned notEnd
        ((after.reported first.options.recovery error).withCursor
          (skip (after.reported first.options.recovery error).cursor).2)
        (reported.onward.trans (skips _)) errors (by
          rw [Parser.cursor_stepFrom, Parser.cursor_reported]
          exact outside)
      exact ⟨ends, fun _ => moved⟩

/-- A statement, or what takes its place when it fails. -/
theorem statementStep (ids : Array NodeId) :
    Steady rounds (fun tag => tag ≠ .endOfInput) goesOn (liftM (first.statementStep ids))
      (liftM (second.statementStep ids)) := by
  intro parser calm real
  obtain ⟨same, outcome⟩ := twins.deeper .statement parser calm trivial
  have opened : (first.deeper .statement).Outcome parser (fun _ _ => True) fun _ failed =>
      parser.cursor.current.tag = .stringOpen →
        failed.cursor.isAtEnd = true ∨ parser.cursor.position < failed.cursor.position := by
    by_cases opens : parser.cursor.current.tag = .stringOpen
    · exact (twins.opens parser calm opens).mono (fun _ _ _ => trivial) fun _ _ holds _ => holds
    · exact outcome.mono (fun _ _ _ => trivial) fun _ _ _ same => absurd same opens
  refine twins.attemptStep calm (beq_eq_false_iff_ne.mpr real)
    (fun cursor => cursor.onward_synchronize _) ⟨same, (outcome.and opened).mono ?_ ?_⟩
  · intro id final ⟨⟨leads, moved⟩, _⟩
    exact ⟨leads, moved trivial⟩
  · intro error failed ⟨leads, passed⟩
    exact ⟨leads, Parser.outside_stepFrom calm.stands.reaches leads.onward calm.stands.tag passed⟩

/-- A round of a body. -/
theorem bodyStep (terminators : TagSet) (statements : Array NodeId) :
    Steady rounds (fun _ => True) goesOn (liftM (first.bodyStep terminators statements))
      (liftM (second.bodyStep terminators statements)) := by
  rw [liftM_bodyStep_statementStep, liftM_bodyStep_statementStep, twins.shouldHalt_eq]
  refine .builds (fun _ => ⟨rfl, fun _ _ found => found⟩) fun halts => .choose ?_ ?_
  · exact .bind steady_skipToEnd fun _ => .done _
  · refine @Steady.bindWith _ _ _ _ _ _ _ _ _ _ (fun claimed result =>
      claimed.isSome = false ∧ goesOn result) steady_takeDirective (fun claimed => ?_) ?_
    · cases claimed with
      | some token =>
        exact .imp (.bind (steady_directive token) fun _ => .pure _) (fun _ _ => trivial) nofun
      | none =>
        refine .imp (.currentTag fun tag _ => ?_) (fun _ holds => holds) fun _ => And.right
        split
        · exact .done _
        · next goesOn =>
          rw [Bool.or_eq_true, not_or, beq_iff_eq] at goesOn
          exact (twins.statementStep statements).imp (fun _ same => same ▸ goesOn.1)
            fun _ holds => holds
    · intro claimed result holds
      cases claimed with
      | some token => exact .inl rfl
      | none => exact .inr ⟨rfl, holds⟩

/-- Statements up to a terminator. -/
theorem body (terminators : TagSet) :
    Steady rounds tags (fun _ => False) (liftM (first.body terminators))
      (liftM (second.body terminators)) := by
  rw [Grammar.body, Grammar.body, liftM_bind, liftM_bind, Grammar.loop, Grammar.loop,
    liftM_repeatWithin, liftM_repeatWithin]
  exact .bind (.loop twins.enough twins.enoughToo fun statements =>
    twins.bodyStep terminators statements) fun _ => .addList _

/-- A block, if one follows. -/
theorem block? : Steady rounds tags (fun _ => False) first.block? second.block? := by
  refine .check ?_ (.pure _)
  exact .bind (.advance fun _ same => same ▸ rfl) fun _ => .bind twins.blockParameters fun _ =>
    .bind (twins.body _) fun _ => .bind .expectEnd fun _ => .bind (.close (by nofun) _) fun _ =>
      .pure _

/-- The arguments and the block of a call. -/
theorem call (receiver : Option NodeId) (method : Name) (start : Span) :
    Steady rounds tags (fun _ => True) (first.call receiver method start)
      (second.call receiver method start) :=
  .andThen twins.arguments fun _ => .bind twins.block? fun _ => .close (by nofun) _

/-- What follows the point after an operand. -/
theorem member (receiver : NodeId) (start : Span) :
    Steady rounds (fun tag => tag = .dot) (fun _ => True) (first.member receiver start)
      (second.member receiver start) := by
  refine .andThen (.advance fun _ same => same ▸ rfl) fun _ => .bind .expectIdentifier fun named => ?_
  exact .check (twins.call _ _ _).still (.bind twins.block? fun _ => .close (by nofun) _)

/-- An index in brackets after an operand. -/
theorem subscript (receiver : NodeId) (start : Span) :
    Steady rounds (fun tag => tag = .leftBracket) (fun _ => True) (first.subscript receiver start)
      (second.subscript receiver start) :=
  .andThen (.advance fun _ same => same ▸ rfl) fun _ => .bind twins.expression fun _ =>
    .bind (.expect rfl) fun _ => .close (by nofun) _

/-- Calls, members and subscripts after an operand. -/
theorem chain (operand : NodeId) :
    Steady rounds tags (fun _ => False) (first.chain operand) (second.chain operand) := by
  refine twins.loop fun left => .nodeSpan fun start => .currentTag fun tag _ => ?_
  split
  · exact .andThen (twins.member left start) fun _ => .pure _
  · exact .andThen (twins.subscript left start) fun _ => .pure _
  · exact .done _

/-- A name, or a call. -/
theorem nameOrCall (name : Name) :
    Steady rounds (fun tag => tag = .identifier) (fun _ => True) (first.nameOrCall name)
      (second.nameOrCall name) := by
  refine .andThen (.advance fun _ same => same ▸ rfl) fun token => ?_
  exact .check (twins.call _ _ _).still (.addNode (by nofun) _)

/-- A primary expression. -/
theorem primary : Steady rounds tags (fun _ => True) first.primary second.primary := by
  refine .current fun token _ => ?_
  obtain ⟨kind, span⟩ := token
  dsimp only
  split
  · exact twins.nameOrCall _
  · exact twins.stringLiteral
  · exact twins.arrayLiteral
  · exact twins.hashLiteral
  · exact twins.parenthesized
  · split
    · next literal found =>
      have plain : literal ≠ .error := by
        rintro rfl
        unfold literal? at found
        split at found <;> cases found
      exact steady_leaf plain (isWhole_of_literal? found)
    · exact .fail

/-- The operand of an operator. -/
theorem operand : Steady rounds tags (fun _ => True) first.operand second.operand := by
  refine .currentTag fun tag _ => ?_
  split
  · next op found =>
    have whole := isWhole_of_unary found
    exact .andThen (.advance fun _ same => same ▸ whole) fun _ => .bind (twins.deeper _) fun _ =>
      .close (by nofun) _
  · exact .andThen twins.primary fun _ => twins.chain _

/-- The operators of an expression with their operands. -/
theorem infixes (least : BindingPower) (operand : NodeId) :
    Steady rounds tags (fun _ => False) (first.loop operand (first.infixStep least))
      (second.loop operand (second.infixStep least)) := by
  refine twins.loop fun left => .currentTag fun tag _ => ?_
  split
  · exact .done _
  · next op found =>
    split
    · exact .done _
    · have whole := isWhole_of_infix found
      have plain (right : NodeId) : infixNode op left right ≠ .error := by
        cases op <;> nofun
      exact .andThen (.advance fun _ same => same ▸ whole) fun _ => .nodeSpan fun start =>
        .bind (twins.deeper _) fun right => .bind (.close (plain right) _) fun _ => .pure _

/-- An expression. -/
theorem expressionFrom (least : BindingPower) :
    Steady rounds tags (fun _ => True) (first.expressionFrom least)
      (second.expressionFrom least) := by
  rw [expressionFrom_eq, expressionFrom_eq]
  exact .andThen twins.operand fun operand => twins.infixes least operand

/-- A type. -/
theorem typeUnion : Steady rounds tags (fun _ => False) first.typeUnion second.typeUnion :=
  .current fun _ _ => .bind (twins.oneOrMore rfl steady_typeName) fun _ => .bind (.addList _)
    fun _ => .close (by nofun) _

/-- The value that a parameter has when it is not given. -/
theorem default? : Steady rounds tags (fun _ => False) first.default? second.default? :=
  .bind (.eat rfl) fun _ => .choose (.bind twins.expression fun _ => .pure _) (.pure _)

/-- A type after a colon. -/
theorem variableType? : Steady rounds tags (fun _ => False) first.variableType?
    second.variableType? :=
  .bind .splitSymbol fun _ => .bind (.eat rfl) fun _ =>
    .choose (.bind twins.typeUnion fun _ => .pure _) (.pure _)

/-- A parameter of the shape that was seen. -/
theorem parameterOf (shape : Lookahead.ParameterShape) :
    Steady rounds (fun tag => tag = shape.firstTag) (fun _ => True) (first.parameterOf shape)
      (second.parameterOf shape) := by
  have whole : shape.firstTag.isWhole = true := by cases shape <;> rfl
  refine .andThen (.advance fun _ same => same ▸ whole) fun token => ?_
  split
  · exact .bind twins.variableType? fun _ => .close (by nofun) _
  · exact .bind .splitSymbol fun _ => .bind (.expect rfl) fun _ => .bind twins.typeUnion fun _ =>
      .bind twins.default? fun _ => .close (by nofun) _
  · exact .bind twins.default? fun _ => .close (by nofun) _
  · exact .throw

/-- A parameter. -/
theorem parameter : Steady rounds tags (fun _ => True) first.parameter second.parameter := by
  refine @Steady.step _ _ _ _ _ _ _ _ (fun found tag => ∀ shape ∈ found, tag = shape.firstTag)
    (fun parser calm _ => ?_) fun found => ?_
  · obtain ⟨leads, current, _⟩ :=
      calm.asks fun source tokens => @Lookahead.tells_parameter? source tokens []
    refine ⟨leads, fun shape answers => ?_⟩
    show (Lookahead.parameter? parser.cursor).2.current.tag = shape.firstTag
    rw [current]
    exact Lookahead.firstTag_parameter? answers
  · cases found with
    | some shape => exact (twins.parameterOf shape).imp (fun _ same => same shape rfl) fun _ => id
    | none => exact .fail

/-- A parameter list. -/
theorem parameters : Steady rounds tags (fun _ => True) first.parameters second.parameters :=
  .andThen (.expect rfl) fun _ => .bind (twins.itemsUntil twins.parameter) fun _ =>
    .bind (.expectCloser rfl) fun _ => .bind (.addList _) fun _ => .close (by nofun) _

/-- A method declaration. -/
theorem method : Steady rounds tags (fun _ => True) first.method second.method := by
  refine .current fun opening _ => .bind (.eat rfl) fun isPrivate => .andThen (.expect rfl)
    fun keyword => .bind steady_methodName fun name => ?_
  have typed (inputs : Option NodeId) : Steady rounds (fun _ => True) (fun _ => False)
      (do
        let returnType ← if ← liftM (eat .arrow) then some <$> first.typeUnion else pure none
        let body ← liftM (first.body .blockEnd)
        expectEnd .kwDef keyword.span .method
        liftM (close (.method isPrivate name inputs returnType body) opening.span))
      (do
        let returnType ← if ← liftM (eat .arrow) then some <$> second.typeUnion else pure none
        let body ← liftM (second.body .blockEnd)
        expectEnd .kwDef keyword.span .method
        liftM (close (.method isPrivate name inputs returnType body) opening.span)) := by
    have ends (returnType : Option NodeId) : Steady rounds (fun _ => True) (fun _ => False)
        (do
          let body ← liftM (first.body .blockEnd)
          expectEnd .kwDef keyword.span .method
          liftM (close (.method isPrivate name inputs returnType body) opening.span))
        (do
          let body ← liftM (second.body .blockEnd)
          expectEnd .kwDef keyword.span .method
          liftM (close (.method isPrivate name inputs returnType body) opening.span)) :=
      .bind (twins.body _) fun _ => .bind .expectEnd fun _ => .close (by nofun) _
    exact .bind (.eat rfl) fun _ => .choose (.bind twins.typeUnion.map ends) (.bind (.pure _) ends)
  exact .check (.bind twins.parameters.map typed) (.bind (.pure _) typed)

/-- An exported method. -/
theorem exportedMethod : Steady rounds (fun tag => tag = .kwExport) (fun _ => True)
    first.exportedMethod second.exportedMethod := by
  refine .andThen (.advance fun _ same => same ▸ rfl) fun _ => .currentTag fun tag _ => ?_
  split
  · exact .bind twins.method fun _ => .close (by nofun) _
  · exact .fail

/-- Accessor declarations. -/
theorem accessors (kind : AccessorKind) : Steady rounds (fun tag => tag = .identifier)
    (fun _ => True) (first.accessors kind) (second.accessors kind) :=
  .andThen (.advance fun _ same => same ▸ rfl) fun _ =>
    .bind (twins.oneOrMore rfl .expectIdentifier) fun _ => .bind (.addNames _) fun _ =>
      .close (by nofun) _

/-- The first value of a class variable. -/
theorem classVariable (name : Name) : Steady rounds (fun tag => tag = .classVariable)
    (fun _ => True) (first.classVariable name) (second.classVariable name) :=
  .andThen (.advance fun _ same => same ▸ rfl) fun _ => .bind (.expect rfl) fun _ =>
    .bind twins.expression fun _ => .close (by nofun) _

/-- A member of a class. -/
theorem classMember : Steady rounds tags (fun _ => True) first.classMember second.classMember := by
  refine .current fun token _ => ?_
  obtain ⟨kind, span⟩ := token
  rw [← twins.soft]
  dsimp only
  split
  · exact twins.method
  · exact twins.method
  · exact twins.classVariable _
  · split
    · exact twins.accessors _
    · exact .fail
  · exact .fail

/-- Both recover at the same tokens. -/
theorem startsMember_eq : first.startsMember = second.startsMember := by
  funext token
  rw [startsMember, startsMember, twins.soft]

/-- A round of a class. -/
theorem memberStep (members : Array NodeId) :
    Steady rounds (fun _ => True) goesOn (liftM (first.memberStep members))
      (liftM (second.memberStep members)) := by
  rw [liftM_memberStep_attemptStep, liftM_memberStep_attemptStep, twins.shouldHalt_eq,
    twins.startsMember_eq]
  refine .builds (fun _ => ⟨rfl, fun _ _ found => found⟩) fun halts => .choose ?_ ?_
  · exact .bind steady_skipToEnd fun _ => .done _
  · refine .currentTag fun tag _ => ?_
    split
    · exact .done _
    · next goesOn =>
      intro parser calm here
      rw [Bool.or_eq_true, not_or, Bool.not_eq_true, Bool.not_eq_true, ← here] at goesOn
      have member : Steady rounds (fun _ => True) (fun _ => True) first.classMember
        second.classMember := twins.classMember
      obtain ⟨same, outcome⟩ := member parser calm trivial
      refine twins.attemptStep calm goesOn.2 (fun cursor => cursor.onward_skipUntil fun cursor =>
        second.startsMember cursor.current) ⟨same, outcome.mono ?_ ?_⟩
      · exact fun _ _ ⟨leads, moved⟩ => ⟨leads, moved trivial⟩
      · exact fun _ failed leads => ⟨leads,
          (outside_skipMember second parser leads.calm.stands.reaches).2⟩

/-- The members of a class. -/
theorem classBody : Steady rounds tags (fun _ => False) (liftM first.classBody)
    (liftM second.classBody) := by
  rw [Grammar.classBody, Grammar.classBody, Grammar.loop, Grammar.loop, liftM_repeatWithin,
    liftM_repeatWithin]
  exact .loop twins.enough twins.enoughToo twins.memberStep

/-- A class declaration. -/
theorem classDeclaration : Steady rounds (fun tag => tag = .kwClass) (fun _ => True)
    first.classDeclaration second.classDeclaration := by
  refine .andThen (.advance fun _ same => same ▸ rfl) fun opening => .bind .expectConstant
    fun name => .bind twins.classBody fun members => ?_
  have ends : Steady rounds (fun _ => True) (fun _ => False)
      (do
        let range ← addList members
        expectEnd .kwClass opening.span .classBody
        close (.classDeclaration name range) opening.span)
      (do
        let range ← addList members
        expectEnd .kwClass opening.span .classBody
        close (.classDeclaration name range) opening.span) :=
    .bind (.addList _) fun _ => .bind .expectEnd fun _ => .close (by nofun) _
  dsimp only
  split
  · exact .cursor fun cursor => twins.reportFirst ends
  · exact ends

/-- The `else` of a conditional. -/
theorem else? : Steady rounds tags (fun _ => False) first.else? second.else? := by
  refine .check ?_ (.pure _)
  exact .bind (.advance fun _ same => same ▸ rfl) fun _ => .bind (twins.body _) fun _ =>
    .bind (.close (by nofun) _) fun _ => .pure _

/-- Clauses that start with a keyword. -/
theorem clauses {keyword : Tag} {left right : Parse NodeId}
    (clause : Steady rounds (fun tag => tag = keyword) (fun _ => True) left right) :
    Steady rounds tags (fun _ => False) (first.clauses keyword left)
      (second.clauses keyword right) :=
  twins.loop fun _ => .check (.andThen clause fun _ => .pure _) (.done _)

/-- `elsif`, a condition and a body. -/
theorem elsifClause : Steady rounds (fun tag => tag = .kwElsif) (fun _ => True) first.elsifClause
    second.elsifClause :=
  .andThen (.advance fun _ same => same ▸ rfl) fun _ => .bind twins.expression fun _ =>
    .bind (twins.body _) fun _ => .close (by nofun) _

/-- `if`, a condition and a body, further conditions, and an alternative. -/
theorem ifStatement : Steady rounds (fun tag => tag = .kwIf) (fun _ => True) first.ifStatement
    second.ifStatement := by
  refine .andThen (.advance fun _ same => same ▸ rfl) fun _ => .bind twins.expression fun _ =>
    .bind (twins.body _) fun _ => .bind (twins.clauses twins.elsifClause) fun _ => ?_
  exact .bind (.addList _) fun _ => .bind twins.else? fun _ => .bind .expectEnd fun _ =>
    .close (by nofun) _

/-- `unless`, a condition and a body, and an alternative. -/
theorem unlessStatement : Steady rounds (fun tag => tag = .kwUnless) (fun _ => True)
    first.unlessStatement second.unlessStatement :=
  .andThen (.advance fun _ same => same ▸ rfl) fun _ => .bind twins.expression fun _ =>
    .bind (twins.body _) fun _ => .bind twins.else? fun _ => .bind .expectEnd fun _ =>
      .close (by nofun) _

/-- `when`, patterns and a body. -/
theorem whenClause : Steady rounds (fun tag => tag = .kwWhen) (fun _ => True) first.whenClause
    second.whenClause :=
  .andThen (.advance fun _ same => same ▸ rfl) fun _ =>
    .bind (twins.oneOrMore rfl twins.expression) fun _ => .bind (.addList _) fun _ =>
      .bind (twins.body _) fun _ => .close (by nofun) _

/-- `case`, a subject, its branches, and an alternative. -/
theorem caseStatement : Steady rounds (fun tag => tag = .kwCase) (fun _ => True)
    first.caseStatement second.caseStatement := by
  refine .andThen (.advance fun _ same => same ▸ rfl) fun opening => .bind twins.expression
    fun subject => .bind (twins.clauses twins.whenClause) fun whens => ?_
  have ends : Steady rounds (fun _ => True) (fun _ => False)
      (do
        let whens ← addList whens
        let otherwise ← first.else?
        expectEnd .kwCase opening.span .caseStatement
        close (.caseStatement subject whens otherwise) opening.span)
      (do
        let whens ← addList whens
        let otherwise ← second.else?
        expectEnd .kwCase opening.span .caseStatement
        close (.caseStatement subject whens otherwise) opening.span) :=
    .bind (.addList _) fun _ => .bind twins.else? fun _ => .bind .expectEnd fun _ =>
      .close (by nofun) _
  dsimp only
  split
  · exact twins.reportFirst ends
  · exact ends

/-- `while`, a condition and a body. -/
theorem whileLoop : Steady rounds (fun tag => tag = .kwWhile) (fun _ => True) first.whileLoop
    second.whileLoop :=
  .andThen (.advance fun _ same => same ▸ rfl) fun _ => .bind twins.expression fun _ =>
    .bind (twins.body _) fun _ => .bind .expectEnd fun _ => .close (by nofun) _

/-- `until`, a condition and a body. -/
theorem untilLoop : Steady rounds (fun tag => tag = .kwUntil) (fun _ => True) first.untilLoop
    second.untilLoop :=
  .andThen (.advance fun _ same => same ▸ rfl) fun _ => .bind twins.expression fun _ =>
    .bind (twins.body _) fun _ => .bind .expectEnd fun _ => .close (by nofun) _

/-- `for`, a variable, what it ranges over, and a body. -/
theorem forLoop : Steady rounds (fun tag => tag = .kwFor) (fun _ => True) first.forLoop
    second.forLoop := by
  refine .andThen (.advance fun _ same => same ▸ rfl) fun _ => .bind .expectIdentifier fun _ =>
    .bind (.addNode (by nofun) _) fun _ => .bind (.expect rfl) fun _ => ?_
  exact .bind twins.expression fun _ => .bind (twins.body _) fun _ => .bind .expectEnd fun _ =>
    .close (by nofun) _

/-- `rescue`, the errors it is for, and a body. -/
theorem rescueClause : Steady rounds (fun tag => tag = .kwRescue) (fun _ => True)
    first.rescueClause second.rescueClause :=
  .andThen (.advance fun _ same => same ▸ rfl) fun _ => .bind steady_rescueFilter? fun _ =>
    .bind (twins.body _) fun _ => .close (by nofun) _

/-- `ensure` and a body. -/
theorem ensure? : Steady rounds tags (fun _ => False) first.ensure? second.ensure? := by
  refine .check ?_ (.pure _)
  exact .bind (.advance fun _ same => same ▸ rfl) fun _ => .bind (twins.body _) fun _ =>
    .bind (.close (by nofun) _) fun _ => .pure _

/-- `begin` and a body, what to do about errors, and what to do in any case. -/
theorem beginBlock : Steady rounds (fun tag => tag = .kwBegin) (fun _ => True) first.beginBlock
    second.beginBlock := by
  refine .andThen (.advance fun _ same => same ▸ rfl) fun _ => .bind (twins.body _) fun _ =>
    .bind (twins.clauses twins.rescueClause) fun _ => .bind (.addList _) fun _ => ?_
  exact .bind twins.ensure? fun _ => .bind .expectEnd fun _ => .close (by nofun) _

/-- `return`, with a value or without. -/
theorem returnJump : Steady rounds (fun tag => tag = .kwReturn) (fun _ => True) first.returnJump
    second.returnJump := by
  refine .andThen (.advance fun _ same => same ▸ rfl) fun _ => .currentTag fun _ _ => ?_
  exact .choose (.bind twins.expression.map fun _ => .close (by nofun) _)
    (.bind (.pure _) fun _ => .close (by nofun) _)

/-- `raise` and an expression in parentheses. -/
theorem raiseJump : Steady rounds (fun tag => tag = .kwRaise) (fun _ => True) first.raiseJump
    second.raiseJump :=
  .andThen (.advance fun _ same => same ▸ rfl) fun _ => .bind (.expect rfl) fun _ =>
    .bind twins.expression fun _ => .bind (.expect rfl) fun _ => .close (by nofun) _

/-- `yield`, bare or with arguments. -/
theorem yieldJump : Steady rounds (fun tag => tag = .kwYield) (fun _ => True) first.yieldJump
    second.yieldJump := by
  refine .andThen (.advance fun _ same => same ▸ rfl) fun _ => ?_
  exact .check (.bind twins.arguments.map fun _ => .close (by nofun) _)
    (.bind (.pure _) fun _ => .close (by nofun) _)

/-- The local name of an import. -/
theorem asName? : Steady rounds tags (fun _ => False) first.asName? second.asName? :=
  .bind (.eat rfl) fun _ => .choose
    (.bind .expectIdentifier fun _ => .bind (.expect rfl) fun _ => .bind twins.stringLiteral
      fun _ => .pure _)
    (.pure _)

/-- An import. -/
theorem requireImport : Steady rounds tags (fun _ => True) first.requireImport
    second.requireImport := by
  refine .andThen .expectIdentifier fun _ => .bind (.addNode (by nofun) _) fun _ =>
    .bind (.expect rfl) fun _ => .bind .expectIdentifier fun _ => .bind (.expect rfl) fun _ => ?_
  exact .bind twins.stringLiteral fun _ => .bind twins.asName? fun _ => .bind (.expect rfl) fun _ =>
    .close (by nofun) _

/-- A statement that no keyword introduces. -/
theorem plainStatement : Steady rounds tags (fun _ => True) first.plainStatement
    second.plainStatement := by
  refine .currentTag fun tag _ => ?_
  rw [← twins.soft]
  refine .choose ?_ (.choose .fail twins.expression)
  exact .ask (Lookahead.Peeks.startsImport _ _) fun _ =>
    .choose twins.requireImport twins.expression

/-- A statement. -/
theorem statement : Steady rounds tags (fun _ => True) first.statement second.statement := by
  refine .currentTag fun tag _ => ?_
  split
  · exact twins.method
  · exact twins.method
  · exact twins.exportedMethod
  · exact twins.classDeclaration
  · exact twins.ifStatement
  · exact twins.unlessStatement
  · exact twins.caseStatement
  · exact twins.whileLoop
  · exact twins.untilLoop
  · exact twins.forLoop
  · exact twins.beginBlock
  · exact twins.returnJump
  · exact steady_leaf (by nofun) rfl
  · exact steady_leaf (by nofun) rfl
  · exact twins.raiseJump
  · exact twins.yieldJump
  · exact twins.plainStatement

end Twins

end Grammar

end Vibescript
