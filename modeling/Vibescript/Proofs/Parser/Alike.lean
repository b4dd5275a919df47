import Vibescript.Proofs.Parser.Parallel

/-!
# Productions side by side

Every production of two grammars that differ in their options and in what is one level deeper
only takes the same steps. A production begins wherever a cursor stands and, when it
succeeds, ends past the token it began at, outside string literals; what it reads one level
deeper begins past that token as well, except that the expression of a statement begins where the
statement does.
-/
namespace Vibescript

namespace Cursor

variable {cursor : Cursor} {rounds others floor : Nat} {tags : Tag → Prop}

/-- A loop may have more rounds. -/
theorem At.more (stands : cursor.At rounds floor tags) (le : rounds ≤ others) :
    cursor.At others floor tags := by
  obtain ⟨⟨tokens, pending, strung, bound⟩, reached, tag⟩ := stands
  exact ⟨⟨tokens, pending, strung, Nat.lt_of_lt_of_le bound le⟩, reached, tag⟩

/-- A step uses up one of the rounds. -/
theorem At.fewer (stands : cursor.At (rounds + 1) floor tags) (notEnd : cursor.isAtEnd = false) :
    0 < rounds ∧ cursor.advance.2.Reaches rounds floor := by
  have reached := (stands.onward cursor.onward_advance).floor
  obtain ⟨tokens, pending, strung, bound⟩ := stands.pending
  obtain ⟨before, rest, rfl, directive, plain, _⟩ := pending.ahead notEnd
  have moves := moves_advance pending directive notEnd
  have taken := moves.consumes.weight_le
  rw [List.length_singleton] at taken
  have strung := moves.strung pending strung
  exact ⟨by omega, ⟨rest, moves.pending, strung, by omega⟩, reached, trivial⟩

end Cursor

namespace Grammar

open Build Parse Cursor

variable {first second grammar : Grammar} {rounds floor : Nat} {enters : Request → Cursor → Prop}

/-- One round over the pieces of a string literal. -/
def pieceStep (text : String) : Parse (ForInStep String) := do
  let cursor ← Build.cursor
  match cursor.current.kind with
  | .stringContent run =>
    let _ ← Build.advance
    return .yield (text ++ cursor.nameText run)
  | .stringEscape char =>
    let _ ← Build.advance
    return .yield (text.push char)
  | .stringClose =>
    let _ ← Build.advance
    return .done text
  | _ => throw ((← unexpected .unexpectedToken (.singleton .stringClose)).within .string)

/-- The name of a method, once it is known whether that of the class stands before it. -/
def methodNameOf (isSingleton : Bool) : Parse MethodName := do
  let (name, _) ← expectIdentifier .method
  return ⟨isSingleton, name⟩

/-- A string literal is a quotation mark and its pieces. -/
theorem stringLiteral_eq (grammar : Grammar) :
    grammar.stringLiteral = expect .stringOpen .string >>= fun opening =>
      grammar.loop "" pieceStep >>= fun value =>
        liftM (intern value) >>= fun name => liftM (close (.string name) opening.span) := rfl

/-- One round over the operators of an expression. -/
def infixStep (grammar : Grammar) (least : BindingPower) (left : NodeId) :
    Parse (ForInStep NodeId) := do
  match InfixOp.ofTag? (← currentTag) with
  | none => return .done left
  | some op =>
    if op.power.rank < least.rank then return .done left
    let _ ← Build.advance
    let start ← nodeSpan left
    let right ← grammar.deeper (.expression op.rightPower)
    return .yield (← close (infixNode op left right) start)

/-- An expression is an operand and operators with theirs. -/
theorem expressionFrom_eq (grammar : Grammar) (least : BindingPower) :
    grammar.expressionFrom least = grammar.operand >>= fun first =>
      grammar.loop first (grammar.infixStep least) := rfl

/-- One round over the pieces of a string literal uses up a token, or it ends the literal. -/
theorem outcome_pieceStep {now : Parser} {text : String} {count : Nat}
    (stands : now.cursor.Reaches (count + 1) floor) (enough : count < rounds) :
    (pieceStep text).Outcome now
      (Round
        (fun left _ later => left < rounds ∧ later.cursor.Reaches (left + 1) floor)
        (fun _ final => final.cursor.At rounds floor fun tag => tag.isQuoted = false) count)
      fun _ _ => True := by
  refine Parse.outcome_cursor.mpr ?_
  have step (notEnd : now.cursor.isAtEnd = false) : ∃ left < count, left < rounds ∧
      now.cursor.advance.2.Reaches (left + 1) floor := by
    obtain ⟨positive, reached⟩ := stands.fewer notEnd
    refine ⟨count - 1, by omega, by omega, ?_⟩
    rwa [Nat.sub_add_cancel positive]
  cases same : now.cursor.current.kind with
  | stringContent run =>
    exact .bind (.lift (Parser.outcome_onCursor.mpr (.pure
      (step (Parser.notAtEnd (congrArg TokenKind.tag same) Tag.noConfusion)))))
  | stringEscape char =>
    exact .bind (.lift (Parser.outcome_onCursor.mpr (.pure
      (step (Parser.notAtEnd (congrArg TokenKind.tag same) Tag.noConfusion)))))
  | stringClose =>
    have closes : now.cursor.current.tag = .stringClose := congrArg TokenKind.tag same
    have notEnd := Parser.notAtEnd closes Tag.noConfusion
    obtain ⟨left, _, bound, reached⟩ := step notEnd
    have further := reached.more bound
    refine .bind (.lift (Parser.outcome_onCursor.mpr (.pure ?_)))
    exact ⟨further.pending, further.floor, stands.outside_advance notEnd (by rw [closes]; rfl)⟩
  | _ => exact Parse.outcome_unexpected.mpr (.throw trivial)

/-- A string literal that was read ends outside string literals. -/
theorem outcome_stringLiteral {parser : Parser} (stands : parser.cursor.Reaches rounds floor)
    (sameRounds : grammar.rounds = rounds) :
    grammar.stringLiteral.Outcome parser (fun _ final => final.cursor.Past rounds floor)
      fun _ _ => True := by
  rw [stringLiteral_eq]
  refine .bind (Parse.outcome_check.mpr ?_)
  by_cases found : parser.cursor.check .stringOpen = true
  · rw [if_pos found]
    have faces : parser.cursor.Faces rounds floor .stringOpen :=
      stands.mono (Nat.le_refl _) fun _ => beq_iff_eq.mp found
    have opened := faces.advance Tag.noConfusion Tag.noConfusion
    obtain ⟨_, _, _, bound⟩ := opened.pending
    have positive : rounds = rounds - 1 + 1 := by omega
    rw [positive] at opened
    have enough : rounds - 1 < grammar.rounds := by omega
    refine .lift (Parser.outcome_onCursor.mpr (.bind ?_))
    apply Parse.Outcome.imp
    · exact .repeatWithin
        (fun left _ later => left < rounds ∧ later.cursor.Reaches (left + 1) (floor + 1))
        (fun _ _ _ ⟨less, reached⟩ => outcome_pieceStep reached less) enough ⟨by omega, opened⟩
    · intro text final past
      refine .bind (.lift (Parser.outcome_onCursor.mpr ?_))
      exact past.looks fun _ pending => Cursor.looks_intern pending text
  · rw [if_neg found]
    exact Parse.outcome_unexpected.mpr (.throw trivial)

/-- A round of a body as a reading. -/
theorem liftM_bodyStep (grammar : Grammar) (terminators : TagSet) (statements : Array NodeId) :
    (liftM (grammar.bodyStep terminators statements) : Parse (ForInStep (Array NodeId))) =
      (liftM grammar.shouldHalt >>= fun halts =>
        if halts = true then liftM skipToEnd >>= fun _ => pure (.done statements)
        else
          liftM (onCursor Cursor.takeDirective) >>= fun claimed =>
            match claimed with
            | some token => do return .yield (statements.push (← liftM (directive token)))
            | none =>
              liftM currentTag >>= fun tag =>
                if (tag == .endOfInput || terminators.contains tag) = true then
                  pure (.done statements)
                else
                  liftM checkpoint >>= fun start =>
                    liftM (grammar.deeper .statement).run >>= fun result =>
                      match result with
                      | .ok id => pure (.yield (statements.push id))
                      | .error error =>
                        liftM (grammar.report error) >>= fun _ => do
                          let _ ← liftM (onCursor fun cursor =>
                            cursor.synchronize .statementBoundary)
                          return .yield (statements.push (← liftM (abandon start)))) := by
  rw [bodyStep, liftM_bind]
  congr 1
  funext halts
  cases halts with
  | true => simp only [if_true, liftM_bind, liftM_pure]
  | false =>
    simp only [Bool.false_eq_true, if_false, liftM_bind]
    congr 1
    funext claimed
    cases claimed with
    | some token => simp only [liftM_bind, liftM_pure]
    | none =>
      simp only [liftM_bind]
      congr 1
      funext tag
      split
      · rfl
      · simp only [liftM_bind]
        congr 1
        funext start
        congr 1
        funext result
        cases result <;> simp only [liftM_bind, liftM_pure]

/-- A round of a class body as a reading. -/
theorem liftM_memberStep (grammar : Grammar) (members : Array NodeId) :
    (liftM (grammar.memberStep members) : Parse (ForInStep (Array NodeId))) =
      (liftM grammar.shouldHalt >>= fun halts =>
        if halts = true then liftM skipToEnd >>= fun _ => pure (.done members)
        else
          liftM currentTag >>= fun tag =>
            if (tag == .kwEnd || tag == .endOfInput) = true then pure (.done members)
            else
              liftM checkpoint >>= fun start =>
                liftM grammar.classMember.run >>= fun result =>
                  match result with
                  | .ok id => pure (.yield (members.push id))
                  | .error error =>
                    liftM (grammar.report error) >>= fun _ => do
                      let _ ← liftM (onCursor fun cursor =>
                        ((), cursor.skipUntil fun cursor => grammar.startsMember cursor.current))
                      return .yield (members.push (← liftM (abandon start)))) := by
  rw [memberStep, liftM_bind]
  congr 1
  funext halts
  cases halts with
  | true => simp only [if_true, liftM_bind, liftM_pure]
  | false =>
    simp only [Bool.false_eq_true, if_false, liftM_bind]
    congr 1
    funext tag
    split
    · rfl
    · simp only [liftM_bind]
      congr 1
      funext start
      congr 1
      funext result
      cases result <;> simp only [liftM_bind, liftM_pure]

/-- A loop of steps as a loop of readings. -/
theorem liftM_repeatWithin {α : Type} (round : α → Build (ForInStep α)) (count : Nat) (state : α) :
    (liftM (repeatWithin round count state) : Parse α) =
      repeatWithin (fun state => liftM (round state)) count state := by
  induction count generalizing state with
  | zero => rfl
  | succ count ih =>
    rw [repeatWithin, liftM_bind, repeatWithin]
    congr 1
    funext result
    cases result with
    | done state => rfl
    | yield state => exact ih state

/-- A token that is an expression by itself lies outside string literals. -/
theorem isWhole_of_literal? {kind : TokenKind Name} {node : NodeKind}
    (found : literal? kind = some node) : kind.tag.isWhole = true := by
  unfold literal? at found
  split at found <;> first | rfl | contradiction

/-- A unary operator lies outside string literals. -/
theorem isWhole_of_unary {tag : Tag} {op : UnaryOp} (found : UnaryOp.ofTag? tag = some op) :
    tag.isWhole = true := by
  unfold UnaryOp.ofTag? at found
  split at found <;> first | rfl | contradiction

namespace Parallel

/-- The type that an identifier names. -/
theorem namedType (name : Name) {tags : Tag → Prop} :
    Parallel first second rounds enters (At rounds floor tags) (fun _ => At rounds floor tags)
      (liftM (Grammar.namedType name)) (liftM (Grammar.namedType name)) := by
  rw [Grammar.namedType, liftM_bind]
  refine .bind .cursor fun cursor => .imp (fun _ stands => stands.1) (fun _ _ stands => stands) ?_
  dsimp only
  split
  · split
    · exact .pure _ fun _ stands => stands
    · rw [liftM_bind]
      exact .bind (.intern _) fun _ => .pure _ fun _ stands => stands
  · exact .pure _ fun _ stands => stands

/-- A type name. -/
theorem typeName :
    Parallel first second rounds enters (Past rounds floor) (fun _ => Past rounds floor)
      Grammar.typeName Grammar.typeName := by
  refine .bind .current fun token => ?_
  obtain ⟨kind, span⟩ := token
  dsimp only
  split
  · exact .bind (.namedType _) fun _ => .bind (Parallel.past rfl).lower fun _ =>
      .bind (.eatPast rfl) fun _ => .close _ _
  · exact .bind (.pure _ fun _ stands => stands) fun _ => .bind (Parallel.past rfl).lower fun _ =>
      .bind (.eatPast rfl) fun _ => .close _ _
  · exact .bind (.pure _ fun _ stands => stands) fun _ => .bind (Parallel.past rfl).lower fun _ =>
      .bind (.eatPast rfl) fun _ => .close _ _
  · exact .failFirst (fun _ => ⟨rfl, rfl⟩) rfl

/-- Asking for the parameter that starts at the current token. -/
theorem askParameter? {tags : Tag → Prop} :
    Parallel first second rounds enters (At rounds floor tags)
      (fun found => At rounds floor fun tag => ∀ shape ∈ found, tag = shape.firstTag)
      (liftM Build.askParameter?) (liftM Build.askParameter?) := by
  refine .step fun parser stands => ⟨⟨Lookahead.Peeks.parameter?.onward _, rfl, rfl⟩, ?_⟩
  have named : parser.cursor.At rounds floor fun tag =>
      ∀ shape ∈ (Lookahead.parameter? parser.cursor).1, tag = shape.firstTag :=
    stands.mono (Nat.le_refl _) fun _ _ answers => Lookahead.firstTag_parameter? answers
  exact named.looks (Lookahead.Peeks.parameter? parser.cursor)

/-- The constant in parentheses that names the errors to rescue. -/
theorem rescueFilter? :
    Parallel first second rounds enters (Past rounds floor) (fun _ => Past rounds floor)
      Grammar.rescueFilter? Grammar.rescueFilter? := by
  refine .bind (.ask Lookahead.Peeks.isRescueFilter) fun found => .choose ?_
    (.pure _ fun _ stands => stands)
  exact .bind .advance fun _ => .bind (Parallel.expectConstant _).lower fun _ =>
    .bind (Parallel.expect rfl _).lower fun _ => .pure _ fun _ stands => stands

/-- The name of a method. -/
theorem methodName :
    Parallel first second rounds enters (Past rounds floor) (fun _ => Past rounds floor)
      Grammar.methodName Grammar.methodName := by
  refine .bind (.ask Lookahead.Peeks.isSelfQualifier) fun isSingleton => ?_
  dsimp only
  split
  · exact .bind .advance fun _ => .bind .advance fun _ =>
      .bind (Parallel.expectIdentifier _).lower fun _ => .pure _ fun _ stands => stands
  · exact .bind (Parallel.expectIdentifier _).lower fun _ => .pure _ fun _ stands => stands

end Parallel

/-- Two grammars that differ in their options and one level deeper only, and what is one level
deeper can be entered from anywhere past an offset. -/
structure Alike (first second : Grammar) (rounds : Nat) (enters : Request → Cursor → Prop)
    (floor : Nat) : Prop where
  /-- The words that mean something in some places only. -/
  soft : first.soft = second.soft
  /-- The bound on the rounds of a loop of the first. -/
  firstRounds : first.rounds = rounds
  /-- The bound on the rounds of a loop of the second. -/
  secondRounds : second.rounds = rounds
  /-- Past the offset, everything can be entered. -/
  deeper : ∀ (request : Request) (cursor : Cursor), cursor.Reaches rounds (floor + 1) →
    enters request cursor

namespace Alike

variable (alike : Alike first second rounds enters floor)

include alike

/-- What is one level deeper, past the offset. -/
theorem request (request : Request) {tags : Tag → Prop} :
    Parallel first second rounds enters (At rounds (floor + 1) tags)
      (fun _ => Past rounds floor) (first.deeper request) (second.deeper request) := by
  refine .deeper request (fun cursor stands => alike.deeper request cursor stands.reaches) ?_
  intro cursor final _ stands past
  have le := stands.floor
  exact past.mono (by omega) id

/-- An expression past the offset. -/
theorem expression {tags : Tag → Prop} :
    Parallel first second rounds enters (At rounds (floor + 1) tags)
      (fun _ => Past rounds floor) first.expression second.expression :=
  alike.request _

/-- A loop. -/
theorem loop {α : Type} {before : Cursor → Prop} {left right : α → Parse (ForInStep α)} {start : α}
    (round : ∀ state, Parallel first second rounds enters before (fun _ => before) (left state)
      (right state)) :
    Parallel first second rounds enters before (fun _ => before) (first.loop start left)
      (second.loop start right) := by
  rw [Grammar.loop, Grammar.loop, alike.firstRounds, alike.secondRounds]
  exact .loop rounds start round

/-- One or more items. -/
theorem oneOrMore {α : Type} {separator : Tag} (whole : separator.isWhole = true)
    {left right : Parse α}
    (item : Parallel first second rounds enters (Past rounds floor)
      (fun _ => Past rounds floor) left right) :
    Parallel first second rounds enters (Past rounds floor) (fun _ => Past rounds floor)
      (first.oneOrMore separator left) (second.oneOrMore separator right) := by
  exact alike.loop fun items => .bind item fun answer => .bind (.eatPast whole) fun found =>
    .pure _ fun _ stands => stands

/-- Items up to a closing token. -/
theorem itemsUntil {α : Type} {closer : Tag} (outside : closer.isQuoted = false)
    {left right : Parse α}
    (item : Parallel first second rounds enters (Past rounds floor) (fun _ => Past rounds floor)
      left right) :
    Parallel first second rounds enters (Past rounds floor) (fun _ => Past rounds floor)
      (first.itemsUntil closer left) (second.itemsUntil closer right) := by
  refine alike.loop fun items => .bind (.check closer) fun found => .branch (.pure _ ?_) ?_
  · exact fun _ stands => stands.mono (Nat.le_refl _) fun same => by rwa [same]
  · exact .bind item fun answer => .bind (.eatPast rfl) fun found => .pure _ fun _ stands => stands

/-- The pieces of a string literal. -/
theorem pieces {place : Nat} :
    Parallel first second rounds enters (Reaches rounds place) (fun _ => Reaches rounds place)
      (first.loop "" pieceStep) (second.loop "" pieceStep) := by
  refine alike.loop fun text => .bind .cursor fun cursor =>
    .imp (fun _ stands => stands.1) (fun _ _ stands => stands) ?_
  cases same : cursor.current.kind with
  | stringContent run => exact .bind .advance fun _ => .pure _ fun _ stands => stands
  | stringEscape char => exact .bind .advance fun _ => .pure _ fun _ stands => stands
  | stringClose => exact .bind .advance fun _ => .pure _ fun _ stands => stands
  | _ => exact .fail (fun _ => ⟨rfl, rfl⟩) rfl

/-- A string literal. -/
theorem stringLiteral {place : Nat} {tags : Tag → Prop} :
    Parallel first second rounds enters (At rounds place tags) (fun _ => Past rounds place)
      first.stringLiteral second.stringLiteral := by
  have steps : Parallel first second rounds enters (At rounds place tags)
      (fun _ => Reaches rounds place) first.stringLiteral second.stringLiteral := by
    rw [stringLiteral_eq, stringLiteral_eq]
    refine .bind (.bind (.check .stringOpen) fun found => .branch .advance
      (.fail (fun _ => ⟨rfl, rfl⟩) rfl)) fun opening => ?_
    exact .bind alike.pieces fun value => .bind (.intern value) fun name => .close _ _
  exact .also steps
    (fun _ stands => outcome_stringLiteral stands.reaches alike.firstRounds)
    fun _ stands => outcome_stringLiteral stands.reaches alike.secondRounds

/-- An array literal. -/
theorem arrayLiteral :
    Parallel first second rounds enters (Faces rounds floor .leftBracket)
      (fun _ => Past rounds floor) first.arrayLiteral second.arrayLiteral := by
  refine .bind (.past rfl) fun opening => .bind (alike.itemsUntil rfl alike.expression)
    fun elements => ?_
  exact .bind (.expectCloser rfl rfl _) fun _ => .bind (.addList _) fun _ =>
    .close _ _

/-- An entry of a hash literal. -/
theorem hashEntry :
    Parallel first second rounds enters (Past rounds floor) (fun _ => Past rounds floor)
      first.hashEntry second.hashEntry := by
  refine .bind .current fun opening => ?_
  have value : ∀ key, Parallel first second rounds enters (Past rounds floor)
      (fun _ => Past rounds floor)
      (do
        let _ ← splitSymbol
        let _ ← expect .colon .hash
        let value ← first.expression
        close (.hashEntry key value) opening.span)
      (do
        let _ ← splitSymbol
        let _ ← expect .colon .hash
        let value ← second.expression
        close (.hashEntry key value) opening.span) := fun key =>
    .bind .splitSymbol fun _ => .bind (Parallel.expect rfl _).lower fun _ =>
      .bind alike.expression fun value => .close _ _
  dsimp only
  split
  · next name same =>
    have tag : opening.tag = .identifier := congrArg TokenKind.tag same
    rw [tag]
    exact .bind (Parallel.past rfl).lower fun _ => .bind (.addNode _ _) value
  · exact .bind alike.stringLiteral.lower value
  · exact .failFirst (fun _ => ⟨rfl, rfl⟩) rfl

/-- A hash literal. -/
theorem hashLiteral :
    Parallel first second rounds enters (Faces rounds floor .leftBrace)
      (fun _ => Past rounds floor) first.hashLiteral second.hashLiteral :=
  .bind (.past rfl) fun _ => .bind (alike.itemsUntil rfl alike.hashEntry) fun _ =>
    .bind (.expectCloser rfl rfl _) fun _ => .bind (.addList _) fun _ =>
      .close _ _

/-- An expression in parentheses. -/
theorem parenthesized :
    Parallel first second rounds enters (Faces rounds floor .leftParen)
      (fun _ => Past rounds floor) first.parenthesized second.parenthesized :=
  .bind (.past rfl) fun _ => .bind alike.expression fun _ =>
    .bind (Parallel.expect rfl _).lower fun _ => .close _ _

/-- An argument. -/
theorem argument :
    Parallel first second rounds enters (Past rounds floor) (fun _ => Past rounds floor)
      first.argument second.argument := by
  refine .bind .current fun token => ?_
  split
  · refine .bind (.ask Lookahead.Peeks.isKeyword) fun found => .choose ?_ alike.expression
    exact .bind .advance fun _ => .bind (.quiet (isQuiet_onCursor onward_splitSymbol)) fun _ =>
      .bind .advance fun _ => .bind (.addNode _ _) fun _ => .bind alike.expression fun _ =>
        .close _ _
  · exact alike.expression

/-- Arguments in parentheses. -/
theorem arguments {tags : Tag → Prop} :
    Parallel first second rounds enters (At rounds floor tags) (fun _ => Past rounds floor)
      first.arguments second.arguments :=
  .bind (.expect rfl _) fun _ => .bind (alike.itemsUntil rfl alike.argument) fun _ =>
    .bind (.expectCloser rfl rfl _) fun _ => .addList _

/-- The names between the bars of a block. -/
theorem blockParameters :
    Parallel first second rounds enters (Past rounds floor) (fun _ => Past rounds floor)
      first.blockParameters second.blockParameters := by
  refine .bind (.eatPast rfl) fun found => ?_
  dsimp only
  split
  · exact .bind (alike.oneOrMore rfl (Parallel.expectIdentifier _).lower) fun _ =>
      .bind (Parallel.expect rfl _).lower fun _ => .addNames _
  · exact .addNames _

omit alike in
/-- A round of a body, where a statement can be entered from anywhere past an offset. -/
theorem bodyStep {place : Nat} (enter : ∀ cursor : Cursor, cursor.Reaches rounds place →
      enters .statement cursor) (terminators : TagSet) (statements : Array NodeId) :
    Parallel first second rounds enters (Reaches rounds place) (fun _ => Reaches rounds place)
      (liftM (first.bodyStep terminators statements))
      (liftM (second.bodyStep terminators statements)) := by
  rw [liftM_bodyStep, liftM_bodyStep]
  refine .halt _ (fun cursor stands => stands.onward (onward_skipUntil _ _)) ?_
  refine .bind (.quiet (isQuiet_onCursor onward_takeDirective)) fun claimed => ?_
  cases claimed with
  | some token =>
    exact .bind (.quiet (isQuiet_directive token)) fun _ => .pure _ fun _ stands => stands
  | none =>
    refine .bind .currentTag fun tag => .choose (.pure _ fun _ stands => stands.reaches) ?_
    refine .bind (.builds fun _ => ⟨rfl, rfl, rfl⟩) fun start => ?_
    refine .attempt place (fun cursor stands => stands.reaches)
      (.deeper .statement (fun cursor stands => enter cursor stands.reaches) ?_)
      (fun id => .pure _ fun _ stands => stands) (fun error => rfl) (fun error => rfl) ?_
    · intro cursor final id stands past
      have le := stands.floor
      exact past.mono (by omega) fun _ => trivial
    · exact .bind (.quiet (isQuiet_onCursor fun cursor => cursor.onward_synchronize _)) fun _ =>
        .bind (.quiet (isQuiet_abandon start)) fun _ => .pure _ fun _ stands => stands

/-- Statements up to a terminator, where a statement can be entered from anywhere past an
offset. -/
theorem body {place : Nat} (enter : ∀ cursor : Cursor, cursor.Reaches rounds place →
      enters .statement cursor) (terminators : TagSet) {tags : Tag → Prop} :
    Parallel first second rounds enters (At rounds place tags) (fun _ => Reaches rounds place)
      (liftM (first.body terminators)) (liftM (second.body terminators)) := by
  rw [Grammar.body, Grammar.body, liftM_bind, liftM_bind, Grammar.loop, Grammar.loop,
    liftM_repeatWithin, liftM_repeatWithin, alike.firstRounds, alike.secondRounds]
  exact .bind (.weaken (fun _ _ => trivial)
    (.loop rounds _ fun statements => bodyStep enter terminators statements)) fun _ =>
      .addList _

/-- A block, if one follows. -/
theorem block? :
    Parallel first second rounds enters (Past rounds floor) (fun _ => Past rounds floor)
      first.block? second.block? := by
  refine .bind (.check .kwDo) fun found => .branch ?_ (.pure _ fun _ stands => stands)
  exact .bind (Parallel.past rfl).lower fun _ => .bind alike.blockParameters fun _ =>
    .bind (alike.body (alike.deeper _) _) fun _ => .bind (Parallel.expectEnd _ _ _).lower fun _ =>
      .bind (.close _ _) fun _ => .pure _ fun _ stands => stands

/-- The arguments and the block of a call. -/
theorem call (receiver : Option NodeId) (method : Name) (start : Span) {tags : Tag → Prop} :
    Parallel first second rounds enters (At rounds floor tags) (fun _ => Past rounds floor)
      (first.call receiver method start) (second.call receiver method start) :=
  .bind alike.arguments fun _ => .bind alike.block? fun _ => .close _ _

/-- What follows the point after an operand. -/
theorem member (receiver : NodeId) (start : Span) :
    Parallel first second rounds enters (Faces rounds floor .dot) (fun _ => Past rounds floor)
      (first.member receiver start) (second.member receiver start) := by
  refine .bind (.past rfl) fun _ => .bind (Parallel.expectIdentifier _).lower fun named => ?_
  refine .bind (.check .leftParen) fun found => .branch ?_ ?_
  · exact (alike.call _ _ _).later
  · exact .bind alike.block? fun _ => .close _ _

/-- An index in brackets after an operand. -/
theorem subscript (receiver : NodeId) (start : Span) :
    Parallel first second rounds enters (Faces rounds floor .leftBracket)
      (fun _ => Past rounds floor) (first.subscript receiver start)
      (second.subscript receiver start) :=
  .bind (.past rfl) fun _ => .bind alike.expression fun _ =>
    .bind (Parallel.expect rfl _).lower fun _ => .close _ _

/-- Calls, members and subscripts after an operand. -/
theorem chain (operand : NodeId) :
    Parallel first second rounds enters (Past rounds floor) (fun _ => Past rounds floor)
      (first.chain operand) (second.chain operand) := by
  refine alike.loop fun left => .bind (.nodeSpan left) fun start => .bind .tagged fun tag => ?_
  split
  · exact .bind ((alike.member left start).later.weaken fun _ => And.right) fun _ =>
      .pure _ fun _ stands => stands
  · exact .bind ((alike.subscript left start).later.weaken fun _ => And.right) fun _ =>
      .pure _ fun _ stands => stands
  · exact .pure _ fun _ stands => stands.mono (Nat.le_refl _) And.left

/-- A name, or a call. -/
theorem nameOrCall (name : Name) :
    Parallel first second rounds enters (Faces rounds floor .identifier)
      (fun _ => Past rounds floor) (first.nameOrCall name) (second.nameOrCall name) := by
  refine .bind (.past rfl) fun token => .bind (.check .leftParen) fun found => .branch ?_ ?_
  · exact (alike.call _ _ _).later
  · exact .addNode _ _

/-- A primary expression. -/
theorem primary {tags : Tag → Prop} :
    Parallel first second rounds enters (At rounds floor tags) (fun _ => Past rounds floor)
      first.primary second.primary := by
  refine .bind .current fun token => ?_
  obtain ⟨kind, span⟩ := token
  dsimp only
  split
  · exact alike.nameOrCall _
  · exact alike.stringLiteral
  · exact alike.arrayLiteral
  · exact alike.hashLiteral
  · exact alike.parenthesized
  · split
    · next literal found =>
      exact .bind (.past (isWhole_of_literal? found)) fun _ => .addNode _ _
    · exact .fail (fun _ => ⟨rfl, rfl⟩) rfl

/-- The operand of an operator. -/
theorem operand {tags : Tag → Prop} :
    Parallel first second rounds enters (At rounds floor tags) (fun _ => Past rounds floor)
      first.operand second.operand := by
  refine .bind .currentTag fun tag => ?_
  split
  · next op found =>
    exact .bind (.past (isWhole_of_unary found)) fun _ => .bind (alike.request _) fun _ => .close _ _
  · exact .bind alike.primary fun _ => alike.chain _

/-- The operators of an expression with their operands. -/
theorem infixes (least : BindingPower) (operand : NodeId) :
    Parallel first second rounds enters (Past rounds floor) (fun _ => Past rounds floor)
      (first.loop operand (first.infixStep least)) (second.loop operand (second.infixStep least)) := by
  refine alike.loop fun left => .bind .tagged fun tag => ?_
  split
  · exact .pure _ fun _ stands => stands.mono (Nat.le_refl _) And.left
  · next op found =>
    split
    · exact .pure _ fun _ stands => stands.mono (Nat.le_refl _) And.left
    · exact .bind .advance fun _ => .bind (.nodeSpan left) fun start =>
        .bind (alike.request _) fun _ => .bind (.close _ _) fun _ => .pure _ fun _ stands => stands

/-- An expression. -/
theorem expressionFrom (least : BindingPower) {tags : Tag → Prop} :
    Parallel first second rounds enters (At rounds floor tags) (fun _ => Past rounds floor)
      (first.expressionFrom least) (second.expressionFrom least) := by
  rw [expressionFrom_eq, expressionFrom_eq]
  exact .bind alike.operand fun operand => alike.infixes least operand

/-- A type. -/
theorem typeUnion :
    Parallel first second rounds enters (Past rounds floor) (fun _ => Past rounds floor)
      first.typeUnion second.typeUnion :=
  .bind (.builds fun _ => ⟨rfl, rfl, rfl⟩) fun _ => .bind (alike.oneOrMore rfl .typeName) fun _ =>
    .bind (.addList _) fun _ => .close _ _

/-- The value that a parameter has when it is not given. -/
theorem default? :
    Parallel first second rounds enters (Past rounds floor) (fun _ => Past rounds floor)
      first.default? second.default? :=
  .bind (.eatPast rfl) fun _ => .choose
    (.bind alike.expression fun _ => .pure _ fun _ stands => stands)
    (.pure _ fun _ stands => stands)

/-- A type after a colon. -/
theorem variableType? :
    Parallel first second rounds enters (Past rounds floor) (fun _ => Past rounds floor)
      first.variableType? second.variableType? :=
  .bind .splitSymbol fun _ => .bind (.eatPast rfl) fun _ => .choose
    (.bind alike.typeUnion fun _ => .pure _ fun _ stands => stands)
    (.pure _ fun _ stands => stands)

/-- A parameter of the shape that was seen. -/
theorem parameterOf (shape : Lookahead.ParameterShape) :
    Parallel first second rounds enters (Faces rounds (floor + 1) shape.firstTag)
      (fun _ => Past rounds floor) (first.parameterOf shape) (second.parameterOf shape) := by
  have whole : shape.firstTag.isWhole = true := by cases shape <;> rfl
  refine .bind (.pastToken whole) fun token => ?_
  by_cases known : token.tag = shape.firstTag
  · refine .imp (fun _ stands => stands.2.lower) (fun _ _ stands => stands) ?_
    cases shape with
    | instanceVariable =>
      obtain ⟨name, same⟩ := TokenKind.eq_instanceVariable known
      rw [same]
      exact .bind alike.variableType? fun _ => .close _ _
    | typed =>
      obtain ⟨name, same⟩ := TokenKind.eq_identifier known
      rw [same]
      exact .bind .splitSymbol fun _ => .bind (Parallel.expect rfl _).lower fun _ =>
        .bind alike.typeUnion fun _ => .bind alike.default? fun _ => .close _ _
    | simple =>
      obtain ⟨name, same⟩ := TokenKind.eq_identifier known
      rw [same]
      exact .bind alike.default? fun _ => .close _ _
  · exact .never fun _ stands => known stands.1

/-- A parameter. -/
theorem parameter :
    Parallel first second rounds enters (Past rounds floor) (fun _ => Past rounds floor)
      first.parameter second.parameter := by
  refine .bind .askParameter? fun found => ?_
  cases found with
  | some shape => exact (alike.parameterOf shape).weaken fun _ same => same shape rfl
  | none => exact .fail (fun _ => ⟨rfl, rfl⟩) rfl

/-- A parameter list. -/
theorem parameters {tags : Tag → Prop} :
    Parallel first second rounds enters (At rounds floor tags) (fun _ => Past rounds floor)
      first.parameters second.parameters :=
  .bind (.expect rfl _) fun _ => .bind (alike.itemsUntil rfl alike.parameter) fun _ =>
    .bind (.expectCloser rfl rfl _) fun _ => .bind (.addList _) fun _ =>
      .close _ _

/-- A method declaration. -/
theorem method {tags : Tag → Prop} :
    Parallel first second rounds enters (At rounds floor tags) (fun _ => Past rounds floor)
      first.method second.method := by
  refine .bind (.builds fun _ => ⟨rfl, rfl, rfl⟩) fun opening => .bind (.eat _) fun isPrivate =>
    .bind (.expect rfl _) fun keyword => .bind .methodName fun name => ?_
  refine .bind (.check .leftParen) fun found => .optional alike.parameters.later fun inputs => ?_
  refine .bind (.eatPast rfl) fun found => .chosen alike.typeUnion (fun _ stands => stands)
    fun returnType => ?_
  exact .bind (alike.body (alike.deeper _) _) fun _ => .bind (Parallel.expectEnd _ _ _).lower
    fun _ => .close _ _

/-- An exported method. -/
theorem exportedMethod :
    Parallel first second rounds enters (Faces rounds floor .kwExport) (fun _ => Past rounds floor)
      first.exportedMethod second.exportedMethod := by
  refine .bind (.past rfl) fun opening => .bind .currentTag fun tag => ?_
  split
  · exact .bind alike.method.later fun _ => .close _ _
  · exact .fail (fun _ => ⟨rfl, rfl⟩) rfl

/-- Accessor declarations. -/
theorem accessors (kind : AccessorKind) :
    Parallel first second rounds enters (Faces rounds floor .identifier)
      (fun _ => Past rounds floor) (first.accessors kind) (second.accessors kind) :=
  .bind (.past rfl) fun _ => .bind (alike.oneOrMore rfl (Parallel.expectIdentifier _).lower)
    fun _ => .bind (.addNames _) fun _ => .close _ _

/-- The first value of a class variable. -/
theorem classVariable (name : Name) :
    Parallel first second rounds enters (Faces rounds floor .classVariable)
      (fun _ => Past rounds floor) (first.classVariable name) (second.classVariable name) :=
  .bind (.past rfl) fun _ => .bind (Parallel.expect rfl _).lower fun _ =>
    .bind alike.expression fun _ => .close _ _

/-- A member of a class. -/
theorem classMember {tags : Tag → Prop} :
    Parallel first second rounds enters (At rounds floor tags) (fun _ => Past rounds floor)
      first.classMember second.classMember := by
  refine .bind .current fun token => ?_
  obtain ⟨kind, span⟩ := token
  rw [← alike.soft]
  dsimp only
  split
  · exact alike.method
  · exact alike.method
  · exact alike.classVariable _
  · split
    · exact alike.accessors _
    · exact .fail (fun _ => ⟨rfl, rfl⟩) rfl
  · exact .fail (fun _ => ⟨rfl, rfl⟩) rfl

/-- What can be entered past an offset can be entered past a later one. -/
theorem up : Alike first second rounds enters (floor + 1) :=
  ⟨alike.soft, alike.firstRounds, alike.secondRounds,
    fun request cursor stands => alike.deeper request cursor stands.lower⟩

/-- The members of a class. -/
theorem classBody {tags : Tag → Prop} :
    Parallel first second rounds enters (At rounds (floor + 1) tags)
      (fun _ => Reaches rounds (floor + 1)) (liftM first.classBody) (liftM second.classBody) := by
  have round : ∀ members, Parallel first second rounds enters (Reaches rounds (floor + 1))
      (fun _ => Reaches rounds (floor + 1)) (liftM (first.memberStep members))
      (liftM (second.memberStep members)) := by
    intro members
    have same : first.startsMember = second.startsMember := by
      funext token
      rw [startsMember, startsMember, alike.soft]
    rw [liftM_memberStep, liftM_memberStep, same]
    refine .halt _ (fun cursor stands => stands.onward (onward_skipUntil _ _)) ?_
    refine .bind .currentTag fun tag => .choose (.pure _ fun _ stands => stands.reaches) ?_
    refine .bind (.builds fun _ => ⟨rfl, rfl, rfl⟩) fun start => ?_
    refine .attempt (floor + 1) (fun cursor stands => stands.reaches)
      (alike.up.classMember.forget fun _ _ stands => stands.lower.reaches)
      (fun id => .pure _ fun _ stands => stands) (fun error => rfl) (fun error => rfl) ?_
    have skips : IsQuiet (onCursor fun cursor =>
        ((), cursor.skipUntil fun cursor => second.startsMember cursor.current)) :=
      isQuiet_onCursor fun cursor =>
        onward_skipUntil cursor fun cursor => second.startsMember cursor.current
    exact .bind (.quiet skips) fun _ => .bind (.quiet (isQuiet_abandon start)) fun _ =>
      .pure _ fun _ stands => stands
  rw [Grammar.classBody, Grammar.classBody, Grammar.loop, Grammar.loop, liftM_repeatWithin,
    liftM_repeatWithin, alike.firstRounds, alike.secondRounds]
  exact .weaken (fun _ _ => trivial) (.loop rounds _ round)

/-- A class declaration. -/
theorem classDeclaration :
    Parallel first second rounds enters (Faces rounds floor .kwClass) (fun _ => Past rounds floor)
      first.classDeclaration second.classDeclaration := by
  refine .bind (.past rfl) fun opening => .bind (Parallel.expectConstant _).lower fun name =>
    .bind alike.classBody fun members => ?_
  have ends : Parallel first second rounds enters (Reaches rounds (floor + 1))
      (fun _ => Past rounds floor)
      (do
        let range ← addList members
        expectEnd .kwClass opening.span .classBody
        close (.classDeclaration name range) opening.span)
      (do
        let range ← addList members
        expectEnd .kwClass opening.span .classBody
        close (.classDeclaration name range) opening.span) :=
    .bind (.addList _) fun _ => .bind (Parallel.expectEnd _ _ _).lower fun _ => .close _ _
  dsimp only
  split
  · refine .bind .cursor fun cursor => .imp (fun _ stands => stands.1) (fun _ _ stands => stands) ?_
    exact .reportFirst (fun _ => ⟨rfl, rfl⟩) rfl ends
  · exact ends

/-- The `else` of a conditional. -/
theorem else? {tags : Tag → Prop} :
    Parallel first second rounds enters (At rounds (floor + 1) tags)
      (fun _ => Reaches rounds (floor + 1)) first.else? second.else? := by
  refine .bind (.check .kwElse) fun found => .branch ?_ (.pure _ fun _ stands => stands.reaches)
  exact .bind .advance fun _ => .bind (alike.body (alike.deeper _) _) fun _ =>
    .bind (.close _ _) fun _ => .pure _ fun _ stands => stands

/-- Clauses that start with a keyword. -/
theorem clauses {keyword : Tag} {left right : Parse NodeId}
    (clause : Parallel first second rounds enters (Faces rounds (floor + 1) keyword)
      (fun _ => Reaches rounds (floor + 1)) left right) {tags : Tag → Prop} :
    Parallel first second rounds enters (At rounds (floor + 1) tags)
      (fun _ => Reaches rounds (floor + 1)) (first.clauses keyword left)
      (second.clauses keyword right) := by
  refine .weaken (fun _ _ => trivial) (alike.loop fun items => .bind (.check keyword) fun found =>
    .branch ?_ (.pure _ fun _ stands => stands))
  exact .bind clause fun _ => .pure _ fun _ stands => stands

/-- `elsif`, a condition and a body. -/
theorem elsifClause {tags : Tag → Prop} :
    Parallel first second rounds enters (At rounds (floor + 1) tags)
      (fun _ => Reaches rounds (floor + 1)) first.elsifClause second.elsifClause :=
  .bind .advance fun _ => .bind alike.expression fun _ =>
    .bind (alike.body (alike.deeper _) _) fun _ => .close _ _

/-- `if`, a condition and a body, further conditions, and an alternative. -/
theorem ifStatement :
    Parallel first second rounds enters (Faces rounds floor .kwIf) (fun _ => Past rounds floor)
      first.ifStatement second.ifStatement := by
  refine .bind (.past rfl) fun _ => .bind alike.expression fun _ =>
    .bind (alike.body (alike.deeper _) _) fun _ => .bind (alike.clauses alike.elsifClause) fun _ => ?_
  exact .bind (.addList _) fun _ => .bind alike.else? fun _ =>
    .bind (Parallel.expectEnd _ _ _).lower fun _ => .close _ _

/-- `unless`, a condition and a body, and an alternative. -/
theorem unlessStatement :
    Parallel first second rounds enters (Faces rounds floor .kwUnless) (fun _ => Past rounds floor)
      first.unlessStatement second.unlessStatement := by
  refine .bind (.past rfl) fun _ => .bind alike.expression fun _ =>
    .bind (alike.body (alike.deeper _) _) fun _ => .bind alike.else? fun _ => ?_
  exact .bind (Parallel.expectEnd _ _ _).lower fun _ => .close _ _

/-- `when`, patterns and a body. -/
theorem whenClause :
    Parallel first second rounds enters (Faces rounds (floor + 1) .kwWhen)
      (fun _ => Reaches rounds (floor + 1)) first.whenClause second.whenClause :=
  .bind (Parallel.past rfl).lower fun _ => .bind (alike.oneOrMore rfl alike.expression) fun _ =>
    .bind (.addList _) fun _ => .bind (alike.body (alike.deeper _) _) fun _ => .close _ _

/-- `case`, a subject, its branches, and an alternative. -/
theorem caseStatement :
    Parallel first second rounds enters (Faces rounds floor .kwCase) (fun _ => Past rounds floor)
      first.caseStatement second.caseStatement := by
  refine .bind (.past rfl) fun opening => .bind alike.expression fun subject =>
    .bind (alike.clauses alike.whenClause) fun whens => ?_
  have ends : Parallel first second rounds enters (Reaches rounds (floor + 1))
      (fun _ => Past rounds floor)
      (do
        let whens ← addList whens
        let otherwise ← first.else?
        expectEnd .kwCase opening.span .caseStatement
        close (.caseStatement subject whens otherwise) opening.span)
      (do
        let whens ← addList whens
        let otherwise ← second.else?
        expectEnd .kwCase opening.span .caseStatement
        close (.caseStatement subject whens otherwise) opening.span) :=
    .bind (.addList _) fun _ => .bind alike.else? fun _ =>
      .bind (Parallel.expectEnd _ _ _).lower fun _ => .close _ _
  dsimp only
  split
  · exact .reportFirst (fun _ => ⟨rfl, rfl⟩) rfl ends
  · exact ends

/-- `while`, a condition and a body. -/
theorem whileLoop :
    Parallel first second rounds enters (Faces rounds floor .kwWhile) (fun _ => Past rounds floor)
      first.whileLoop second.whileLoop :=
  .bind (.past rfl) fun _ => .bind alike.expression fun _ =>
    .bind (alike.body (alike.deeper _) _) fun _ => .bind (Parallel.expectEnd _ _ _).lower fun _ =>
      .close _ _

/-- `until`, a condition and a body. -/
theorem untilLoop :
    Parallel first second rounds enters (Faces rounds floor .kwUntil) (fun _ => Past rounds floor)
      first.untilLoop second.untilLoop :=
  .bind (.past rfl) fun _ => .bind alike.expression fun _ =>
    .bind (alike.body (alike.deeper _) _) fun _ => .bind (Parallel.expectEnd _ _ _).lower fun _ =>
      .close _ _

/-- `for`, a variable, what it ranges over, and a body. -/
theorem forLoop :
    Parallel first second rounds enters (Faces rounds floor .kwFor) (fun _ => Past rounds floor)
      first.forLoop second.forLoop := by
  refine .bind (.past rfl) fun _ => .bind (Parallel.expectIdentifier _).lower fun _ =>
    .bind (.addNode _ _) fun _ => .bind (Parallel.expect rfl _).lower fun _ =>
      .bind alike.expression fun _ => ?_
  exact .bind (alike.body (alike.deeper _) _) fun _ =>
    .bind (Parallel.expectEnd _ _ _).lower fun _ => .close _ _

/-- `rescue`, the errors it is for, and a body. -/
theorem rescueClause :
    Parallel first second rounds enters (Faces rounds (floor + 1) .kwRescue)
      (fun _ => Reaches rounds (floor + 1)) first.rescueClause second.rescueClause :=
  .bind (Parallel.past rfl).lower fun _ => .bind .rescueFilter? fun _ =>
    .bind (alike.body (alike.deeper _) _) fun _ => .close _ _

/-- `ensure` and a body. -/
theorem ensure? {tags : Tag → Prop} :
    Parallel first second rounds enters (At rounds (floor + 1) tags)
      (fun _ => Reaches rounds (floor + 1)) first.ensure? second.ensure? := by
  refine .bind (.check .kwEnsure) fun found => .branch ?_ (.pure _ fun _ stands => stands.reaches)
  exact .bind .advance fun _ => .bind (alike.body (alike.deeper _) _) fun _ =>
    .bind (.close _ _) fun _ => .pure _ fun _ stands => stands

/-- `begin` and a body, what to do about errors, and what to do in any case. -/
theorem beginBlock :
    Parallel first second rounds enters (Faces rounds floor .kwBegin) (fun _ => Past rounds floor)
      first.beginBlock second.beginBlock := by
  refine .bind (.past rfl) fun _ => .bind (alike.body (alike.deeper _) _) fun _ =>
    .bind (alike.clauses alike.rescueClause) fun _ => .bind (.addList _) fun _ => ?_
  exact .bind alike.ensure? fun _ => .bind (Parallel.expectEnd _ _ _).lower fun _ => .close _ _

/-- `return`, with a value or without. -/
theorem returnJump :
    Parallel first second rounds enters (Faces rounds floor .kwReturn) (fun _ => Past rounds floor)
      first.returnJump second.returnJump :=
  .bind (.past rfl) fun _ => .bind .tagged fun _ =>
    .weaken (fun _ => And.left) (.chosen alike.expression (fun _ stands => stands) fun _ =>
      .close _ _)

/-- `raise` and an expression in parentheses. -/
theorem raiseJump :
    Parallel first second rounds enters (Faces rounds floor .kwRaise) (fun _ => Past rounds floor)
      first.raiseJump second.raiseJump :=
  .bind (.past rfl) fun _ => .bind (Parallel.expect rfl _).lower fun _ =>
    .bind alike.expression fun _ => .bind (Parallel.expect rfl _).lower fun _ => .close _ _

/-- `yield`, bare or with arguments. -/
theorem yieldJump :
    Parallel first second rounds enters (Faces rounds floor .kwYield) (fun _ => Past rounds floor)
      first.yieldJump second.yieldJump :=
  .bind (.past rfl) fun _ => .bind (.check .leftParen) fun _ =>
    .optional alike.arguments.later fun _ => .close _ _

/-- The local name of an import. -/
theorem asName? :
    Parallel first second rounds enters (Past rounds floor) (fun _ => Past rounds floor)
      first.asName? second.asName? :=
  .bind (.eatPast rfl) fun _ => .choose
    (.bind (Parallel.expectIdentifier _).lower fun _ => .bind (Parallel.expect rfl _).lower fun _ =>
      .bind alike.stringLiteral.lower fun _ => .pure _ fun _ stands => stands)
    (.pure _ fun _ stands => stands)

/-- An import. -/
theorem requireImport {tags : Tag → Prop} :
    Parallel first second rounds enters (At rounds floor tags) (fun _ => Past rounds floor)
      first.requireImport second.requireImport := by
  refine .bind (.expectIdentifier _) fun _ => .bind (.addNode _ _) fun _ =>
    .bind (Parallel.expect rfl _).lower fun _ => .bind (Parallel.expectIdentifier _).lower fun _ =>
      .bind (Parallel.expect rfl _).lower fun _ => ?_
  exact .bind alike.stringLiteral.lower fun _ => .bind alike.asName? fun _ =>
    .bind (Parallel.expect rfl _).lower fun _ => .close _ _

/-- A statement that no keyword introduces, where an expression can be entered from where it
begins. -/
theorem plainStatement (enter : ∀ cursor : Cursor, cursor.Reaches rounds floor →
      enters (.expression .assignment) cursor) {tags : Tag → Prop} :
    Parallel first second rounds enters (At rounds floor tags) (fun _ => Past rounds floor)
      first.plainStatement second.plainStatement := by
  have expression {tags : Tag → Prop} : Parallel first second rounds enters (At rounds floor tags)
      (fun _ => Past rounds floor) first.expression second.expression := by
    refine .deeper _ (fun cursor stands => enter cursor stands.reaches) ?_
    intro cursor final id stands past
    have le := stands.floor
    exact past.mono (by omega) fun outside => outside
  refine .bind .currentTag fun tag => ?_
  rw [← alike.soft]
  refine .choose ?_ (.choose (.fail (fun _ => ⟨rfl, rfl⟩) rfl) expression)
  exact .bind (.ask (Lookahead.Peeks.startsImport _ _)) fun _ =>
    .choose alike.requireImport expression

omit alike in
/-- A jump that is one word. -/
theorem jump {tag : Tag} (whole : tag.isWhole = true) (kind : NodeKind) :
    Parallel first second rounds enters (Faces rounds floor tag) (fun _ => Past rounds floor)
      (liftM (leaf kind)) (liftM (leaf kind)) :=
  .bind (.past whole) fun _ => .addNode _ _

/-- A statement, where an expression can be entered from where it begins. -/
theorem statement (enter : ∀ cursor : Cursor, cursor.Reaches rounds floor →
      enters (.expression .assignment) cursor) {tags : Tag → Prop} :
    Parallel first second rounds enters (At rounds floor tags) (fun _ => Past rounds floor)
      first.statement second.statement := by
  refine .bind .currentTag fun tag => ?_
  split
  · exact alike.method
  · exact alike.method
  · exact alike.exportedMethod
  · exact alike.classDeclaration
  · exact alike.ifStatement
  · exact alike.unlessStatement
  · exact alike.caseStatement
  · exact alike.whileLoop
  · exact alike.untilLoop
  · exact alike.forLoop
  · exact alike.beginBlock
  · exact alike.returnJump
  · exact jump rfl .breakJump
  · exact jump rfl .nextJump
  · exact alike.raiseJump
  · exact alike.yieldJump
  · exact alike.plainStatement enter

end Alike

end Grammar

end Vibescript
