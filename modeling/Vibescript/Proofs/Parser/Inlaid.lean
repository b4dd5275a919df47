import Vibescript.Proofs.Parser.Completeness
import Vibescript.Proofs.Parser.FollowingSteps

/-!
# Productions inside another text

Each production of one grammar follows that of another: what it reads without errors in a text, the
other reads in the text that this one stands in. Lists and clauses are read before a token that closes
them. What stands last in a statement is read anywhere, since the tail does not go on with it. There is
one lemma for each production, assembled from those of what it is put together from.
-/
namespace Vibescript

open Build Parse

/-- Where a request is read. -/
def Request.stance : Request → Stance
  | .statement => .awake
  | _ => .anywhere

/-- The readings one level deeper follow each other, and everything else is the same. -/
structure Grammar.Inlaid (first : Grammar) (seam : Seam) (second : Grammar) : Prop where
  /-- Both recover from errors. -/
  recovers : first.options.recovery = .recover ∧ second.options.recovery = .recover
  /-- Both know their words. -/
  soft : first.soft = seam.first ∧ second.soft = seam.second
  /-- The bounds on rounds are the same. -/
  rounds : first.rounds = second.rounds
  /-- The readings one level deeper follow each other. -/
  deeper : ∀ request,
    Follows seam request.stance .always .node (first.deeper request) (second.deeper request)

namespace Agreement

/-- Types that agree: the same mark, and names of one text. -/
def typed : Agreement (TypeReference × Bool)
  | (.named left, marked), (.named right, other) => (Lasting.of (marked = other)).and (name left right)
  | (.nil, marked), (.nil, other) => .of (marked = other)
  | _, _ => .of False

/-- Names of methods that agree. -/
def methodName : Agreement MethodName := fun left right =>
  (Lasting.of (left.isSingleton = right.isSingleton)).and (name left.name right.name)

end Agreement

namespace Grammar

variable {seam : Seam} {stance : Stance} {known : Lasting} {first second : Grammar}

/-- The type that an identifier of a given text names. -/
def typeOf (name : Name) (text : String) : Build (TypeReference × Bool) :=
  if text.toList.getLast? = some '?' then
    let base := String.ofList text.toList.dropLast
    if base = "nil" then return (.nil, true)
    else do return (.named (← intern base), true)
  else return (.named name, false)

/-- The text of a name. -/
def textOf (name : Name) : Build String := do return (← cursor).nameText name

/-- The text of a name decides which type it names. -/
theorem namedType_eq (name : Name) :
    Grammar.namedType name = Grammar.textOf name >>= Grammar.typeOf name := by
  funext parser
  show Grammar.namedType name parser = Grammar.typeOf name (parser.cursor.nameText name) parser
  unfold Grammar.namedType Grammar.typeOf
  rfl

/-- The primary expression that a token starts. -/
def primaryOf (grammar : Grammar) : TokenKind Name → Parse NodeId
  | .identifier name => grammar.nameOrCall name
  | .stringOpen => grammar.stringLiteral
  | .fixed .leftBracket _ => grammar.arrayLiteral
  | .fixed .leftBrace _ => grammar.hashLiteral
  | .fixed .leftParen _ => grammar.parenthesized
  | kind =>
    match literal? kind with
    | some literal => leaf literal
    | none => do
      let error ← unexpected .expectedExpression .expressionStart
      throw ((error.withFault .missingExpression).within .expression)

/-- The operand after a unary operator or without one. -/
def operandOf (grammar : Grammar) : Option UnaryOp → Parse NodeId
  | some op => do
    let start ← advance
    let operand ← grammar.deeper .operand
    close (.unary op operand) start.span
  | none => do grammar.chain (← grammar.primary)

/-- The member of a class that a name declares. -/
def accessorsOf (grammar : Grammar) : Option AccessorKind → Parse NodeId
  | some kind => grammar.accessors kind
  | none => invalidMember

/-- An expression that does not start here. -/
def Lacks (cursor : Cursor) : Prop := TagSet.expressionStart.contains cursor.current.tag = false

/-- A primary expression is missing where no expression starts. -/
theorem refuses_primary (grammar : Grammar) : grammar.primary.Refuses Lacks := by
  intro here answer after goesOn lacks gives
  obtain ⟨⟨kind, span⟩, current⟩ : ∃ token, here.cursor.current = token := ⟨_, rfl⟩
  rw [Lacks, current] at lacks
  have missing : Barren (do
      let error ← Build.unexpected .expectedExpression .expressionStart
      throw ((error.withFault .missingExpression).within .expression) : Parse NodeId) :=
    .unexpected _ _ _
  refine missing.fails here answer after goesOn ?_
  have run : grammar.primary.run here = (grammar.primaryOf here.cursor.current.kind).run here := rfl
  rw [Gives, run, current] at gives
  cases kind with
  | fixed tag spelled =>
    have lacks : TagSet.expressionStart.contains tag = false := lacks
    cases tag <;> first | exact gives | contradiction
  | _ =>
    simp only [Token.tag, TokenKind.tag] at lacks
    first | exact gives | contradiction

/-- An operand is missing where no expression starts. -/
theorem refuses_operand {grammar : Grammar} (tame : grammar.primary.Tame)
    (chain : ∀ id, (grammar.chain id).Tame) : grammar.operand.Refuses Lacks := by
  intro here answer after goesOn lacks gives
  have binary : UnaryOp.ofTag? here.cursor.current.tag = none := by
    rw [Lacks] at lacks
    generalize here.cursor.current.tag = tag at lacks
    cases tag <;> first | rfl | contradiction
  have run : grammar.operand.run here = (grammar.primary >>= grammar.chain).run here := by
    show (grammar.operandOf (UnaryOp.ofTag? here.cursor.current.tag)).run here = _
    rw [binary]
    rfl
  rw [Gives, run] at gives
  exact (refuses_primary grammar).bind tame chain here answer after goesOn lacks gives

namespace Inlaid

/-- The type that an identifier names. -/
theorem namedType {name other : Name}
    (agrees : ∀ sides, known.holds sides → (Agreement.name name other).holds sides) :
    Follows seam .anywhere known .typed (liftM (Grammar.namedType name))
      (liftM (Grammar.namedType other)) := by
  rw [namedType_eq, namedType_eq, liftM_bind, liftM_bind]
  refine .asks (fun _ => rfl) (fun _ => rfl) (fun here there _ holds _ =>
    Agreement.text (agrees _ holds)) fun text => ?_
  unfold Grammar.typeOf
  split
  · dsimp only
    split
    · exact .pure fun _ _ => rfl
    · rw [liftM_bind]
      exact .bind (.intern fun _ _ => rfl) fun _ _ => .pure fun _ holds => ⟨rfl, holds.2⟩
  · exact .pure fun _ holds => ⟨rfl, agrees _ holds⟩

/-- A type name. -/
theorem typeName : Follows seam .inside known .node Grammar.typeName Grammar.typeName := by
  refine .currentKind Stance.isAwake_inside fun kind rename span place => ?_
  have ends (reference others : TypeReference × Bool) :
      Follows seam .inside
        ((known.and (.renamed kind rename)).and (Agreement.typed reference others)) .node
        (do
          let _ ← Build.advance
          let isMarkedAfter ← Build.eat .question
          Build.close (.typeName reference.1 (reference.2 || isMarkedAfter)) span)
        (do
          let _ ← Build.advance
          let isMarkedAfter ← Build.eat .question
          Build.close (.typeName others.1 (others.2 || isMarkedAfter)) place) := by
    refine .bind (.advance Stance.isAwake_inside) fun _ _ => .bindSame .eat fun marked =>
      .of_anywhere (.close (fun sides holds => ?_) _ _)
    obtain ⟨⟨_, typed⟩, _⟩ := holds
    obtain ⟨reference, marked⟩ := reference
    obtain ⟨other, others⟩ := others
    cases reference with
    | named name =>
      cases other with
      | named other =>
        obtain ⟨rfl, named⟩ := typed
        refine ⟨rfl, ⟨nofun, nofun⟩, fun after grows _ _ => ?_, .nil⟩
        exact congrArg (fun text => [text ++ _]) (Agreement.text_grows named grows)
      | nil => exact typed.elim
    | nil =>
      cases other with
      | named other => exact typed.elim
      | nil =>
        obtain rfl := typed
        exact ⟨rfl, ⟨nofun, nofun⟩, fun _ _ _ _ => rfl, .nil⟩
  cases kind with
  | identifier name =>
    exact .bind (.of_anywhere (namedType fun _ holds => holds.2 name rfl)) ends
  | constant name =>
    refine .bind (.of_anywhere (.pure fun _ holds => ?_)) ends
    exact ⟨rfl, holds.2 name rfl⟩
  | fixed tag spelled =>
    cases tag <;> first
      | exact .barren (.unexpectedFirst _ _ _ _)
      | exact .bind (.of_anywhere (.pure fun _ _ => rfl)) ends
  | _ => exact .barren (.unexpectedFirst _ _ _ _)

/-- The constant in parentheses that names the errors to rescue. -/
theorem rescueFilter? :
    Follows seam .inside known (.maybe .name) Grammar.rescueFilter? Grammar.rescueFilter? := by
  refine .bindSame (.ask .isRescueFilter .isRescueFilter fun unspent asking =>
    Lookahead.agreeAt_isRescueFilter asking unspent) fun found => ?_
  refine .choose (.bind (.advance Stance.isAwake_inside) fun _ _ =>
    .bind (.of_anywhere (.expectConstant _)) fun name other =>
      .bind (Shuts.expect _ rfl).within fun _ _ => .of_anywhere (.pure fun _ holds => ?_))
    (.of_anywhere (.pure fun _ _ => trivial))
  exact holds.1.2

/-- The name of a method. -/
theorem methodName :
    Follows seam .inside known .methodName Grammar.methodName Grammar.methodName := by
  refine .bindSame (.ask .isSelfQualifier .isSelfQualifier fun unspent asking =>
    Lookahead.agreeAt_isSelfQualifier asking unspent) fun isSingleton => ?_
  have named {known : Lasting} : Follows seam .inside known .methodName
      (methodNameOf isSingleton) (methodNameOf isSingleton) :=
    .bind (.of_anywhere (.expectIdentifier _)) fun _ _ =>
      .of_anywhere (.pure fun _ holds => ⟨rfl, holds.2⟩)
  dsimp only
  cases isSingleton with
  | true =>
    exact .bind (.advance Stance.isAwake_inside) fun _ _ =>
      .bind (.advance Stance.isAwake_inside) fun _ _ => named
  | false => exact named

variable (inlaid : first.Inlaid seam second)

include inlaid

/-- A loop. -/
theorem repeats {α : Type} {agree : Agreement α} {start other : α}
    {left right : α → Parse (ForInStep α)} (sameStance : stance.after = stance)
    (starts : ∀ sides, known.holds sides → (agree start other).holds sides)
    (round : ∀ state its, Follows seam stance (known.and (agree state its)) (.round agree)
      (left state) (right its)) :
    Follows seam stance known agree (first.loop start left) (second.loop other right) := by
  rw [Grammar.loop, Grammar.loop, inlaid.rounds]
  exact .loop sameStance _ starts round

/-- One or more items. -/
theorem oneOrMore {α : Type} {agree : Agreement α} {separator : Tag} {left right : Parse α}
    (item : Follows seam .inside .always agree left right) :
    Follows seam .inside known (.items agree) (first.oneOrMore separator left)
      (second.oneOrMore separator right) := by
  refine inlaid.repeats rfl (fun _ _ => Agreement.empty) fun items others => .bind item.regardless
    fun answer other => .bindSame .eat fun found => .of_anywhere (.pure fun _ holds => ?_)
  have pushed := Agreement.push holds.1.2 holds.2
  cases found with
  | true => exact pushed
  | false => exact pushed

/-- Items up to a closing token. -/
theorem itemsUntil {closer : Tag} {left right : Parse NodeId}
    (item : Follows seam .inside .always .node left right) :
    Follows seam .inside known (.items .node) (first.itemsUntil closer left)
      (second.itemsUntil closer right) := by
  refine inlaid.repeats rfl (fun _ _ => Agreement.empty) fun items others => .check Stance.isAwake_inside
    (.of_anywhere (.pure fun _ holds => holds.2)) (.bind item.regardless fun answer other =>
      .bindSame .eat fun found => .of_anywhere (.pure fun _ holds => ?_))
  have pushed := Agreement.push holds.1.2 holds.2
  cases found with
  | true => exact pushed
  | false => exact pushed

/-- An expression. -/
theorem expression : Follows seam stance known .node first.expression second.expression :=
  (inlaid.deeper (.expression .assignment)).regardless.of_anywhere

omit inlaid in
/-- One round over the pieces of a string literal. -/
theorem pieceStep (text : String) :
    Follows seam .anywhere known (.round .same) (Grammar.pieceStep text)
      (Grammar.pieceStep text) := by
  refine .cursorOrFail (fun here there rename same texts => ?_) fun cursor isEnd => ?_
  · rw [same]
    generalize here.current.kind = kind at texts
    cases kind with
    | stringContent run =>
      refine .bind (.advance Stance.isAwake_awake) fun _ _ => .pure fun _ _ => ?_
      exact congrArg (text ++ ·) (texts run rfl)
    | stringEscape char =>
      exact .bind (.advance Stance.isAwake_awake) fun _ _ => .pure fun _ _ => rfl
    | stringClose => exact .bind (.advance Stance.isAwake_awake) fun _ _ => .pure fun _ _ => rfl
    | _ => exact .barren (.unexpected _ _ _)
  · rw [isEnd]
    exact .unexpected _ _ _

/-- A string literal. -/
theorem stringLiteral :
    Follows seam .anywhere known .node first.stringLiteral second.stringLiteral := by
  rw [stringLiteral_eq, stringLiteral_eq]
  refine .bind (.expectWith Tag.noConfusion) fun _ _ => .bindSame (inlaid.repeats rfl
    (fun _ _ => rfl) fun _ _ => .ofSame pieceStep) fun text => .bind (.intern fun _ _ => rfl)
      fun _ _ => .close (fun sides holds => ?_) _ _
  refine ⟨rfl, ⟨nofun, nofun⟩, fun after grows _ _ => ?_, .nil⟩
  exact congrArg (fun text => [Text.quote text]) (Agreement.text_grows holds.2 grows)

/-- An array literal. -/
theorem arrayLiteral : Follows seam .awake known .node first.arrayLiteral second.arrayLiteral := by
  refine .bind (.advance Stance.isAwake_awake) fun _ _ => Shuts.toFollows (.after
    (inlaid.itemsUntil inlaid.expression) fun _ _ => .before (.expectCloser _ _ rfl) fun _ _ =>
      .bind (.addList fun _ holds => holds.1.2) fun _ _ => .close (fun sides holds => ?_) _ _)
  exact ⟨rfl, ⟨nofun, nofun⟩, fun _ _ _ _ => rfl, Agreement.many _ holds.2⟩

/-- An entry of a hash literal. -/
theorem hashEntry : Follows seam .inside known .node first.hashEntry second.hashEntry := by
  refine .currentKind Stance.isAwake_inside fun kind rename span place => ?_
  have ends (key others : NodeId) :
      Follows seam .inside
        ((known.and (.renamed kind rename)).and (Agreement.node key others)) .node
        (do
          let _ ← Build.splitSymbol
          let _ ← Parse.expect .colon .hash
          let value ← first.expression
          Build.close (.hashEntry key value) span)
        (do
          let _ ← Build.splitSymbol
          let _ ← Parse.expect .colon .hash
          let value ← second.expression
          Build.close (.hashEntry others value) place) := by
    refine .bindSame .splitSymbol fun _ => .bind (.of_anywhere (.expectWith Tag.noConfusion))
      fun _ _ => .bind inlaid.expression fun _ _ => .of_anywhere (.close (fun sides holds => ?_) _ _)
    exact ⟨rfl, ⟨nofun, nofun⟩, fun _ _ _ _ => rfl, Agreement.append (Agreement.one _ holds.1.1.2)
      (Agreement.one _ holds.2)⟩
  cases kind with
  | identifier name =>
    refine .bind (.advance (Stance.isAwake_inside.facing _)) fun _ _ => .bind (.of_anywhere
      (.addNode (fun sides holds => ?_) _ _)) fun key others =>
        (ends key others).weaken fun _ holds => ⟨holds.1.1, holds.2⟩
    exact ⟨rfl, ⟨nofun, nofun⟩, fun after grows _ _ => congrArg (fun text => [text])
      (Agreement.text_grows (holds.1.2 name rfl) grows), .nil⟩
  | stringOpen => exact .bind (.of_anywhere inlaid.stringLiteral) ends
  | _ => exact .barren (.unexpectedFirst _ _ _ _)

/-- A hash literal. -/
theorem hashLiteral : Follows seam .awake known .node first.hashLiteral second.hashLiteral := by
  refine .bind (.advance Stance.isAwake_awake) fun _ _ => Shuts.toFollows (.after
    (inlaid.itemsUntil inlaid.hashEntry) fun _ _ => .before (.expectCloser _ _ rfl) fun _ _ =>
      .bind (.addList fun _ holds => holds.1.2) fun _ _ => .close (fun sides holds => ?_) _ _)
  exact ⟨rfl, ⟨nofun, nofun⟩, fun _ _ _ _ => rfl, Agreement.many _ holds.2⟩

/-- An expression in parentheses. -/
theorem parenthesized :
    Follows seam .awake known .node first.parenthesized second.parenthesized := by
  refine .bind (.advance Stance.isAwake_awake) fun _ _ => .bind inlaid.expression fun _ _ =>
    .bind (.expectWith Tag.noConfusion) fun _ _ => .close (fun sides holds => ?_) _ _
  exact ⟨rfl, ⟨nofun, nofun⟩, fun _ _ _ _ => rfl, Agreement.one _ holds.1.2⟩

/-- An argument. -/
theorem argument : Follows seam .inside known .node first.argument second.argument := by
  refine .currentKind Stance.isAwake_inside fun kind rename span place => ?_
  cases kind with
  | identifier name =>
    refine .bindSame (.ask .isKeyword .isKeyword fun unspent asking =>
      Lookahead.agreeAt_isKeyword asking unspent.1 unspent.2) fun found => ?_
    refine .choose (.bind (.advance Stance.isAwake_inside) fun _ _ => .bindSame .splitSymbol
      fun _ => .bind (.advance Stance.isAwake_inside) fun _ _ => .bind (.of_anywhere (.addNode
        (fun sides holds => ?_) _ _)) fun _ _ => .bind inlaid.expression fun _ _ =>
          .of_anywhere (.close (fun sides holds => ?_) _ _)) inlaid.expression
    · exact ⟨rfl, ⟨nofun, nofun⟩, fun after grows _ _ => congrArg (fun text => [text])
        (Agreement.text_grows (holds.1.1.2 name rfl) grows), .nil⟩
    · exact ⟨rfl, ⟨nofun, nofun⟩, fun _ _ _ _ => rfl, Agreement.append
        (Agreement.one _ holds.1.2) (Agreement.one _ holds.2)⟩
  | _ => exact inlaid.expression

/-- Arguments in parentheses. -/
theorem arguments : Follows seam .anywhere known .range first.arguments second.arguments :=
  .bind (.expectWith Tag.noConfusion) fun _ _ => Shuts.toFollows (.after
    (inlaid.itemsUntil inlaid.argument) fun _ _ => .before (.expectCloser _ _ rfl) fun _ _ =>
      .addList fun _ holds => holds.1.2)

/-- Names with commas between them. -/
theorem names (construct : Construct) :
    Follows seam .inside known (fun items others =>
        Agreement.items .name (items.map Prod.fst) (others.map Prod.fst))
      (first.oneOrMore .comma (Parse.expectIdentifier construct))
      (second.oneOrMore .comma (Parse.expectIdentifier construct)) := by
  refine (inlaid.oneOrMore (.of_anywhere (.expectIdentifier construct))).mono ?_
  intro items others sides agrees
  show List.Forall₂ _ (items.map Prod.fst).toList (others.map Prod.fst).toList
  rw [Array.toList_map, Array.toList_map, List.forall₂_map_left_iff, List.forall₂_map_right_iff]
  exact agrees

/-- Nothing tells one parse to stop before the other. -/
theorem shouldHalt {α : Type} {agree : Agreement α} {leftNext rightNext : Bool → Parse α}
    (goesOn : Follows seam stance known agree (leftNext false) (rightNext false))
    (tame : (leftNext true).Tame) :
    Follows seam stance known agree (liftM first.shouldHalt >>= leftNext)
      (liftM second.shouldHalt >>= rightNext) := by
  refine ⟨.bind (.quiet fun parser => .refl parser) fun halts => ?_,
    fun here there beside holds admitted answer after gives => ?_⟩
  · cases halts with
    | true => exact tame
    | false => exact goesOn.tame
  · have gave : (leftNext (first.shouldHalt here).1).Gives here answer after := gives
    rw [shouldHalt_eq inlaid.recovers.1 beside.goesOn.1] at gave
    have run : (liftM second.shouldHalt >>= rightNext).run there =
      (rightNext (second.shouldHalt there).1).run there := rfl
    rw [CatchesUp, run, shouldHalt_eq inlaid.recovers.2 beside.goesOn.2]
    exact goesOn.follows here there beside holds admitted answer after gave

/-- One round of a body. -/
theorem bodyStep (terminators : TagSet) (statements others : Array NodeId) :
    Follows seam .inside (known.and (Agreement.items .node statements others))
      (.round (.items .node)) (liftM (first.bodyStep terminators statements))
      (liftM (second.bodyStep terminators others)) := by
  rw [liftM_bodyStep_statementStep, liftM_bodyStep_statementStep]
  refine inlaid.shouldHalt ?_ (.bind (.quiet isQuiet_skipToEnd) fun _ => .pure _)
  refine .claim (fun _ _ pending admitted => .inl (Stance.isAwake_inside _ _ pending admitted))
    (fun _ => rfl) (fun _ => rfl)
    (fun id other => .pure fun _ holds => Agreement.push holds.1.2 holds.2) ?_
  refine Follows.relax ?_ (fun _ _ _ admitted => admitted.1) id
  refine .currentTag Stance.isAwake_inside fun tag => .choose
    (.of_anywhere (.pure fun _ holds => holds.2)) ?_
  exact .rounds (.attemptStep (.of_awake (Stance.isAwake_inside.facing tag)
    (inlaid.deeper .statement).regardless) (fun cursor => cursor.onward_synchronize _)
      fun _ holds => holds.2)

/-- A body. -/
theorem body (terminators : TagSet) :
    Follows seam .inside known .range (liftM (first.body terminators))
      (liftM (second.body terminators)) := by
  rw [Grammar.body, Grammar.body, liftM_bind, liftM_bind, Grammar.loop, Grammar.loop,
    liftM_repeatWithin, liftM_repeatWithin, inlaid.rounds]
  exact .bind (.loop rfl _ (fun _ _ => Agreement.empty) (inlaid.bodyStep terminators)) fun _ _ =>
    .of_anywhere (.addList fun _ holds => holds.2)

/-- The names between the bars of a block. -/
theorem blockParameters :
    Follows seam .inside known .nameRange first.blockParameters second.blockParameters := by
  refine .bindSame .eat fun _ => .choose (.bind (inlaid.names _) fun _ _ =>
    .bind (.of_anywhere (.expectWith Tag.noConfusion)) fun _ _ =>
      .of_anywhere (.addNames fun _ holds => holds.1.2)) (.of_anywhere (.addNames fun _ _ => ?_))
  rw [Array.map_empty]
  exact Agreement.empty

/-- A block. -/
theorem block? : Follows seam .anywhere known (.maybe .node) first.block? second.block? := by
  refine .checkOrTail rfl (.bind (.advance Stance.isAwake_awake) fun _ _ => Shuts.toFollows
    (.after inlaid.blockParameters fun _ _ => .after (inlaid.body _) fun _ _ =>
      .before (.expectEnd _ _ _ _) fun _ _ => .bind (.close (fun sides holds => ?_) _ _) fun _ _ =>
        .pure fun _ holds => holds.2)) (.pure fun _ _ => trivial)
  obtain ⟨⟨⟨_, parameters⟩, body⟩, _⟩ := holds
  refine ⟨rfl, ⟨nofun, nofun⟩, fun after grows root place => ?_, Agreement.many _ body⟩
  rw [SyntaxTree.attributes, SyntaxTree.attributes, Agreement.size_nameRange parameters,
    Agreement.texts_grows parameters grows root place]

/-- The arguments and the block of a call. -/
theorem call {receiver other : Option NodeId} {method named : Name}
    (receivers : ∀ sides, known.holds sides → (Agreement.maybe .node receiver other).holds sides)
    (methods : ∀ sides, known.holds sides → (Agreement.name method named).holds sides)
    (start place : Span) :
    Follows seam .anywhere known .node (first.call receiver method start)
      (second.call other named place) := by
  refine .bind inlaid.arguments fun _ _ => .bind inlaid.block? fun _ _ =>
    .close (fun sides holds => ?_) _ _
  obtain ⟨⟨holds, arguments⟩, block⟩ := holds
  exact ⟨rfl, ⟨nofun, nofun⟩, fun after grows _ _ => congrArg (fun text => [text])
    (Agreement.text_grows (methods _ holds) grows), Agreement.append (Agreement.append
      (Agreement.optional _ (receivers _ holds)) (Agreement.many _ arguments))
        (Agreement.optional _ block)⟩

/-- What follows the point after an operand. -/
theorem member {receiver other : NodeId}
    (receivers : ∀ sides, known.holds sides → (Agreement.node receiver other).holds sides)
    (start place : Span) :
    Follows seam .awake known .node (first.member receiver start)
      (second.member other place) := by
  refine .bind (.advance Stance.isAwake_awake) fun _ _ => .bind (.expectIdentifier _)
    fun name named => .checkOrTail rfl (.of_anywhere (inlaid.call (fun _ holds => ?_)
      (fun _ holds => ?_) _ _)) (.bind inlaid.block? fun _ _ =>
        .close (fun sides holds => ?_) _ _)
  · exact receivers _ holds.1.1
  · exact holds.2
  · obtain ⟨⟨⟨holds, _⟩, named⟩, block⟩ := holds
    exact ⟨rfl, ⟨nofun, nofun⟩, fun after grows _ _ => congrArg (fun text => [text])
      (Agreement.text_grows named grows), Agreement.append (Agreement.one _ (receivers _ holds))
        (Agreement.optional _ block)⟩

/-- An index in brackets after an operand. -/
theorem subscript {receiver other : NodeId}
    (receivers : ∀ sides, known.holds sides → (Agreement.node receiver other).holds sides)
    (start place : Span) :
    Follows seam .awake known .node (first.subscript receiver start)
      (second.subscript other place) := by
  refine .bind (.advance Stance.isAwake_awake) fun _ _ => .bind inlaid.expression fun _ _ =>
    .bind (.expectWith Tag.noConfusion) fun _ _ => .close (fun sides holds => ?_) _ _
  obtain ⟨⟨⟨holds, _⟩, index⟩, _⟩ := holds
  exact ⟨rfl, ⟨nofun, nofun⟩, fun _ _ _ _ => rfl, Agreement.append
    (Agreement.one _ (receivers _ holds)) (Agreement.one _ index)⟩

omit inlaid in
/-- A token that does not go on with an expression ends it. -/
theorem ends_of_detached {opening : Tag} (detached : opening.attaches = false) :
    opening ≠ .dot ∧ opening ≠ .leftBracket ∧ InfixOp.ofTag? opening = none := by
  cases opening <;> first | contradiction | exact ⟨Tag.noConfusion, Tag.noConfusion, rfl⟩

/-- One round over what follows an operand. -/
theorem chainStep (left other : NodeId) :
    Follows seam .anywhere (known.and (Agreement.node left other)) (.round .node)
      (first.chainStep left) (second.chainStep other) := by
  refine .bind (.noted (fun _ => rfl) fun _ => rfl) fun _ _ => .currentTagOrTail (fun tag => ?_)
    fun opening detached => ?_
  · split
    · refine .bind (inlaid.member (fun _ holds => ?_) _ _) fun _ _ => .pure fun _ holds => holds.2
      exact holds.1.2
    · refine .bind (inlaid.subscript (fun _ holds => ?_) _ _) fun _ _ =>
        .pure fun _ holds => holds.2
      exact holds.1.2
    · exact .of_anywhere (.pure fun _ holds => holds.1.2)
  · obtain ⟨notDot, notBracket, _⟩ := ends_of_detached detached
    split
    · contradiction
    · contradiction
    · exact .pure fun _ holds => holds.1.2

/-- Calls, members and subscripts after an operand. -/
theorem chain {operand other : NodeId}
    (operands : ∀ sides, known.holds sides → (Agreement.node operand other).holds sides) :
    Follows seam .anywhere known .node (first.chain operand) (second.chain other) := by
  rw [chain_eq, chain_eq, inlaid.rounds]
  exact .loop rfl _ operands inlaid.chainStep

/-- A name or a call. -/
theorem nameOrCall {name other : Name}
    (names : ∀ sides, known.holds sides → (Agreement.name name other).holds sides) :
    Follows seam .awake known .node (first.nameOrCall name) (second.nameOrCall other) := by
  refine .bind (.advance Stance.isAwake_awake) fun _ _ => .checkOrTail rfl (.of_anywhere
    (inlaid.call (fun _ _ => ?_) (fun _ holds => ?_) _ _)) (.addNode (fun sides holds => ?_) _ _)
  · trivial
  · exact names _ holds.1
  exact ⟨rfl, ⟨nofun, nofun⟩, fun after grows _ _ => congrArg (fun text => [text])
    (Agreement.text_grows (names _ holds.1) grows), .nil⟩

omit inlaid in
/-- A node of a token without children. -/
theorem leaf {kind other : NodeKind} (name : kind.name = other.name)
    (inner : (∀ body, kind ≠ .program body) ∧ ∀ body, other ≠ .program body)
    (attributes : ∀ sides after : Sides, known.holds sides → sides.Grows after →
      ∀ root place : NodeId, SyntaxTree.attributes ⟨after.left.arena, after.left.names, root⟩ kind =
        SyntaxTree.attributes ⟨after.right.arena, after.right.names, place⟩ other)
    (none : kind.fields = [] ∧ other.fields = []) :
    Follows seam .awake known .node (liftM (Build.leaf kind)) (liftM (Build.leaf other)) := by
  refine .leaf fun sides holds => ⟨name, inner, fun after => attributes sides after holds, ?_⟩
  rw [none.1, none.2]
  exact .nil

/-- A primary expression. -/
theorem primary : Follows seam .anywhere known .node first.primary second.primary := by
  refine .currentKindOrFail (fun kind rename span place => ?_) fun span => .unexpected _ _ _
  have named {name : Name} (member : name ∈ kind.name?) (write : String → String) :
      ∀ sides after : Sides, (known.and (.renamed kind rename)).holds sides → sides.Grows after →
        write (after.left.names.text name) = write (after.right.names.text (rename name)) :=
    fun _ _ holds grows => congrArg write (Agreement.text_grows (holds.2 name member) grows)
  cases kind with
  | identifier name => exact inlaid.nameOrCall fun _ holds => holds.2 name rfl
  | stringOpen => exact .of_anywhere inlaid.stringLiteral
  | fixed tag spelled =>
    cases tag <;> first
      | exact .barren (.unexpected _ _ _)
      | exact inlaid.arrayLiteral
      | exact inlaid.hashLiteral
      | exact inlaid.parenthesized
      | exact leaf rfl ⟨nofun, nofun⟩ (fun _ _ _ _ _ _ => rfl) ⟨rfl, rfl⟩
  | constant name =>
    exact leaf rfl ⟨nofun, nofun⟩ (fun sides after holds grows _ _ =>
      congrArg (fun text => [text]) (named rfl id sides after holds grows)) ⟨rfl, rfl⟩
  | integer value => exact leaf rfl ⟨nofun, nofun⟩ (fun _ _ _ _ _ _ => rfl) ⟨rfl, rfl⟩
  | float value => exact leaf rfl ⟨nofun, nofun⟩ (fun _ _ _ _ _ _ => rfl) ⟨rfl, rfl⟩
  | symbol name =>
    exact leaf rfl ⟨nofun, nofun⟩ (fun sides after holds grows _ _ =>
      congrArg (fun text => [text]) (named rfl (":" ++ ·) sides after holds grows)) ⟨rfl, rfl⟩
  | instanceVariable name =>
    exact leaf rfl ⟨nofun, nofun⟩ (fun sides after holds grows _ _ =>
      congrArg (fun text => [text]) (named rfl ("@" ++ ·) sides after holds grows)) ⟨rfl, rfl⟩
  | classVariable name =>
    exact leaf rfl ⟨nofun, nofun⟩ (fun sides after holds grows _ _ =>
      congrArg (fun text => [text]) (named rfl ("@@" ++ ·) sides after holds grows)) ⟨rfl, rfl⟩
  | _ => exact .barren (.unexpected _ _ _)

/-- An operand. -/
theorem operand : Follows seam .anywhere known .node first.operand second.operand := by
  have primary : Follows seam .anywhere known .node first.primary second.primary := inlaid.primary
  have chain (id other : NodeId) : Follows seam .anywhere (known.and (Agreement.node id other)) .node
      (first.chain id) (second.chain other) := inlaid.chain fun _ holds => holds.2
  have awake : Follows seam .awake known .node first.operand second.operand := by
    refine .currentTag Stance.isAwake_awake fun tag => ?_
    split
    · refine .bind (.advance (Stance.isAwake_awake.facing tag)) fun _ _ =>
        .bind (inlaid.deeper .operand).regardless fun _ _ => .close (fun sides holds => ?_) _ _
      exact ⟨rfl, ⟨nofun, nofun⟩, fun _ _ _ _ => rfl, Agreement.one _ holds.2⟩
    · exact .of_anywhere (.bind primary chain)
  refine awake.anywhere_of_fails fun here answer after goesOn atEnd => ?_
  refine refuses_operand primary.tame (fun id => (chain id id).tame) here answer after goesOn ?_
  rw [Lacks, show here.cursor.current.tag = .endOfInput from beq_iff_eq.mp atEnd]
  decide

/-- One round over the operators of an expression. -/
theorem infixStep (least : BindingPower) (left other : NodeId) :
    Follows seam .anywhere (known.and (Agreement.node left other)) (.round .node)
      (first.infixStep least left) (second.infixStep least other) := by
  refine .currentTagOrTail (fun tag => ?_) fun opening detached => ?_
  · split
    · exact .of_anywhere (.pure fun _ holds => holds.2)
    · next op _ =>
      split
      · exact .of_anywhere (.pure fun _ holds => holds.2)
      · refine .bind (.advance Stance.isAwake_awake) fun _ _ =>
          .bind (.noted (fun _ => rfl) fun _ => rfl) fun _ _ =>
          .bind (inlaid.deeper (.expression op.rightPower)).regardless fun _ _ =>
          .bind (.close (fun sides holds => ?_) _ _) fun _ _ => .pure fun _ holds => holds.2
        obtain ⟨⟨⟨⟨_, left⟩, _⟩, _⟩, right⟩ := holds
        have fields := Agreement.append (Agreement.one "left" left) (Agreement.one "right" right)
        have targets := Agreement.append (Agreement.one "target" left) (Agreement.one "value" right)
        cases op <;> exact ⟨rfl, ⟨nofun, nofun⟩, fun _ _ _ _ => rfl, by assumption⟩
  · rw [(ends_of_detached detached).2.2]
    exact .pure fun _ holds => holds.2

/-- An expression whose operators bind at least as tightly as a power. -/
theorem expressionFrom (least : BindingPower) :
    Follows seam .anywhere known .node (first.expressionFrom least)
      (second.expressionFrom least) := by
  rw [expressionFrom_eq, expressionFrom_eq]
  exact .bind inlaid.operand fun _ _ => inlaid.repeats rfl (fun _ holds => holds.2)
    (inlaid.infixStep least)

/-- A type. -/
theorem typeUnion : Follows seam .inside known .node first.typeUnion second.typeUnion := by
  refine .bind (.of_anywhere (.noted (fun _ => rfl) fun _ => rfl)) fun _ _ =>
    .bind (inlaid.oneOrMore typeName) fun _ _ => .bind (.of_anywhere (.addList fun _ holds => ?_))
      fun _ _ => .of_anywhere (.close (fun sides holds => ?_) _ _)
  · exact holds.2
  exact ⟨rfl, ⟨nofun, nofun⟩, fun _ _ _ _ => rfl, Agreement.many _ holds.2⟩

/-- The value of a parameter that is not given. -/
theorem default? : Follows seam .inside known (.maybe .node) first.default? second.default? := by
  refine .bindSame .eat fun _ => .choose (.bind inlaid.expression fun _ _ =>
    .of_anywhere (.pure fun _ holds => ?_)) (.of_anywhere (.pure fun _ _ => trivial))
  exact holds.2

/-- A type after a colon. -/
theorem variableType? :
    Follows seam .inside known (.maybe .node) first.variableType? second.variableType? := by
  refine .bindSame .splitSymbol fun _ => .bindSame .eat fun _ => .choose
    (.bind inlaid.typeUnion fun _ _ => .of_anywhere (.pure fun _ holds => ?_))
    (.of_anywhere (.pure fun _ _ => trivial))
  exact holds.2

/-- A parameter of a given shape. -/
theorem parameterOf (shape : Lookahead.ParameterShape) :
    Follows seam .inside known .node (first.parameterOf shape) (second.parameterOf shape) := by
  refine .advanceKind Stance.isAwake_inside fun kind rename span place => ?_
  have ends {known : Lasting} (kind others : NodeKind) : Follows seam .inside
      (known.and (Agreement.kind kind others)) .node (liftM (Build.close kind span))
        (liftM (Build.close others place)) := by
    refine .of_anywhere (.close (fun sides holds => ?_) _ _)
    exact holds.2
  cases kind with
  | identifier name =>
    have simple : Follows seam .inside
        (known.and (.renamed (.identifier name) rename)) .node
        (do
          let value ← first.default?
          let kind ← Pure.pure (.simpleParameter name value)
          Build.close kind span)
        (do
          let value ← second.default?
          let kind ← Pure.pure (.simpleParameter (rename name) value)
          Build.close kind place) := by
      refine .bind inlaid.default? fun _ _ => .bind (.of_anywhere (.pure fun sides holds => ?_)) ends
      exact ⟨rfl, ⟨nofun, nofun⟩, fun after grows _ _ => congrArg (fun text => [text])
        (Agreement.text_grows (holds.1.2 name rfl) grows), Agreement.optional _ holds.2⟩
    cases shape with
    | typed =>
      refine .bindSame .splitSymbol fun _ => .bind (.of_anywhere (.expectWith Tag.noConfusion))
        fun _ _ => .bind inlaid.typeUnion fun _ _ => .bind inlaid.default? fun _ _ =>
          .bind (.of_anywhere (.pure fun sides holds => ?_)) ends
      obtain ⟨⟨⟨⟨_, renamed⟩, _⟩, type⟩, value⟩ := holds
      exact ⟨rfl, ⟨nofun, nofun⟩, fun after grows _ _ => congrArg (fun text => [text])
        (Agreement.text_grows (renamed name rfl) grows),
        Agreement.append (Agreement.one _ type) (Agreement.optional _ value)⟩
    | simple => exact simple
    | instanceVariable => exact simple
  | instanceVariable name =>
    cases shape with
    | instanceVariable =>
      refine .bind inlaid.variableType? fun _ _ =>
        .bind (.of_anywhere (.pure fun sides holds => ?_)) ends
      exact ⟨rfl, ⟨nofun, nofun⟩, fun after grows _ _ => congrArg (fun text => ["@" ++ text])
        (Agreement.text_grows (holds.1.2 name rfl) grows), Agreement.optional _ holds.2⟩
    | _ => exact .barren (.throwFirst _ _)
  | _ => cases shape <;> exact .barren (.throwFirst _ _)

/-- A parameter. -/
theorem parameter : Follows seam .inside known .node first.parameter second.parameter := by
  refine .bindSame (.ask .parameter? .parameter? fun unspent asking =>
    Lookahead.agreeAt_parameter? asking unspent) fun found => ?_
  cases found with
  | some shape => exact inlaid.parameterOf shape
  | none => exact .barren (.unexpected _ _ _)

/-- A parameter list. -/
theorem parameters : Follows seam .anywhere known .node first.parameters second.parameters := by
  refine .bind (.expectWith Tag.noConfusion) fun _ _ => Shuts.toFollows (.after
    (inlaid.itemsUntil inlaid.parameter) fun _ _ => .before (.expectCloser _ _ rfl) fun _ _ =>
      .bind (.addList fun _ holds => holds.1.2) fun _ _ => .close (fun sides holds => ?_) _ _)
  exact ⟨rfl, ⟨nofun, nofun⟩, fun _ _ _ _ => rfl, Agreement.many _ holds.2⟩

omit inlaid in
/-- A reading that a choice leaves out or not, before another that closes something. -/
theorem optional {α β : Type} {between : Agreement α} {agree : Agreement β} {found : Bool}
    {left right : Parse α} {leftNext rightNext : Option α → Parse β}
    (reading : Follows seam .inside known between left right)
    (next : ∀ answer other, Shuts seam (known.and (Agreement.maybe between answer other)) agree
      (leftNext answer) (rightNext other)) :
    Shuts seam known agree
      (if found = true then some <$> left >>= leftNext else Pure.pure none >>= leftNext)
      (if found = true then some <$> right >>= rightNext else Pure.pure none >>= rightNext) := by
  cases found with
  | true => exact .after (.present reading) next
  | false => exact .after (.of_anywhere (.pure fun _ _ => trivial)) next

/-- A method declaration. -/
theorem method : Shuts seam known .node first.method second.method := by
  refine .after (.of_anywhere (.noted (fun _ => rfl) fun _ => rfl)) fun _ _ => .afterSame .eat
    fun isPrivate => .after (.of_anywhere (.expectWith Tag.noConfusion)) fun _ _ =>
      .after methodName fun _ _ => .afterSame (.checked Stance.isAwake_inside _) fun _ =>
        optional (.of_anywhere inlaid.parameters) fun _ _ => .afterSame .eat fun _ =>
          optional inlaid.typeUnion fun _ _ => .after (inlaid.body _) fun _ _ =>
            .before (.expectEnd _ _ _ _) fun _ _ => .close (fun sides holds => ?_) _ _
  obtain ⟨⟨⟨⟨⟨_, singleton, name⟩, inputs⟩, type⟩, body⟩, _⟩ := holds
  refine ⟨rfl, ⟨nofun, nofun⟩, fun after grows _ _ => ?_, Agreement.append (Agreement.append
    (Agreement.optional _ inputs) (Agreement.optional _ type)) (Agreement.many _ body)⟩
  rw [SyntaxTree.attributes, SyntaxTree.attributes, SyntaxTree.text, SyntaxTree.text, singleton,
    Agreement.text_grows name grows]

/-- An exported method. -/
theorem exportedMethod :
    Follows seam .awake known .node first.exportedMethod second.exportedMethod := by
  have method {known : Lasting} (span place : Span) : Follows seam .anywhere known .node
      (first.method >>= fun inner => liftM (Build.close (.exportMethod inner) span))
      (second.method >>= fun inner => liftM (Build.close (.exportMethod inner) place)) := by
    refine .bind inlaid.method.toFollows fun _ _ => .close (fun sides holds => ?_) _ _
    exact ⟨rfl, ⟨nofun, nofun⟩, fun _ _ _ _ => rfl, Agreement.one _ holds.2⟩
  refine .bind (.advance Stance.isAwake_awake) fun _ _ => .currentTagOrTail (fun tag => .choose
    (.of_anywhere (method _ _)) (.barren (.unexpected _ _ _))) fun opening _ => ?_
  exact .barren (.unexpected _ _ _)

/-- Accessor declarations. -/
theorem accessors (kind : AccessorKind) :
    Follows seam .inside known .node (first.accessors kind) (second.accessors kind) := by
  refine .bind (.advance Stance.isAwake_inside) fun _ _ => .bind (inlaid.names _) fun _ _ =>
    .bind (.of_anywhere (.addNames fun _ holds => ?_)) fun _ _ =>
      .of_anywhere (.close (fun sides holds => ?_) _ _)
  · exact holds.2
  · exact ⟨rfl, ⟨by cases kind <;> nofun, nofun⟩, fun after grows root place =>
      Agreement.texts_grows holds.2 grows root place, .nil⟩

/-- The first value of a class variable. -/
theorem classVariable {name other : Name}
    (names : ∀ sides, known.holds sides → (Agreement.name name other).holds sides) :
    Follows seam .inside known .node (first.classVariable name) (second.classVariable other) := by
  refine .bind (.advance Stance.isAwake_inside) fun _ _ =>
    .bind (.of_anywhere (.expectWith Tag.noConfusion)) fun _ _ => .bind inlaid.expression fun _ _ =>
      .of_anywhere (.close (fun sides holds => ?_) _ _)
  exact ⟨rfl, ⟨nofun, nofun⟩, fun after grows _ _ => congrArg (fun text => ["@@" ++ text])
    (Agreement.text_grows (names _ holds.1.1.1) grows), Agreement.one _ holds.2⟩

omit inlaid in
/-- Names that agree introduce the same accessor declaration. -/
theorem accessor?_eq {here there : Parser} (beside : here.Beside seam there) {name other : Name}
    (agrees : (Agreement.name name other).holds (here.sides there)) :
    seam.second.accessor? other = seam.first.accessor? name := by
  obtain ⟨_, _, asking⟩ := beside.asking
  rw [SoftNames.accessor?_eq asking.knows asking.inset.pending.sound agrees.1,
    SoftNames.accessor?_eq asking.knowsOther asking.inset.pendingOther.sound agrees.2.1]
  exact congrArg _ (Agreement.text agrees).symm

omit inlaid in
/-- Where no member starts, the text has errors. -/
theorem barren_invalidMember : Barren Grammar.invalidMember := .unexpected _ _ _

/-- A member of a class. -/
theorem classMember : Follows seam .inside known .node first.classMember second.classMember := by
  refine .currentKind Stance.isAwake_inside fun kind rename span place => ?_
  cases kind with
  | fixed tag spelled =>
    cases tag <;> first
      | exact .barren barren_invalidMember
      | exact inlaid.method.within
  | classVariable name =>
    refine (inlaid.classVariable fun _ holds => ?_).unfaced
    exact holds.2 name rfl
  | identifier name =>
    have named : Follows seam (.facing .inside .identifier)
        (known.and (.renamed (.identifier name) rename)) .node
        (first.accessorsOf (first.soft.accessor? name))
        (second.accessorsOf (first.soft.accessor? name)) := by
      cases first.soft.accessor? name with
      | some kind => exact (inlaid.accessors kind).unfaced
      | none => exact .barren barren_invalidMember
    refine .congrRight (fun here there beside holds => ?_) named
    show second.accessorsOf (second.soft.accessor? (rename name)) = _
    rw [inlaid.soft.1, inlaid.soft.2, accessor?_eq beside (holds.2 name rfl)]
  | _ => exact .barren barren_invalidMember

/-- One round of a class body. -/
theorem memberStep (members others : Array NodeId) :
    Follows seam .inside (known.and (Agreement.items .node members others))
      (.round (.items .node)) (liftM (first.memberStep members))
      (liftM (second.memberStep others)) := by
  rw [liftM_memberStep_attemptStep, liftM_memberStep_attemptStep]
  refine inlaid.shouldHalt ?_ (.bind (.quiet isQuiet_skipToEnd) fun _ => .pure _)
  exact .currentTag Stance.isAwake_inside fun tag => .choose
    (.of_anywhere (.pure fun _ holds => holds.2)) (.rounds (.attemptStep
      inlaid.classMember.unfaced
      (fun cursor => cursor.onward_skipUntil fun cursor => first.startsMember cursor.current)
        fun _ holds => holds.2))

/-- The members of a class. -/
theorem classBody :
    Follows seam .inside known (.items .node) (liftM first.classBody) (liftM second.classBody) := by
  rw [Grammar.classBody, Grammar.classBody, Grammar.loop, Grammar.loop, liftM_repeatWithin,
    liftM_repeatWithin, inlaid.rounds]
  exact .loop rfl _ (fun _ _ => Agreement.empty) inlaid.memberStep

omit inlaid in
/-- What is reported when nothing was read, before what closes something. -/
theorem reportEmpty {items others : Array NodeId} {α : Type} {agree : Agreement α}
    {left right leftEmpty rightEmpty : Parse α}
    (agrees : ∀ sides, known.holds sides → (Agreement.items .node items others).holds sides)
    (reports : leftEmpty.Barren) (ends : Shuts seam known agree left right) :
    Shuts seam known agree (if items.isEmpty = true then leftEmpty else left)
      (if others.isEmpty = true then rightEmpty else right) := by
  cases empty : items.isEmpty with
  | true => exact .barren reports
  | false =>
    refine ⟨ends.toFollows.congrRight fun here there _ holds => ?_, ends.closes⟩
    have same : others.isEmpty = false := by
      rw [← empty, Array.isEmpty, Array.isEmpty, Agreement.size_eq (agrees _ holds)]
    rw [same]
    rfl

/-- A class declaration. -/
theorem classDeclaration :
    Follows seam .awake known .node first.classDeclaration second.classDeclaration := by
  refine .bind (.advance Stance.isAwake_awake) fun opening place => .bind (.expectConstant _)
    fun name other => Shuts.toFollows (.after inlaid.classBody fun members others => ?_)
  have ends (known : Lasting)
      (names : ∀ sides, known.holds sides → (Agreement.name name other).holds sides)
      (items : ∀ sides, known.holds sides → (Agreement.items .node members others).holds sides) :
      Shuts seam known .node
        (do
          let range ← Build.addList members
          Parse.expectEnd .kwClass opening.span .classBody
          Build.close (.classDeclaration name range) opening.span)
        (do
          let range ← Build.addList others
          Parse.expectEnd .kwClass place.span .classBody
          Build.close (.classDeclaration other range) place.span) := by
    refine .after (.of_anywhere (.addList items)) fun _ _ => .before (.expectEnd _ _ _ _)
      fun _ _ => .close (fun sides holds => ?_) _ _
    exact ⟨rfl, ⟨nofun, nofun⟩, fun after grows _ _ => congrArg (fun text => [text])
      (Agreement.text_grows (names _ holds.1.1) grows), Agreement.many _ holds.1.2⟩
  refine reportEmpty (fun _ holds => holds.2) ?_
    (ends _ (fun _ holds => holds.1.2) fun _ holds => holds.2)
  exact .after (.quiet fun parser => .refl parser) fun _ =>
    .after (.quiet fun parser => .refl parser) fun _ => .before (.report _ _) fun _ =>
      (ends (.of False) (fun _ holds => holds.elim) fun _ holds => holds.elim).tame

/-- The `else` of a conditional. -/
theorem else? : Follows seam .inside known (.maybe .node) first.else? second.else? := by
  refine .check Stance.isAwake_inside (.bind (.advance (Stance.isAwake_inside.facing _))
    fun _ _ => .bind (inlaid.body _) fun _ _ => .bind (.of_anywhere (.close (fun sides holds => ?_)
      _ _)) fun _ _ => .of_anywhere (.pure fun _ holds => ?_)) (.of_anywhere (.pure fun _ _ => ?_))
  · exact ⟨rfl, ⟨nofun, nofun⟩, fun _ _ _ _ => rfl, Agreement.many _ holds.2⟩
  · exact holds.2
  · trivial

/-- Clauses that start with a keyword. -/
theorem clauses {keyword : Tag} {left right : Parse NodeId}
    (clause : Follows seam .inside .always .node left right) :
    Follows seam .inside known (.items .node) (first.clauses keyword left)
      (second.clauses keyword right) :=
  inlaid.repeats rfl (fun _ _ => Agreement.empty) fun _ _ => .check Stance.isAwake_inside
    (.bind clause.regardless.unfaced fun _ _ => .of_anywhere (.pure fun _ holds =>
      Agreement.push holds.1.2 holds.2)) (.of_anywhere (.pure fun _ holds => holds.2))

/-- `elsif`, a condition and a body. -/
theorem elsifClause : Follows seam .inside known .node first.elsifClause second.elsifClause := by
  refine .bind (.advance Stance.isAwake_inside) fun _ _ => .bind inlaid.expression fun _ _ =>
    .bind (inlaid.body _) fun _ _ => .of_anywhere (.close (fun sides holds => ?_) _ _)
  exact ⟨rfl, ⟨nofun, nofun⟩, fun _ _ _ _ => rfl, Agreement.append (Agreement.one _ holds.1.2)
    (Agreement.many _ holds.2)⟩

/-- `if`, a condition and a body, further conditions, and an alternative. -/
theorem ifStatement : Follows seam .awake known .node first.ifStatement second.ifStatement := by
  refine .bind (.advance Stance.isAwake_awake) fun _ _ => Shuts.toFollows (.after inlaid.expression
    fun _ _ => .after (inlaid.body _) fun _ _ => .after (inlaid.clauses inlaid.elsifClause)
      fun _ _ => .after (.of_anywhere (.addList fun _ holds => ?_)) fun _ _ => .after inlaid.else?
        fun _ _ => .before (.expectEnd _ _ _ _) fun _ _ => .close (fun sides holds => ?_) _ _)
  · exact holds.2
  · obtain ⟨⟨⟨⟨⟨⟨_, condition⟩, body⟩, _⟩, elsifs⟩, otherwise⟩, _⟩ := holds
    exact ⟨rfl, ⟨nofun, nofun⟩, fun _ _ _ _ => rfl, Agreement.append (Agreement.append
      (Agreement.append (Agreement.one _ condition) (Agreement.many _ body))
        (Agreement.many _ elsifs)) (Agreement.optional _ otherwise)⟩

/-- `unless`, a condition and a body, and an alternative. -/
theorem unlessStatement :
    Follows seam .awake known .node first.unlessStatement second.unlessStatement := by
  refine .bind (.advance Stance.isAwake_awake) fun _ _ => Shuts.toFollows (.after inlaid.expression
    fun _ _ => .after (inlaid.body _) fun _ _ => .after inlaid.else? fun _ _ =>
      .before (.expectEnd _ _ _ _) fun _ _ => .close (fun sides holds => ?_) _ _)
  obtain ⟨⟨⟨⟨_, condition⟩, body⟩, otherwise⟩, _⟩ := holds
  exact ⟨rfl, ⟨nofun, nofun⟩, fun _ _ _ _ => rfl, Agreement.append (Agreement.append
    (Agreement.one _ condition) (Agreement.many _ body)) (Agreement.optional _ otherwise)⟩

/-- `when`, patterns and a body. -/
theorem whenClause : Follows seam .inside known .node first.whenClause second.whenClause := by
  refine .bind (.advance Stance.isAwake_inside) fun _ _ => .bind (inlaid.oneOrMore
    inlaid.expression) fun _ _ => .bind (.of_anywhere (.addList fun _ holds => ?_)) fun _ _ =>
      .bind (inlaid.body _) fun _ _ => .of_anywhere (.close (fun sides holds => ?_) _ _)
  · exact holds.2
  · exact ⟨rfl, ⟨nofun, nofun⟩, fun _ _ _ _ => rfl, Agreement.append (Agreement.many _ holds.1.2)
      (Agreement.many _ holds.2)⟩

/-- `case`, a subject, its branches, and an alternative. -/
theorem caseStatement :
    Follows seam .awake known .node first.caseStatement second.caseStatement := by
  refine .bind (.advance Stance.isAwake_awake) fun opening place => Shuts.toFollows (.after
    inlaid.expression fun subject other => .after (inlaid.clauses inlaid.whenClause)
      fun whens others => ?_)
  have ends (known : Lasting)
      (subjects : ∀ sides, known.holds sides → (Agreement.node subject other).holds sides)
      (items : ∀ sides, known.holds sides → (Agreement.items .node whens others).holds sides) :
      Shuts seam known .node
        (do
          let whens ← Build.addList whens
          let otherwise ← first.else?
          Parse.expectEnd .kwCase opening.span .caseStatement
          Build.close (.caseStatement subject whens otherwise) opening.span)
        (do
          let whens ← Build.addList others
          let otherwise ← second.else?
          Parse.expectEnd .kwCase place.span .caseStatement
          Build.close (.caseStatement other whens otherwise) place.span) := by
    refine .after (.of_anywhere (.addList items)) fun _ _ => .after inlaid.else? fun _ _ =>
      .before (.expectEnd _ _ _ _) fun _ _ => .close (fun sides holds => ?_) _ _
    obtain ⟨⟨⟨holds, whens⟩, otherwise⟩, _⟩ := holds
    exact ⟨rfl, ⟨nofun, nofun⟩, fun _ _ _ _ => rfl, Agreement.append (Agreement.append
      (Agreement.one _ (subjects _ holds)) (Agreement.many _ whens))
        (Agreement.optional _ otherwise)⟩
  refine reportEmpty (fun _ holds => holds.2) ?_
    (ends _ (fun _ holds => holds.1.2) fun _ holds => holds.2)
  exact .after (.quiet fun parser => .refl parser) fun _ => .before (.report _ _) fun _ =>
    (ends (.of False) (fun _ holds => holds.elim) fun _ holds => holds.elim).tame

/-- `while`, a condition and a body. -/
theorem whileLoop : Follows seam .awake known .node first.whileLoop second.whileLoop := by
  refine .bind (.advance Stance.isAwake_awake) fun _ _ => Shuts.toFollows (.after inlaid.expression
    fun _ _ => .after (inlaid.body _) fun _ _ => .before (.expectEnd _ _ _ _) fun _ _ =>
      .close (fun sides holds => ?_) _ _)
  exact ⟨rfl, ⟨nofun, nofun⟩, fun _ _ _ _ => rfl, Agreement.append (Agreement.one _ holds.1.1.2)
    (Agreement.many _ holds.1.2)⟩

/-- `until`, a condition and a body. -/
theorem untilLoop : Follows seam .awake known .node first.untilLoop second.untilLoop := by
  refine .bind (.advance Stance.isAwake_awake) fun _ _ => Shuts.toFollows (.after inlaid.expression
    fun _ _ => .after (inlaid.body _) fun _ _ => .before (.expectEnd _ _ _ _) fun _ _ =>
      .close (fun sides holds => ?_) _ _)
  exact ⟨rfl, ⟨nofun, nofun⟩, fun _ _ _ _ => rfl, Agreement.append (Agreement.one _ holds.1.1.2)
    (Agreement.many _ holds.1.2)⟩

/-- `for`, a variable, what it ranges over, and a body. -/
theorem forLoop : Follows seam .awake known .node first.forLoop second.forLoop := by
  refine .bind (.advance Stance.isAwake_awake) fun _ _ => Shuts.toFollows (.after
    (.of_anywhere (.expectIdentifier _)) fun named other => .after (.of_anywhere (.addNode
      (fun sides holds => ?_) _ _)) fun _ _ => .after (.of_anywhere (.expectWith Tag.noConfusion))
        fun _ _ => .after inlaid.expression fun _ _ => .after (inlaid.body _) fun _ _ =>
          .before (.expectEnd _ _ _ _) fun _ _ => .close (fun sides holds => ?_) _ _)
  · exact ⟨rfl, ⟨nofun, nofun⟩, fun after grows _ _ => congrArg (fun text => [text])
      (Agreement.text_grows holds.2 grows), .nil⟩
  · obtain ⟨⟨⟨⟨⟨_, target⟩, _⟩, iterable⟩, body⟩, _⟩ := holds
    exact ⟨rfl, ⟨nofun, nofun⟩, fun _ _ _ _ => rfl, Agreement.append (Agreement.append
      (Agreement.one _ target) (Agreement.one _ iterable)) (Agreement.many _ body)⟩

/-- `rescue`, the errors it is for, and a body. -/
theorem rescueClause :
    Follows seam .inside known .node first.rescueClause second.rescueClause := by
  refine .bind (.advance Stance.isAwake_inside) fun _ _ => .bind rescueFilter? fun filter other =>
    .bind (inlaid.body _) fun _ _ => .of_anywhere (.close (fun sides holds => ?_) _ _)
  obtain ⟨⟨_, filters⟩, body⟩ := holds
  refine ⟨rfl, ⟨nofun, nofun⟩, fun after grows _ _ => ?_, Agreement.many _ body⟩
  cases filter with
  | none =>
    cases other with
    | none => rfl
    | some => exact filters.elim
  | some name =>
    cases other with
    | none => exact filters.elim
    | some word => exact congrArg (fun text => [text]) (Agreement.text_grows filters grows)

/-- `ensure` and a body. -/
theorem ensure? : Follows seam .inside known (.maybe .node) first.ensure? second.ensure? := by
  refine .check Stance.isAwake_inside (.bind (.advance (Stance.isAwake_inside.facing _))
    fun _ _ => .bind (inlaid.body _) fun _ _ => .bind (.of_anywhere (.close (fun sides holds => ?_)
      _ _)) fun _ _ => .of_anywhere (.pure fun _ holds => ?_)) (.of_anywhere (.pure fun _ _ => ?_))
  · exact ⟨rfl, ⟨nofun, nofun⟩, fun _ _ _ _ => rfl, Agreement.many _ holds.2⟩
  · exact holds.2
  · trivial

/-- `begin` and a body, what to do about errors, and what to do in any case. -/
theorem beginBlock : Follows seam .awake known .node first.beginBlock second.beginBlock := by
  refine .bind (.advance Stance.isAwake_awake) fun _ _ => Shuts.toFollows (.after (inlaid.body _)
    fun _ _ => .after (inlaid.clauses inlaid.rescueClause) fun _ _ => .after
      (.of_anywhere (.addList fun _ holds => ?_)) fun _ _ => .after inlaid.ensure? fun _ _ =>
        .before (.expectEnd _ _ _ _) fun _ _ => .close (fun sides holds => ?_) _ _)
  · exact holds.2
  · obtain ⟨⟨⟨⟨⟨_, body⟩, _⟩, rescues⟩, ensure⟩, _⟩ := holds
    exact ⟨rfl, ⟨nofun, nofun⟩, fun _ _ _ _ => rfl, Agreement.append (Agreement.append
      (Agreement.many _ body) (Agreement.many _ rescues)) (Agreement.optional _ ensure)⟩

/-- `raise` and an expression in parentheses. -/
theorem raiseJump : Follows seam .awake known .node first.raiseJump second.raiseJump := by
  refine .bind (.advance Stance.isAwake_awake) fun _ _ => .bind (.expectWith Tag.noConfusion)
    fun _ _ => .bind inlaid.expression fun _ _ => .bind (.expectWith Tag.noConfusion) fun _ _ =>
      .close (fun sides holds => ?_) _ _
  exact ⟨rfl, ⟨nofun, nofun⟩, fun _ _ _ _ => rfl, Agreement.one _ holds.1.2⟩

/-- `return`, with a value or without. -/
theorem returnJump :
    Follows seam (.facing .awake .kwReturn) known .node first.returnJump second.returnJump := by
  have bare {known : Lasting} (span place : Span) : Follows seam .anywhere known .node
      (Pure.pure none >>= fun value => liftM (Build.close (.returnJump value) span))
      (Pure.pure none >>= fun value => liftM (Build.close (.returnJump value) place)) := by
    refine .close (fun sides holds => ?_) span place
    exact ⟨rfl, ⟨nofun, nofun⟩, fun _ _ _ _ => rfl, .nil⟩
  refine .afterReturn (fun token other tag => .choose ?_ (.of_anywhere (bare _ _)))
    fun token other opening absent => ?_
  · refine .bind (.present inlaid.expression) fun _ _ => .close (fun sides holds => ?_) _ _
    exact ⟨rfl, ⟨nofun, nofun⟩, fun _ _ _ _ => rfl, Agreement.optional _ holds.2⟩
  · dsimp only
    rw [absent]
    exact bare _ _

/-- `yield`, bare or with arguments. -/
theorem yieldJump : Follows seam .awake known .node first.yieldJump second.yieldJump := by
  refine .bind (.advance Stance.isAwake_awake) fun _ _ => .checkOrTail rfl
    (.bind (.present (.of_anywhere inlaid.arguments)) fun arguments others =>
      .close (fun sides holds => ?_) _ _) (.close (fun sides holds => ?_) _ _)
  · refine ⟨rfl, ⟨nofun, nofun⟩, fun _ _ _ _ => rfl, ?_⟩
    cases arguments with
    | none =>
      cases others with
      | none => exact .nil
      | some => exact holds.2.elim
    | some range =>
      cases others with
      | none => exact holds.2.elim
      | some other => exact Agreement.many _ holds.2
  · exact ⟨rfl, ⟨nofun, nofun⟩, fun _ _ _ _ => rfl, .nil⟩

/-- The local name of an import. -/
theorem asName? : Follows seam .inside known (.maybe .node) first.asName? second.asName? := by
  refine .bindSame .eat fun _ => .choose (.bind (.of_anywhere (.expectIdentifier _)) fun _ _ =>
    .bind (.of_anywhere (.expectWith Tag.noConfusion)) fun _ _ =>
      .bind (.of_anywhere inlaid.stringLiteral) fun _ _ =>
        .of_anywhere (.pure fun _ holds => ?_)) (.of_anywhere (.pure fun _ _ => ?_))
  · exact holds.2
  · trivial

/-- An import. -/
theorem requireImport :
    Follows seam .anywhere known .node first.requireImport second.requireImport := by
  refine .bind (.expectIdentifier _) fun named other => .bind (.addNode (fun sides holds => ?_) _ _)
    fun _ _ => .bind (.expectWith Tag.noConfusion) fun _ _ => .bind (.expectIdentifier _) fun _ _ =>
      .bind (.expectWith Tag.noConfusion) fun _ _ => Shuts.toFollows (.after
        (.of_anywhere inlaid.stringLiteral) fun _ _ => .after inlaid.asName? fun _ _ =>
          .before (.expect _ rfl) fun _ _ => .close (fun sides holds => ?_) _ _)
  · exact ⟨rfl, ⟨nofun, nofun⟩, fun after grows _ _ => congrArg (fun text => [text])
      (Agreement.text_grows holds.2 grows), .nil⟩
  · obtain ⟨⟨⟨⟨⟨⟨⟨_, target⟩, _⟩, _⟩, _⟩, path⟩, asName⟩, _⟩ := holds
    exact ⟨rfl, ⟨nofun, nofun⟩, fun _ _ _ _ => rfl, Agreement.append (Agreement.append
      (Agreement.one _ target) (Agreement.one _ path)) (Agreement.optional _ asName)⟩

/-- A statement that no keyword introduces. -/
theorem plainStatement :
    Follows seam .awake known .node first.plainStatement second.plainStatement := by
  refine .currentTag Stance.isAwake_awake fun tag => .choose ?_ (.choose (.barren (.unexpected _ _ _))
    inlaid.expression)
  rw [inlaid.soft.1, inlaid.soft.2]
  refine .bindSame (.ask (.startsImport _ _) (.startsImport _ _) fun admitted asking => ?_)
    fun found => .choose inlaid.requireImport inlaid.expression
  have some {tokens : List (Token String)} {cursor : Cursor} (pending : cursor.Pending tokens)
      (notEnd : cursor.isAtEnd = false) : 0 < (Token.kinds tokens).length := by
    obtain ⟨_, first⟩ := pending.ordinary notEnd
    rw [Token.kinds, first]
    exact Nat.zero_lt_succ _
  have isImport (soft : SoftNames) : (soft.importName, "require") ∈ soft.spelling := by
    simp [SoftNames.spelling_eq]
  have isAs (soft : SoftNames) : (soft.asKey, "as") ∈ soft.spelling := by
    simp [SoftNames.spelling_eq]
  exact Lookahead.agreeAt_startsImport asking (some asking.inset.pending admitted.1)
    (isImport _) (isImport _) (isAs _) (isAs _)

/-- A statement. -/
theorem statement : Follows seam .awake known .node first.statement second.statement := by
  rw [statement_eq, statement_eq]
  refine .currentTag Stance.isAwake_awake fun tag => ?_
  cases tag
  case kwDef => exact inlaid.method.within
  case kwPrivate => exact inlaid.method.within
  case kwExport => exact inlaid.exportedMethod.unfaced
  case kwClass => exact inlaid.classDeclaration.unfaced
  case kwIf => exact inlaid.ifStatement.unfaced
  case kwUnless => exact inlaid.unlessStatement.unfaced
  case kwCase => exact inlaid.caseStatement.unfaced
  case kwWhile => exact inlaid.whileLoop.unfaced
  case kwUntil => exact inlaid.untilLoop.unfaced
  case kwFor => exact inlaid.forLoop.unfaced
  case kwBegin => exact inlaid.beginBlock.unfaced
  case kwReturn => exact inlaid.returnJump
  case kwBreak =>
    refine (leaf rfl ?_ (fun _ _ _ _ _ _ => rfl) ⟨rfl, rfl⟩).unfaced
    exact ⟨nofun, nofun⟩
  case kwNext =>
    refine (leaf rfl ?_ (fun _ _ _ _ _ _ => rfl) ⟨rfl, rfl⟩).unfaced
    exact ⟨nofun, nofun⟩
  case kwRaise => exact inlaid.raiseJump.unfaced
  case kwYield => exact inlaid.yieldJump.unfaced
  all_goals exact inlaid.plainStatement.unfaced

end Inlaid

end Grammar

end Vibescript
