import Vibescript.Proofs.Parser.Lockstep

/-!
# Productions in lockstep

Every production of two grammars whose loops have the same number of rounds is put together in the
same way. There is one lemma for each production, assembled from those of what it is put together
from.
-/
namespace Vibescript.Grammar

open Build Parse

/-- The statement that a token starts. -/
def statementOf (grammar : Grammar) : Tag → Parse NodeId
  | .kwDef | .kwPrivate => grammar.method
  | .kwExport => grammar.exportedMethod
  | .kwClass => grammar.classDeclaration
  | .kwIf => grammar.ifStatement
  | .kwUnless => grammar.unlessStatement
  | .kwCase => grammar.caseStatement
  | .kwWhile => grammar.whileLoop
  | .kwUntil => grammar.untilLoop
  | .kwFor => grammar.forLoop
  | .kwBegin => grammar.beginBlock
  | .kwReturn => grammar.returnJump
  | .kwBreak => leaf .breakJump
  | .kwNext => leaf .nextJump
  | .kwRaise => grammar.raiseJump
  | .kwYield => grammar.yieldJump
  | _ => grammar.plainStatement

/-- A statement is the one that its first token starts. -/
theorem statement_eq (grammar : Grammar) :
    grammar.statement = liftM Build.currentTag >>= grammar.statementOf := rfl

namespace Lockstep

variable {α : Type} {first second : Grammar} {exact outer : Prop}

/-- One item more. -/
theorem push_items {items others : Array α} {item other : α} (same : SameItems exact items others)
    (alike : Same exact item other) : SameItems exact (items.push item) (others.push other) :=
  ⟨by rw [Array.size_push, Array.size_push, same.size],
    fun isExact => by rw [same.same isExact, alike isExact]⟩

/-- No items. -/
theorem no_items : SameItems exact (#[] : Array α) #[] := ⟨rfl, fun _ => rfl⟩

/-- A type name. -/
theorem typeName :
    Lockstep first second exact outer (Same exact) Grammar.typeName Grammar.typeName := by
  refine .currentKind fun kind other span place alike => ?_
  obtain ⟨⟨rename, rfl⟩, same, _⟩ := alike
  have ends (reference others : TypeReference × Bool) (alike : Same exact reference others) :
      Lockstep first second exact outer (Same exact)
        (do
          let _ ← Build.advance
          let isMarkedAfter ← Build.eat .question
          Build.close (.typeName reference.1 (reference.2 || isMarkedAfter)) span)
        (do
          let _ ← Build.advance
          let isMarkedAfter ← Build.eat .question
          Build.close (.typeName others.1 (others.2 || isMarkedAfter)) place) :=
    .bind .advance fun _ _ _ => .bind (.eat .question) fun marked _ isSame =>
      .close ⟨fun isExact => by rw [alike isExact, isSame], by nofun, by nofun⟩ _ _
  cases kind with
  | identifier name =>
    exact .bind (.namedType fun isExact => TokenKind.identifier.inj (same isExact)) ends
  | constant name =>
    refine .bind (.pure fun isExact => ?_) ends
    rw [← TokenKind.constant.inj (same isExact)]
  | fixed tag spelled =>
    cases tag <;> first
      | exact .bind (.pure fun _ => rfl) ends
      | exact .failFirst fun _ _ alike => { alike with fault := rfl, construct := rfl }
  | _ => exact .failFirst fun _ _ alike => { alike with fault := rfl, construct := rfl }

/-- The constant in parentheses that names the errors to rescue. -/
theorem rescueFilter? :
    Lockstep first second exact outer (Same exact) Grammar.rescueFilter? Grammar.rescueFilter? := by
  refine .bind (.ask Lookahead.byTags_isRescueFilter) fun found other same => ?_
  subst same
  refine .choose (.bind .advance fun _ _ _ => .bind (.expectConstant _) fun name other same =>
    .bind (.expect _ _) fun _ _ _ => .pure fun isExact => ?_) (.pure fun _ => rfl)
  rw [same isExact]

/-- The name of a method. -/
theorem methodName :
    Lockstep first second exact outer (Same exact) Grammar.methodName Grammar.methodName := by
  refine .bind (.ask Lookahead.byTags_isSelfQualifier) fun isSingleton other same => ?_
  subst same
  have named : Lockstep first second exact outer (Same exact) (methodNameOf isSingleton)
      (methodNameOf isSingleton) :=
    .bind (.expectIdentifier _) fun named other same => .pure fun isExact => by rw [same isExact]
  dsimp only
  cases isSingleton with
  | true => exact .bind .advance fun _ _ _ => .bind .advance fun _ _ _ => named
  | false => exact named

variable (rounds : first.rounds = second.rounds)

include rounds

/-- A loop. -/
theorem repeats {agree : α → α → Prop} {start other : α} {left right : α → Parse (ForInStep α)}
    (starts : agree start other)
    (round : ∀ here there, agree here there →
      Lockstep first second exact outer (RoundsAgree agree) (left here) (right there)) :
    Lockstep first second exact outer agree (first.loop start left) (second.loop other right) := by
  rw [Grammar.loop, Grammar.loop, rounds]
  exact .loop _ starts round

/-- One or more items. -/
theorem oneOrMore {separator : Tag} {left right : Parse α} {agree : α → α → Prop}
    (item : Lockstep first second exact outer agree left right) {last : Array α → Array α → Prop}
    (none : last #[] #[])
    (more : ∀ items others item other, last items others → agree item other →
      last (items.push item) (others.push other)) :
    Lockstep first second exact outer last (first.oneOrMore separator left)
      (second.oneOrMore separator right) := by
  refine repeats rounds none fun items others same => .bind item fun answer other alike =>
    .bind (.eat separator) fun found other isSame => .pure ?_
  subst isSame
  have pushed := more _ _ _ _ same alike
  cases found with
  | true => exact .yield pushed
  | false => exact .done pushed

/-- Items up to a closing token. -/
theorem itemsUntil {closer : Tag} {left right : Parse α}
    (item : Lockstep first second exact outer (Same exact) left right) :
    Lockstep first second exact outer (SameItems exact) (first.itemsUntil closer left)
      (second.itemsUntil closer right) := by
  refine repeats rounds no_items fun items others same => .bind (.check closer)
    fun found other isSame => ?_
  subst isSame
  refine .choose (.pure (.done same)) (.bind item fun answer other alike => .bind (.eat .comma)
    fun found other isSame => .pure ?_)
  subst isSame
  cases found with
  | true => exact .yield (push_items same alike)
  | false => exact .done (push_items same alike)

omit rounds in
/-- An expression. -/
theorem expression :
    Lockstep first second exact outer (Same exact) first.expression second.expression :=
  .deeper nofun

omit rounds in
/-- One round over the pieces of a string literal. -/
theorem pieceStep {text other : String} (same : Same exact text other) :
    Lockstep first second exact outer (RoundsAgree (Same exact)) (Grammar.pieceStep text)
      (Grammar.pieceStep other) := by
  refine .bind .cursor fun here there ⟨alike, names⟩ => ?_
  obtain ⟨⟨rename, renamed⟩, isSame, _⟩ := alike
  rw [renamed] at isSame ⊢
  generalize here.current.kind = kind at isSame
  cases kind with
  | stringContent run =>
    refine .bind .advance fun _ _ _ => .pure (.yield fun isExact => ?_)
    rw [same isExact, Cursor.nameText, Cursor.nameText, names isExact,
      ← TokenKind.stringContent.inj (isSame isExact)]
  | stringEscape char =>
    exact .bind .advance fun _ _ _ => .pure (.yield fun isExact => by rw [same isExact])
  | stringClose => exact .bind .advance fun _ _ _ => .pure (.done same)
  | _ => exact .fail fun _ _ alike => { alike with construct := rfl }

/-- A string literal. -/
theorem stringLiteral :
    Lockstep first second exact outer (Same exact) first.stringLiteral second.stringLiteral := by
  rw [stringLiteral_eq, stringLiteral_eq]
  have pieces : Lockstep first second exact outer (Same exact) (first.loop "" Grammar.pieceStep)
      (second.loop "" Grammar.pieceStep) :=
    repeats rounds (fun _ => rfl) fun _ _ => pieceStep
  exact .bind (.expect _ _) fun _ _ _ => .bind pieces fun _ _ same => .bind (.intern same)
    fun _ _ same => .close ⟨fun isExact => by rw [same isExact], by nofun, by nofun⟩ _ _

/-- An array literal. -/
theorem arrayLiteral :
    Lockstep first second exact outer (Same exact) first.arrayLiteral second.arrayLiteral :=
  .bind .advance fun _ _ _ => .bind (itemsUntil rounds expression) fun _ _ items =>
    .bind (.expectCloser _ _ _) fun _ _ _ => .bind (.addList items.same) fun _ _ same =>
      .close ⟨fun isExact => by rw [same isExact], by nofun, by nofun⟩ _ _

/-- An entry of a hash literal. -/
theorem hashEntry :
    Lockstep first second exact outer (Same exact) first.hashEntry second.hashEntry := by
  refine .currentKind fun kind other span place alike => ?_
  obtain ⟨⟨rename, rfl⟩, same, _⟩ := alike
  have ends (key others : NodeId) (alike : Same exact key others) :
      Lockstep first second exact outer (Same exact)
        (do
          let _ ← Build.splitSymbol
          let _ ← Parse.expect .colon .hash
          let value ← first.expression
          Build.close (.hashEntry key value) span)
        (do
          let _ ← Build.splitSymbol
          let _ ← Parse.expect .colon .hash
          let value ← second.expression
          Build.close (.hashEntry others value) place) :=
    .bind .splitSymbol fun _ _ _ => .bind (.expect _ _) fun _ _ _ => .bind expression
      fun _ _ same => .close ⟨fun isExact => by rw [alike isExact, same isExact],
        by nofun, by nofun⟩ _ _
  cases kind with
  | identifier name =>
    refine .bind .advance fun _ _ _ => .bind (.addNode ⟨fun isExact => ?_,
      by nofun, by nofun⟩ _ _) ends
    exact congrArg NodeKind.identifier (TokenKind.identifier.inj (same isExact))
  | stringOpen => exact .bind (stringLiteral rounds) ends
  | _ => exact .failFirst fun _ _ alike => { alike with construct := rfl }

/-- A hash literal. -/
theorem hashLiteral :
    Lockstep first second exact outer (Same exact) first.hashLiteral second.hashLiteral :=
  .bind .advance fun _ _ _ => .bind (itemsUntil rounds (hashEntry rounds)) fun _ _ items =>
    .bind (.expectCloser _ _ _) fun _ _ _ => .bind (.addList items.same) fun _ _ same =>
      .close ⟨fun isExact => by rw [same isExact], by nofun, by nofun⟩ _ _

omit rounds in
/-- An expression in parentheses. -/
theorem parenthesized :
    Lockstep first second exact outer (Same exact) first.parenthesized second.parenthesized :=
  .bind .advance fun _ _ _ => .bind expression fun _ _ same => .bind (.expect _ _) fun _ _ _ =>
    .close ⟨fun isExact => by rw [same isExact], by nofun, by nofun⟩ _ _

omit rounds in
/-- An argument. -/
theorem argument :
    Lockstep first second exact outer (Same exact) first.argument second.argument := by
  refine .currentKind fun kind other span place alike => ?_
  obtain ⟨⟨rename, rfl⟩, same, _⟩ := alike
  cases kind with
  | identifier name =>
    refine .bind (.ask Lookahead.byTags_isKeyword) fun found other isSame => ?_
    subst isSame
    refine .choose (.bind .advance fun _ _ _ => .bind .splitSymbol fun _ _ _ =>
      .bind .advance fun _ _ _ => .bind (.addNode ⟨fun isExact => ?_,
        by nofun, by nofun⟩ _ _) fun _ _ key =>
        .bind expression fun _ _ value => .close ⟨fun isExact => ?_,
          by nofun, by nofun⟩ _ _) expression
    · exact congrArg NodeKind.identifier (TokenKind.identifier.inj (same isExact))
    · rw [key isExact, value isExact]
  | _ => exact expression

/-- Arguments in parentheses. -/
theorem arguments :
    Lockstep first second exact outer (Same exact) first.arguments second.arguments :=
  .bind (.expect _ _) fun _ _ _ => .bind (itemsUntil rounds argument) fun _ _ items =>
    .bind (.expectCloser _ _ _) fun _ _ _ => .addList items.same

/-- Names with commas between them. -/
theorem names (construct : Construct) :
    Lockstep first second exact outer
      (fun items others => Same exact (items.map Prod.fst) (others.map Prod.fst))
      (first.oneOrMore .comma (Parse.expectIdentifier construct))
      (second.oneOrMore .comma (Parse.expectIdentifier construct)) := by
  refine oneOrMore rounds (.expectIdentifier construct) (fun _ => rfl) ?_
  intro items others item other same alike isExact
  rw [Array.map_push, Array.map_push, same isExact, alike isExact]

/-- The names between the bars of a block. -/
theorem blockParameters :
    Lockstep first second exact outer (Same exact) first.blockParameters
      second.blockParameters := by
  refine .bind (.eat .bar) fun found other same => ?_
  subst same
  refine .choose (.bind (names rounds _) fun _ _ same => .bind (.expect _ _) fun _ _ _ =>
    .addNames same) (.addNames fun _ => rfl)

/-- A block. -/
theorem block? : Lockstep first second exact outer (Same exact) first.block? second.block? := by
  refine .bind (.check .kwDo) fun found other same => ?_
  subst same
  refine .choose (.bind .advance fun _ _ _ => .bind (blockParameters rounds) fun _ _ names =>
    .bind (.body rfl) fun _ _ body => .bind (.expectEnd _ _ _ _) fun _ _ _ =>
      .bind (.close ⟨fun isExact => ?_,
        by nofun, by nofun⟩ _ _) fun _ _ same => .pure fun isExact => ?_)
    (.pure fun _ => rfl)
  · rw [names isExact, body isExact]
  · rw [same isExact]

/-- The arguments and the block of a call. -/
theorem call {receiver other : Option NodeId} {method named : Name}
    (same : Same exact (receiver, method) (other, named)) (start place : Span) :
    Lockstep first second exact outer (Same exact) (first.call receiver method start)
      (second.call other named place) := by
  refine .bind (arguments rounds) fun _ _ arguments => .bind (block? rounds) fun _ _ block =>
    .close ⟨fun isExact => ?_, by nofun, by nofun⟩ _ _
  obtain ⟨rfl, rfl⟩ := Prod.mk.inj (same isExact)
  rw [arguments isExact, block isExact]

/-- What follows the point after an operand. -/
theorem member {receiver other : NodeId} (same : Same exact receiver other) (start place : Span) :
    Lockstep first second exact outer (Same exact) (first.member receiver start)
      (second.member other place) := by
  refine .bind .advance fun _ _ _ => .bind (.expectIdentifier _) fun name others named =>
    .bind (.check _) fun found answer isSame => ?_
  subst isSame
  refine .choose (call rounds (fun isExact => ?_) _ _) (.bind (block? rounds) fun _ _ block =>
    .close ⟨fun isExact => ?_, by nofun, by nofun⟩ _ _)
  · rw [same isExact, named isExact]
  · rw [same isExact, named isExact, block isExact]

omit rounds in
/-- An index in brackets after an operand. -/
theorem subscript {receiver other : NodeId} (same : Same exact receiver other)
    (start place : Span) :
    Lockstep first second exact outer (Same exact) (first.subscript receiver start)
      (second.subscript other place) :=
  .bind .advance fun _ _ _ => .bind expression fun _ _ index => .bind (.expect _ _) fun _ _ _ =>
    .close ⟨fun isExact => by rw [same isExact, index isExact], by nofun, by nofun⟩ _ _

/-- Calls, members and subscripts after an operand. -/
theorem chain {operand other : NodeId} (same : Same exact operand other) :
    Lockstep first second exact outer (Same exact) (first.chain operand) (second.chain other) := by
  refine repeats rounds same fun left others same => .bind (.nodeSpan _ _) fun _ _ _ =>
    .bind .currentTag fun tag other isSame => ?_
  subst isSame
  split
  · exact .bind (member rounds same _ _) fun _ _ same => .pure (.yield same)
  · exact .bind (subscript same _ _) fun _ _ same => .pure (.yield same)
  · exact .pure (.done same)

/-- A name or a call. -/
theorem nameOrCall {name other : Name} (same : Same exact name other) :
    Lockstep first second exact outer (Same exact) (first.nameOrCall name)
      (second.nameOrCall other) := by
  refine .bind .advance fun _ _ _ => .bind (.check _) fun found answer isSame => ?_
  subst isSame
  exact .choose (call rounds (fun isExact => by rw [same isExact]) _ _)
    (.addNode ⟨fun isExact => by rw [same isExact], by nofun, by nofun⟩ _ _)

omit rounds in
/-- A failure because no expression starts here. -/
theorem missing : Lockstep first second exact outer (Same exact)
    (do
      let error ← Build.unexpected .expectedExpression .expressionStart
      MonadExcept.throw ((error.withFault .missingExpression).within .expression) : Parse NodeId)
    (do
      let error ← Build.unexpected .expectedExpression .expressionStart
      MonadExcept.throw ((error.withFault .missingExpression).within .expression)) :=
  .fail fun _ _ alike => { alike with fault := rfl, construct := rfl }

/-- A primary expression. -/
theorem primary : Lockstep first second exact outer (Same exact) first.primary second.primary := by
  refine .currentKind fun kind other span place alike => ?_
  obtain ⟨⟨rename, rfl⟩, same, _⟩ := alike
  cases kind with
  | identifier name =>
    exact nameOrCall rounds fun isExact => TokenKind.identifier.inj (same isExact)
  | stringOpen => exact stringLiteral rounds
  | fixed tag spelled =>
    cases tag <;> first
      | exact arrayLiteral rounds
      | exact hashLiteral rounds
      | exact parenthesized
      | exact .leaf ⟨fun _ => rfl, by nofun, by nofun⟩
      | exact missing
  | constant name =>
    exact .leaf ⟨fun isExact => congrArg _ (TokenKind.constant.inj (same isExact)),
      by nofun, by nofun⟩
  | integer value => exact .leaf ⟨fun _ => rfl, by nofun, by nofun⟩
  | float value => exact .leaf ⟨fun _ => rfl, by nofun, by nofun⟩
  | symbol name => exact .leaf ⟨fun isExact => congrArg _ (TokenKind.symbol.inj (same isExact)),
    by nofun, by nofun⟩
  | instanceVariable name =>
    exact .leaf ⟨fun isExact => congrArg _ (TokenKind.instanceVariable.inj (same isExact)),
      by nofun, by nofun⟩
  | classVariable name =>
    exact .leaf ⟨fun isExact => congrArg _ (TokenKind.classVariable.inj (same isExact)),
      by nofun, by nofun⟩
  | _ => exact missing

/-- An operand. -/
theorem operand : Lockstep first second exact outer (Same exact) first.operand second.operand := by
  refine .bind .currentTag fun tag other isSame => ?_
  subst isSame
  split
  · exact .bind .advance fun _ _ _ => .bind (.deeper nofun) fun _ _ same =>
      .close ⟨fun isExact => by rw [same isExact], by nofun, by nofun⟩ _ _
  · exact .bind (primary rounds) fun _ _ => chain rounds

omit rounds in
/-- An infix operator makes no error node. -/
theorem infixNode_ne_error (op : InfixOp) (left right : NodeId) :
    infixNode op left right ≠ .error := by
  cases op <;> nofun

omit rounds in
/-- One round over the operators of an expression. -/
theorem infixStep (least : BindingPower) {left other : NodeId} (same : Same exact left other) :
    Lockstep first second exact outer (RoundsAgree (Same exact)) (first.infixStep least left)
      (second.infixStep least other) := by
  refine .bind .currentTag fun tag others isSame => ?_
  subst isSame
  split
  · exact .pure (.done same)
  · split
    · exact .pure (.done same)
    · exact .bind .advance fun _ _ _ => .bind (.nodeSpan _ _) fun _ _ _ => .bind (.deeper nofun)
        fun _ _ right => .bind (.close ⟨fun isExact => by rw [same isExact, right isExact],
          infixNode_ne_error _ _ _, infixNode_ne_error _ _ _⟩ _ _)
          fun _ _ same => .pure (.yield same)

/-- An expression whose operators bind at least as tightly as a power. -/
theorem expressionFrom (least : BindingPower) :
    Lockstep first second exact outer (Same exact) (first.expressionFrom least)
      (second.expressionFrom least) := by
  rw [expressionFrom_eq, expressionFrom_eq]
  exact .bind (operand rounds) fun _ _ same => repeats rounds same fun _ _ => infixStep least

/-- A type. -/
theorem typeUnion : Lockstep first second exact outer (Same exact) first.typeUnion
    second.typeUnion := by
  have types : Lockstep first second exact outer (SameItems exact)
      (first.oneOrMore .bar Grammar.typeName) (second.oneOrMore .bar Grammar.typeName) :=
    oneOrMore rounds typeName no_items fun _ _ _ _ => push_items
  exact .bind .current fun _ _ _ => .bind types fun _ _ items => .bind (.addList items.same)
    fun _ _ same => .close ⟨fun isExact => by rw [same isExact], by nofun, by nofun⟩ _ _

omit rounds in
/-- The value of a parameter that is not given. -/
theorem default? : Lockstep first second exact outer (Same exact) first.default?
    second.default? := by
  refine .bind (.eat .assign) fun found other same => ?_
  subst same
  exact .choose (.bind expression fun _ _ same => .pure fun isExact => by rw [same isExact])
    (.pure fun _ => rfl)

/-- A type after a colon. -/
theorem variableType? :
    Lockstep first second exact outer (Same exact) first.variableType? second.variableType? := by
  refine .bind .splitSymbol fun _ _ _ => .bind (.eat .colon) fun found other same => ?_
  subst same
  exact .choose (.bind (typeUnion rounds) fun _ _ same => .pure fun isExact => by
    rw [same isExact]) (.pure fun _ => rfl)

/-- A parameter of a given shape. -/
theorem parameterOf (shape : Lookahead.ParameterShape) :
    Lockstep first second exact outer (Same exact) (first.parameterOf shape)
      (second.parameterOf shape) := by
  refine .bind .advance fun token other alike => ?_
  obtain ⟨kind, span⟩ := token
  obtain ⟨others, place⟩ := other
  have sameTag := alike.tag
  obtain ⟨⟨rename, rfl⟩, same, _⟩ := alike
  have malformed : exact → ((ParseError.unexpected .malformedParameters .parameterStart kind.tag
      span).within .parameters).SameButPlace ((ParseError.unexpected .malformedParameters
        .parameterStart (kind.map rename).tag place).within .parameters) :=
    fun _ => ⟨rfl, rfl, rfl, congrArg some sameTag, rfl, rfl⟩
  have ends (kind others : NodeKind)
      (same : SameNode exact kind others) :
      Lockstep first second exact outer (Same exact) (liftM (Build.close kind span))
        (liftM (Build.close others place)) :=
    .close same _ _
  cases kind with
  | identifier name =>
    have simple : Lockstep first second exact outer (Same exact)
        (do
          let value ← first.default?
          let kind ← Pure.pure (.simpleParameter name value)
          Build.close kind span)
        (do
          let value ← second.default?
          let kind ← Pure.pure (.simpleParameter (rename name) value)
          Build.close kind place) := by
      refine .bind default? fun _ _ value => .bind (.pure ⟨fun isExact => ?_,
        by nofun, by nofun⟩) ends
      rw [value isExact]
      exact congrArg (NodeKind.simpleParameter · _) (TokenKind.identifier.inj (same isExact))
    cases shape with
    | typed =>
      refine .bind .splitSymbol fun _ _ _ => .bind (.expect _ _) fun _ _ _ =>
        .bind (typeUnion rounds) fun _ _ type => .bind default? fun _ _ value =>
          .bind (.pure ⟨fun isExact => ?_, by nofun, by nofun⟩) ends
      rw [type isExact, value isExact]
      exact congrArg (NodeKind.typedParameter · _ _) (TokenKind.identifier.inj (same isExact))
    | simple => exact simple
    | instanceVariable => exact simple
  | instanceVariable name =>
    cases shape with
    | instanceVariable =>
      refine .bind (variableType? rounds) fun _ _ type => .bind (.pure ⟨fun isExact => ?_,
        by nofun, by nofun⟩) ends
      rw [type isExact]
      exact congrArg (NodeKind.variableParameter · _)
        (TokenKind.instanceVariable.inj (same isExact))
    | _ => exact .throwFirst malformed
  | _ => cases shape <;> exact .throwFirst malformed

/-- A parameter. -/
theorem parameter : Lockstep first second exact outer (Same exact) first.parameter
    second.parameter := by
  refine .bind (.ask Lookahead.byTags_parameter?) fun found other same => ?_
  subst same
  cases found with
  | some shape => exact parameterOf rounds shape
  | none => exact .fail fun _ _ alike => { alike with construct := rfl }

/-- A parameter list. -/
theorem parameters :
    Lockstep first second exact outer (Same exact) first.parameters second.parameters :=
  .bind (.expect _ _) fun _ _ _ => .bind (itemsUntil rounds (parameter rounds)) fun _ _ items =>
    .bind (.expectCloser _ _ _) fun _ _ _ => .bind (.addList items.same) fun _ _ same =>
      .close ⟨fun isExact => by rw [same isExact], by nofun, by nofun⟩ _ _

omit rounds in
/-- A reading that a choice leaves out or not, before another. -/
theorem optional {β : Type} {agree : β → β → Prop} {found : Bool} {left right : Parse α}
    {leftNext rightNext : Option α → Parse β}
    (reading : Lockstep first second exact outer (Same exact) left right)
    (next : ∀ answer other, Same exact answer other →
      Lockstep first second exact outer agree (leftNext answer) (rightNext other)) :
    Lockstep first second exact outer agree
      (if found = true then some <$> left >>= leftNext else Pure.pure none >>= leftNext)
      (if found = true then some <$> right >>= rightNext else Pure.pure none >>= rightNext) :=
  .choose (.bind (.map reading fun _ _ same isExact => congrArg some (same isExact)) next)
    (.bind (.pure fun _ => rfl) next)

/-- A method declaration. -/
theorem method : Lockstep first second exact outer (Same exact) first.method second.method := by
  refine .bind .current fun _ _ _ => .bind (.eat _) fun _ _ isPrivate => .bind (.expect _ _)
    fun _ _ _ => .bind methodName fun _ _ name => .bind (.check _) fun found other same => ?_
  subst isPrivate same
  refine .optional (parameters rounds) fun _ _ inputs => .bind (.eat _) fun found other same => ?_
  subst same
  refine .optional (typeUnion rounds) fun _ _ type => .bind (.body rfl) fun _ _ body =>
    .bind (.expectEnd _ _ _ _) fun _ _ _ => .close ⟨fun isExact => ?_, by nofun, by nofun⟩ _ _
  rw [name isExact, inputs isExact, type isExact, body isExact]

/-- An exported method. -/
theorem exportedMethod :
    Lockstep first second exact outer (Same exact) first.exportedMethod second.exportedMethod := by
  refine .bind .advance fun _ _ _ => .bind .currentTag fun tag other same => ?_
  subst same
  refine .choose (.bind (method rounds) fun _ _ same => .close ⟨fun isExact => ?_,
    by nofun, by nofun⟩ _ _)
    (.fail fun _ _ alike => { alike with fault := rfl, construct := rfl })
  rw [same isExact]

/-- Accessor declarations. -/
theorem accessors (kind : AccessorKind) :
    Lockstep first second exact outer (Same exact) (first.accessors kind) (second.accessors kind) :=
  .bind .advance fun _ _ _ => .bind (names rounds _) fun _ _ same => .bind (.addNames same)
    fun _ _ same => .close ⟨fun isExact => by rw [same isExact], by nofun, by nofun⟩ _ _

omit rounds in
/-- The first value of a class variable. -/
theorem classVariable {name other : Name} (same : Same exact name other) :
    Lockstep first second exact outer (Same exact) (first.classVariable name)
      (second.classVariable other) :=
  .bind .advance fun _ _ _ => .bind (.expect _ _) fun _ _ _ => .bind expression fun _ _ value =>
    .close ⟨fun isExact => by rw [same isExact, value isExact], by nofun, by nofun⟩ _ _

omit rounds in
/-- A failure because no member starts here. -/
theorem invalidMember :
    Lockstep first second exact outer (Same exact) Grammar.invalidMember Grammar.invalidMember :=
  .fail fun _ _ alike => { alike with fault := rfl, construct := rfl }

/-- A member of a class. -/
theorem classMember :
    Lockstep first second exact outer (Same exact) first.classMember second.classMember := by
  refine .currentKind fun kind other span place alike => ?_
  obtain ⟨⟨rename, rfl⟩, same, accessor⟩ := alike
  cases kind with
  | fixed tag spelled =>
    cases tag <;> first
      | exact method rounds
      | exact invalidMember
  | classVariable name =>
    exact classVariable fun isExact => TokenKind.classVariable.inj (same isExact)
  | identifier name =>
    have named := accessor name (rename name) rfl rfl
    dsimp only [TokenKind.map]
    rw [← named]
    cases first.soft.accessor? name with
    | some kind => exact accessors rounds kind
    | none => exact invalidMember
  | _ => exact invalidMember

omit rounds in
/-- A class declaration. -/
theorem classDeclaration (isOuter : outer) :
    Lockstep first second exact outer (Same exact) first.classDeclaration
      second.classDeclaration := by
  refine .bind .advance fun _ _ _ => .bind (.expectConstant _) fun name other named =>
    .bind (.classBody isOuter) fun members others items => ?_
  have ends (span place : Span) : Lockstep first second exact outer (Same exact)
      (do
        let range ← Build.addList members
        Parse.expectEnd .kwClass span .classBody
        Build.close (.classDeclaration name range) span)
      (do
        let range ← Build.addList others
        Parse.expectEnd .kwClass place .classBody
        Build.close (.classDeclaration other range) place) :=
    .bind (.addList items.same) fun _ _ same => .bind (.expectEnd _ _ _ _) fun _ _ _ =>
      .close ⟨fun isExact => by rw [named isExact, same isExact], by nofun, by nofun⟩ _ _
  have empty : members.isEmpty = others.isEmpty := by
    rw [Array.isEmpty, Array.isEmpty, items.size]
  dsimp only
  rw [empty]
  refine .choose (.bind .cursor fun here there alike => .bind (.unexpected _ _)
    fun error found same => .bind (.report fun isExact => ?_) fun _ _ _ => ends _ _) (ends _ _)
  have text : here.nameText name = there.nameText other := by
    rw [Cursor.nameText, Cursor.nameText, named isExact, alike.2 isExact]
  exact { same isExact with
    fault := congrArg ParseFault.emptyClass text, construct := rfl, related := rfl }

omit rounds in
/-- The `else` of a conditional. -/
theorem else? : Lockstep first second exact outer (Same exact) first.else? second.else? := by
  refine .bind (.check .kwElse) fun found other same => ?_
  subst same
  refine .choose (.bind .advance fun _ _ _ => .bind (.body rfl) fun _ _ body =>
    .bind (.close ⟨fun isExact => ?_,
      by nofun, by nofun⟩ _ _) fun _ _ same => .pure fun isExact => ?_)
    (.pure fun _ => rfl)
  · rw [body isExact]
  · rw [same isExact]

/-- Clauses that start with a keyword. -/
theorem clauses {keyword : Tag} {left right : Parse NodeId}
    (clause : Lockstep first second exact outer (Same exact) left right) :
    Lockstep first second exact outer (SameItems exact) (first.clauses keyword left)
      (second.clauses keyword right) := by
  refine repeats rounds no_items fun items others same => .bind (.check keyword)
    fun found other isSame => ?_
  subst isSame
  exact .choose (.bind clause fun _ _ alike => .pure (.yield (push_items same alike)))
    (.pure (.done same))

omit rounds in
/-- `elsif`, a condition and a body. -/
theorem elsifClause :
    Lockstep first second exact outer (Same exact) first.elsifClause second.elsifClause :=
  .bind .advance fun _ _ _ => .bind expression fun _ _ condition => .bind (.body rfl)
    fun _ _ body => .close ⟨fun isExact => by rw [condition isExact, body isExact],
      by nofun, by nofun⟩ _ _

/-- `if`, a condition and a body, further conditions, and an alternative. -/
theorem ifStatement :
    Lockstep first second exact outer (Same exact) first.ifStatement second.ifStatement := by
  refine .bind .advance fun _ _ _ => .bind expression fun _ _ condition => .bind (.body rfl)
    fun _ _ body => .bind (clauses rounds elsifClause) fun _ _ items => .bind (.addList items.same)
      fun _ _ elsifs => .bind else? fun _ _ otherwise => .bind (.expectEnd _ _ _ _) fun _ _ _ =>
        .close ⟨fun isExact => ?_, by nofun, by nofun⟩ _ _
  rw [condition isExact, body isExact, elsifs isExact, otherwise isExact]

omit rounds in
/-- `unless`, a condition and a body, and an alternative. -/
theorem unlessStatement :
    Lockstep first second exact outer (Same exact) first.unlessStatement
      second.unlessStatement := by
  refine .bind .advance fun _ _ _ => .bind expression fun _ _ condition => .bind (.body rfl)
    fun _ _ body => .bind else? fun _ _ otherwise => .bind (.expectEnd _ _ _ _) fun _ _ _ =>
      .close ⟨fun isExact => ?_, by nofun, by nofun⟩ _ _
  rw [condition isExact, body isExact, otherwise isExact]

/-- `when`, patterns and a body. -/
theorem whenClause :
    Lockstep first second exact outer (Same exact) first.whenClause second.whenClause := by
  have patterns : Lockstep first second exact outer (SameItems exact)
      (first.oneOrMore .comma first.expression) (second.oneOrMore .comma second.expression) :=
    oneOrMore rounds expression no_items fun _ _ _ _ => push_items
  exact .bind .advance fun _ _ _ => .bind patterns fun _ _ items => .bind (.addList items.same)
    fun _ _ patterns => .bind (.body rfl) fun _ _ body =>
      .close ⟨fun isExact => by rw [patterns isExact, body isExact], by nofun, by nofun⟩ _ _

/-- `case`, a subject, its branches, and an alternative. -/
theorem caseStatement :
    Lockstep first second exact outer (Same exact) first.caseStatement second.caseStatement := by
  refine .bind .advance fun _ _ _ => .bind expression fun subject other same =>
    .bind (clauses rounds (whenClause rounds)) fun whens others items => ?_
  have ends (span place : Span) : Lockstep first second exact outer (Same exact)
      (do
        let whens ← Build.addList whens
        let otherwise ← first.else?
        Parse.expectEnd .kwCase span .caseStatement
        Build.close (.caseStatement subject whens otherwise) span)
      (do
        let whens ← Build.addList others
        let otherwise ← second.else?
        Parse.expectEnd .kwCase place .caseStatement
        Build.close (.caseStatement other whens otherwise) place) :=
    .bind (.addList items.same) fun _ _ whens => .bind else? fun _ _ otherwise =>
      .bind (.expectEnd _ _ _ _) fun _ _ _ =>
        .close ⟨fun isExact => by rw [same isExact, whens isExact, otherwise isExact],
          by nofun, by nofun⟩ _ _
  have empty : whens.isEmpty = others.isEmpty := by
    rw [Array.isEmpty, Array.isEmpty, items.size]
  dsimp only
  rw [empty]
  refine .choose (.bind (.unexpected _ _) fun error found same =>
    .bind (.report fun isExact => ?_) fun _ _ _ => ends _ _) (ends _ _)
  exact { same isExact with fault := rfl, construct := rfl, related := rfl }

omit rounds in
/-- `while`, a condition and a body. -/
theorem whileLoop :
    Lockstep first second exact outer (Same exact) first.whileLoop second.whileLoop :=
  .bind .advance fun _ _ _ => .bind expression fun _ _ condition => .bind (.body rfl)
    fun _ _ body => .bind (.expectEnd _ _ _ _) fun _ _ _ =>
      .close ⟨fun isExact => by rw [condition isExact, body isExact], by nofun, by nofun⟩ _ _

omit rounds in
/-- `until`, a condition and a body. -/
theorem untilLoop :
    Lockstep first second exact outer (Same exact) first.untilLoop second.untilLoop :=
  .bind .advance fun _ _ _ => .bind expression fun _ _ condition => .bind (.body rfl)
    fun _ _ body => .bind (.expectEnd _ _ _ _) fun _ _ _ =>
      .close ⟨fun isExact => by rw [condition isExact, body isExact], by nofun, by nofun⟩ _ _

omit rounds in
/-- `for`, a variable, what it ranges over, and a body. -/
theorem forLoop : Lockstep first second exact outer (Same exact) first.forLoop second.forLoop := by
  refine .bind .advance fun _ _ _ => .bind (.expectIdentifier _) fun named other same =>
    .bind (.addNode ⟨fun isExact => ?_,
      by nofun, by nofun⟩ _ _) fun _ _ target => .bind (.expect _ _) fun _ _ _ =>
      .bind expression fun _ _ iterable => .bind (.body rfl) fun _ _ body =>
        .bind (.expectEnd _ _ _ _) fun _ _ _ => .close ⟨fun isExact => ?_, by nofun, by nofun⟩ _ _
  · rw [same isExact]
  · rw [target isExact, iterable isExact, body isExact]

omit rounds in
/-- `rescue`, the errors it is for, and a body. -/
theorem rescueClause :
    Lockstep first second exact outer (Same exact) first.rescueClause second.rescueClause :=
  .bind .advance fun _ _ _ => .bind rescueFilter? fun _ _ filter => .bind (.body rfl)
    fun _ _ body => .close ⟨fun isExact => by rw [filter isExact, body isExact],
      by nofun, by nofun⟩ _ _

omit rounds in
/-- `ensure` and a body. -/
theorem ensure? : Lockstep first second exact outer (Same exact) first.ensure? second.ensure? := by
  refine .bind (.check .kwEnsure) fun found other same => ?_
  subst same
  refine .choose (.bind .advance fun _ _ _ => .bind (.body rfl) fun _ _ body =>
    .bind (.close ⟨fun isExact => ?_,
      by nofun, by nofun⟩ _ _) fun _ _ same => .pure fun isExact => ?_)
    (.pure fun _ => rfl)
  · rw [body isExact]
  · rw [same isExact]

/-- `begin` and a body, what to do about errors, and what to do in any case. -/
theorem beginBlock :
    Lockstep first second exact outer (Same exact) first.beginBlock second.beginBlock := by
  refine .bind .advance fun _ _ _ => .bind (.body rfl) fun _ _ body =>
    .bind (clauses rounds rescueClause) fun _ _ items => .bind (.addList items.same)
      fun _ _ rescues => .bind ensure? fun _ _ ensure => .bind (.expectEnd _ _ _ _) fun _ _ _ =>
        .close ⟨fun isExact => ?_, by nofun, by nofun⟩ _ _
  rw [body isExact, rescues isExact, ensure isExact]

omit rounds in
/-- `return`, with a value or without. -/
theorem returnJump :
    Lockstep first second exact outer (Same exact) first.returnJump second.returnJump := by
  refine .bind .advance fun _ _ _ => .bind .currentTag fun tag other same => ?_
  subst same
  exact .optional expression fun _ _ value =>
    .close ⟨fun isExact => by rw [value isExact], by nofun, by nofun⟩ _ _

omit rounds in
/-- `raise` and an expression in parentheses. -/
theorem raiseJump :
    Lockstep first second exact outer (Same exact) first.raiseJump second.raiseJump :=
  .bind .advance fun _ _ _ => .bind (.expect _ _) fun _ _ _ => .bind expression fun _ _ value =>
    .bind (.expect _ _) fun _ _ _ => .close ⟨fun isExact => by rw [value isExact],
      by nofun, by nofun⟩ _ _

/-- `yield`, bare or with arguments. -/
theorem yieldJump :
    Lockstep first second exact outer (Same exact) first.yieldJump second.yieldJump := by
  refine .bind .advance fun _ _ _ => .bind (.check _) fun found other same => ?_
  subst same
  exact .optional (arguments rounds) fun _ _ arguments =>
    .close ⟨fun isExact => by rw [arguments isExact], by nofun, by nofun⟩ _ _

/-- The local name of an import. -/
theorem asName? : Lockstep first second exact outer (Same exact) first.asName? second.asName? := by
  refine .bind (.eat .comma) fun found other same => ?_
  subst same
  refine .choose (.bind (.expectIdentifier _) fun _ _ _ => .bind (.expect _ _) fun _ _ _ =>
    .bind (stringLiteral rounds) fun _ _ same => .pure fun isExact => ?_) (.pure fun _ => rfl)
  rw [same isExact]

/-- An import. -/
theorem requireImport :
    Lockstep first second exact outer (Same exact) first.requireImport second.requireImport := by
  refine .bind (.expectIdentifier _) fun named other same =>
    .bind (.addNode ⟨fun isExact => ?_,
      by nofun, by nofun⟩ _ _) fun _ _ target => .bind (.expect _ _) fun _ _ _ =>
      .bind (.expectIdentifier _) fun _ _ _ => .bind (.expect _ _) fun _ _ _ =>
        .bind (stringLiteral rounds) fun _ _ path => .bind (asName? rounds) fun _ _ asName =>
          .bind (.expect _ _) fun _ _ _ => .close ⟨fun isExact => ?_, by nofun, by nofun⟩ _ _
  · rw [same isExact]
  · rw [target isExact, path isExact, asName isExact]

/-- A statement that starts with a token, unless no keyword introduces it. -/
theorem statementOf (isOuter : outer) (tag : Tag) :
    (first.statementOf tag = first.plainStatement ∧
      second.statementOf tag = second.plainStatement) ∨
    Lockstep first second exact outer (Same exact) (first.statementOf tag)
      (second.statementOf tag) := by
  cases tag <;> first
    | exact .inl ⟨rfl, rfl⟩
    | right
  case kwDef => exact method rounds
  case kwPrivate => exact method rounds
  case kwExport => exact exportedMethod rounds
  case kwClass => exact classDeclaration isOuter
  case kwIf => exact ifStatement rounds
  case kwUnless => exact unlessStatement
  case kwCase => exact caseStatement rounds
  case kwWhile => exact whileLoop
  case kwUntil => exact untilLoop
  case kwFor => exact forLoop
  case kwBegin => exact beginBlock rounds
  case kwReturn => exact returnJump
  case kwBreak => exact .leaf ⟨fun _ => rfl, by nofun, by nofun⟩
  case kwNext => exact .leaf ⟨fun _ => rfl, by nofun, by nofun⟩
  case kwRaise => exact raiseJump
  case kwYield => exact yieldJump rounds

end Lockstep

end Vibescript.Grammar
