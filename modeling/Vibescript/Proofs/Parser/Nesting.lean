import Vibescript.Proofs.Parser.Building

/-!
# The nesting limit and the height of trees

A production puts a few nodes on top of what it reads one level deeper, at most four. The loops of
operators, calls, members and subscripts put their nodes on top of a first operand that stays as high
as before. So the nesting limit bounds the number of nodes on a path, when the operands that a chain
goes on from are not counted; how long a chain is, it does not bound.
-/
namespace Vibescript

open Build Parse

open Arena (Fact keepsAll_nil keepsAll_one keepsAll_many keepsAll_optional)

/-- What is read one level deeper is within a bound. -/
structure Grammar.Nests (grammar : Grammar) (height : Nat) : Prop where
  /-- Types are within the bound. -/
  enough : 2 ≤ height
  /-- So is what is read. -/
  deeper : ∀ request, (grammar.deeper request).Builds .none fun id => .node height id

namespace Grammar.Nests

variable {grammar : Grammar} {known : Fact} {height : Nat}

/-- The bound may be higher. -/
theorem succ (nests : grammar.Nests height) : grammar.Nests (height + 1) :=
  ⟨Nat.le_succ_of_le nests.enough, fun request => (nests.deeper request).le (Nat.le_succ _)⟩

variable (nests : grammar.Nests height)

include nests

/-- Nodes without children are within the bound. -/
theorem positive : 1 ≤ height := Nat.le_of_succ_le nests.enough

/-- An expression. -/
theorem expression : grammar.expression.Builds known fun id => .node height id :=
  (nests.deeper _).anywhere

/-- A round of a body. -/
theorem bodyStep (terminators : TagSet) (statements : Array NodeId) :
    Parse.Builds (liftM (grammar.bodyStep terminators statements))
      ((Fact.nodes height statements.toList).and known) fun result =>
        .nodes height result.value.toList := by
  rw [liftM_bodyStep_statementStep]
  refine .skip .shouldHalt fun halts => .choose (.skip .skipToEnd fun _ =>
    .pure _ fun _ both => both.1) (.skip .onCursor fun claimed => ?_)
  cases claimed with
  | some token => exact .bind ((Parse.Builds.directive token).le nests.positive) fun _ => .push rfl
  | none =>
    refine .skip .currentTag fun tag => .choose (.pure _ fun _ both => both.1) ?_
    exact .attempt nests.positive (nests.deeper .statement)

/-- A body. -/
theorem body (terminators : TagSet) :
    Parse.Builds (liftM (grammar.body terminators)) known fun range =>
      .child height (.list range) := by
  rw [Grammar.body, liftM_bind, Grammar.loop, liftM_repeatWithin]
  exact .bind (.loop (fun _ _ => List.forall_mem_nil _) fun statements =>
    nests.bodyStep terminators statements) fun _ => .addList fun _ both => both.1

/-- An array literal. -/
theorem arrayLiteral : grammar.arrayLiteral.Builds known fun id => .node (height + 1) id :=
  .skip .advance fun _ => .bind (.itemsUntil nests.expression) fun _ =>
    .skip (.expectCloser _ _ _) fun _ => .closeList (fun _ => rfl) fun _ => rfl

/-- An entry of a hash literal. -/
theorem hashEntry : grammar.hashEntry.Builds known fun id => .node (height + 1) id := by
  refine .skip .current fun first => ?_
  have value (key : NodeId) : Parse.Builds (do
      let _ ← Build.splitSymbol
      let _ ← Parse.expect .colon .hash
      let value ← grammar.expression
      Build.close (.hashEntry key value) first.span)
      ((Fact.node 1 key).and known) fun id => .node (height + 1) id := by
    refine .skip .splitSymbol fun _ => .skip (.expect _ _) fun _ => .bind nests.expression fun _ =>
      .close fun arena both => .plain rfl ?_
    have key := both.2.1.le nests.positive
    simp_all [NodeKind.fields]
  dsimp only
  split
  · exact .skip .advance fun _ => .bind .identifier value
  · exact .bind .stringLiteral value
  · exact .failFirst

/-- A hash literal. -/
theorem hashLiteral : grammar.hashLiteral.Builds known fun id => .node (height + 2) id :=
  .skip .advance fun _ => .bind (.itemsUntil nests.hashEntry) fun _ =>
    .skip (.expectCloser _ _ _) fun _ => .closeList (fun _ => rfl) fun _ => rfl

/-- An expression in parentheses. -/
theorem parenthesized : grammar.parenthesized.Builds known fun id => .node (height + 1) id :=
  .skip .advance fun _ => .bind nests.expression fun _ => .skip (.expect _ _) fun _ =>
    .close fun _ both => .plain rfl (keepsAll_one.mpr both.1)

/-- An argument. -/
theorem argument : grammar.argument.Builds known fun id => .node (height + 1) id := by
  refine .skip .current fun token => ?_
  split
  · refine .skip (.ask _) fun found => .choose ?_ nests.succ.expression
    refine .skip .advance fun _ => .skip .splitSymbol fun _ => .skip .advance fun _ =>
      .bind (Parse.Builds.identifier.le nests.positive) fun key => .bind nests.expression fun _ =>
      .close fun _ both => .plain rfl (by simp_all [NodeKind.fields])
  · exact nests.succ.expression

/-- Arguments in parentheses. -/
theorem arguments :
    grammar.arguments.Builds known fun range => .child (height + 1) (.list range) :=
  .skip (.expect _ _) fun _ => .bind (.itemsUntil nests.argument) fun _ =>
    .skip (.expectCloser _ _ _) fun _ => .addList fun _ both => both.1

/-- A block, if one follows. -/
theorem block? : grammar.block?.Builds known fun id => .nodes (height + 1) id.toList := by
  refine .skip (.check .kwDo) fun found => .choose ?_ .nothing
  refine .skip .advance fun opening => .skip .blockParameters fun _ => .bind (nests.body _) fun _ =>
    .skip (.expectEnd _ _ _) fun _ => .just (.close fun _ both => ?_)
  exact .plain rfl (keepsAll_many.mpr both.1)

/-- The arguments and the block of a call: what it is applied to is not nested in it. -/
theorem call (receiver : Option NodeId) (method : Name) (start : Span) :
    (grammar.call receiver method start).Builds (.nodes (height + 2) receiver.toList) fun id =>
      .node (height + 2) id := by
  refine .bind nests.arguments fun _ => .bind nests.block? fun _ => .close fun arena both => ?_
  cases receiver with
  | none => exact .plain rfl (by simp_all [NodeKind.fields])
  -- the receiver may be as high as the call itself, the arguments and the block may not
  | some lead => exact .leading rfl (List.append_assoc _ _ _) (by simp_all) (by simp_all)

/-- What follows the point after an operand. -/
theorem member (receiver : NodeId) (start : Span) :
    (grammar.member receiver start).Builds (.node (height + 2) receiver) fun id =>
      .node (height + 2) id := by
  refine .skip .advance fun _ => .skip (.expectIdentifier _) fun _ => .skip (.check _) fun found =>
    .choose ?_ ?_
  · exact (nests.call _ _ _).imp (fun _ shallow => List.forall_mem_singleton.mpr shallow)
      fun _ _ given => given
  · exact .bind nests.block? fun _ => .close fun arena both =>
      .leading rfl rfl (by simp_all) (by simp_all)

/-- An index in brackets after an operand. -/
theorem subscript (receiver : NodeId) (start : Span) :
    (grammar.subscript receiver start).Builds (.node (height + 2) receiver) fun id =>
      .node (height + 2) id :=
  .skip .advance fun _ => .bind nests.succ.expression fun _ => .skip (.expect _ _) fun _ =>
    .close fun _ both => .leading rfl rfl both.2 (keepsAll_one.mpr both.1)

/-- Calls, members and subscripts after an operand make nothing higher. -/
theorem chain (operand : NodeId) :
    (grammar.chain operand).Builds (.node (height + 2) operand) fun id => .node (height + 2) id := by
  refine .loop (fun _ holds => holds) fun left => .skip (.nodeSpan left) fun start =>
    .skip .currentTag fun tag => ?_
  have further {reading : Parse NodeId}
      (builds : reading.Builds (.node (height + 2) left) fun id => .node (height + 2) id) :
      Parse.Builds (do return ForInStep.yield (← reading))
        ((Fact.node (height + 2) left).and (.node (height + 2) operand)) fun result =>
          .node (height + 2) result.value :=
    .bind (builds.imp (fun _ both => both.1) fun _ _ given => given) fun _ =>
      .pure _ fun _ both => both.1
  split
  · exact further (nests.member left start)
  · exact further (nests.subscript left start)
  · exact .pure _ fun _ both => both.1

/-- A name, or a call. -/
theorem nameOrCall (name : Name) :
    (grammar.nameOrCall name).Builds .none fun id => .node (height + 2) id :=
  .skip .advance fun _ => .skip (.check _) fun _ => .choose
    ((nests.call _ _ _).imp (fun _ _ => List.forall_mem_nil _) fun _ _ given => given)
    (Parse.Builds.identifier.le (by omega))

/-- A primary expression. -/
theorem primary : grammar.primary.Builds .none fun id => .node (height + 2) id := by
  refine .skip .current fun token => ?_
  split
  · exact nests.nameOrCall _
  · exact Parse.Builds.stringLiteral.le (by omega)
  · exact nests.succ.arrayLiteral
  · exact nests.hashLiteral
  · exact nests.succ.parenthesized
  · split
    · next same => exact (Parse.Builds.literal same).le (by omega)
    · exact .fail

/-- An operand. -/
theorem operand : grammar.operand.Builds .none fun id => .node (height + 2) id := by
  refine .skip .currentTag fun tag => ?_
  split
  · exact .skip .advance fun _ => .bind (nests.succ.deeper _) fun _ => .close fun _ both =>
      .plain rfl (keepsAll_one.mpr both.1)
  · exact .bind nests.primary fun _ => (nests.chain _).imp (fun _ both => both.1)
      fun _ _ given => given

/-- An expression: operators make nothing higher than their right operands do. -/
theorem expressionFrom (least : BindingPower) :
    (grammar.expressionFrom least).Builds .none fun id => .node (height + 2) id := by
  rw [Grammar.expressionFrom_eq]
  -- what the loop keeps is the bound on the left operand, however many operators it has taken
  refine .bind nests.operand fun first => .loop (fun _ both => both.1) fun left =>
    .skip .currentTag fun tag => ?_
  split
  · exact .pure _ fun _ both => both.1
  · split
    · exact .pure _ fun _ both => both.1
    · next op _ _ =>
      refine .skip .advance fun _ => .skip (.nodeSpan left) fun _ =>
        .bind (nests.succ.deeper _).anywhere fun right => .bind (.close fun _ both => ?_) fun _ =>
        .pure _ fun _ both => both.1
      cases op <;> exact .leading rfl rfl both.2.1 (keepsAll_one.mpr both.1)

/-- The value that a parameter has when it is not given. -/
theorem default? : grammar.default?.Builds known fun id => .nodes height id.toList :=
  .skip (.eat _) fun _ => .choose (.just nests.expression) .nothing

/-- A type after a colon. -/
theorem variableType? : grammar.variableType?.Builds known fun id => .nodes height id.toList :=
  .skip .splitSymbol fun _ => .skip (.eat _) fun _ => .choose
    (.just (Parse.Builds.typeUnion.le nests.enough)) .nothing

/-- A parameter of a shape. -/
theorem parameterOf (shape : Lookahead.ParameterShape) :
    (grammar.parameterOf shape).Builds .none fun id => .node (height + 1) id := by
  refine .skip .advance fun token => ?_
  dsimp only
  split
  · exact .bind nests.variableType? fun _ => .close fun _ both =>
      .plain rfl (keepsAll_optional.mpr both.1)
  · exact .skip .splitSymbol fun _ => .skip (.expect _ _) fun _ =>
      .bind (Parse.Builds.typeUnion.le nests.enough) fun _ => .bind nests.default? fun _ =>
      .close fun _ both => .plain rfl (by simp_all [NodeKind.fields])
  · exact .bind nests.default? fun _ => .close fun _ both =>
      .plain rfl (keepsAll_optional.mpr both.1)
  · exact .throw _

/-- A parameter. -/
theorem parameter : grammar.parameter.Builds .none fun id => .node (height + 1) id := by
  refine .skip .askParameter? fun found => ?_
  cases found with
  | some shape => exact nests.parameterOf shape
  | none => exact .fail

/-- A parameter list. -/
theorem parameters : grammar.parameters.Builds known fun id => .node (height + 2) id :=
  .skip (.expect _ _) fun _ => .bind (.itemsUntil nests.parameter) fun _ =>
    .skip (.expectCloser _ _ _) fun _ => .closeList (fun _ => rfl) fun _ => rfl

/-- A method declaration. -/
theorem method : grammar.method.Builds .none fun id => .node (height + 3) id := by
  refine .skip .current fun first => .skip (.eat _) fun isPrivate => .skip (.expect _ _) fun _ =>
    .skip .methodName fun name => ?_
  refine .skip (.check .leftParen) fun found => .chosen nests.parameters fun inputs => ?_
  refine .skip (.eat .arrow) fun found =>
    .chosen (Parse.Builds.typeUnion.le (Nat.le_add_left 2 height)) fun returnType => ?_
  -- the parameter list is the highest child, so the bound on the others is raised to its own
  exact .bind (nests.succ.succ.body _) fun _ => .skip (.expectEnd _ _ _) fun _ =>
    .close fun _ both => .plain rfl (by simp_all [NodeKind.fields])

/-- An exported method. -/
theorem exportedMethod : grammar.exportedMethod.Builds .none fun id => .node (height + 4) id := by
  refine .skip .advance fun first => .skip .currentTag fun tag => .choose ?_ .fail
  exact .bind nests.method fun _ => .close fun _ both => .plain rfl (keepsAll_one.mpr both.1)

/-- The first value of a class variable. -/
theorem classVariable (name : Name) :
    (grammar.classVariable name).Builds known fun id => .node (height + 1) id :=
  .skip .advance fun _ => .skip (.expect _ _) fun _ => .bind nests.expression fun _ =>
    .close fun _ both => .plain rfl (keepsAll_one.mpr both.1)

/-- A member of a class. -/
theorem classMember : grammar.classMember.Builds .none fun id => .node (height + 3) id := by
  refine .skip .current fun token => ?_
  split
  · exact nests.method
  · exact nests.method
  · exact (nests.classVariable _).le (by omega)
  · split
    · exact (Parse.Builds.accessors _).le (by omega)
    · exact .fail
  · exact .fail

/-- The members of a class. -/
theorem classBody :
    Parse.Builds (liftM grammar.classBody) known fun members => .nodes (height + 3) members.toList := by
  rw [Grammar.classBody, Grammar.loop, liftM_repeatWithin]
  refine .loop (fun _ _ => List.forall_mem_nil _) fun members => ?_
  rw [liftM_memberStep_attemptStep]
  exact .skip .shouldHalt fun halts => .choose (.skip .skipToEnd fun _ =>
    .pure _ fun _ both => both.1) (.skip .currentTag fun tag => .choose
      (.pure _ fun _ both => both.1) (.attempt (by omega) nests.classMember))

/-- A class declaration. -/
theorem classDeclaration : grammar.classDeclaration.Builds .none fun id => .node (height + 4) id := by
  refine .skip .advance fun opening => .skip (.expectConstant _) fun name =>
    .bind nests.classBody fun members => ?_
  have ends : Parse.Builds (do
      let range ← Build.addList members
      Parse.expectEnd .kwClass opening.span .classBody
      Build.close (.classDeclaration name range) opening.span)
      ((Fact.nodes (height + 3) members.toList).and .none) fun id => .node (height + 4) id :=
    .bind (.addList fun _ both => both.1) fun _ => .skip (.expectEnd _ _ _) fun _ =>
      .close fun _ both => .plain rfl (keepsAll_many.mpr both.1)
  dsimp only
  split
  · exact .skip .cursor fun cursor => .skip (.unexpected _ _) fun _ => .skip (.report _) fun _ => ends
  · exact ends

/-- A clause that is only a body, if it follows. -/
theorem clause? {keyword : Tag} {kind : NodeRange → NodeKind}
    (starts : ∀ range, (kind range).first? = none)
    (fields : ∀ range, (kind range).fields = NodeKind.many "body" range) :
    Parse.Builds (do
      if ← Build.check keyword then
        let first ← Build.advance
        let body ← grammar.body .blockEnd
        return some (← Build.close (kind body) first.span)
      else return none) known fun id => .nodes (height + 1) id.toList :=
  .skip (.check _) fun _ => .choose
    (.skip .advance fun _ => .bind (nests.body _) fun _ => .just (.close fun _ both =>
      .plain (starts _) (fields _ ▸ keepsAll_many.mpr both.1))) .nothing

/-- The `else` of a conditional. -/
theorem else? : grammar.else?.Builds known fun id => .nodes (height + 1) id.toList :=
  nests.clause? (fun _ => rfl) fun _ => rfl

/-- `ensure` and a body. -/
theorem ensure? : grammar.ensure?.Builds known fun id => .nodes (height + 1) id.toList :=
  nests.clause? (fun _ => rfl) fun _ => rfl

/-- `elsif`, a condition and a body. -/
theorem elsifClause : grammar.elsifClause.Builds known fun id => .node (height + 1) id :=
  .skip .advance fun _ => .bind nests.expression fun _ => .bind (nests.body _) fun _ =>
    .close fun _ both => .plain rfl (by simp_all [NodeKind.fields])

/-- `if`, a condition and a body, further conditions, and an alternative. -/
theorem ifStatement : grammar.ifStatement.Builds known fun id => .node (height + 2) id := by
  refine .skip .advance fun opening => .bind nests.succ.expression fun _ =>
    .bind (nests.succ.body _) fun _ => .bind (.clauses nests.elsifClause) fun _ => ?_
  exact .bind (.addList fun _ both => both.1) fun _ => .bind nests.else? fun _ =>
    .skip (.expectEnd _ _ _) fun _ => .close fun _ both => .plain rfl (by simp_all [NodeKind.fields])

/-- `unless`, a condition and a body, and an alternative. -/
theorem unlessStatement : grammar.unlessStatement.Builds known fun id => .node (height + 2) id := by
  refine .skip .advance fun opening => .bind nests.succ.expression fun _ =>
    .bind (nests.succ.body _) fun _ => .bind nests.else? fun _ => ?_
  exact .skip (.expectEnd _ _ _) fun _ =>
    .close fun _ both => .plain rfl (by simp_all [NodeKind.fields])

/-- `when`, patterns and a body. -/
theorem whenClause : grammar.whenClause.Builds known fun id => .node (height + 1) id :=
  .skip .advance fun _ => .bind (.oneOrMore nests.expression) fun _ =>
    .bind (.addList fun _ both => both.1) fun _ => .bind (nests.body _) fun _ =>
    .close fun _ both => .plain rfl (by simp_all [NodeKind.fields])

/-- `case`, a subject, its branches, and an alternative. -/
theorem caseStatement : grammar.caseStatement.Builds .none fun id => .node (height + 2) id := by
  refine .skip .advance fun opening => .bind nests.succ.expression fun subject =>
    .bind (.clauses nests.whenClause) fun whens => ?_
  have ends : Parse.Builds (do
      let whens ← Build.addList whens
      let otherwise ← grammar.else?
      Parse.expectEnd .kwCase opening.span .caseStatement
      Build.close (.caseStatement subject whens otherwise) opening.span)
      ((Fact.nodes (height + 1) whens.toList).and ((Fact.node (height + 1) subject).and .none))
      fun id => .node (height + 2) id :=
    .bind (.addList fun _ both => both.1) fun _ => .bind nests.else? fun _ =>
      .skip (.expectEnd _ _ _) fun _ => .close fun _ both => .plain rfl (by simp_all [NodeKind.fields])
  dsimp only
  split
  · exact .skip (.unexpected _ _) fun _ => .skip (.report _) fun _ => ends
  · exact ends

/-- `while`, a condition and a body. -/
theorem whileLoop : grammar.whileLoop.Builds known fun id => .node (height + 1) id :=
  .skip .advance fun _ => .bind nests.expression fun _ => .bind (nests.body _) fun _ =>
    .skip (.expectEnd _ _ _) fun _ => .close fun _ both => .plain rfl (by simp_all [NodeKind.fields])

/-- `until`, a condition and a body. -/
theorem untilLoop : grammar.untilLoop.Builds known fun id => .node (height + 1) id :=
  .skip .advance fun _ => .bind nests.expression fun _ => .bind (nests.body _) fun _ =>
    .skip (.expectEnd _ _ _) fun _ => .close fun _ both => .plain rfl (by simp_all [NodeKind.fields])

/-- `for`, a variable, what it ranges over, and a body. -/
theorem forLoop : grammar.forLoop.Builds known fun id => .node (height + 1) id := by
  refine .skip .advance fun _ => .skip (.expectIdentifier _) fun _ =>
    .bind (Parse.Builds.identifier.le nests.positive) fun _ =>
    .skip (.expect _ _) fun _ => .bind nests.expression fun _ => ?_
  exact .bind (nests.body _) fun _ => .skip (.expectEnd _ _ _) fun _ =>
    .close fun _ both => .plain rfl (by simp_all [NodeKind.fields])

/-- `rescue`, the errors it is for, and a body. -/
theorem rescueClause : grammar.rescueClause.Builds known fun id => .node (height + 1) id :=
  .skip .advance fun _ => .skip .rescueFilter? fun _ => .bind (nests.body _) fun _ =>
    .close fun _ both => .plain rfl (keepsAll_many.mpr both.1)

/-- `begin` and a body, what to do about errors, and what to do in any case. -/
theorem beginBlock : grammar.beginBlock.Builds known fun id => .node (height + 2) id := by
  refine .skip .advance fun opening => .bind (nests.succ.body _) fun _ =>
    .bind (.clauses nests.rescueClause) fun _ => .bind (.addList fun _ both => both.1) fun _ => ?_
  exact .bind nests.ensure? fun _ => .skip (.expectEnd _ _ _) fun _ =>
    .close fun _ both => .plain rfl (by simp_all [NodeKind.fields])

/-- `return`, with or without a value. -/
theorem returnJump : grammar.returnJump.Builds known fun id => .node (height + 1) id :=
  .skip .advance fun _ => .skip .currentTag fun _ => .chosen nests.expression fun _ =>
    .close fun _ both => .plain rfl (keepsAll_optional.mpr both.1)

/-- `raise` and an expression in parentheses. -/
theorem raiseJump : grammar.raiseJump.Builds known fun id => .node (height + 1) id :=
  .skip .advance fun _ => .skip (.expect _ _) fun _ => .bind nests.expression fun _ =>
    .skip (.expect _ _) fun _ => .close fun _ both => .plain rfl (keepsAll_one.mpr both.1)

/-- `yield`, bare or with arguments. -/
theorem yieldJump : grammar.yieldJump.Builds known fun id => .node (height + 2) id := by
  refine .skip .advance fun _ => .skip (.check _) fun _ => .choose ?_
    (.close fun _ _ => .plain rfl keepsAll_nil)
  rw [map_eq_pure_bind, bind_assoc]
  exact .bind nests.arguments fun _ => .close fun _ both => .plain rfl (keepsAll_many.mpr both.1)

/-- A statement that no keyword introduces. -/
theorem plainStatement : grammar.plainStatement.Builds .none fun id => .node height id := by
  refine .skip .currentTag fun tag => .choose ?_ (.choose .fail nests.expression)
  exact .skip (.ask _) fun _ =>
    .choose (Parse.Builds.requireImport.le nests.enough) nests.expression

/-- A statement. -/
theorem statement : grammar.statement.Builds .none fun id => .node (height + 4) id := by
  have jump {kind : NodeKind} (starts : kind.first? = none) (bare : kind.fields = []) :
      Parse.Builds (liftM (Build.leaf kind)) .none fun id => .node (height + 4) id :=
    .leaf fun _ _ => .plain starts (bare ▸ keepsAll_nil)
  refine .skip .currentTag fun tag => ?_
  split
  · exact nests.method.le (by omega)
  · exact nests.method.le (by omega)
  · exact nests.exportedMethod
  · exact nests.classDeclaration
  · exact nests.ifStatement.le (by omega)
  · exact nests.unlessStatement.le (by omega)
  · exact nests.caseStatement.le (by omega)
  · exact nests.whileLoop.le (by omega)
  · exact nests.untilLoop.le (by omega)
  · exact nests.forLoop.le (by omega)
  · exact nests.beginBlock.le (by omega)
  · exact nests.returnJump.le (by omega)
  · exact jump rfl rfl
  · exact jump rfl rfl
  · exact nests.raiseJump.le (by omega)
  · exact nests.yieldJump.le (by omega)
  · exact nests.plainStatement.le (by omega)

/-- Whatever is read, at most four nodes stand on top of what is read one level deeper. -/
theorem reading (request : Request) :
    (grammar.reading request).Builds .none fun id => .node (height + 4) id := by
  cases request with
  | statement => exact nests.statement
  | expression least => exact (nests.expressionFrom least).le (by omega)
  | operand => exact nests.operand.le (by omega)

/-- The node of a whole source text. -/
theorem program : Parse.Builds (liftM grammar.program) known fun id => .node (height + 1) id := by
  rw [Grammar.program, liftM_bind]
  refine .bind (nests.body _) fun body => ?_
  rw [liftM_bind]
  exact .skip .cursor fun _ => .addNode fun _ both => .plain rfl (keepsAll_many.mpr both.1)

end Grammar.Nests

/-- At every level what is read is within a bound. -/
theorem Grammar.nests_level (options : ParseOptions) (soft : SoftNames) (rounds levels : Nat) :
    (level options soft rounds levels).Nests (4 * levels + 2) := by
  induction levels with
  | zero =>
    -- below the last level nothing is built
    refine ⟨Nat.le_refl 2, fun _ => ?_⟩
    exact .skip .current fun _ => .skip .skipToEnd fun _ => .throw _
  | succ levels ih =>
    refine ⟨by omega, fun request => ?_⟩
    show Parse.Builds (descend options soft rounds (levels + 1) request) .none _
    rw [descend_succ]
    exact (ih.reading request).le (by omega)

/-- The root of a parse is within a bound. -/
theorem shallow_parseWith (options : ParseOptions) (source : String) :
    (parseWith options source).tree.arena.Shallow (4 * options.maxDepth + 3)
      (parseWith options source).tree.root := by
  rw [parseWith_eq, Parser.tree_finish, Parser.run_eq, Grammar.outermost_eq]
  generalize Parser.start source = start
  have nests := Grammar.nests_level options start.1 (Parser.rounds source) options.maxDepth
  generalize Grammar.level options start.1 (Parser.rounds source) options.maxDepth = grammar at nests
  have builds : Parse.Builds (liftM grammar.program) .none fun id =>
    .node (4 * options.maxDepth + 3) id := nests.program
  exact (builds start.2 trivial).2

/-- However long its chains of operators, calls, members and subscripts, a tree is no higher than the
nesting limit admits when the operands that chains go on from are not counted. -/
theorem measure_parseWith (options : ParseOptions) (source : String) {path : List NodeId}
    (isPath : (parseWith options source).tree.IsPath path) :
    (parseWith options source).tree.measure NodeKind.chained? path ≤
      8 * (options.maxDepth + 2) := by
  obtain ⟨root, descends⟩ := isPath
  have respects := respectsPrecedence_parseWith options source
  obtain ⟨rest, rfl⟩ := List.head?_eq_some_iff.mp root
  have short := (shallow_parseWith options source).measure_le descends
  have twice := SyntaxTree.measure_chained?_le respects (parseWith options source).tree.root rest
  omega

/-- A member of a name: the name is not counted. -/
theorem measure_member :
    (parseWith ⟨2, .recover⟩ "a.b").tree.IsPath [⟨2⟩, ⟨1⟩, ⟨0⟩] ∧
      (parseWith ⟨2, .recover⟩ "a.b").tree.measure NodeKind.chained? [⟨2⟩, ⟨1⟩, ⟨0⟩] ≤ 32 := by
  have isPath : (parseWith ⟨2, .recover⟩ "a.b").tree.IsPath [⟨2⟩, ⟨1⟩, ⟨0⟩] := by decide +kernel
  exact ⟨isPath, measure_parseWith _ _ isPath⟩

/-- When all its nodes are counted, a path through a chain of members is longer than that. -/
theorem not_length_path_le :
    ¬∀ (options : ParseOptions) (source : String) (path : List NodeId),
      (parseWith options source).tree.IsPath path →
        (∀ last ∈ path.getLast?, (parseWith options source).tree.children last = []) →
          path.length ≤ 8 * (options.maxDepth + 2) := by
  intro bounded
  have longer : ∃ source path, (parseWith ⟨2, .recover⟩ source).tree.IsPath path ∧
      (∀ last ∈ path.getLast?, (parseWith ⟨2, .recover⟩ source).tree.children last = []) ∧
      32 < path.length :=
    ⟨"a.b.b.b.b.b.b.b.b.b.b.b.b.b.b.b.b.b.b.b.b.b.b.b.b.b.b.b.b.b.b.b",
      (List.range 33).reverse.map NodeId.mk, by decide +kernel⟩
  obtain ⟨source, path, isPath, isLeaf, more⟩ := longer
  exact Nat.not_lt.mpr (bounded _ _ _ isPath isLeaf) more

end Vibescript
