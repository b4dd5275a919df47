import Vibescript.Proofs.Parser.Expressions

/-!
# What operands and operators read

An operand goes on with calls, members and subscripts, an expression with infix operators. Both
are loops in which the node that was read so far becomes the first child of the next one. The
loop over operators keeps the power of that node: it is high enough for every operator that can
follow.
-/
namespace Vibescript

namespace NodeKind

/-- The power of an infix operator is the power of the node that it makes. -/
theorem admits_infixNode (op : InfixOp) (left right : NodeId) :
    (Category.expression op.power).admits (Grammar.infixNode op left right) = true := by
  cases op <;> simp [Grammar.infixNode, Category.admits, bindsAt, power?, InfixOp.power]

/-- An infix operator stands between an operand of its left power and one of its right power. -/
theorem production_infixNode (op : InfixOp) (left right : NodeId) :
    (Grammar.infixNode op left right).production =
      [.node (.expression op.leftPower) left, .operator op,
        .node (.expression op.rightPower) right] := by
  cases op <;> rfl

/-- An expression that binds tightly binds at least as tightly as every looser power. -/
theorem bindsAt_mono {kind : NodeKind} {least looser : BindingPower}
    (le : looser.rank ≤ least.rank) (binds : kind.bindsAt least = true) :
    kind.bindsAt looser = true := by
  unfold bindsAt at binds ⊢
  cases found : kind.power? with
  | none =>
    rw [found] at binds
    contradiction
  | some power =>
    rw [found] at binds
    have bound : least.rank ≤ power.rank := of_decide_eq_true binds
    exact decide_eq_true (Nat.le_trans le bound)

end NodeKind

namespace InfixOp

/-- Every operand of a unary operator can stand on the left of every infix operator. -/
theorem leftPower_le_unary (op : InfixOp) : op.leftPower.rank ≤ BindingPower.unary.rank := by
  cases op with
  | binary op => cases op <;> decide
  | assign => decide
  | compound op => exact Nat.le_of_ble_eq_true rfl

/-- Every right operand is at most as tight as an operand of a unary operator. -/
theorem rightPower_le_unary (op : InfixOp) : op.rightPower.rank ≤ BindingPower.unary.rank := by
  cases op with
  | binary op => cases op <;> decide
  | assign => decide
  | compound op => exact Nat.le_of_ble_eq_true rfl

/-- What an operator makes can stand on the left of every operator that does not belong to its
right operand. -/
theorem leftPower_le {op next : InfixOp} (stops : next.power.rank < op.rightPower.rank) :
    next.leftPower.rank ≤ op.power.rank := by
  cases op with
  | binary op =>
    cases next with
    | binary next => cases op <;> cases next <;> revert stops <;> decide
    | assign => cases op <;> decide
    | compound next => cases op <;> exact Nat.le_of_ble_eq_true rfl
  | assign => exact absurd stops (Nat.not_lt_zero _)
  | compound op => exact absurd stops (Nat.not_lt_zero _)

end InfixOp

namespace Parser

open Build Parse

variable {soft : SoftNames} {rounds : Nat} {start now after : Parser} {grammar : Grammar}
  {tokens taken rest : List (Token String)} {parts added : List Part} {count : Nat}

/-- A reading that fails after a construct leaves the tokens of both as passed over. -/
theorem Run.within {α : Type} {reading : Parse α} {success : α → Parser → Prop}
    (run : start.Run soft rounds tokens parts taken rest now)
    (opens : ∀ token ∈ taken.head?, token.kind.isDirective = false)
    (outcome : reading.Outcome now success fun _ after => now.Strays soft rounds rest after) :
    reading.Outcome now success fun _ after => start.Strays soft rounds tokens after :=
  outcome.mono (fun _ _ holds => holds) fun _ _ strays => Reading.strays_append run opens strays

/-- What follows a construct was read, and a node takes the place of both. -/
theorem Run.closeAfter (run : start.Run soft rounds tokens parts taken rest now)
    (opens : ∀ token ∈ taken.head?, token.kind.isDirective = false) (filled : taken ≠ [])
    (next : now.Reading soft rounds rest added after) (nonempty : added ≠ [])
    {kind : NodeKind} (whole : kind.production = parts ++ added) {category : Category}
    (admitted : category.admits kind = true) {span : Span}
    (starts : span.start = start.cursor.current.span.start)
    {failure : ParseError → Parser → Prop} :
    Parse.Outcome (liftM (Build.close kind span)) after
      (fun id final => ∃ fewer < Consumes.weight rest,
        start.ReadingLeft soft rounds tokens [.node category id] fewer final) failure := by
  obtain ⟨more, left, inner, opensMore, filledMore⟩ := next
  have less := inner.passes.moves.consumes.weight_le
  have length := List.length_pos_iff.mpr (filledMore nonempty)
  have some : taken ++ more ≠ [] := by simp [filled]
  have opened := opens_append opens opensMore
  exact ((run.append inner).close opened some whole admitted starts).imp fun id final closed =>
    ⟨Consumes.weight left, by omega, taken ++ more, left, closed, opened, fun _ => some, rfl⟩

/-- Closing a node leaves the cursor where it is. -/
theorem outcome_close {kind : NodeKind} {span : Span} :
    Parse.Outcome (liftM (Build.close kind span)) now (fun _ after => after.cursor = now.cursor)
      fun _ _ => False :=
  .lift rfl

/-- A member of an operand, or a call of a method of it. -/
theorem Run.member {left : NodeId} (deepens : grammar.Deepens soft rounds)
    (run : start.Run soft rounds tokens [.node (.expression .postfixed) left] taken rest now)
    (opens : ∀ token ∈ taken.head?, token.kind.isDirective = false) (filled : taken ≠ [])
    (point : now.cursor.current.tag = .dot) :
    (grammar.member left (now.arena.span left)).Outcome now
      (fun id after => ∃ fewer < Consumes.weight rest,
        start.ReadingLeft soft rounds tokens [.node (.expression .postfixed) id] fewer after)
      fun _ after => now.Strays soft rounds rest after := by
  have starts := run.span_start opens
  unfold Grammar.member
  refine .bind (((Reading.refl run.readyNow).advance_word point rfl).imp
    fun _ now ⟨read, _, _⟩ => ?_)
  refine .bind ((read.expectIdentifier _).imp fun ⟨name, _⟩ now ⟨read, _, _⟩ => ?_)
  refine Parse.outcome_check.mpr ?_
  split
  · refine .bind ((read.arguments deepens).imp fun arguments now read => ?_)
    refine .bind ((read.block? deepens).imp fun block now read => ?_)
    exact run.closeAfter opens filled read (by simp) rfl rfl starts
  · refine .bind ((read.block? deepens).imp fun block now read => ?_)
    exact run.closeAfter opens filled read (by simp) rfl rfl starts

/-- An element of an operand. -/
theorem Run.subscript {left : NodeId} (deepens : grammar.Deepens soft rounds)
    (run : start.Run soft rounds tokens [.node (.expression .postfixed) left] taken rest now)
    (opens : ∀ token ∈ taken.head?, token.kind.isDirective = false) (filled : taken ≠ [])
    (bracket : now.cursor.current.tag = .leftBracket) :
    (grammar.subscript left (now.arena.span left)).Outcome now
      (fun id after => ∃ fewer < Consumes.weight rest,
        start.ReadingLeft soft rounds tokens [.node (.expression .postfixed) id] fewer after)
      fun _ after => now.Strays soft rounds rest after := by
  have starts := run.span_start opens
  unfold Grammar.subscript
  refine .bind (((Reading.refl run.readyNow).advance_word bracket rfl).imp
    fun _ now ⟨read, _, _⟩ => ?_)
  refine .bind ((read.andThen (reads_expression deepens)).imp fun index now read => ?_)
  refine .bind ((read.expect .rightBracket rfl _).imp fun _ now ⟨read, _⟩ => ?_)
  exact run.closeAfter opens filled read (by simp) rfl rfl starts

/-- Calls, members and subscripts after an operand. -/
theorem Reading.chain {operand : NodeId} (deepens : grammar.Deepens soft rounds)
    (reading : start.Reading soft rounds tokens [.node (.expression .postfixed) operand] now) :
    (grammar.chain operand).Outcome now
      (fun id after => start.Reading soft rounds tokens [.node (.expression .postfixed) id] after)
      fun _ after => start.Strays soft rounds tokens after := by
  obtain ⟨count, less, left⟩ := reading.left
  refine Parse.Outcome.repeatWithin (fun count id now =>
    start.ReadingLeft soft rounds tokens [.node (.expression .postfixed) id] count now)
    (fun count id now holds => ?_) (deepens.sameRounds ▸ less) left
  have done := holds.reading
  obtain ⟨taken, rest, run, opens, filled, rfl⟩ := holds
  have some := filled (List.cons_ne_nil _ _)
  refine Parse.outcome_nodeSpan.mpr (Parse.outcome_currentTag.mpr ?_)
  split
  · next point =>
    exact run.within opens (.bind ((run.member deepens opens some point).imp
      fun id after closed => .pure closed))
  · next bracket =>
    exact run.within opens (.bind ((run.subscript deepens opens some bracket).imp
      fun id after closed => .pure closed))
  · exact .pure done

/-- A primary expression. -/
theorem reads_primary (deepens : grammar.Deepens soft rounds) :
    grammar.primary.Reads soft rounds fun id => [.node (.expression .postfixed) id] := by
  intro start tokens ready _
  unfold Grammar.primary
  refine Parse.outcome_current.mpr ?_
  split
  · next name same => exact reads_nameOrCall deepens name start tokens ready same
  · exact reads_stringLiteral deepens.sameRounds (fun _ => rfl) start tokens ready trivial
  · next same =>
    exact reads_arrayLiteral deepens start tokens ready (congrArg TokenKind.tag same)
  · next same =>
    exact reads_hashLiteral deepens start tokens ready (congrArg TokenKind.tag same)
  · next same =>
    exact reads_parenthesized deepens start tokens ready (congrArg TokenKind.tag same)
  · split
    · next isLiteral => exact reads_literal isLiteral start tokens ready rfl
    · exact Parse.outcome_unexpected.mpr (.throw (Reading.refl ready).strays)

/-- A unary operator with its operand, or a primary expression with what follows it. -/
theorem reads_operand (deepens : grammar.Deepens soft rounds) :
    grammar.operand.Reads soft rounds fun id => [.node (.expression .unary) id] := by
  intro start tokens ready _
  unfold Grammar.operand
  refine Parse.outcome_currentTag.mpr ?_
  split
  · next op isSign =>
    have notEnd : start.cursor.isAtEnd = false := by
      refine notAtEnd rfl fun atEnd => ?_
      rw [atEnd] at isSign
      contradiction
    refine .bind (((Reading.refl ready).advance (.sign op) notEnd fun _ => ?_).imp
      fun token now ⟨read, same, _⟩ => ?_)
    · exact .sign (by rwa [Token.tag_written])
    · refine .bind ((read.andThen deepens.operand).imp fun operand now read => ?_)
      exact read.close rfl (by simp) rfl (by rw [same])
  · refine .bind ((reads_primary deepens start tokens ready trivial).imp fun id now read => ?_)
    refine (read.chain deepens).imp fun id now read => ?_
    refine read.recast (fun _ _ spells => spells.recategorize fun kind admitted => ?_) (by simp)
    exact NodeKind.bindsAt_mono (by decide) admitted

/-- An expression was read whose power suits every operator that can follow, and at most so many
tokens are left. -/
def ReadsOperators (soft : SoftNames) (rounds : Nat) (start : Parser)
    (tokens : List (Token String)) (least : BindingPower) (count : Nat) (id : NodeId)
    (now : Parser) : Prop :=
  ∃ power : BindingPower, least.rank ≤ power.rank ∧
    start.ReadingLeft soft rounds tokens [.node (.expression power) id] count now ∧
    ∀ op ∈ InfixOp.ofTag? now.cursor.current.tag, op.leftPower.rank ≤ power.rank

/-- An infix operator and its right operand were read after an expression. -/
theorem ReadsOperators.next {least : BindingPower} {left : NodeId} {op : InfixOp}
    (deepens : grammar.Deepens soft rounds)
    (reads : start.ReadsOperators soft rounds tokens least count left now)
    (isOperator : InfixOp.ofTag? now.cursor.current.tag = some op)
    (binds : least.rank ≤ op.power.rank) {property : NodeId → Parser → Prop} :
    Parse.Outcome
      (do
        let _ ← Build.advance
        let start ← Build.nodeSpan left
        let right ← grammar.deeper (.expression op.rightPower)
        return .yield (← Build.close (Grammar.infixNode op left right) start))
      now (Round (start.ReadsOperators soft rounds tokens least) property count)
      fun _ after => start.Strays soft rounds tokens after := by
  obtain ⟨power, _, ⟨taken, rest, run, opens, filled, rfl⟩, suits⟩ := reads
  have some := filled (List.cons_ne_nil _ _)
  have fits := run.recast [.node (.expression op.leftPower) left] fun _ spells =>
    spells.recategorize fun _ => NodeKind.bindsAt_mono (suits op isOperator)
  have notEnd : now.cursor.isAtEnd = false := by
    refine notAtEnd rfl fun atEnd => ?_
    rw [atEnd] at isOperator
    contradiction
  refine run.within opens ?_
  refine .bind (((Reading.refl run.readyNow).advance (.operator op) notEnd
    fun _ => ?_).imp fun _ stepped ⟨read, _, same⟩ => ?_)
  · exact .operator (by rwa [Token.tag_written])
  have starts : (stepped.arena.span left).start = start.cursor.current.span.start := by
    rw [same]
    exact run.span_start opens
  refine Parse.outcome_nodeSpan.mpr ?_
  have tight := op.rightPower_le_unary
  obtain ⟨_, ready⟩ := read.ready
  refine .bind (((read.andThen (deepens.expression _ tight)).and
    (deepens.stops _ stepped _ tight ready)).mono (fun right final ⟨read, stops⟩ => ?_)
      fun _ _ holds => holds.1)
  refine .bind (((fits.closeAfter opens some read (by simp)
    (NodeKind.production_infixNode op left right) (NodeKind.admits_infixNode op left right)
    starts).and (outcome_close)).mono
      (fun id final ⟨⟨fewer, less, read⟩, same⟩ => ?_) fun _ _ holds => holds.1)
  rw [StopsAt, ← same] at stops
  exact .pure ⟨fewer, less, op.power, binds, read, fun next isNext =>
    InfixOp.leftPower_le (stops next isNext)⟩

/-- An expression whose operators bind at least as tightly as a power. -/
theorem reads_expressionFrom (deepens : grammar.Deepens soft rounds) {least : BindingPower}
    (tight : least.rank ≤ BindingPower.unary.rank) (start : Parser)
    (tokens : List (Token String)) (ready : start.Ready soft rounds tokens) :
    (grammar.expressionFrom least).Outcome start
      (fun id after => start.Reading soft rounds tokens [.node (.expression least) id] after ∧
        after.StopsAt least)
      fun _ after => start.Strays soft rounds tokens after := by
  unfold Grammar.expressionFrom
  refine .bind ((reads_operand deepens start tokens ready trivial).imp fun first now read => ?_)
  obtain ⟨count, less, left⟩ := read.left
  have begins : start.ReadsOperators soft rounds tokens least count first now :=
    ⟨.unary, tight, left, fun op _ => op.leftPower_le_unary⟩
  refine Parse.Outcome.repeatWithin _ (fun count left now reads => ?_)
    (deepens.sameRounds ▸ less) begins
  -- Whatever ends the loop, the expression is one of the least power that was asked for.
  have done : start.Reading soft rounds tokens [.node (.expression least) left] now := by
    obtain ⟨power, le, read, _⟩ := reads
    exact read.reading.recast (fun _ _ spells => spells.recategorize fun _ =>
      NodeKind.bindsAt_mono le) (by simp)
  refine Parse.outcome_currentTag.mpr ?_
  split
  · next none =>
    refine .pure ⟨done, fun op isNext => ?_⟩
    rw [none] at isNext
    contradiction
  · next op isOperator =>
    by_cases loose : op.power.rank < least.rank
    · rw [if_pos loose]
      refine .pure ⟨done, fun next isNext => ?_⟩
      rw [isOperator] at isNext
      rwa [← Option.some.inj isNext]
    · rw [if_neg loose]
      exact reads.next deepens isOperator (Nat.le_of_not_lt loose)

end Parser

end Vibescript
