import Vibescript.Proofs.Parser.Inlaid
import Vibescript.Proofs.Parser.MirroredLevels

/-!
# Where one statement goes on and another pauses

A call may go on with a subscript or a minus sign on a later line. Read from there, the same tokens
are a statement of their own: an array literal, or an expression that begins with a unary minus. What
the call goes on with mirrors that statement, although its operators are grouped in another way.
-/
namespace Vibescript

open Build Parse Grammar

namespace Parse

variable {α β γ : Type} {tracks : Parser → Parser → Prop} {cuts : ParseError → Prop}
  {agree : α → β → Prop}

namespace Mirrored

/-- What holds however the first reading ends. -/
theorem iff_outcome {left : Parse α} {here : Parser} {right : Except ParseError β × Parser} :
    Mirrored tracks cuts agree (left.run here) right ↔
      left.Outcome here (fun answer after => Mirrored tracks cuts agree (.ok answer, after) right)
        fun error final => Mirrored tracks cuts agree (.error error, final) right := by
  rw [Outcome, Build.Outcome]
  generalize left.run here = ran
  obtain ⟨result, after⟩ := ran
  cases result with
  | ok answer => rfl
  | error error => rfl

/-- More is known of where the first reading succeeds. -/
theorem also {left : Parse α} {here : Parser} {right : Except ParseError β × Parser}
    {holds : Parser → Prop} (mirrored : Mirrored tracks cuts agree (left.run here) right)
    (outcome : left.Outcome here (fun _ after => holds after) fun _ _ => True) :
    Mirrored (fun here there => tracks here there ∧ holds here) cuts agree (left.run here) right := by
  rw [Outcome, Build.Outcome] at outcome
  generalize left.run here = ran at mirrored outcome
  cases mirrored with
  | refused fails => exact .refused fails
  | cut fails => exact .cut fails
  | same agrees kept => exact .same agrees ⟨kept, outcome⟩

end Mirrored

end Parse

/-- Before tokens that are respelled, others with the same tags are. -/
theorem TokenKind.Respells.split {tokens read rest : List (Token String)}
    (respells : List.Forall₂ (fun token other => TokenKind.Respells token.kind other.kind) tokens
      (read ++ rest)) :
    ∃ before left, tokens = before ++ left ∧ before.map Token.tag = read.map Token.tag ∧
      TokenKind.tagAt (left.map Token.kind) 0 = TokenKind.tagAt (rest.map Token.kind) 0 ∧
      List.Forall₂ (fun token other => TokenKind.Respells token.kind other.kind) left rest := by
  have firsts := List.forall₂_take_append tokens read rest respells
  have lasts := List.forall₂_drop_append tokens read rest respells
  refine ⟨_, _, (List.take_append_drop read.length tokens).symm, ?_, ?_, lasts⟩
  · exact List.forall₂_eq_eq_eq ▸ List.forall₂_map_left_iff.mpr (List.forall₂_map_right_iff.mpr
      (firsts.imp fun _ _ respells => respells.tag))
  · generalize tokens.drop read.length = left at lasts
    cases lasts with
    | nil => rfl
    | cons alike _ => exact alike.tag

/-- The error of a token that starts no expression. -/
def Parser.missing (parser : Parser) : ParseError :=
  let found := parser.cursor.current
  ((ParseError.unexpected .expectedExpression .expressionStart found.tag found.span).withFault
    .missingExpression).within .expression

namespace Grammar

variable {source : String} {options : ParseOptions} {first second : SoftNames} {rounds : Nat}
  {cuts : ParseError → Prop} {levels others : Nat} {id other : NodeId} {here there : Parser}

/-- Two readings over the same tokens mirror each other if the second cannot fail. -/
theorem mirrored_of_traverses {α β : Type} {left : Parse α} {right : Parse β} {tags : List Tag}
    {next : Tag}
    (goes : left.Traverses (respell source) first rounds True tags next fun _ => True)
    (goesOther : right.Traverses source second rounds False tags next fun _ => True)
    {tokens read rest : List (Token String)}
    (unspoilt : here.Unspoilt (respell source) first rounds tokens)
    (unspoiltOther : there.Unspoilt source second rounds (read ++ rest))
    (respells : List.Forall₂ (fun token other => TokenKind.Respells token.kind other.kind) tokens
      (read ++ rest))
    (isRead : read.map Token.tag = tags) (follows : TokenKind.tagAt (rest.map Token.kind) 0 = next) :
    Mirrored (Parser.Tracks source first second rounds) cuts (fun _ _ => True) (left.run here)
      (right.run there) := by
  obtain ⟨before, later, rfl, firsts, sameNext, lasts⟩ := TokenKind.Respells.split respells
  obtain ⟨other, afterOther, ranOther, _, leftOther⟩ := goesOther.run isRead follows unspoiltOther
  have outcome := goes here before later (firsts.trans isRead) (sameNext.trans follows) unspoilt
  rw [ranOther]
  refine Mirrored.iff_outcome.mpr
    (outcome.mono (fun answer after ⟨_, more⟩ => ?_) fun error final holds => ?_)
  · exact .same trivial ⟨later, rest, more, leftOther, lasts⟩
  · exact .refused (.thrown holds.2.1 holds.2.2 trivial)

/-- A reading that fails reports nothing. -/
theorem refused_of_thrown {α β : Type} {tracks : Parser → Parser → Prop} {agree : α → β → Prop}
    {error : ParseError} {final : Parser} {right : Except ParseError β × Parser}
    (none : final.errors = #[]) (goesOn : final.isHalted = false) :
    Mirrored tracks cuts agree (.error error, final) right :=
  .refused (.thrown none goesOn trivial)

/-- An operator with its right operand is read in lockstep. -/
theorem Lockstep.infixRound {first second : Grammar} {exact outer : Prop} (op : InfixOp)
    {left right : NodeId} (same : Same exact left right) :
    Lockstep first second exact outer (Same exact) (first.infixRound op left)
      (second.infixRound op right) :=
  .bind .advance fun _ _ _ => .bind (.nodeSpan _ _) fun _ _ _ => .bind (.deeper nofun)
    fun _ _ operand => .close ⟨fun isExact => by rw [same isExact, operand isExact],
      infixNode_ne_error _ _ _, infixNode_ne_error _ _ _⟩ _ _

/-- The operators that go on with an operand are read in lockstep. -/
theorem Lockstep.infixes {first second : Grammar} {exact outer : Prop} (count : Nat)
    (least : BindingPower) {left right : NodeId} (same : Same exact left right) :
    Lockstep first second exact outer (Same exact)
      (repeatWithin (first.infixStep least) count left)
      (repeatWithin (second.infixStep least) count right) :=
  .loop count same fun _ _ same => .infixStep least same

/-- What goes on with an operand is read in lockstep. -/
theorem Lockstep.continuation {first second : Grammar} {exact outer : Prop}
    (rounds : first.rounds = second.rounds) (least : BindingPower) {left right : NodeId}
    (same : Same exact left right) :
    Lockstep first second exact outer (Same exact)
      (first.chain left >>= fun id => first.loop id (first.infixStep least))
      (second.chain right >>= fun id => second.loop id (second.infixStep least)) :=
  .bind (.chain rounds same) fun _ _ same => .repeats rounds same fun _ _ same => .infixStep least same

/-- What goes on with an operand takes no error back. -/
theorem adds_continuation (options : ParseOptions) (soft : SoftNames) (levels : Nat)
    (least : BindingPower) (id : NodeId) :
    Parse.Accumulates ((level options soft rounds levels).chain id >>= fun id =>
      (level options soft rounds levels).loop id ((level options soft rounds levels).infixStep least))
      fun _ => True := by
  have piles : (level options soft rounds levels).Piles := upholds_level options soft rounds levels
  have reading : Lockstep (level options soft rounds levels) (level options soft rounds levels) True
      False (Same True) _ _ :=
    .continuation rfl least fun _ => (rfl : id = id)
  exact piles.lockstep reading False.elim

/-- A node that is closed takes no error back. -/
theorem adds_close {kind : NodeKind} (plain : kind ≠ .error) (start : Span) :
    Parse.Accumulates (liftM (close kind start)) fun _ => True :=
  .lift (.tables (isStill_close plain start) fun _ => trivial)

/-- A loop over operators takes no error back. -/
theorem adds_infixes (options : ParseOptions) (soft : SoftNames) (levels count : Nat)
    (least : BindingPower) (id : NodeId) :
    Parse.Accumulates (repeatWithin ((level options soft rounds levels).infixStep least) count id)
      fun _ => True := by
  have piles : (level options soft rounds levels).Piles := upholds_level options soft rounds levels
  have loop : Lockstep (level options soft rounds levels) (level options soft rounds levels) True
      False (Same True) (repeatWithin ((level options soft rounds levels).infixStep least) count id)
      (repeatWithin ((level options soft rounds levels).infixStep least) count id) :=
    .infixes count least fun _ => rfl
  exact piles.lockstep loop False.elim

section

variable {operands : Nat} (tight : LevelsMirror source options first second rounds cuts operands others)
  (loose : LevelsMirror source options first second rounds cuts levels others) (op : InfixOp)
  (least : BindingPower) (start : Span)

include loose in
/-- After the right operand of an operator, both loops go on with the same operators. -/
theorem mirrored_regrouped (kept : Parser.Tracks source first second rounds here there)
    (left right : NodeId) (id : NodeId) :
    Mirrored (Parser.Tracks source first second rounds) cuts (fun _ _ => True)
      ((liftM (close (infixNode op left right) start) >>=
        repeatWithin ((level options first rounds levels).infixStep .assignment) rounds).run here)
      ((repeatWithin ((level options second rounds others).infixStep .assignment) rounds id).run
        there) := by
  have isStill : (close (infixNode op left right) start).IsStill :=
    isStill_close (Lockstep.infixNode_ne_error _ _ _) start
  have loops := loose.inner (Lockstep.infixes rounds .assignment
    (False.elim : Same False (close (infixNode op left right) start here).1 id))
  exact (loops _ _ (kept.still isStill (.pure ()))).mono fun _ _ _ => trivial

include tight loose in
/-- Operators that the right operand of an operator goes on with, and those after it, are the
operators that the operand by itself goes on with. -/
theorem mirrored_flattened (count : Nat) (kept : Parser.Tracks source first second rounds here there)
    (left right id : NodeId) :
    Mirrored (Parser.Tracks source first second rounds) cuts (fun _ _ => True)
      ((repeatWithin ((level options first rounds operands).infixStep least) count right >>=
        fun right => liftM (close (infixNode op left right) start) >>=
          repeatWithin ((level options first rounds levels).infixStep .assignment) rounds).run here)
      ((repeatWithin ((level options second rounds others).infixStep .assignment) (count + rounds)
        id).run there) := by
  induction count generalizing here there right id with
  | zero =>
    rw [Nat.zero_add]
    exact mirrored_regrouped loose op start kept left right id
  | succ count ih =>
    have stands : there.cursor.Reaches rounds 0 := by
      obtain ⟨_, _, _, unspoilt, _⟩ := kept
      exact unspoilt.reaches
    by_cases ends : ∀ op ∈ InfixOp.ofTag? here.cursor.current.tag, op.power.rank < least.rank
    · rw [run_bind_ok (run_infixes_none ends), ← (same_infixes .assignment id stands (by omega)).1]
      exact mirrored_regrouped loose op start kept left right id
    · obtain ⟨tighter, isOp, binds⟩ : ∃ op, InfixOp.ofTag? here.cursor.current.tag = some op ∧
          least.rank ≤ op.power.rank := by
        simpa using ends
      have isOther : InfixOp.ofTag? there.cursor.current.tag = some tighter := kept.tag ▸ isOp
      rw [run_bind_congr (run_infixes_some isOp binds), bind_assoc,
        show count + 1 + rounds = count + rounds + 1 by omega,
        run_infixes_some isOther (Nat.zero_le _)]
      have round := tight.inner (Lockstep.infixRound tighter
        (False.elim : Same False right id)) here there kept
      refine round.bind (fun answer _ => ?_) (fun other _ => ?_)
        fun answer other here there _ kept => ih kept answer other
      · exact .bind (adds_infixes options first operands count least answer) fun _ _ =>
          .bind (adds_close (Lockstep.infixNode_ne_error _ _ _) _) fun id _ =>
            adds_infixes options first levels rounds .assignment id
      · exact adds_infixes options second others (count + rounds) .assignment other

end

/-- Where the nesting limit is reached, a reading is refused. -/
theorem mirrored_refuse {α β : Type} {tracks : Parser → Parser → Prop} {agree : α → β → Prop}
    {limit : Nat} {next : NodeId → Parse α} {left : List (Token String)}
    {right : Except ParseError β × Parser} (unspoilt : here.Unspoilt source first rounds left) :
    Mirrored tracks cuts agree ((refuse limit >>= next).run here) right := by
  rw [run_bind_error (Parser.run_refuse limit here)]
  exact refused_of_thrown unspoilt.errors unspoilt.goesOn

section

variable (mirrors : ∀ fewer ≤ levels, ∀ more ≥ fewer,
  LevelsMirror source options first second rounds cuts fewer more) (le : levels ≤ others)

/-- An operand begins with an operator or without one. -/
theorem run_operand (grammar : Grammar) (parser : Parser) :
    grammar.operand.run parser =
      (grammar.operandOf (UnaryOp.ofTag? parser.cursor.current.tag)).run parser := rfl

/-- A primary expression is the one that its first token starts. -/
theorem run_primary (grammar : Grammar) (parser : Parser) :
    grammar.primary.run parser = (grammar.primaryOf parser.cursor.current.kind).run parser := rfl

/-- No expression starts here. -/
theorem run_expressionFrom_missing {grammar : Grammar} {least : BindingPower}
    (startsNone : TagSet.expressionStart.contains here.cursor.current.tag = false) :
    (grammar.expressionFrom least).run here = (.error here.missing, here) := by
  have noOperator : UnaryOp.ofTag? here.cursor.current.tag = none := by
    generalize here.cursor.current.tag = tag at startsNone
    cases tag <;> first | rfl | contradiction
  have noPrimary : grammar.primary.run here = (.error here.missing, here) := by
    have fails : ExceptT.run (do
        let error ← Build.unexpected .expectedExpression .expressionStart
        MonadExcept.throw ((error.withFault .missingExpression).within .expression) : Parse NodeId)
        here = (.error here.missing, here) := rfl
    rw [run_primary]
    rw [Token.tag] at startsNone
    generalize here.cursor.current.kind = kind at startsNone
    cases kind with
    | fixed tag spelled =>
      have startsNone : TagSet.expressionStart.contains tag = false := startsNone
      cases tag <;> first | exact fails | contradiction
    | _ =>
      simp only [TokenKind.tag] at startsNone
      first | exact fails | contradiction
  rw [expressionFrom_eq, run_bind_error]
  rw [run_operand, noOperator]
  exact run_bind_error noPrimary

/-- An operator is read with its right operand. -/
theorem run_infixRound {grammar : Grammar} {op : InfixOp} :
    ∃ start, (grammar.infixRound op id).run here =
      (grammar.deeper (.expression op.rightPower) >>= fun right =>
        liftM (close (infixNode op id right) start)).run (here.withCursor here.cursor.advance.2) :=
  ⟨_, rfl⟩

/-- A unary operator is read with its operand. -/
theorem run_operand_unary {grammar : Grammar} {op : UnaryOp}
    (isUnary : UnaryOp.ofTag? here.cursor.current.tag = some op) :
    grammar.operand.run here =
      (grammar.deeper .operand >>= fun operand =>
        liftM (close (.unary op operand) here.cursor.advance.1.span)).run
          (here.withCursor here.cursor.advance.2) := by
  rw [run_operand, isUnary]
  rfl

/-- Where no expression starts, a reading that begins with one is refused. -/
theorem mirrored_missing {α β : Type} {tracks : Parser → Parser → Prop} {agree : α → β → Prop}
    {next : NodeId → Parse α} {left : List (Token String)} {right : Except ParseError β × Parser}
    (startsNone : TagSet.expressionStart.contains here.cursor.current.tag = false)
    (unspoilt : here.Unspoilt source first rounds left) :
    Mirrored tracks cuts agree
      (((level options first rounds levels).expression >>= next).run here) right := by
  cases levels with
  | zero => exact mirrored_refuse unspoilt
  | succ levels =>
    have missing : ((level options first rounds (levels + 1)).expression).run here =
        (.error here.missing, here) := by
      show (descend options first rounds (levels + 1) (.expression .assignment)).run here = _
      rw [descend_succ]
      exact run_expressionFrom_missing startsNone
    rw [run_bind_error missing]
    exact refused_of_thrown unspoilt.errors unspoilt.goesOn

include mirrors le in
/-- At a minus sign, operators that go on with an operand mirror an expression that begins with the
sign. -/
theorem mirrored_minus (kept : Parser.Tracks source first second rounds here there)
    (isMinus : here.cursor.current.tag = .minus) (id : NodeId) :
    Mirrored (Parser.Tracks source first second rounds) cuts (fun _ _ => True)
      ((repeatWithin ((level options first rounds levels).infixStep .assignment) rounds id).run here)
      (((level options second rounds others).expressionFrom .assignment).run there) := by
  have stands : here.cursor.Reaches rounds 0 := by
    obtain ⟨_, _, unspoilt, _⟩ := kept
    exact unspoilt.reaches
  have isInfix : InfixOp.ofTag? here.cursor.current.tag = some (.binary .subtract) := by
    rw [isMinus]
    rfl
  have isUnary : UnaryOp.ofTag? there.cursor.current.tag = some .negate := by
    rw [← kept.tag, isMinus]
    rfl
  obtain ⟨start, infixRound⟩ := @run_infixRound id here (level options first rounds levels)
    (.binary .subtract)
  have steps := kept.advance
  rw [(same_infixes .assignment id stands (Nat.le_succ rounds)).1,
    run_infixes_some isInfix (Nat.zero_le _), run_bind_congr infixRound, expressionFrom_eq,
    run_bind_congr (show ((level options second rounds others).operand).run there = _ from
      run_operand_unary isUnary), bind_assoc, bind_assoc]
  generalize there.cursor.advance.1.span = place
  cases levels with
  | zero =>
    obtain ⟨_, _, unspoilt, _⟩ := steps
    exact mirrored_refuse unspoilt
  | succ fewer =>
    obtain ⟨more, rfl⟩ : ∃ more, others = more + 1 := ⟨others - 1, by omega⟩
    show Mirrored _ _ _
      (((descend options first rounds (fewer + 1) (.expression .multiplicative)) >>= _).run _)
      (((descend options second rounds (more + 1) .operand) >>= _).run _)
    rw [descend_succ, descend_succ]
    show Mirrored _ _ _
      (((level options first rounds fewer).expressionFrom .multiplicative >>= _).run _)
      (((level options second rounds more).operand >>= _).run _)
    rw [expressionFrom_eq, bind_assoc]
    have operand := (mirrors fewer (by omega) more (by omega)).inner (.operand rfl) _ _ steps
    refine operand.bind (fun answer _ => ?_) (fun other _ => ?_)
      fun answer other here there _ kept => ?_
    · exact .bind (adds_infixes options first fewer rounds _ answer) fun right _ =>
        .bind (adds_close (by nofun) _) fun id _ =>
          adds_infixes options first (fewer + 1) rounds .assignment id
    · exact .bind (adds_close (by nofun) _) fun id _ =>
        adds_infixes options second (more + 1) rounds .assignment id
    · have closed := kept.still (.pure ()) (isStill_close (by nofun : NodeKind.unary .negate other ≠
        .error) place)
      have stands : (close (.unary .negate other) place there).2.cursor.Reaches rounds 0 := by
        obtain ⟨_, _, _, unspoilt, _⟩ := closed
        exact unspoilt.reaches
      have flattened := mirrored_flattened (mirrors fewer (by omega) (more + 1) (by omega))
        (mirrors (fewer + 1) (Nat.le_refl _) (more + 1) le) (.binary .subtract) .multiplicative start
        rounds closed id answer (close (.unary .negate other) place there).1
      rw [← (same_infixes _ _ stands (Nat.le_add_right rounds rounds)).1] at flattened
      exact flattened

/-- The items after the first one, if a comma follows. -/
def moreItems (closer : Tag) (item : Parse NodeId) (count : Nat) (items : Array NodeId) :
    Parse (Array NodeId) := do
  if ← Build.eat .comma then repeatWithin (itemStep closer item) count items else return items

/-- A list that does not end has an item, and perhaps more. -/
theorem run_items {closer : Tag} (opens : here.cursor.current.tag ≠ closer) (item : Parse NodeId)
    (count : Nat) (items : Array NodeId) :
    (repeatWithin (itemStep closer item) (count + 1) items).run here =
      (item >>= fun id => moreItems closer item count (items.push id)).run here := by
  have checks : (Build.check closer here).1 = false := beq_false_of_ne opens
  have step : (itemStep closer item items).run here =
      (item >>= fun id => liftM (Build.eat .comma) >>= fun eaten =>
        pure (if eaten then .yield (items.push id) else .done (items.push id))).run here := by
    rw [itemStep, run_bind_ok (run_lift _ _), checks]
    rfl
  rw [repeatWithin, run_bind_congr step, bind_assoc]
  refine congrArg (fun next => (item >>= next).run here) (funext fun id => ?_)
  rw [bind_assoc, moreItems]
  refine congrArg (liftM (Build.eat .comma) >>= ·) (funext fun eaten => ?_)
  cases eaten <;> rfl

/-- A subscript is read, and what follows it. -/
theorem run_chain_subscript {grammar : Grammar} (isBracket : here.cursor.current.tag = .leftBracket)
    (count : Nat) : ∃ start,
    (repeatWithin grammar.chainStep (count + 1) id).run here =
      (grammar.subscript id start >>= repeatWithin grammar.chainStep count).run here := by
  have step : ∃ start, (grammar.chainStep id).run here =
      (grammar.subscript id start >>= fun id => pure (.yield id)).run here := by
    have found : (Build.currentTag (nodeSpan id here).2).1 = .leftBracket := isBracket
    refine ⟨(nodeSpan id here).1, ?_⟩
    rw [chainStep, run_bind_ok (run_lift _ _), run_bind_ok (run_lift _ _)]
    simp only [found]
    rfl
  obtain ⟨start, step⟩ := step
  refine ⟨start, ?_⟩
  rw [repeatWithin, run_bind_congr step, bind_assoc]
  rfl

/-- No items follow without a comma. -/
theorem traverses_moreItems {refuses : Prop} {closer next : Tag} {item : Parse NodeId} {count : Nat}
    {items : Array NodeId} (other : next ≠ .comma) :
    (moreItems closer item count items).Traverses source second rounds refuses [] next
      fun _ => True := by
  refine .rest (.eat_none other) fun eaten isEaten => ?_
  rw [isEaten]
  exact .pure trivial

/-- The items after the first one take no error back. -/
theorem adds_moreItems {closer : Tag} {item : Parse NodeId} (adds : item.Accumulates fun _ => True)
    (count : Nat) (items : Array NodeId) :
    (moreItems closer item count items).Accumulates fun _ => True := by
  have step (items : Array NodeId) (_ : True) :
      (itemStep closer item items).Accumulates fun _ => True := by
    refine .bind (.lift (.still (fun _ => rfl) fun _ => trivial)) fun ends (_ : True) => ?_
    split
    · exact .pure trivial
    · exact .bind adds fun _ _ => .bind (.lift (.onCursor _)) fun _ _ => .pure trivial
  refine .bind (.lift (.onCursor _)) fun eaten _ => ?_
  split
  · exact .repeatWithin step count trivial
  · exact .pure trivial

/-- A step over an expected token takes no error back. -/
theorem adds_expect (tag : Tag) (construct : Construct) :
    (expect tag construct).Accumulates fun _ => True := by
  refine .bind (.lift (.still (fun _ => rfl) fun _ => trivial)) fun stands (_ : True) => ?_
  split
  · exact .lift (.onCursor _)
  · exact .bind (.lift (.still (fun _ => rfl) fun _ => trivial)) fun _ (_ : True) => .throw

/-- A step over the end of a list takes no error back. -/
theorem adds_expectCloser (code : ErrorCode) (closer : Tag) (construct : Construct) :
    (expectCloser code closer construct).Accumulates fun _ => True := by
  refine .bind (.lift (.onCursor _)) fun eaten _ => ?_
  split
  · exact .bind (.lift (.still (fun _ => rfl) fun _ => trivial)) fun _ (_ : True) => .throw
  · exact .pure trivial

/-- Where another token stands, an expected one is missing. -/
theorem run_expect_other {tag : Tag} (other : here.cursor.current.tag ≠ tag)
    (construct : Construct) : ∃ error, (expect tag construct).run here = (.error error, here) := by
  have checks : (Build.check tag here).1 = false := beq_false_of_ne other
  rw [expect, expectWith, run_bind_ok (run_lift _ _), checks]
  exact ⟨_, rfl⟩

include mirrors le in
/-- At a bracket, a subscript mirrors an array literal. -/
theorem mirrored_subscript (kept : Parser.Tracks source first second rounds here there)
    (id : NodeId) (start : Span) :
    Mirrored (Parser.Tracks source first second rounds) cuts (fun _ _ => True)
      (((level options first rounds levels).subscript id start).run here)
      ((level options second rounds others).arrayLiteral.run there) := by
  have steps := kept.advance
  show Mirrored _ _ _
    (((level options first rounds levels).expression >>= fun index =>
      expect .rightBracket .subscript >>= fun _ => liftM (close (.subscript id index) start)).run
        (here.withCursor here.cursor.advance.2))
    (((level options second rounds others).itemsUntil .rightBracket
      (level options second rounds others).expression >>= fun elements =>
        expectCloser .unexpectedToken .rightBracket .array >>= fun _ =>
          liftM (addList elements) >>= fun elements =>
            liftM (close (.array elements) there.cursor.advance.1.span)).run
        (there.withCursor there.cursor.advance.2))
  generalize there.cursor.advance.1.span = place
  generalize here.withCursor here.cursor.advance.2 = here at steps
  generalize there.withCursor there.cursor.advance.2 = there at steps
  have expected := (mirrors levels (Nat.le_refl _) others le).deeper (.expression .assignment) nofun
    here there steps
  have enough : 0 < rounds := by
    obtain ⟨_, _, unspoilt, _⟩ := steps
    exact Nat.zero_lt_of_lt unspoilt.length_lt
  by_cases closes : here.cursor.current.tag = .rightBracket
  · -- An index is missing.
    obtain ⟨_, _, unspoilt, _⟩ := steps
    exact mirrored_missing (by rw [closes]; decide) unspoilt
  · have items : ((level options second rounds others).itemsUntil .rightBracket
        (level options second rounds others).expression).run there =
        ((level options second rounds others).expression >>= fun id =>
          moreItems .rightBracket (level options second rounds others).expression (rounds - 1)
            #[id]).run there := by
      have opens : there.cursor.current.tag ≠ .rightBracket := steps.tag ▸ closes
      have ran := run_items opens (level options second rounds others).expression (rounds - 1) #[]
      rw [Nat.sub_add_cancel enough] at ran
      exact ran
    rw [run_bind_congr items, bind_assoc]
    refine expected.bind (fun index _ => ?_) (fun other _ => ?_)
      fun index other here there _ kept => ?_
    · exact .bind (adds_expect _ _) fun _ _ => adds_close (by nofun) start
    · have deeper : (level options second rounds others).expression.Accumulates fun _ => True :=
        upholds_level options second rounds others _
      have list (ids : Array NodeId) : Parse.Accumulates (liftM (addList ids)) fun _ => True :=
        .lift (.tables (isStill_addList ids) fun _ => trivial)
      exact .bind (adds_moreItems deeper _ _) fun elements _ => .bind (adds_expectCloser _ _ _)
        fun _ _ => .bind (list elements) fun _ _ => adds_close (by nofun) place
    · have sameTag := kept.tag
      obtain ⟨tokens, left, unspoilt, unspoiltOther, respells⟩ := kept
      by_cases ends : here.cursor.current.tag = .rightBracket
      · have first : TokenKind.tagAt (left.map Token.kind) 0 = .rightBracket := by
          rw [← unspoiltOther.sees.tag, ← sameTag, ends]
        cases left with
        | nil => contradiction
        | cons closer rest =>
          have closes : [closer].map Token.tag = [.rightBracket] := congrArg ([·]) first
          refine mirrored_of_traverses ?_ ?_ unspoilt unspoiltOther respells closes rfl
          · exact .take .expect fun _ _ => .close (by nofun) start
          · rw [← List.nil_append [Tag.rightBracket]]
            refine .bind (traverses_moreItems (by nofun)) fun elements _ => .take .expectCloser
              fun _ _ => .rest (.still (isStill_addList elements)) fun _ _ => .close (by nofun) place
      · obtain ⟨error, fails⟩ := run_expect_other ends .subscript
        rw [run_bind_error fails]
        exact refused_of_thrown unspoilt.errors unspoilt.goesOn

include mirrors le in
/-- At a bracket, members, subscripts and operators that go on with an operand mirror an expression
that begins with an array literal. -/
theorem mirrored_bracket (kept : Parser.Tracks source first second rounds here there)
    (isBracket : here.cursor.current.tag = .leftBracket) (id : NodeId) :
    Mirrored (Parser.Tracks source first second rounds) cuts (fun _ _ => True)
      (((level options first rounds levels).chain id >>= fun id =>
        (level options first rounds levels).loop id
          ((level options first rounds levels).infixStep .assignment)).run here)
      (((level options second rounds others).expressionFrom .assignment).run there) := by
  have stands : here.cursor.Reaches rounds 0 := by
    obtain ⟨_, _, unspoilt, _⟩ := kept
    exact unspoilt.reaches
  obtain ⟨start, chain⟩ := @run_chain_subscript id here (level options first rounds levels) isBracket
    rounds
  have operand : ((level options second rounds others).operand).run there =
      ((level options second rounds others).arrayLiteral >>=
        (level options second rounds others).chain).run there := by
    have opens : there.cursor.current.tag = .leftBracket := kept.tag ▸ isBracket
    have isArray : (level options second rounds others).primary.run there =
        (level options second rounds others).arrayLiteral.run there := by
      rw [run_primary, TokenKind.eq_fixed opens rfl]
      rfl
    rw [run_operand, opens]
    exact run_bind_congr isArray
  have continues : ((level options first rounds levels).chain id).run here =
      ((level options first rounds levels).subscript id start >>=
        (level options first rounds levels).chain).run here :=
    (same_chain id stands (Nat.le_succ rounds)).1.trans chain
  rw [run_bind_congr continues, bind_assoc, expressionFrom_eq, run_bind_congr operand, bind_assoc]
  refine (mirrored_subscript mirrors le kept id start).bind (fun index _ => ?_) (fun other _ => ?_)
    fun index other here there _ kept => ?_
  · exact adds_continuation options first levels .assignment index
  · exact adds_continuation options second others .assignment other
  · have sameRounds : (level options first rounds levels).rounds =
      (level options second rounds others).rounds := rfl
    have reading := @Lockstep.continuation _ _ False False sameRounds .assignment index other False.elim
    have mirror := mirrors levels (Nat.le_refl _) others le
    exact (mirror.inner reading here there kept).mono fun _ _ _ => trivial

end

end Grammar

end Vibescript
