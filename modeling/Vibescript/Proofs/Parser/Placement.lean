import Vibescript.Proofs.Parser.Inlaid
import Vibescript.Proofs.Parser.Pausing

/-!
# The statements of a text inside another one

The levels of a grammar follow those of another one with at least as many levels. So the statements
of a text are read in the same way in a body of the text that it stands in: no terminator of a body
starts a statement, so the body goes on as long as tokens or directives of the first text are left.
-/
namespace Vibescript

open Build Parse

/-- Whether a statement can start with a token. -/
def Tag.startsStatement (tag : Tag) : Bool :=
  TagSet.expressionStart.contains tag ||
    (TagSet.statementBoundary.contains tag && !TagSet.bodyEnd.contains tag)

/-- A statement that does not start here. -/
def Cursor.Strays (cursor : Cursor) : Prop := cursor.current.tag.startsStatement = false

namespace Grammar

variable {seam : Seam} {known : Lasting} {options others : ParseOptions} {soft : SoftNames}
  {rounds levels higher : Nat}

/-- Refusing to go deeper never succeeds. -/
theorem barren_refuse (limit : Nat) : Barren (refuse limit) :=
  .after (.quiet fun parser => .refl parser) fun _ => .after (.quiet isQuiet_skipToEnd) fun _ =>
    .throw _

/-- A level follows another one with at least as many levels below it. -/
theorem inlaid_level (recovers : options.recovery = .recover ∧ others.recovery = .recover)
    (le : levels ≤ higher) :
    (level options seam.first rounds levels).Inlaid seam
      (level others seam.second rounds higher) := by
  induction levels generalizing higher with
  | zero => exact ⟨recovers, ⟨rfl, rfl⟩, rfl, fun _ => .barren (barren_refuse _)⟩
  | succ levels ih =>
    obtain ⟨higher, rfl⟩ : ∃ fewer, higher = fewer + 1 := ⟨higher - 1, by omega⟩
    have below := ih (Nat.le_of_succ_le_succ le)
    refine ⟨recovers, ⟨rfl, rfl⟩, rfl, fun request => ?_⟩
    show Follows seam request.stance .always .node
      (descend options seam.first rounds (levels + 1) request)
      (descend others seam.second rounds (higher + 1) request)
    rw [descend_succ, descend_succ]
    cases request with
    | statement => exact below.statement
    | expression least => exact below.expressionFrom least
    | operand => exact below.operand

/-- A level follows itself. -/
theorem inlaid_self (recovers : options.recovery = .recover) (soft : SoftNames)
    (rounds levels : Nat) :
    (level options soft rounds levels).Inlaid ⟨soft, soft, []⟩ (level options soft rounds levels) :=
  @inlaid_level ⟨soft, soft, []⟩ _ _ _ _ _ ⟨recovers, recovers⟩ (Nat.le_refl levels)

/-- What is read at a level takes no error back. -/
theorem tame_descend (recovers : options.recovery = .recover) (request : Request) :
    (descend options soft rounds levels request).Tame :=
  ((inlaid_self recovers soft rounds levels).deeper request).tame

/-- An expression is missing where none starts. -/
theorem refuses_expression (recovers : options.recovery = .recover) (least : BindingPower) :
    (descend options soft rounds levels (.expression least)).Refuses Lacks := by
  cases levels with
  | zero => exact fun here answer after goesOn _ => (barren_refuse _).fails here answer after goesOn
  | succ levels =>
    have inlaid := inlaid_self recovers soft rounds levels
    have primary := (@Inlaid.primary _ .always _ _ inlaid).tame
    have chain (id : NodeId) :=
      (@Inlaid.chain _ (Agreement.node id id) _ _ inlaid id id fun _ holds => holds).tame
    rw [descend_succ]
    show ((level options soft rounds levels).expressionFrom least).Refuses Lacks
    rw [expressionFrom_eq]
    have operand := (@Inlaid.operand _ .always _ _ inlaid).tame
    have infix' (id : NodeId) :=
      (@Inlaid.repeats _ .anywhere _ _ _ inlaid _ _ id id _ _ rfl (fun _ holds => holds)
        (inlaid.infixStep least)).tame
    exact (refuses_operand primary chain).bind operand infix'

/-- A statement is missing where none starts. -/
theorem refuses_statement (recovers : options.recovery = .recover) :
    (descend options soft rounds levels .statement).Refuses Cursor.Strays := by
  cases levels with
  | zero => exact fun here answer after goesOn _ => (barren_refuse _).fails here answer after goesOn
  | succ levels =>
    intro here answer after goesOn strays gives
    have gave : ((level options soft rounds levels).statementOf here.cursor.current.tag).Gives here
      answer after := gives
    obtain ⟨tag, current⟩ : ∃ tag, here.cursor.current.tag = tag := ⟨_, rfl⟩
    rw [Cursor.Strays, current] at strays
    rw [current] at gave
    have plain : (level options soft rounds levels).plainStatement.Gives here answer after := by
      cases tag <;> first | contradiction | exact gave
    have stray : Barren (do
        let error ← Build.unexpected .unexpectedToken .empty
        throw (error.withFault .strayTerminator) : Parse NodeId) := .unexpected _ _ _
    have run : (level options soft rounds levels).plainStatement.run here =
        (if tag == .identifier then do
          if ← Build.ask (Lookahead.startsImport soft.importName soft.asKey) then
            (level options soft rounds levels).requireImport
          else descend options soft rounds levels (.expression .assignment)
        else if TagSet.bodyEnd.contains tag then do
          let error ← Build.unexpected .unexpectedToken .empty
          throw (error.withFault .strayTerminator)
        else descend options soft rounds levels (.expression .assignment) : Parse NodeId).run
          here := by
      rw [← current]
      rfl
    have other : (tag == .identifier) = false := by
      cases tag <;> first | rfl | contradiction
    rw [Gives, run, other] at plain
    cases closes : TagSet.bodyEnd.contains tag with
    | true =>
      rw [closes] at plain
      exact stray.fails here answer after goesOn plain
    | false =>
      rw [closes] at plain
      refine refuses_expression recovers .assignment here answer after goesOn ?_ plain
      rw [Lacks, current]
      exact (Bool.or_eq_false_iff.mp strays).1

/-- A round over statements takes no error back. -/
theorem tame_bodyStep {grammar : Grammar} (tame : (grammar.deeper .statement).Tame)
    (terminators : TagSet) (statements : Array NodeId) :
    Tame (liftM (grammar.bodyStep terminators statements)) := by
  rw [liftM_bodyStep_statementStep]
  refine .bind (.quiet fun parser => .refl parser) fun halts => ?_
  split
  · exact .bind (.quiet isQuiet_skipToEnd) fun _ => .pure _
  refine .bind (.quiet (isQuiet_onCursor Cursor.onward_takeDirective)) fun claimed => ?_
  cases claimed with
  | some mark => exact .bind (.quiet (isQuiet_directive mark)) fun _ => .pure _
  | none =>
    refine .bind (.quiet fun parser => .refl parser) fun tag => ?_
    split
    · exact .pure _
    · exact tame.attemptStep fun cursor => cursor.onward_synchronize _

/-- Where neither tokens nor directives are left, a body ends. -/
theorem bodyStep_idle {grammar : Grammar} (recovers : grammar.options.recovery = .recover)
    {here : Parser} (goesOn : here.isHalted = false) (idle : ¬here.cursor.Busy)
    {terminators : TagSet} (statements : Array NodeId) :
    grammar.bodyStep terminators statements here = (.done statements, here) := by
  rw [Cursor.Busy, not_or, not_not, Bool.not_eq_false] at idle
  rw [bodyStep_statement (shouldHalt_eq recovers goesOn) (Cursor.takeDirective_of_none idle.2), if_pos]
  rw [show here.cursor.current.tag = .endOfInput from beq_iff_eq.mp idle.1]
  rfl

/-- So do rounds over statements. -/
theorem statements_idle {grammar : Grammar} (recovers : grammar.options.recovery = .recover)
    {here : Parser} (goesOn : here.isHalted = false) (idle : ¬here.cursor.Busy)
    {terminators : TagSet} (count : Nat) (statements : Array NodeId) :
    repeatWithin (grammar.bodyStep terminators) count statements here = (statements, here) := by
  cases count with
  | zero => rfl
  | succ count => rw [Build.run_done (bodyStep_idle recovers goesOn idle statements)]

/-- Nothing was reported before rounds over statements when nothing is after them. -/
theorem clean_of_statements {grammar : Grammar} (tame : (grammar.deeper .statement).Tame)
    {terminators : TagSet} {count : Nat} {statements ids : Array NodeId} {here after : Parser}
    (ran : repeatWithin (grammar.bodyStep terminators) count statements here = (ids, after))
    (clean : after.errors = #[]) : here.errors = #[] := by
  have loop : Tame (liftM (repeatWithin (grammar.bodyStep terminators) count statements)) := by
    rw [liftM_repeatWithin]
    exact .loop (tame_bodyStep tame terminators) count statements
  refine loop.clean ?_
  rw [run_lift, ran]
  exact clean

namespace Inlaid

variable {first second : Grammar} {terminators : TagSet} (inlaid : first.Inlaid seam second)
  (starts : (first.deeper .statement).Refuses Cursor.Strays)
  (closes : ∀ tag : Tag, terminators.contains tag = true → tag.startsStatement = false)

include inlaid starts closes

/-- One round over the statements of the text is one round of the body that they stand in. -/
theorem outerStep (statements others : Array NodeId) :
    Follows seam .busy (known.and (Agreement.items .node statements others))
      (.yielded (.items .node)) (liftM (first.bodyStep .empty statements))
      (liftM (second.bodyStep terminators others)) := by
  have statement := (inlaid.deeper .statement).tame
  have onward (cursor : Cursor) := cursor.onward_synchronize .statementBoundary
  rw [liftM_bodyStep_statementStep, liftM_bodyStep_statementStep]
  refine inlaid.shouldHalt ?_ (.bind (.quiet isQuiet_skipToEnd) fun _ => .pure _)
  refine .claim (fun _ _ _ => id) (fun _ => rfl) (fun _ => rfl)
    (fun id other => .pure fun _ holds => Agreement.push holds.1.2 holds.2) ?_
  refine .currentTag Stance.isAwake_unclaimed fun tag => ?_
  rw [TagSet.contains_empty, Bool.or_false]
  by_cases atEnd : tag = .endOfInput
  · -- Tokens are left where no directive waits.
    subst atEnd
    refine .of_refuses (.pure _) fun _ _ _ _ admitted => ?_
    have notEnd := admitted.1.1.resolve_right (absurd admitted.1.2)
    rw [Cursor.isAtEnd, admitted.2] at notEnd
    contradiction
  rw [if_neg (by simpa using atEnd)]
  cases isStart : tag.startsStatement with
  | true =>
    have goesOn : terminators.contains tag = false := by
      cases terminates : terminators.contains tag with
      | false => rfl
      | true =>
        rw [closes tag terminates] at isStart
        contradiction
    rw [if_neg (by simp [atEnd, goesOn])]
    exact .attemptStep (.of_awake (Stance.isAwake_unclaimed.facing tag)
      (inlaid.deeper .statement).regardless) onward fun _ holds => holds.2
  | false =>
    refine .of_refuses (statement.attemptStep onward)
      fun here answer after goesOn admitted => ?_
    refine starts.attemptStep statement onward here answer after goesOn ?_
    rw [Cursor.Strays, admitted.2, isStart]

/-- While tokens or directives of the text are left, a round without errors goes on on both sides. -/
theorem outerRound {here there middle : Parser} {statements others : Array NodeId}
    {result : ForInStep (Array NodeId)} (beside : here.Beside seam there)
    (agrees : (Agreement.items .node statements others).holds (here.sides there))
    (busy : here.cursor.Busy) (ran : first.bodyStep .empty statements here = (result, middle))
    (clean : middle.errors = #[]) :
    ∃ next next' later, result = .yield next ∧
      second.bodyStep terminators others there = (.yield next', later) ∧
      middle.Beside seam later ∧ (here.sides there).Grows (middle.sides later) ∧
      (Agreement.items .node next next').holds (middle.sides later) := by
  have step := @outerStep _ .always _ _ _ inlaid starts closes statements others
  have gives : Gives (liftM (first.bodyStep .empty statements)) here result middle :=
    gives_lift.mpr ⟨ran, clean⟩
  obtain ⟨other, later, ranOther, beside', grows, alike⟩ :=
    step.catchesUp rfl beside ⟨trivial, agrees⟩ busy gives
  rw [run_lift] at ranOther
  obtain ⟨answer, rest⟩ := Prod.mk.inj ranOther
  cases result with
  | done => exact alike.elim
  | yield next =>
    cases other with
    | done => exact alike.elim
    | yield next' =>
      exact ⟨next, next', later, rfl, Prod.ext (Except.ok.inj answer) rest, beside', grows, alike⟩

/-- The statements of the text are read by as many rounds of the body that they stand in, and what
the body then does is what it does after them. -/
theorem outerLoop {count : Nat} {here there after : Parser} {statements ids others : Array NodeId}
    (beside : here.Beside seam there)
    (agrees : (Agreement.items .node statements others).holds (here.sides there))
    (ran : repeatWithin (first.bodyStep .empty) count statements here = (ids, after))
    (clean : after.errors = #[]) (idle : ¬after.cursor.Busy) :
    ∃ used ≤ count, ∃ ids' later,
      (∀ more, repeatWithin (second.bodyStep terminators) (used + more) others there =
        repeatWithin (second.bodyStep terminators) more ids' later) ∧
      after.Beside seam later ∧ (here.sides there).Grows (after.sides later) ∧
      (Agreement.items .node ids ids').holds (after.sides later) := by
  induction count generalizing here there statements others with
  | zero =>
    obtain ⟨rfl, rfl⟩ := Prod.mk.inj ran
    exact ⟨0, Nat.le_refl _, others, there, fun more => by rw [Nat.zero_add], beside, .refl _,
      agrees⟩
  | succ count ih =>
    by_cases busy : here.cursor.Busy
    · generalize round : first.bodyStep .empty statements here = outcome at *
      obtain ⟨result, middle⟩ := outcome
      have goesOn := inlaid.outerRound starts closes beside agrees busy round
      cases result with
      | done ended =>
        rw [Build.run_done round] at ran
        obtain ⟨_, rfl⟩ := Prod.mk.inj ran
        obtain ⟨_, _, _, same, _⟩ := goesOn clean
        contradiction
      | yield next =>
        rw [Build.run_yield round] at ran
        have kept := clean_of_statements (inlaid.deeper .statement).tame ran clean
        obtain ⟨_, next', there', same, roundOther, beside', grows, alike⟩ := goesOn kept
        obtain rfl := ForInStep.yield.inj same
        obtain ⟨used, le, ids', last, reads, besideLast, growsLast, agreesLast⟩ :=
          ih beside' alike ran
        refine ⟨used + 1, Nat.succ_le_succ le, ids', last, fun more => ?_, besideLast,
          grows.trans growsLast, agreesLast⟩
        rw [Nat.add_right_comm, Build.run_yield roundOther, reads]
    · rw [statements_idle inlaid.recovers.1 beside.goesOn.1 busy] at ran
      obtain ⟨rfl, rfl⟩ := Prod.mk.inj ran
      exact ⟨0, Nat.zero_le _, others, there, fun more => by rw [Nat.zero_add], beside, .refl _,
        agrees⟩

end Inlaid

end Grammar

end Vibescript
