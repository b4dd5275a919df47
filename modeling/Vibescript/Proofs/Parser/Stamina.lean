import Vibescript.Proofs.Parser.ImportCalls
import Vibescript.Proofs.Parser.Pausing

/-!
# Loops over operators and members

Every round of the loop over the operators of an expression, and of the loop over the members and
subscripts after an operand, consumes a token or leaves the loop. So the loop does the same with more
rounds, and where it leaves off, no operator follows that binds tightly enough.
-/
namespace Vibescript

open Build Parse Grammar

namespace Parse

variable {α β : Type} {reading other : Parse α} {next : α → Parse β} {parser : Parser}

/-- What begins with a reading depends on what the reading does. -/
theorem run_bind_congr {start : Parser} (same : reading.run parser = other.run start) :
    (reading >>= next).run parser = (other >>= next).run start := by
  rw [ExceptT.run_bind, ExceptT.run_bind, Build.run_bind, Build.run_bind, same]

/-- What holds after a reading holds after any that does the same. -/
theorem Outcome.congr (same : reading.run parser = other.run parser)
    {success : α → Parser → Prop} {failure : ParseError → Parser → Prop}
    (outcome : other.Outcome parser success failure) :
    reading.Outcome parser success failure := by
  rw [Outcome, Build.Outcome, same]
  exact outcome

end Parse

namespace Grammar

variable {options : ParseOptions} {soft : SoftNames} {rounds levels count more : Nat}
  {least : BindingPower} {id : NodeId} {parser : Parser}

/-- What is read one level deeper goes onward, and it consumes a token when it succeeds. -/
theorem outcome_deeper (request : Request) (stands : parser.cursor.Reaches rounds 0) :
    ((level options soft rounds levels).deeper request).Outcome parser
      (fun _ after => parser.cursor.Onward after.cursor ∧
        parser.cursor.position < after.cursor.position)
      fun _ after => parser.cursor.Onward after.cursor := by
  have settled := (Parser.maintains_nothing options.recovery).settled options soft
    (ladder_anywhere rounds) (fun _ _ _ _ => trivial) levels request parser stands trivial
  exact Parse.Outcome.mono settled
    (fun _ _ ⟨onward, _, past⟩ => ⟨onward, stands.position_lt onward past⟩) fun _ _ => And.left

/-- The productions of a level go onward. -/
theorem alike_level (floor : Nat) :
    Alike (level options soft rounds levels) (level options soft rounds levels) rounds
      (anywhere rounds levels) floor :=
  ⟨rfl, rfl, rfl, fun _ _ later => later.mono (Nat.zero_le _) id⟩

/-- An operator with its right operand. -/
def infixRound (grammar : Grammar) (op : InfixOp) (left : NodeId) : Parse NodeId := do
  let _ ← Build.advance
  let start ← nodeSpan left
  let right ← grammar.deeper (.expression op.rightPower)
  close (infixNode op left right) start

/-- One round over the operators of an expression, once it is known which one comes next. -/
def infixAt (grammar : Grammar) (least : BindingPower) (left : NodeId) :
    Option InfixOp → Parse (ForInStep NodeId)
  | none => return .done left
  | some op => do
    if op.power.rank < least.rank then return .done left
    else return .yield (← grammar.infixRound op left)

/-- A round asks which operator comes next. -/
theorem infixStep_eq (grammar : Grammar) (least : BindingPower) (left : NodeId) :
    grammar.infixStep least left =
      liftM Build.currentTag >>= fun tag => grammar.infixAt least left (InfixOp.ofTag? tag) := by
  unfold infixStep
  congr 1
  funext tag
  cases InfixOp.ofTag? tag with
  | none => rfl
  | some op =>
    dsimp only [infixAt]
    split
    · rfl
    · simp only [infixRound, bind_assoc]

/-- An operator that binds tightly enough is read with its right operand. -/
theorem run_infixStep_some {grammar : Grammar} {op : InfixOp}
    (isOp : InfixOp.ofTag? parser.cursor.current.tag = some op)
    (tight : least.rank ≤ op.power.rank) :
    (grammar.infixStep least id).run parser =
      (grammar.infixRound op id >>= fun id => pure (.yield id)).run parser := by
  have asks : (grammar.infixStep least id).run parser =
      (grammar.infixAt least id (InfixOp.ofTag? parser.cursor.current.tag)).run parser := by
    rw [infixStep_eq]
    rfl
  rw [asks, isOp, infixAt, if_neg (Nat.not_lt.mpr tight)]

/-- Where no operator binds tightly enough, the loop is left. -/
theorem run_infixStep_none {grammar : Grammar}
    (loose : ∀ op ∈ InfixOp.ofTag? parser.cursor.current.tag, op.power.rank < least.rank) :
    (grammar.infixStep least id).run parser = (.ok (.done id), parser) := by
  have asks : (grammar.infixStep least id).run parser =
      (grammar.infixAt least id (InfixOp.ofTag? parser.cursor.current.tag)).run parser := by
    rw [infixStep_eq]
    rfl
  rw [asks]
  cases isOp : InfixOp.ofTag? parser.cursor.current.tag with
  | none => rfl
  | some op =>
    rw [infixAt, if_pos (loose op isOp)]
    rfl

/-- A loop over operators goes on with one that binds tightly enough. -/
theorem run_infixes_some {grammar : Grammar} {op : InfixOp}
    (isOp : InfixOp.ofTag? parser.cursor.current.tag = some op)
    (tight : least.rank ≤ op.power.rank) :
    (repeatWithin (grammar.infixStep least) (count + 1) id).run parser =
      (grammar.infixRound op id >>= repeatWithin (grammar.infixStep least) count).run parser := by
  rw [repeatWithin, run_bind_congr (run_infixStep_some isOp tight)]
  simp only [bind_assoc, pure_bind]

/-- A loop over operators is left where none binds tightly enough. -/
theorem run_infixes_none {grammar : Grammar}
    (loose : ∀ op ∈ InfixOp.ofTag? parser.cursor.current.tag, op.power.rank < least.rank) :
    (repeatWithin (grammar.infixStep least) count id).run parser = (.ok id, parser) := by
  cases count with
  | zero => rfl
  | succ count =>
    rw [repeatWithin, run_bind_ok (run_infixStep_none loose)]
    rfl

/-- An operator and its right operand consume a token. -/
theorem outcome_infixRound {op : InfixOp} (stands : parser.cursor.Reaches rounds 0) :
    ((level options soft rounds levels).infixRound op id).Outcome parser
      (fun _ after => parser.cursor.Onward after.cursor ∧
        parser.cursor.position < after.cursor.position)
      fun _ after => parser.cursor.Onward after.cursor := by
  have steps := parser.cursor.onward_advance
  have reached := stands.onward steps
  have le := stands.position_le steps
  refine .bind (Build.Outcome.lift (Parser.outcome_onCursor.mpr (Parse.outcome_nodeSpan.mpr ?_)))
  refine .bind ((outcome_deeper (.expression op.rightPower) reached).mono ?_ ?_)
  · rintro right after ⟨onward, further⟩
    exact Build.Outcome.lift ⟨steps.trans onward, Nat.lt_of_le_of_lt le further⟩
  · exact fun _ _ onward => steps.trans onward

/-- A round of a loop over nodes goes onward: it consumes a token, or it leaves the loop where a
condition holds. -/
def RoundGoes (rounds : Nat) (ends : Parser → Prop) (before : Parser) (result : ForInStep NodeId)
    (after : Parser) : Prop :=
  before.cursor.Onward after.cursor ∧
    (goesOn result → before.cursor.position < after.cursor.position) ∧
    (¬goesOn result → ends after) ∧ after.cursor.Reaches rounds 0

/-- A loop whose rounds go onward does the same with more of them than it needs, and where it is left
the condition holds. -/
theorem same_loop {step : NodeId → Parse (ForInStep NodeId)} {ends : Parser → Prop}
    (round : ∀ (id : NodeId) (parser : Parser), parser.cursor.Reaches rounds 0 →
      (step id).Outcome parser (RoundGoes rounds ends parser)
        fun _ after => parser.cursor.Onward after.cursor)
    (stands : parser.cursor.Reaches rounds 0) (enough : parser.cursor.Reaches count 0) {fewer : Nat}
    (isEnough : count ≤ fewer) (more : Nat) (isMore : count ≤ more) :
    (repeatWithin step fewer id).run parser = (repeatWithin step more id).run parser ∧
      (repeatWithin step fewer id).Outcome parser (fun _ after => ends after) fun _ _ => True := by
  have same := @Parse.Same.repeatWithin _ step step (fun parser => parser.cursor.Reaches rounds 0)
    (fun _ => ends) (fun _ => True) ?_ _ _ _ isEnough isMore id parser stands enough
  · exact ⟨same.1, same.2.mono (fun _ _ => And.right) fun _ _ _ => trivial⟩
  · refine fun id parser stands => ⟨rfl, (round id parser stands).mono ?_ fun _ _ onward =>
      ⟨onward, trivial⟩⟩
    rintro result after ⟨onward, further, left, reached⟩
    cases result with
    | yield id => exact ⟨onward, reached, further trivial⟩
    | done id => exact ⟨onward, left False.elim⟩

/-- One round over the operators of an expression consumes a token, or no operator follows that binds
tightly enough. -/
theorem outcome_infixStep (least : BindingPower) (id : NodeId) (parser : Parser)
    (stands : parser.cursor.Reaches rounds 0) :
    ((level options soft rounds levels).infixStep least id).Outcome parser
      (RoundGoes rounds (fun after => ∀ op ∈ InfixOp.ofTag? after.cursor.current.tag,
        op.power.rank < least.rank) parser)
      fun _ after => parser.cursor.Onward after.cursor := by
  by_cases loose : ∀ op ∈ InfixOp.ofTag? parser.cursor.current.tag, op.power.rank < least.rank
  · rw [Parse.Outcome, Build.Outcome, run_infixStep_none loose]
    exact ⟨.refl _, False.elim, fun _ => loose, stands⟩
  · obtain ⟨op, isOp, tight⟩ : ∃ op, InfixOp.ofTag? parser.cursor.current.tag = some op ∧
        least.rank ≤ op.power.rank := by
      simpa using loose
    refine .congr (run_infixStep_some isOp tight) (.bind ((outcome_infixRound stands).imp ?_))
    intro _ _ goes
    obtain ⟨onward, further⟩ := goes
    exact .pure ⟨onward, fun _ => further, fun left => absurd trivial left, stands.onward onward⟩

/-- One round over what follows an operand consumes a token, or it leaves the loop. -/
theorem outcome_chainStep (id : NodeId) (parser : Parser)
    (stands : parser.cursor.Reaches rounds 0) :
    ((level options soft rounds levels).chainStep id).Outcome parser
      (RoundGoes rounds (fun after => after.cursor.Reaches rounds 0) parser)
      fun _ after => parser.cursor.Onward after.cursor := by
  have settled := (Parser.maintains_nothing options.recovery).settled options soft
    (ladder_anywhere rounds) (fun _ _ _ _ => trivial) levels
  have alike : Alike (level options soft rounds levels) (level options soft rounds levels) rounds
      (anywhere rounds levels) parser.cursor.current.span.start := alike_level _
  have goes {reading : Parse NodeId} (settles : reading.Settles parser
      (fun _ final => True ∧ final.cursor.Past rounds parser.cursor.current.span.start)
      fun _ _ => True) :
      Parse.Outcome (reading >>= fun id => pure (ForInStep.yield id)) parser
        (RoundGoes rounds (fun after => after.cursor.Reaches rounds 0) parser)
        fun _ after => parser.cursor.Onward after.cursor :=
    Parse.Outcome.bind (Parse.Outcome.mono settles (fun _ _ ⟨onward, _, past⟩ =>
      .pure ⟨onward, fun _ => stands.position_lt onward past, fun _ => stands.onward onward,
        stands.onward onward⟩) fun _ _ => And.left)
  refine Parse.outcome_nodeSpan.mpr (Parse.outcome_currentTag.mpr ?_)
  split
  · next isDot =>
    exact goes ((alike.member id _).settles (Parser.maintains_nothing _) settled parser
      (stands.here.mono (Nat.le_refl _) fun _ => isDot) trivial)
  · next isBracket =>
    exact goes ((alike.subscript id _).settles (Parser.maintains_nothing _) settled parser
      (stands.here.mono (Nat.le_refl _) fun _ => isBracket) trivial)
  · exact .pure ⟨.refl _, False.elim, fun _ => stands, stands⟩

/-- A loop over operators does the same with more rounds, and where it is left, no operator follows
that binds tightly enough. -/
theorem same_infixes (least : BindingPower) (id : NodeId) (stands : parser.cursor.Reaches rounds 0)
    (enough : rounds ≤ more) :
    (repeatWithin ((level options soft rounds levels).infixStep least) rounds id).run parser =
        (repeatWithin ((level options soft rounds levels).infixStep least) more id).run parser ∧
      (repeatWithin ((level options soft rounds levels).infixStep least) rounds id).Outcome parser
        (fun _ after => ∀ op ∈ InfixOp.ofTag? after.cursor.current.tag, op.power.rank < least.rank)
        fun _ _ => True :=
  same_loop (outcome_infixStep least) stands stands (Nat.le_refl _) more enough

/-- A loop over members and subscripts does the same with more rounds, and enough of them are left
for what follows. -/
theorem same_chain (id : NodeId) (stands : parser.cursor.Reaches rounds 0) (enough : rounds ≤ more) :
    (repeatWithin (level options soft rounds levels).chainStep rounds id).run parser =
        (repeatWithin (level options soft rounds levels).chainStep more id).run parser ∧
      (repeatWithin (level options soft rounds levels).chainStep rounds id).Outcome parser
        (fun _ after => after.cursor.Reaches rounds 0) fun _ _ => True :=
  same_loop outcome_chainStep stands stands (Nat.le_refl _) more enough

/-- After what goes on with an operand no operator follows that binds tightly enough to go on with
it. -/
theorem outcome_continuation (least : BindingPower) (id : NodeId)
    (stands : parser.cursor.Reaches rounds 0) :
    ((level options soft rounds levels).chain id >>= fun id =>
      (level options soft rounds levels).loop id
        ((level options soft rounds levels).infixStep least)).Outcome parser
      (fun _ after => ∀ op ∈ InfixOp.ofTag? after.cursor.current.tag, op.power.rank < least.rank)
      fun _ _ => True := by
  rw [chain_eq]
  exact .bind ((same_chain id stands (Nat.le_refl _)).2.imp fun id after reached =>
    (same_infixes least id reached (Nat.le_refl _)).2)

end Grammar

end Vibescript
