import Vibescript.Proofs.Parser.Levels

/-!
# Where two parses part

Two parses of one text take the same steps until they part: at a report that halts one of them, at
a place where one skips the rest of the text, or at the depth that one refuses. `Parser.Parting` says
what holds while they go together, and what holds of each once they went apart;
`Parallel.parts` follows both through every production and `Parting.Lawful.parts` through the levels.
-/
namespace Vibescript

open Cursor

/-- What holds of two parses before and after they part. -/
structure Parser.Parting (Way : Type) where
  /-- What holds of both while they go together. -/
  same : Parser → Prop
  /-- What holds of both when they fail together. -/
  fails : ParseError → Parser → Prop
  /-- What holds of the first one after they went apart. -/
  left : Way → Parser → Prop
  /-- What holds of its failures. -/
  leftFails : Way → ParseError → Parser → Prop
  /-- What holds of the second one after they went apart. -/
  right : Way → Parser → Prop
  /-- What holds of its failures. -/
  rightFails : Way → ParseError → Parser → Prop

/-- The productions of two parses keep a parting. -/
structure Parser.Parting.Lawful {Way : Type} (parting : Parting Way) (first second : RecoveryMode) :
    Prop where
  /-- They go together through quiet steps. -/
  quiet : ∀ before after : Parser, before.Quiet after → parting.same before → parting.same after
  /-- They fail together where others than the current token were expected. -/
  unexpected : ∀ (error : ParseError) (parser : Parser), parting.same parser →
    error.code.category = .grammatical → error.span = parser.cursor.current.span →
    parting.fails error parser
  /-- After a report they go together or apart. -/
  reported : ∀ (error : ParseError) (parser : Parser), parting.fails error parser →
    (parser.reported first error = parser.reported second error ∧
      parting.same (parser.reported first error)) ∨
    ∃ way, parting.left way (parser.reported first error) ∧
      parting.right way (parser.reported second error)
  /-- The second never skips the rest of the text before they went apart. -/
  goesOn : ∀ parser : Parser, parting.same parser → parser.halts second = false
  /-- They go apart where the first skips the rest of the text. -/
  halts : ∀ parser : Parser, parting.same parser → parser.halts first = true →
    ∃ way, parting.left way parser.skipped ∧ parting.right way parser
  /-- The first one keeps what holds of it. -/
  left : ∀ way, Maintains first (parting.left way) (parting.leftFails way)
  /-- The second one keeps what holds of it. -/
  right : ∀ way, Maintains second (parting.right way) (parting.rightFails way)

/-- From one parser, two readings give the same, or they part. -/
def Parse.Parts {α Way : Type} (parting : Parser.Parting Way) (left right : Parse α)
    (parser : Parser) (after : α → Cursor → Prop) : Prop :=
  (left.run parser = right.run parser ∧
    left.Settles parser (fun answer final => parting.same final ∧ after answer final.cursor)
      parting.fails) ∨
  ∃ way,
    left.Settles parser (fun answer final => parting.left way final ∧ after answer final.cursor)
      (parting.leftFails way) ∧
    right.Settles parser (fun answer final => parting.right way final ∧ after answer final.cursor)
      (parting.rightFails way)

/-- A step after another. -/
theorem Build.run_bind {α β : Type} (step : Build α) (next : α → Build β) (parser : Parser) :
    (step >>= next) parser = next (step parser).1 (step parser).2 := rfl

namespace Parse

variable {α β Way : Type} {reading : Parse α} {next : α → Parse β} {parser middle : Parser}
  {answer : α} {error : ParseError}

/-- A step as a reading. -/
theorem run_lift (step : Build α) (parser : Parser) :
    (liftM step : Parse α).run parser = (.ok (step parser).1, (step parser).2) := rfl

/-- A reading after one that succeeded. -/
theorem run_bind_ok (ran : reading.run parser = (.ok answer, middle)) :
    (reading >>= next).run parser = (next answer).run middle := by
  rw [ExceptT.run_bind, Build.run_bind, ran]

/-- A reading after one that failed. -/
theorem run_bind_error (ran : reading.run parser = (.error error, middle)) :
    (reading >>= next).run parser = (.error error, middle) := by
  rw [ExceptT.run_bind, Build.run_bind, ran]
  rfl

/-- A reading after one whose result is used. -/
theorem run_bind_attempt {next : Except ParseError α → Parse β} {result : Except ParseError α}
    (ran : reading.run parser = (result, middle)) :
    (liftM reading.run >>= next).run parser = (next result).run middle := by
  refine run_bind_ok ?_
  rw [run_lift, ran]

/-- What settled holds of a success. -/
theorem Settles.of_ok {success : α → Parser → Prop} {fails : ParseError → Parser → Prop}
    (settles : reading.Settles parser success fails)
    (ran : reading.run parser = (.ok answer, middle)) :
    parser.cursor.Onward middle.cursor ∧ success answer middle := by
  rw [Settles, Parse.Outcome, Build.Outcome, ran] at settles
  exact settles

/-- What settled holds of a failure. -/
theorem Settles.of_error {success : α → Parser → Prop} {fails : ParseError → Parser → Prop}
    (settles : reading.Settles parser success fails)
    (ran : reading.run parser = (.error error, middle)) :
    parser.cursor.Onward middle.cursor ∧ fails error middle := by
  rw [Settles, Parse.Outcome, Build.Outcome, ran] at settles
  exact settles

/-- A reading that fails settles as it fails. -/
theorem Settles.failed {success : α → Parser → Prop} {fails : ParseError → Parser → Prop}
    (ran : reading.run parser = (.error error, middle))
    (onward : parser.cursor.Onward middle.cursor) (failing : fails error middle) :
    reading.Settles parser success fails := by
  rw [Settles, Parse.Outcome, Build.Outcome, ran]
  exact ⟨onward, failing⟩

/-- A reading from the same parser to the same result settles in the same way. -/
theorem Settles.of_run {other : Parse β} {start : Parser} {success : β → Parser → Prop}
    {fails : ParseError → Parser → Prop} {reading : Parse β}
    (settles : reading.Settles middle success fails) (onward : start.cursor.Onward middle.cursor)
    (ran : other.run start = reading.run middle) : other.Settles start success fails := by
  have later := settles.later onward
  rw [Parse.Outcome, Build.Outcome, ← ran] at later
  exact later

namespace Parts

variable {parting : Parser.Parting Way} {left right : Parse α} {after : α → Cursor → Prop}

/-- Readings that run to the same results part as those do. -/
theorem of_run {first second : Parse α} (parts : left.Parts parting right middle after)
    (onward : parser.cursor.Onward middle.cursor) (leftRan : first.run parser = left.run middle)
    (rightRan : second.run parser = right.run middle) :
    first.Parts parting second parser after := by
  rcases parts with ⟨same, settles⟩ | ⟨way, leftSettles, rightSettles⟩
  · exact .inl ⟨by rw [leftRan, rightRan, same], settles.of_run onward leftRan⟩
  · exact .inr ⟨way, leftSettles.of_run onward leftRan, rightSettles.of_run onward rightRan⟩

/-- Less is known of the cursor after both. -/
theorem imp {weaker : α → Cursor → Prop} (parts : left.Parts parting right parser after)
    (implies : ∀ answer cursor, after answer cursor → weaker answer cursor) :
    left.Parts parting right parser weaker := by
  have weaken {kept : Parser → Prop} : ∀ answer final, kept final ∧ after answer final.cursor →
      kept final ∧ weaker answer final.cursor :=
    fun answer final ⟨holds, ends⟩ => ⟨holds, implies answer _ ends⟩
  rcases parts with ⟨same, settles⟩ | ⟨way, leftSettles, rightSettles⟩
  · exact .inl ⟨same, settles.imp weaken⟩
  · exact .inr ⟨way, leftSettles.imp weaken, rightSettles.imp weaken⟩

variable {leftNext rightNext : α → Parse β} {last : β → Cursor → Prop}

/-- One reading after another. -/
theorem bind (first : left.Parts parting right parser after)
    (together : ∀ answer final, parting.same final → after answer final.cursor →
      (leftNext answer).Parts parting (rightNext answer) final last)
    (leftApart : ∀ way answer final, parting.left way final → after answer final.cursor →
      (leftNext answer).Settles final
        (fun answer final => parting.left way final ∧ last answer final.cursor)
        (parting.leftFails way))
    (rightApart : ∀ way answer final, parting.right way final → after answer final.cursor →
      (rightNext answer).Settles final
        (fun answer final => parting.right way final ∧ last answer final.cursor)
        (parting.rightFails way)) :
    Parse.Parts parting (left >>= leftNext) (right >>= rightNext) parser last := by
  rcases first with ⟨same, settles⟩ | ⟨way, leftSettles, rightSettles⟩
  · cases ran : left.run parser with
    | mk result middle =>
      cases result with
      | ok answer =>
        obtain ⟨onward, holds, ends⟩ := settles.of_ok ran
        exact (together answer middle holds ends).of_run onward (run_bind_ok ran)
          (run_bind_ok (same ▸ ran))
      | error error =>
        obtain ⟨onward, failed⟩ := settles.of_error ran
        refine .inl ⟨?_, .failed (run_bind_error ran) onward failed⟩
        rw [run_bind_error ran, run_bind_error (same ▸ ran)]
  · exact .inr ⟨way,
      leftSettles.bind fun answer final ⟨holds, ends⟩ => leftApart way answer final holds ends,
      rightSettles.bind fun answer final ⟨holds, ends⟩ => rightApart way answer final holds ends⟩

/-- A step of each before a reading of each, to the same parser. -/
theorem stepped {leftStep rightStep : Build α} (onward : parser.cursor.Onward middle.cursor)
    (leftSteps : (leftStep parser).2 = middle) (rightSteps : (rightStep parser).2 = middle)
    (parts : (leftNext (leftStep parser).1).Parts parting (rightNext (rightStep parser).1) middle
      last) :
    Parse.Parts parting (liftM leftStep >>= leftNext) (liftM rightStep >>= rightNext) parser
      last := by
  refine parts.of_run onward (run_bind_ok ?_) (run_bind_ok ?_)
  · rw [← leftSteps]
    rfl
  · rw [← rightSteps]
    rfl

/-- A reading whose failure does not end the reading it is part of. -/
theorem attempt {leftNext rightNext : Except ParseError α → Parse β}
    (first : left.Parts parting right parser after)
    (together : ∀ answer final, parting.same final → after answer final.cursor →
      (leftNext (.ok answer)).Parts parting (rightNext (.ok answer)) final last)
    (recovers : ∀ error final, parser.cursor.Onward final.cursor → parting.fails error final →
      (leftNext (.error error)).Parts parting (rightNext (.error error)) final last)
    (leftApart : ∀ way, left.Settles parser
        (fun answer final => parting.left way final ∧ after answer final.cursor)
        (parting.leftFails way) →
      Parse.Settles (liftM left.run >>= leftNext) parser
        (fun answer final => parting.left way final ∧ last answer final.cursor)
        (parting.leftFails way))
    (rightApart : ∀ way, right.Settles parser
        (fun answer final => parting.right way final ∧ after answer final.cursor)
        (parting.rightFails way) →
      Parse.Settles (liftM right.run >>= rightNext) parser
        (fun answer final => parting.right way final ∧ last answer final.cursor)
        (parting.rightFails way)) :
    Parse.Parts parting (liftM left.run >>= leftNext) (liftM right.run >>= rightNext) parser
      last := by
  rcases first with ⟨same, settles⟩ | ⟨way, leftSettles, rightSettles⟩
  · cases ran : left.run parser with
    | mk result middle =>
      cases result with
      | ok answer =>
        obtain ⟨onward, holds, ends⟩ := settles.of_ok ran
        exact (together answer middle holds ends).of_run onward (run_bind_attempt ran)
          (run_bind_attempt (same ▸ ran))
      | error error =>
        obtain ⟨onward, failed⟩ := settles.of_error ran
        exact (recovers error middle onward failed).of_run onward (run_bind_attempt ran)
          (run_bind_attempt (same ▸ ran))
  · exact .inr ⟨way, leftApart way leftSettles, rightApart way rightSettles⟩

end Parts

end Parse

namespace Grammar

open Build Parse

variable {α β Way : Type} {first second : Grammar} {rounds : Nat}
  {enters : Request → Cursor → Prop} {before : Cursor → Prop} {after : α → Cursor → Prop}
  {last : β → Cursor → Prop} {left right : Parse α} {parting : Parser.Parting Way}

/-- What follows a round of two loops: an answer, or the rounds that are left. -/
theorem Parallel.nextRound {leftStep rightStep : α → Parse (ForInStep α)} (count : Nat)
    (round : ∀ state, Parallel first second rounds enters before (fun _ => before)
      (leftStep state) (rightStep state)) (result : ForInStep α) :
    Parallel first second rounds enters before (fun _ => before)
      (match result with
        | .done state => Pure.pure state
        | .yield state => repeatWithin leftStep count state)
      (match result with
        | .done state => Pure.pure state
        | .yield state => repeatWithin rightStep count state) := by
  cases result with
  | done state => exact .pure state fun _ stands => stands
  | yield state => exact .loop count state round

/-- After an attempt that maintains a property, what follows its success maintains it, and so does
the recovery from its failure. -/
theorem Parallel.settles_attempt {leftNext rightNext : Except ParseError α → Parse β}
    {leftRest rightRest : Parse β} {floor : Nat} {holds : Parser → Prop}
    {fails : ParseError → Parser → Prop}
    (maintains : Parser.Maintains first.options.recovery holds fails)
    (deeper : first.Settled rounds enters holds fails)
    (next : ∀ answer, Parallel first second rounds enters (after answer) last
      (leftNext (.ok answer)) (rightNext (.ok answer)))
    (leftFails : ∀ error, leftNext (.error error) =
      (liftM (first.report error) >>= fun _ => leftRest))
    (rest : Parallel first second rounds enters (Cursor.Reaches rounds floor) last
      leftRest rightRest)
    {parser : Parser} (reached : parser.cursor.Reaches rounds floor)
    (settles : left.Settles parser
      (fun answer final => holds final ∧ after answer final.cursor) fails) :
    Parse.Settles (liftM left.run >>= leftNext) parser
      (fun answer final => holds final ∧ last answer final.cursor) fails := by
  refine settles.attempt (fun answer final ⟨kept, ends⟩ =>
    (next answer).settles maintains deeper final ends kept) ?_
  intro error final onward failed
  have reported := Parser.onward_reported first.options.recovery error final
  have stands := (reached.onward onward).onward reported
  rw [leftFails]
  exact .stepped reported
    (rest.settles maintains deeper _ stands (maintains.reported _ _ failed))

/-- Parallel readings part as two parses do. -/
theorem Parallel.parts (reading : Parallel first second rounds enters before after left right)
    (lawful : parting.Lawful first.options.recovery second.options.recovery)
    (leftSettled : ∀ way, first.Settled rounds enters (parting.left way) (parting.leftFails way))
    (rightSettled : ∀ way, second.Settled rounds enters (parting.right way)
      (parting.rightFails way))
    (deeper : ∀ (request : Request) (parser : Parser), enters request parser.cursor →
      parting.same parser → (first.deeper request).Parts parting (second.deeper request) parser
        fun _ => Past rounds parser.cursor.current.span.start)
    (parser : Parser) (stands : before parser.cursor) (start : parting.same parser) :
    left.Parts parting right parser after := by
  induction reading generalizing parser with
  | pure answer implies => exact .inl ⟨rfl, .pure ⟨.refl _, start, implies _ stands⟩⟩
  | step quiet =>
    obtain ⟨steps, ends⟩ := quiet parser stands
    exact .inl ⟨rfl, .lift ⟨steps.onward, lawful.quiet _ _ steps start, ends⟩⟩
  | bind reading next ih ihNext =>
    refine (ih parser stands start).bind (fun answer final holds ends =>
      ihNext answer final ends holds) ?_ ?_
    · exact fun way answer final holds ends =>
        (next answer).settles (lawful.left way) (leftSettled way) final ends holds
    · exact fun way answer final holds ends =>
        (next answer).symm.settles (lawful.right way) (rightSettled way) final ends holds
  | @fail _ _ _ code expected dress keeps family =>
    obtain ⟨sameCode, sameSpan⟩ := keeps (.unexpected code expected parser.cursor.current.tag
      parser.cursor.current.span)
    refine .inl ⟨rfl, Parse.outcome_unexpected.mpr (.throw ⟨.refl _, ?_⟩)⟩
    exact lawful.unexpected _ _ start ((congrArg ErrorCode.category sameCode).trans family)
      sameSpan
  | @report _ code expected dress keeps family =>
    obtain ⟨sameCode, sameSpan⟩ := keeps (.unexpected code expected parser.cursor.current.tag
      parser.cursor.current.span)
    have failed := lawful.unexpected _ _ start
      ((congrArg ErrorCode.category sameCode).trans family) sameSpan
    rcases lawful.reported _ _ failed with ⟨equal, holds⟩ | ⟨way, leftHolds, rightHolds⟩
    · refine .inl ⟨?_, .reported holds stands⟩
      exact congrArg (fun later => ((.ok (), later) : Except ParseError Unit × Parser)) equal
    · exact .inr ⟨way, .reported leftHolds stands, .reported rightHolds stands⟩
  | deeper request begins ends =>
    exact (deeper request parser (begins _ stands) start).imp fun id final past =>
      ends _ _ id stands past
  | loop count state round ih =>
    induction count generalizing state parser with
    | zero => exact .inl ⟨rfl, .pure ⟨.refl _, start, stands⟩⟩
    | succ count again =>
      refine (ih state parser stands start).bind (fun result final holds ends => ?_) ?_ ?_
      · cases result with
        | done state => exact .inl ⟨rfl, .pure ⟨.refl _, holds, ends⟩⟩
        | yield state => exact again state final ends holds
      · exact fun way result final holds ends =>
          (Parallel.nextRound count round result).settles (lawful.left way) (leftSettled way) final
            ends holds
      · exact fun way result final holds ends =>
          (Parallel.nextRound count round result).symm.settles (lawful.right way)
            (rightSettled way) final ends holds
  | attempt floor reached reading next leftFails rightFails rest ih ihNext ihRest =>
    refine (ih parser stands start).attempt (fun answer final holds ends =>
      ihNext answer final ends holds) ?_ ?_ ?_
    · intro error final onward failed
      have recovered := (reached _ stands).onward onward
      have leftOnward := Parser.onward_reported first.options.recovery error final
      have rightOnward := Parser.onward_reported second.options.recovery error final
      have leftStands := recovered.onward leftOnward
      rw [leftFails, rightFails]
      rcases lawful.reported _ _ failed with ⟨equal, holds⟩ | ⟨way, leftHolds, rightHolds⟩
      · exact .stepped leftOnward rfl equal.symm (ihRest _ leftStands holds)
      · refine .inr ⟨way, .stepped leftOnward ?_, .stepped rightOnward ?_⟩
        · exact rest.settles (lawful.left way) (leftSettled way) _ leftStands leftHolds
        · exact rest.symm.settles (lawful.right way) (rightSettled way) _
            (recovered.onward rightOnward) rightHolds
    · exact fun way settles => Parallel.settles_attempt (lawful.left way) (leftSettled way) next
        leftFails rest (reached _ stands) settles
    · exact fun way settles => Parallel.settles_attempt (lawful.right way) (rightSettled way)
        (fun answer => (next answer).symm) rightFails rest.symm (reached _ stands) settles
  | halt answer stops goesOn ih =>
    have rightGoes : (second.shouldHalt parser).1 = false := lawful.goesOn parser start
    cases leftHalts : parser.halts first.options.recovery with
    | false =>
      have leftGoes : (first.shouldHalt parser).1 = false := leftHalts
      refine .stepped (.refl _) rfl rfl ?_
      rw [leftGoes, rightGoes]
      exact ih parser stands start
    | true =>
      obtain ⟨way, leftHolds, rightHolds⟩ := lawful.halts parser start leftHalts
      have leftStops : (first.shouldHalt parser).1 = true := leftHalts
      refine .inr ⟨way, .stepped (.refl _) ?_, .stepped (.refl _) ?_⟩
      · rw [leftStops]
        exact .stepped (isQuiet_skipToEnd parser).onward
          (.pure ⟨.refl _, leftHolds, stops _ stands⟩)
      · rw [rightGoes]
        exact goesOn.symm.settles (lawful.right way) (rightSettled way) parser stands rightHolds
  | imp enough weakens _ ih =>
    exact (ih parser (enough _ stands) start).imp weakens
  | also _ leftHolds rightHolds ih =>
    have leftMore := leftHolds parser stands
    have rightMore := rightHolds parser stands
    rcases ih parser stands start with ⟨same, settles⟩ | ⟨way, leftSettles, rightSettles⟩
    · exact .inl ⟨same, settles.also leftMore⟩
    · exact .inr ⟨way, leftSettles.also leftMore, rightSettles.also rightMore⟩
  | never unreached => exact absurd stands (unreached _)

end Grammar

namespace Parser.Parting.Lawful

open Grammar

variable {Way : Type} {parting : Parting Way} (first second : ParseOptions) (soft : SoftNames)
  {rounds : Nat} (extra : Nat)

/-- Levels of two grammars part as two parses do, if the level that the first one refuses does. -/
theorem descend (lawful : parting.Lawful first.recovery second.recovery)
    (leftRefuses : ∀ way (parser : Parser), parting.left way parser →
      parting.leftFails way (parser.refusal first.maxDepth) parser.skipped)
    (rightSettled : ∀ way levels, (level second soft rounds levels).Settled rounds
      (anywhere rounds levels) (parting.right way) (parting.rightFails way))
    (refuses : ∀ (request : Request) (parser : Parser), parser.cursor.Reaches rounds 0 →
      parting.same parser → (refuse first.maxDepth).Parts parting
        (Grammar.descend second soft rounds extra request) parser
        fun _ => Past rounds parser.cursor.current.span.start)
    (levels : Nat) (request : Request) (parser : Parser) (stands : parser.cursor.Reaches rounds 0)
    (start : parting.same parser) :
    (Grammar.descend first soft rounds levels request).Parts parting
      (Grammar.descend second soft rounds (levels + extra) request) parser
      fun _ => Past rounds parser.cursor.current.span.start := by
  induction levels generalizing request parser with
  | zero =>
    rw [Nat.zero_add]
    exact refuses request parser stands start
  | succ levels ih =>
    have leftSettled : ∀ way, (level first soft rounds levels).Settled rounds
        (anywhere rounds levels) (parting.left way) (parting.leftFails way) := fun way =>
      (lawful.left way).settled first soft (ladder_anywhere rounds)
        (fun _ parser _ holds => leftRefuses way parser holds) levels
    rw [Nat.succ_add, descend_succ, descend_succ]
    have entered : anywhere rounds (levels + 1) request parser.cursor := stands
    exact ((ladder_anywhere rounds).parallel first second levels (levels + extra) entered).parts
      lawful leftSettled (fun way => rightSettled way (levels + extra)) ih parser
      stands.here start

/-- Two parses of a text give the same, or they part. -/
theorem program (lawful : parting.Lawful first.recovery second.recovery)
    (leftRefuses : ∀ way (parser : Parser), parting.left way parser →
      parting.leftFails way (parser.refusal first.maxDepth) parser.skipped)
    (rightSettled : ∀ way levels, (level second soft rounds levels).Settled rounds
      (anywhere rounds levels) (parting.right way) (parting.rightFails way))
    (refuses : ∀ (request : Request) (parser : Parser), parser.cursor.Reaches rounds 0 →
      parting.same parser → (refuse first.maxDepth).Parts parting
        (Grammar.descend second soft rounds extra request) parser
        fun _ => Past rounds parser.cursor.current.span.start)
    (deeper : second.maxDepth = first.maxDepth + extra) {parser : Parser}
    (stands : parser.cursor.Reaches rounds 0) (start : parting.same parser) :
    ((outermost first soft rounds).program parser = (outermost second soft rounds).program parser ∧
      parting.same ((outermost first soft rounds).program parser).2) ∨
    ∃ way, parting.left way ((outermost first soft rounds).program parser).2 ∧
      parting.right way ((outermost second soft rounds).program parser).2 := by
  -- The node of the program is added to what the statements gave.
  have ends : ∀ grammar : Grammar, grammar.program parser = Build.addNode
      (.program (grammar.body .empty parser).1)
      ⟨0, (grammar.body .empty parser).2.cursor.lexer.length⟩ (grammar.body .empty parser).2 :=
    fun _ => rfl
  have quiet : ∀ grammar : Grammar, (grammar.body .empty parser).2.Quiet
      (grammar.program parser).2 := fun _ => ⟨.refl _, rfl, rfl⟩
  have leftSettled : ∀ way, (level first soft rounds first.maxDepth).Settled rounds
      (anywhere rounds first.maxDepth) (parting.left way) (parting.leftFails way) := fun way =>
    (lawful.left way).settled first soft (ladder_anywhere rounds)
      (fun _ parser _ holds => leftRefuses way parser holds) _
  have parts := (parallel_body first second first.maxDepth (first.maxDepth + extra)
    fun _ _ stands => stands).parts lawful leftSettled
    (fun way => rightSettled way (first.maxDepth + extra))
    (lawful.descend first second soft extra leftRefuses rightSettled refuses first.maxDepth)
    parser stands start
  rw [outermost_eq, outermost_eq, deeper]
  rcases parts with ⟨equal, settles⟩ | ⟨way, leftSettles, rightSettles⟩
  · rw [Parse.run_lift, Parse.run_lift] at equal
    obtain ⟨answers, states⟩ := Prod.mk.inj equal
    have bodies := Prod.ext (Except.ok.inj answers) states
    refine .inl ⟨?_, lawful.quiet _ _ (quiet _) settles.2.1⟩
    rw [ends, ends, bodies]
  · exact .inr ⟨way, (lawful.left way).quiet _ _ (quiet _) leftSettles.2.1,
      (lawful.right way).quiet _ _ (quiet _) rightSettles.2.1⟩

end Parser.Parting.Lawful

end Vibescript
