import Vibescript.Proofs.Parser.Mirroring

/-!
# Bodies of two spellings of a text

The statements of a body of a text mirror those of the same body of the respelled text. A statement
may pause: what one parse reads as one statement, the other reads as two. So the rounds of the two
loops are not counted together. Each loop goes on as long as tokens are left, and before a statement
it claims whatever directives wait.
-/
namespace Vibescript

open Build Parse Grammar

section

variable {α : Type} {step : α → Build (ForInStep α)} {state next : α} {before after : Parser}

/-- A round of a loop that goes on. -/
theorem Build.run_yield (round : step state before = (.yield next, after)) (count : Nat) :
    repeatWithin step (count + 1) state before = repeatWithin step count next after := by
  rw [repeatWithin, run_bind, round]

/-- A round that ends a loop. -/
theorem Build.run_done (round : step state before = (.done next, after)) (count : Nat) :
    repeatWithin step (count + 1) state before = (next, after) := by
  rw [repeatWithin, run_bind, round]
  rfl

end

namespace Grammar

variable {source : String} {soft : SoftNames} {rounds count : Nat} {grammar : Grammar}
  {condition : ParseError → Prop} {terminators : TagSet} {ids : Array NodeId} {id : NodeId}
  {parser after : Parser} {left : List (Token String)}

section

variable {α : Type} {reading : Parse NodeId} {skip : Cursor → α × Cursor}

/-- A construct that is read. -/
theorem attemptStep_ok (ran : reading.run parser = (.ok id, after)) :
    grammar.attemptStep reading skip ids parser = (.yield (ids.push id), after) := by
  rw [attemptStep_eq, ran]
  rfl

/-- A construct that fails is reported. -/
theorem attemptStep_fails (fails : Fails condition (reading.run parser)) :
    (grammar.attemptStep reading skip ids parser).2.Errs condition := by
  rw [attemptStep_eq]
  generalize reading.run parser = outcome at fails
  obtain ⟨result, failed⟩ := outcome
  cases result with
  | ok id =>
    cases fails with
    | reported errs => exact errs
  | error error =>
    have reported := fails.report rfl grammar
    have rest : Build.Accumulates (do
        let _ ← onCursor skip
        return ForInStep.yield (ids.push (← abandon parser.checkpoint))) fun _ => True :=
      .bind (.onCursor _) fun _ _ => .bind (.quiet (isQuiet_abandon _)) fun _ _ => .pure trivial
    exact reported.accumulates rest

end

/-- A parser that recovers from errors and is not halted goes on. -/
theorem shouldHalt_eq (recovers : grammar.options.recovery = .recover)
    (goesOn : parser.isHalted = false) : grammar.shouldHalt parser = (false, parser) := by
  show ((parser.isHalted || (grammar.options.recovery == .failFast && _)), parser) = _
  rw [goesOn, recovers]
  rfl

/-- A round of a body claims the first directive that waits. -/
theorem bodyStep_directive (goesOn : grammar.shouldHalt parser = (false, parser))
    {mark : Token Name} (claimed : parser.cursor.takeDirective.1 = some mark) :
    grammar.bodyStep terminators ids parser =
      (.yield (ids.push (directive mark (parser.withCursor parser.cursor.takeDirective.2)).1),
        (directive mark (parser.withCursor parser.cursor.takeDirective.2)).2) := by
  have takes : onCursor Cursor.takeDirective parser =
    (some mark, parser.withCursor parser.cursor.takeDirective.2) := Prod.ext claimed rfl
  rw [bodyStep, run_bind, goesOn]
  show (onCursor Cursor.takeDirective >>= _ : Build (ForInStep (Array NodeId))) parser = _
  rw [run_bind, takes]
  rfl

/-- Where no directive waits, a round of a body ends the body or reads a statement. -/
theorem bodyStep_statement (goesOn : grammar.shouldHalt parser = (false, parser))
    (none : parser.cursor.takeDirective = (none, parser.cursor)) :
    grammar.bodyStep terminators ids parser =
      if parser.cursor.current.tag == .endOfInput || terminators.contains parser.cursor.current.tag
      then (.done ids, parser)
      else grammar.statementStep ids parser := by
  have takes : onCursor Cursor.takeDirective parser = (.none, parser) := by
    show (parser.cursor.takeDirective.1, parser.withCursor parser.cursor.takeDirective.2) = _
    rw [none]
    rfl
  rw [bodyStep, run_bind, goesOn]
  show (onCursor Cursor.takeDirective >>= _ : Build (ForInStep (Array NodeId))) parser = _
  rw [run_bind, takes]
  show (if (parser.cursor.current.tag == .endOfInput ||
    terminators.contains parser.cursor.current.tag) = true then _ else _ :
      Build (ForInStep (Array NodeId))) parser = _
  split
  · rfl
  · rfl

/-- The directives that wait before a statement are claimed. -/
theorem exists_claimed (grammar : Grammar) (unspoilt : parser.Unspoilt source soft rounds left)
    (enough : parser.cursor.Reaches count 0) (terminators : TagSet) (ids : Array NodeId) :
    ∃ fewer ≤ count, ∃ (others : Array NodeId) (later : Parser),
      repeatWithin (grammar.bodyStep terminators) count ids parser =
        repeatWithin (grammar.bodyStep terminators) fewer others later ∧
      later.Unspoilt source soft rounds left ∧ later.cursor.Reaches fewer 0 ∧
      later.cursor.takeDirective = (none, later.cursor) := by
  induction count generalizing parser ids with
  | zero =>
    obtain ⟨_, _, _, bound⟩ := enough.pending
    exact absurd bound (Nat.not_lt_zero _)
  | succ count ih =>
    obtain ⟨tokens, pending, _⟩ := enough.pending
    rcases Cursor.moves_takeDirective pending with ⟨none, _⟩ | ⟨mark, rest, claimed, _, moves⟩
    · exact ⟨count + 1, Nat.le_refl _, ids, parser, rfl, unspoilt, enough, none⟩
    · have counted := moves.position
      rw [List.length_singleton] at counted
      have fewer : parser.cursor.takeDirective.2.Reaches count 0 :=
        enough.fewer_of_lt parser.cursor.onward_takeDirective (by omega)
      obtain ⟨names, arena, interns, _, same⟩ :=
        isStill_directive mark (parser.withCursor parser.cursor.takeDirective.2)
      have claims := unspoilt.takeDirective.withTables interns arena
      have reaches := fewer.looks fun tokens => Parser.Unspoilt.looks_interns interns tokens
      obtain ⟨less, le, others, later, whole, rest⟩ := ih claims reaches
        (ids.push (directive mark (parser.withCursor parser.cursor.takeDirective.2)).1)
      refine ⟨less, Nat.le_succ_of_le le, others, later, ?_, rest⟩
      rw [run_yield (bodyStep_directive (unspoilt.shouldHalt grammar) claimed), same]
      exact whole

/-- A statement that succeeds has consumed a token. -/
def Proceeds (grammar : Grammar) (rounds : Nat) : Prop :=
  ∀ parser : Parser, parser.cursor.Reaches rounds 0 →
    (grammar.deeper .statement).Outcome parser
      (fun _ after => parser.cursor.Onward after.cursor ∧
        parser.cursor.position < after.cursor.position)
      fun _ _ => True

/-- At every level, statements consume tokens. -/
theorem proceeds_level (options : ParseOptions) (soft : SoftNames) (rounds levels : Nat) :
    (level options soft rounds levels).Proceeds rounds := by
  intro parser stands
  have settled := (Parser.maintains_nothing options.recovery).settled options soft
    (ladder_anywhere rounds) (fun _ _ _ _ => trivial) levels .statement parser stands trivial
  refine Parse.Outcome.mono settled (fun _ after holds => ?_) fun _ _ _ => trivial
  exact ⟨holds.1, stands.position_lt holds.1 holds.2.2⟩

/-- After a statement that succeeded, one round less is needed. -/
theorem Proceeds.reaches (proceeds : grammar.Proceeds rounds)
    (unspoilt : parser.Unspoilt source soft rounds left)
    (enough : parser.cursor.Reaches (count + 1) 0)
    (ran : (grammar.deeper .statement).run parser = (.ok id, after)) :
    after.cursor.Reaches count 0 := by
  have outcome := proceeds parser unspoilt.reaches
  rw [Parse.Outcome, Build.Outcome, ran] at outcome
  exact enough.fewer_of_lt outcome.1 outcome.2

/-- A statement that succeeds is a round of a body. -/
theorem run_statement (unspoilt : parser.Unspoilt source soft rounds left)
    (none : parser.cursor.takeDirective = (none, parser.cursor))
    (goesOn : ¬(parser.cursor.current.tag == .endOfInput ||
      terminators.contains parser.cursor.current.tag) = true)
    (ran : (grammar.deeper .statement).run parser = (.ok id, after)) :
    repeatWithin (grammar.bodyStep terminators) (count + 1) ids parser =
      repeatWithin (grammar.bodyStep terminators) count (ids.push id) after := by
  refine run_yield ?_ count
  rw [bodyStep_statement (unspoilt.shouldHalt _) none, if_neg goesOn]
  exact attemptStep_ok ran

/-- When a statement fails, so does the body. -/
theorem Upholds.body_fails (piles : grammar.Piles)
    (unspoilt : parser.Unspoilt source soft rounds left)
    (none : parser.cursor.takeDirective = (none, parser.cursor))
    (goesOn : ¬(parser.cursor.current.tag == .endOfInput ||
      terminators.contains parser.cursor.current.tag) = true)
    (fails : Fails condition ((grammar.deeper .statement).run parser)) :
    (repeatWithin (grammar.bodyStep terminators) (count + 1) ids parser).2.Errs condition := by
  have errs : (grammar.bodyStep terminators ids parser).2.Errs condition := by
    rw [bodyStep_statement (unspoilt.shouldHalt _) none, if_neg goesOn]
    exact attemptStep_fails fails
  rw [repeatWithin, run_bind]
  generalize grammar.bodyStep terminators ids parser = round at errs
  obtain ⟨result, later⟩ := round
  cases result with
  | done ids => exact errs
  | yield ids =>
    have adds : Build.Accumulates (repeatWithin (grammar.bodyStep terminators) count ids)
        fun _ => True :=
      .repeatWithin (fun state _ => piles.bodyStep terminators state) count trivial
    exact errs.accumulates adds

/-- The statement of the respelled text goes on where one of the text ends: it mirrors the next
statement as well, which starts at a token that goes on with an expression. -/
structure Pauses (source : String) (cuts : ParseError → Prop) (first second : Grammar)
    (rounds : Nat) (left : Except ParseError NodeId × Parser) (id : NodeId) (after : Parser)
    (there : List (Token String)) : Prop where
  /-- The first of the two statements is read. -/
  unspoilt : after.Unspoilt source second.soft rounds there
  /-- The second starts at a token that goes on with an expression. -/
  continues : Lookahead.continuesExpression (TokenKind.tagAt (there.map Token.kind) 0) = true
  /-- It mirrors the statement of the respelled text. -/
  mirrored : ∀ later : Parser, later.Unspoilt source second.soft rounds there →
    Mirrored (Parser.Tracks source first.soft second.soft rounds) cuts (fun _ _ => True) left
      ((second.deeper .statement).run later)

/-- From parsers that track each other, the outcomes of two statements mirror each other, or the
first goes on where the second pauses. -/
def StatementsMirror (source : String) (cuts : ParseError → Prop) (first second : Grammar)
    (rounds : Nat) (left right : Parse NodeId) : Prop :=
  ∀ here there : Parser, Parser.Tracks source first.soft second.soft rounds here there →
    Mirrored (Parser.Tracks source first.soft second.soft rounds) cuts (fun _ _ => True)
        (left.run here) (right.run there) ∨
      ∃ id after left', right.run there = (.ok id, after) ∧
        Pauses source cuts first second rounds (left.run here) id after left'

/-- A token that goes on with an expression closes or divides no body. -/
theorem not_closes (closes : terminators.union .bodyEnd = .bodyEnd) {tag : Tag}
    (continues : Lookahead.continuesExpression tag = true) :
    ¬(tag == .endOfInput || terminators.contains tag) = true := by
  have outside : TagSet.bodyEnd.contains tag = false ∧ tag ≠ .endOfInput := by
    revert continues
    cases tag <;> decide
  have union := congrArg (TagSet.contains · tag) closes
  simp only [TagSet.contains_union, outside.1, Bool.or_false] at union
  simp [union, outside.2]

variable {cuts : ParseError → Prop} {first second : Grammar}

/-- Bodies that begin with statements that mirror each other do so, if what follows them does. -/
theorem mirrored_begun (firstPiles : first.Piles) (secondPiles : second.Piles) {fewer less : Nat}
    {others : Array NodeId} {here there : Parser} {lefts rights : List (Token String)}
    (unspoilt : here.Unspoilt (respell source) first.soft rounds lefts)
    (unspoiltOther : there.Unspoilt source second.soft rounds rights)
    (none : here.cursor.takeDirective = (none, here.cursor))
    (noneOther : there.cursor.takeDirective = (.none, there.cursor))
    (goesOn : ¬(here.cursor.current.tag == .endOfInput ||
      terminators.contains here.cursor.current.tag) = true)
    (goesOnOther : ¬(there.cursor.current.tag == .endOfInput ||
      terminators.contains there.cursor.current.tag) = true)
    (mirrored : Mirrored (Parser.Tracks source first.soft second.soft rounds) cuts (fun _ _ => True)
      ((first.deeper .statement).run here) ((second.deeper .statement).run there))
    (rest : ∀ (id other : NodeId) (after later : Parser),
      (first.deeper .statement).run here = (.ok id, after) →
      (second.deeper .statement).run there = (.ok other, later) →
      Parser.Tracks source first.soft second.soft rounds after later →
      Mirrored (α := Array NodeId) (β := Array NodeId)
        (Parser.Tracks source first.soft second.soft rounds) cuts (fun _ _ => True)
        (.ok (repeatWithin (first.bodyStep terminators) fewer (ids.push id) after).1,
          (repeatWithin (first.bodyStep terminators) fewer (ids.push id) after).2)
        (.ok (repeatWithin (second.bodyStep terminators) less (others.push other) later).1,
          (repeatWithin (second.bodyStep terminators) less (others.push other) later).2)) :
    Mirrored (α := Array NodeId) (β := Array NodeId)
      (Parser.Tracks source first.soft second.soft rounds) cuts (fun _ _ => True)
      (.ok (repeatWithin (first.bodyStep terminators) (fewer + 1) ids here).1,
        (repeatWithin (first.bodyStep terminators) (fewer + 1) ids here).2)
      (.ok (repeatWithin (second.bodyStep terminators) (less + 1) others there).1,
        (repeatWithin (second.bodyStep terminators) (less + 1) others there).2) := by
  generalize ran : (first.deeper .statement).run here = outcome at mirrored rest
  generalize ranOther : (second.deeper .statement).run there = outcomeOther at mirrored rest
  cases mirrored with
  | refused fails =>
    exact .refused (.reported (firstPiles.body_fails unspoilt none goesOn (ran ▸ fails)))
  | cut fails =>
    exact .cut (.reported (secondPiles.body_fails unspoiltOther noneOther goesOnOther
      (ranOther ▸ fails)))
  | same _ kept =>
    rw [run_statement unspoilt none goesOn ran,
      run_statement unspoiltOther noneOther goesOnOther ranOther]
    exact rest _ _ _ _ rfl rfl kept

/-- The loops over the statements of two bodies mirror each other. -/
theorem mirrored_statements (firstPiles : first.Piles) (secondPiles : second.Piles)
    (firstProceeds : first.Proceeds rounds) (secondProceeds : second.Proceeds rounds)
    (statement : StatementsMirror source cuts first second rounds (first.deeper .statement)
      (second.deeper .statement))
    (closes : terminators.union .bodyEnd = .bodyEnd) (count : Nat) :
    ∀ (more : Nat) (ids others : Array NodeId) (here there : Parser),
      Parser.Tracks source first.soft second.soft rounds here there →
      here.cursor.Reaches count 0 → there.cursor.Reaches more 0 →
      Mirrored (α := Array NodeId) (β := Array NodeId)
        (Parser.Tracks source first.soft second.soft rounds) cuts (fun _ _ => True)
        (.ok (repeatWithin (first.bodyStep terminators) count ids here).1,
          (repeatWithin (first.bodyStep terminators) count ids here).2)
        (.ok (repeatWithin (second.bodyStep terminators) more others there).1,
          (repeatWithin (second.bodyStep terminators) more others there).2) := by
  induction count using Nat.strong_induction_on with
  | _ count ih =>
  intro more ids others here there ⟨lefts, rights, unspoilt, unspoiltOther, respells⟩ enough
    enoughOther
  -- Both loops claim the directives that wait.
  obtain ⟨fewer, le, ids, here, same, unspoilt, enough, none⟩ :=
    exists_claimed first unspoilt enough terminators ids
  obtain ⟨less, _, others, there, sameOther, unspoiltOther, enoughOther, noneOther⟩ :=
    exists_claimed second unspoiltOther enoughOther terminators others
  rw [same, sameOther]
  have kept : Parser.Tracks source first.soft second.soft rounds here there :=
    ⟨_, _, unspoilt, unspoiltOther, respells⟩
  have rounds (count : Nat) {cursor : Cursor} (enough : cursor.Reaches count 0) :
      ∃ less, count = less + 1 := by
    obtain ⟨_, _, _, bound⟩ := enough.pending
    exact ⟨count - 1, by omega⟩
  obtain ⟨fewer, rfl⟩ := rounds fewer enough
  obtain ⟨less, rfl⟩ := rounds less enoughOther
  by_cases stops : (here.cursor.current.tag == .endOfInput ||
    terminators.contains here.cursor.current.tag) = true
  · have stopsOther := kept.tag ▸ stops
    have ends : first.bodyStep terminators ids here = (.done ids, here) := by
      rw [bodyStep_statement (unspoilt.shouldHalt _) none, if_pos stops]
    have endsOther : second.bodyStep terminators others there = (.done others, there) := by
      rw [bodyStep_statement (unspoiltOther.shouldHalt _) noneOther, if_pos stopsOther]
    rw [run_done ends, run_done endsOther]
    exact .same trivial kept
  · have goesOn := kept.tag ▸ stops
    rcases statement here there kept with mirrored | ⟨id, after, left, ran, pauses⟩
    · exact mirrored_begun firstPiles secondPiles unspoilt unspoiltOther none noneOther stops goesOn
        mirrored fun id other after later ran ranOther kept =>
          ih fewer (by omega) less _ _ _ _ kept (firstProceeds.reaches unspoilt enough ran)
            (secondProceeds.reaches unspoiltOther enoughOther ranOther)
    · -- The second loop goes on alone with one more statement.
      rw [run_statement unspoiltOther noneOther goesOn ran]
      have enoughAfter := secondProceeds.reaches unspoiltOther enoughOther ran
      obtain ⟨last, _, others, later, sameLater, unspoiltLater, enoughLater, noneLater⟩ :=
        exists_claimed second pauses.unspoilt enoughAfter terminators (others.push id)
      rw [sameLater]
      obtain ⟨last, rfl⟩ := rounds last enoughLater
      have continues := pauses.continues
      rw [← unspoiltLater.sees.tag] at continues
      have goesOnLater := not_closes closes continues
      exact mirrored_begun firstPiles secondPiles unspoilt unspoiltLater none noneLater stops
        goesOnLater (pauses.mirrored later unspoiltLater) fun id other after last ran ranLater kept =>
          ih fewer (by omega) _ _ _ _ _ kept (firstProceeds.reaches unspoilt enough ran)
            (secondProceeds.reaches unspoiltLater enoughLater ranLater)

end Grammar

end Vibescript
