import Vibescript.Proofs.Parser.Placement
import Vibescript.Proofs.Parser.Fidelity
import Vibescript.Proofs.Parser.FailFast
import Vibescript.Proofs.Parser.Termination
import Vibescript.Proofs.Parser.Coverage

/-!
# The statements of a program

A program is what the loop over its statements collects. However many rounds more than needed the
loop and the loops in its statements have, it collects the same; and where a text has no errors,
neither tokens nor directives are left after it.
-/
namespace Vibescript

open Build Parse Grammar

namespace Grammar

variable (options : ParseOptions) (soft : SoftNames) {rounds more fewer count bound : Nat}
  {parser : Parser}

/-- A loop over statements is the same with more rounds, also when the loops in the statements have
more rounds. -/
theorem statements_steady (calm : parser.Calm rounds) (enough : rounds ≤ more)
    (enoughToo : rounds ≤ fewer) (countEnough : rounds ≤ count) (boundEnough : rounds ≤ bound) :
    repeatWithin ((outermost options soft more).bodyStep .empty) count #[] parser =
      repeatWithin ((outermost options soft fewer).bodyStep .empty) bound #[] parser := by
  have twins : Twins (outermost options soft more) (outermost options soft fewer) rounds :=
    twins_of_steady options soft enough enoughToo options.maxDepth
      (steady_descend options soft enough enoughToo options.maxDepth)
  have steady : Steady rounds (fun _ => True) (fun _ => False)
      (liftM (repeatWithin ((outermost options soft more).bodyStep .empty) count #[]))
      (liftM (repeatWithin ((outermost options soft fewer).bodyStep .empty) bound #[])) := by
    rw [liftM_repeatWithin, liftM_repeatWithin]
    exact .loop countEnough boundEnough (twins.bodyStep .empty)
  obtain ⟨same, _⟩ := steady parser calm trivial
  rw [run_lift, run_lift] at same
  obtain ⟨answers, states⟩ := Prod.mk.inj same
  exact Prod.ext (Except.ok.inj answers) states

/-- What a round gives when statements were collected before. -/
def collected (earlier : Array NodeId) : ForInStep (Array NodeId) → ForInStep (Array NodeId)
  | .done ids => .done (earlier ++ ids)
  | .yield ids => .yield (earlier ++ ids)

section

variable (grammar : Grammar) (terminators : TagSet) (earlier statements : Array NodeId)

/-- A round over statements adds to those that were collected before. -/
theorem bodyStep_append (parser : Parser) :
    grammar.bodyStep terminators (earlier ++ statements) parser =
      (collected earlier (grammar.bodyStep terminators statements parser).1,
        (grammar.bodyStep terminators statements parser).2) := by
  rw [bodyStep, bodyStep, run_bind, run_bind]
  obtain ⟨⟨halts, here⟩, asked⟩ : ∃ outcome, grammar.shouldHalt parser = outcome := ⟨_, rfl⟩
  rw [asked]
  cases halts with
  | true => rfl
  | false =>
    dsimp only
    rw [if_neg Bool.false_ne_true, if_neg Bool.false_ne_true, run_bind, run_bind]
    obtain ⟨⟨claimed, there⟩, claims⟩ : ∃ outcome, onCursor Cursor.takeDirective here = outcome :=
      ⟨_, rfl⟩
    rw [claims]
    cases claimed with
    | some mark => 
      show (ForInStep.yield ((earlier ++ statements).push _), _) = _
      rw [← Array.append_push]
      rfl
    | none =>
      dsimp only
      rw [run_bind, run_bind]
      split
      · rfl
      · rw [run_bind, run_bind, run_bind, run_bind]
        obtain ⟨⟨answer, middle⟩, ran⟩ : ∃ outcome, (grammar.deeper .statement).run
            (checkpoint (currentTag there).2).2 = outcome := ⟨_, rfl⟩
        rw [ran]
        cases answer <;>
        · show (ForInStep.yield ((earlier ++ statements).push _), _) = _
          rw [← Array.append_push]
          rfl

/-- So do rounds over statements. -/
theorem statements_append (count : Nat) (parser : Parser) :
    repeatWithin (grammar.bodyStep terminators) count (earlier ++ statements) parser =
      (earlier ++ (repeatWithin (grammar.bodyStep terminators) count statements parser).1,
        (repeatWithin (grammar.bodyStep terminators) count statements parser).2) := by
  induction count generalizing statements parser with
  | zero => rfl
  | succ count ih =>
    have round := bodyStep_append grammar terminators earlier statements parser
    generalize alone : grammar.bodyStep terminators statements parser = outcome at round
    obtain ⟨result, after⟩ := outcome
    cases result with
    | done ids => rw [Build.run_done round, Build.run_done alone]
    | yield ids => rw [Build.run_yield round, Build.run_yield alone, ih]

end

/-- A program lists the statements that were collected. -/
theorem program_eq {grammar : Grammar} {ids : Array NodeId} {after : Parser}
    (ran : repeatWithin (grammar.bodyStep .empty) grammar.rounds #[] parser = (ids, after)) :
    grammar.program parser =
      (((after.arena.addList ids.toList).2.add (.program (after.arena.addList ids.toList).1)
          ⟨0, after.cursor.lexer.length⟩).1,
        after.withArena ((after.arena.addList ids.toList).2.add
          (.program (after.arena.addList ids.toList).1) ⟨0, after.cursor.lexer.length⟩).2) := by
  have runs : grammar.program parser =
      (do
        let body ← Build.addList (grammar.loop #[] (grammar.bodyStep .empty) parser).1
        Build.addNode (.program body) ⟨0, (← Build.cursor).lexer.length⟩ : Build NodeId)
      (grammar.loop #[] (grammar.bodyStep .empty) parser).2 := rfl
  rw [runs, Grammar.loop, ran]
  rfl

end Grammar

namespace Parser

variable {options : ParseOptions} {source : String} {ids : Array NodeId} {after : Parser}
  {rounds : Nat}

/-- Some statements are those of the program of a source text. -/
structure Lists (options : ParseOptions) (source : String) (ids : Array NodeId)
    (after : Parser) : Prop where
  /-- They are listed. -/
  statements : (parseWith options source).tree.statements = ids.toList
  /-- No error is reported after them. -/
  errors : (Parser.run options source).2.errors = after.errors
  /-- Only the program is added after them. -/
  grows : after.forest.Grows (Parser.run options source).2.forest

/-- What the loop over the statements collects is the program. -/
theorem lists_of_run (enough : Parser.rounds source ≤ rounds)
    (ran : repeatWithin ((outermost options (Parser.start source).1 rounds).bodyStep .empty) rounds
      #[] (Parser.start source).2 = (ids, after)) : Lists options source ids after := by
  have calm := (begins_start source).calm
  have same := (program_steady options (Parser.start source).1 (Nat.le_refl _) enough calm).1
  have program := @program_eq _ (outermost options (Parser.start source).1 rounds) _ _ ran
  have isRun := (run_eq options source).trans (same.trans program)
  have listed := after.arena.grows_addList ids.toList
  have grows := listed.trans ((after.arena.addList ids.toList).2.grows_add
    (.program (after.arena.addList ids.toList).1) ⟨0, after.cursor.lexer.length⟩)
  refine ⟨?_, ?_, ?_⟩
  · rw [parseWith_eq, tree_finish, isRun]
    exact (SyntaxTree.statements_add (after.arena.contains_addList ids.toList) _ _).trans
      (after.arena.list_addList ids.toList)
  · rw [isRun]
    rfl
  · rw [isRun]
    exact ⟨grows, .refl _, id⟩

/-- A source text without errors is read by the loop over its statements. -/
structure ReadsStatements (options : ParseOptions) (source : String) (rounds : Nat)
    (ids : Array NodeId) (after : Parser) : Prop extends Lists options source ids after where
  /-- The loop collects them. -/
  ran : repeatWithin ((outermost options (Parser.start source).1 rounds).bodyStep .empty)
    (Parser.rounds source) #[] (Parser.start source).2 = (ids, after)
  /-- No error is reported. -/
  clean : after.errors = #[]
  /-- Neither tokens nor directives are left. -/
  idle : ¬after.cursor.Busy

/-- The parts of a parse without errors. -/
theorem clean_iff : (parseWith options source).errors = [] ↔
    Piece.faults source.toList = [] ∧ (Parser.run options source).2.errors = #[] := by
  rw [parseWith_eq, errors_finish, ← (meets_run options source).1, Array.toList_eq_nil_iff]

/-- Without damage, neither tokens nor directives are left after the statements of a source text. -/
theorem Begins.idle {soft : SoftNames} {start : Parser} (begins : Begins source soft start)
    (options : ParseOptions) :
    Build.Outcome (repeatWithin ((outermost options soft (Parser.rounds source)).bodyStep .empty)
      (Parser.rounds source) #[]) start fun _ after =>
        ¬after.forest.isDamaged → ¬after.cursor.Busy := by
  have deepens := deepens_descend options soft (Parser.rounds source) options.maxDepth
  refine ((Run.refl begins.ready).statements deepens .empty).mono
    fun _ after ⟨_, rest, run, ends⟩ undamaged busy => ?_
  obtain ⟨whole, atEnd | terminated⟩ := ends.resolve_left undamaged
  · exact busy.ne_nil run.passes.moves.pending (whole atEnd)
  · rw [TagSet.contains_empty] at terminated
    contradiction

/-- A source text without errors is read to its end. -/
theorem exists_readsStatements (clean : (parseWith options source).errors = [])
    (enough : Parser.rounds source ≤ rounds) :
    ∃ ids after, ReadsStatements options source rounds ids after := by
  obtain ⟨faults, noErrors⟩ := clean_iff.mp clean
  have begins := begins_start source
  have steady := statements_steady options (Parser.start source).1 begins.calm enough
    (Nat.le_refl _) (Nat.le_refl _) (Nat.le_refl _)
  have idle := begins.idle options
  rw [Build.Outcome] at idle
  obtain ⟨⟨ids, after⟩, ran⟩ : ∃ outcome, repeatWithin ((outermost options (Parser.start source).1
      (Parser.rounds source)).bodyStep .empty) (Parser.rounds source) #[] (Parser.start source).2 =
        outcome := ⟨_, rfl⟩
  rw [ran] at steady idle
  have lists := lists_of_run (Nat.le_refl _) ran
  refine ⟨ids, after, lists, steady, lists.errors ▸ noErrors, idle fun damaged => ?_⟩
  rcases lists.grows.damage damaged with errors | lexical
  · exact errors noErrors
  · rw [← (meets_run options source).1, Array.toList_eq_nil_iff] at faults
    exact lexical faults

/-- The tokens of a source text without errors do not end with one that expects another. -/
theorem rests_sourceTokens (clean : (parseWith options source).errors = []) :
    Token.Rests (sourceTokens source) := by
  obtain ⟨faults, noErrors⟩ := clean_iff.mp clean
  obtain ⟨body, below, taken, rest, reads⟩ := reads_run options source
  have undamaged : ¬(Parser.run options source).2.forest.isDamaged := by
    rintro (errors | lexical)
    · exact errors noErrors
    · rw [← (meets_run options source).1, Array.toList_eq_nil_iff] at faults
      exact lexical faults
  have consumes := reads.consumes
  rw [reads.whole undamaged] at consumes
  exact consumes.rests (reads.spells.rests undamaged rfl)

end Parser

namespace Grammar

variable {grammar : Grammar} {here middle after : Parser} {statements ids : Array NodeId}
  {result : ForInStep (Array NodeId)} (recovers : grammar.options.recovery = .recover)
  (tame : (grammar.deeper .statement).Tame)
  (starts : (grammar.deeper .statement).Refuses Cursor.Strays)

include recovers tame starts

/-- A round without errors that begins where no statement starts claims a directive. -/
theorem claims_of_strays (goesOn : here.isHalted = false) (notEnd : here.cursor.isAtEnd = false)
    (strays : here.cursor.Strays)
    (ran : grammar.bodyStep .empty statements here = (result, middle))
    (clean : middle.errors = #[]) :
    (∃ next, result = .yield next) ∧ middle.cursor.current = here.cursor.current ∧
      middle.isHalted = false := by
  have halts := shouldHalt_eq recovers goesOn
  cases waits : here.cursor.takeDirective.1 with
  | some mark =>
    rw [bodyStep_directive halts waits] at ran
    obtain ⟨rfl, rfl⟩ := Prod.mk.inj ran
    obtain ⟨names, arena, _, _, same⟩ :=
      isStill_directive mark (here.withCursor here.cursor.takeDirective.2)
    rw [same]
    exact ⟨⟨_, rfl⟩, here.cursor.current_takeDirective, goesOn⟩
  | none =>
    rw [bodyStep_statement halts (Cursor.takeDirective_of_none waits), if_neg] at ran
    · have refuses := @Refuses.attemptStep _ grammar _ _ statements _ tame starts
        (fun cursor => cursor.onward_synchronize .statementBoundary)
      exact (refuses here result middle goesOn strays (gives_lift.mpr ⟨ran, clean⟩)).elim
    · rw [TagSet.contains_empty, Bool.or_false]
      exact Bool.eq_false_iff.mp notEnd

/-- Where statements are read to the end of the text without errors, one starts or the text ends. -/
theorem startsStatement_of_run {count : Nat} (goesOn : here.isHalted = false)
    (ran : repeatWithin (grammar.bodyStep .empty) count statements here = (ids, after))
    (clean : after.errors = #[]) (idle : ¬after.cursor.Busy) :
    here.cursor.current.tag = .endOfInput ∨ here.cursor.current.tag.startsStatement = true := by
  by_contra neither
  rw [not_or, Bool.not_eq_true] at neither
  obtain ⟨other, strays⟩ := neither
  induction count generalizing here statements with
  | zero =>
    obtain ⟨_, rfl⟩ := Prod.mk.inj ran
    exact idle (.inl (beq_eq_false_iff_ne.mpr other))
  | succ count ih =>
    have notEnd : here.cursor.isAtEnd = false := beq_eq_false_iff_ne.mpr other
    generalize round : grammar.bodyStep .empty statements here = outcome at *
    obtain ⟨result, middle⟩ := outcome
    have claims := claims_of_strays recovers tame starts goesOn notEnd strays round
    cases result with
    | done ended =>
      rw [Build.run_done round] at ran
      obtain ⟨_, rfl⟩ := Prod.mk.inj ran
      obtain ⟨⟨_, same⟩, _⟩ := claims clean
      contradiction
    | yield next =>
      rw [Build.run_yield round] at ran
      obtain ⟨_, current, stillOn⟩ := claims (clean_of_statements tame ran clean)
      exact ih stillOn ran (current ▸ other) (current ▸ strays)

end Grammar

namespace Parser

variable {options : ParseOptions} {source : String} {ids : Array NodeId} {after : Parser}
  {rounds count : Nat}

/-- Where statements are read to the end of a source text without errors, its first ordinary token
starts one. -/
theorem Begins.startsStatement {soft : SoftNames} {start : Parser}
    (begins : Begins source soft start) (recovers : options.recovery = .recover)
    (ran : repeatWithin ((outermost options soft rounds).bodyStep .empty) count #[] start =
      (ids, after)) (clean : after.errors = #[]) (idle : ¬after.cursor.Busy) :
    Token.opening (sourceTokens source) = .endOfInput ∨
      (Token.opening (sourceTokens source)).startsStatement = true := by
  have tame : ((outermost options soft rounds).deeper .statement).Tame :=
    tame_descend recovers .statement
  have opens := startsStatement_of_run recovers tame (refuses_statement recovers) begins.halted ran
    clean idle
  rwa [begins.ready.pending.tag] at opens

/-- The first ordinary token of a source text without errors starts a statement. -/
theorem startsStatement_opening (recovers : options.recovery = .recover)
    (clean : (parseWith options source).errors = []) :
    Token.opening (sourceTokens source) = .endOfInput ∨
      (Token.opening (sourceTokens source)).startsStatement = true := by
  obtain ⟨ids, after, reads⟩ := exists_readsStatements clean (Nat.le_refl _)
  exact (begins_start source).startsStatement recovers reads.ran reads.clean reads.idle

end Parser

end Vibescript
