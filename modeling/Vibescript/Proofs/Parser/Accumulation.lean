import Vibescript.Proofs.Parser.Abreast
import Vibescript.Proofs.Parser.Rounds

/-!
# What every step of a parse upholds

A relation between a parser and what it becomes is upheld by every reading if it is upheld by the
few steps that readings are put together from. `Parser.Cumulative` names these. `Upholds` says of
one step or reading that it upholds a relation, from whatever parser, together with the answers that
it can have: what is put together of readings in lockstep goes on with answers only that agree with
an answer of the other side.

The first such relation: no step takes a reported error back.
-/
namespace Vibescript

/-- A relation between a parser and what it becomes, whatever it does. -/
class Parser.Cumulative (relates : Parser → Parser → Prop) : Prop where
  /-- Nothing was done. -/
  refl : ∀ parser, relates parser parser
  /-- One thing was done after another. -/
  trans : ∀ {first second third}, relates first second → relates second third →
    relates first third
  /-- The cursor was moved. -/
  cursor : ∀ (parser : Parser) (cursor : Cursor), relates parser (parser.withCursor cursor)
  /-- Names were interned, and nodes built that are no error nodes. -/
  tables : ∀ (parser : Parser) (names : NameTable) (arena : Arena), parser.arena.Gains arena →
    relates parser (parser.withTables names arena)
  /-- An error was reported. -/
  reported : ∀ (recovery : RecoveryMode) (error : ParseError) (parser : Parser),
    relates parser (parser.reported recovery error)
  /-- A construct that failed was reported, and its nodes gave way to an error node. -/
  abandoned : ∀ (recovery : RecoveryMode) (error : ParseError) (start failed : Parser)
    (cursor : Cursor) (span : Span), start.isHalted = false → relates start failed →
      relates start (((failed.reported recovery error).withCursor cursor).withArena
        ((failed.arena.truncate start.arena.mark).add .error span).2)

/-- From every parser a step upholds a relation, and its answer is a possible one. -/
def Build.Upholds {α : Type} (relates : Parser → Parser → Prop) (step : Build α)
    (possible : α → Prop) : Prop :=
  ∀ parser : Parser, relates parser (step parser).2 ∧ possible (step parser).1

/-- From every parser a reading upholds a relation, and its answer, if it succeeds, is a possible
one. -/
def Parse.Upholds {α : Type} (relates : Parser → Parser → Prop) (reading : Parse α)
    (possible : α → Prop) : Prop :=
  Build.Upholds relates reading.run fun result => ∀ answer, result = .ok answer → possible answer

/-- No reported error is taken back. -/
def Parser.KeepsErrors (before after : Parser) : Prop :=
  before.errors.toList <+: after.errors.toList

/-- From every parser a step adds errors at most, and its answer is a possible one. -/
abbrev Build.Accumulates {α : Type} (step : Build α) (possible : α → Prop) : Prop :=
  step.Upholds Parser.KeepsErrors possible

/-- From every parser a reading adds errors at most, and its answer, if it succeeds, is a possible
one. -/
abbrev Parse.Accumulates {α : Type} (reading : Parse α) (possible : α → Prop) : Prop :=
  reading.Upholds Parser.KeepsErrors possible

/-- Whatever is done, no error is taken back. -/
instance Parser.cumulative_keepsErrors : Cumulative KeepsErrors := by
  have reports (recovery : RecoveryMode) (error : ParseError) (parser : Parser) :
      parser.KeepsErrors (parser.reported recovery error) := by
    unfold KeepsErrors Parser.reported
    split
    · exact List.prefix_rfl
    · rw [Array.toList_push]
      exact List.prefix_append _ _
  exact {
    refl := fun _ => List.prefix_rfl
    trans := List.IsPrefix.trans
    cursor := fun _ _ => List.prefix_rfl
    tables := fun _ _ _ _ => List.prefix_rfl
    reported := reports
    abandoned := fun recovery error _ failed _ _ _ keeps =>
      keeps.trans (reports recovery error failed) }

section

variable {relates : Parser → Parser → Prop} [Parser.Cumulative relates]

namespace Build.Upholds

variable {α β : Type} {step : Build α} {next : α → Build β} {possible weaker : α → Prop}
  {last : β → Prop}

/-- An answer. -/
theorem pure {answer : α} (holds : possible answer) :
    Upholds relates (Pure.pure answer) possible :=
  fun parser => ⟨Parser.Cumulative.refl parser, holds⟩

/-- One step after another. -/
theorem bind (first : step.Upholds relates possible)
    (second : ∀ answer, possible answer → (next answer).Upholds relates last) :
    Upholds relates (step >>= next) last := by
  intro parser
  obtain ⟨goes, holds⟩ := first parser
  obtain ⟨further, ends⟩ := second _ holds (step parser).2
  exact ⟨Parser.Cumulative.trans goes further, ends⟩

omit [Parser.Cumulative relates] in
/-- More answers are possible. -/
theorem mono (upholds : step.Upholds relates possible)
    (weakens : ∀ answer, possible answer → weaker answer) : step.Upholds relates weaker :=
  fun parser => (upholds parser).imp id (weakens _)

/-- A question about the parser. -/
theorem still (same : ∀ parser : Parser, (step parser).2 = parser)
    (holds : ∀ parser : Parser, possible (step parser).1) : step.Upholds relates possible := by
  intro parser
  rw [same]
  exact ⟨Parser.Cumulative.refl parser, holds parser⟩

/-- A step of the cursor. -/
theorem onCursor (step : Cursor → α × Cursor) :
    (Build.onCursor step).Upholds relates fun _ => True :=
  fun parser => ⟨Parser.Cumulative.cursor parser _, trivial⟩

/-- A step that interns names and builds nodes. -/
theorem tables (isStill : step.IsStill) (holds : ∀ parser : Parser, possible (step parser).1) :
    step.Upholds relates possible := by
  intro parser
  obtain ⟨names, arena, _, gains, same⟩ := isStill parser
  refine ⟨?_, holds parser⟩
  rw [same]
  exact Parser.Cumulative.tables parser names arena gains

/-- A report. -/
theorem report (grammar : Grammar) (error : ParseError) :
    Upholds relates (grammar.report error) fun _ => True :=
  fun parser => ⟨Parser.Cumulative.reported grammar.options.recovery error parser, trivial⟩

omit [Parser.Cumulative relates] in
/-- A quiet step takes no error back. -/
theorem quiet (isQuiet : step.IsQuiet) : step.Accumulates fun _ => True := by
  intro parser
  rw [Parser.KeepsErrors, (isQuiet parser).errors]
  exact ⟨List.prefix_rfl, trivial⟩

/-- A loop whose states stay possible. -/
theorem repeatWithin {round : α → Build (ForInStep α)}
    (rounds : ∀ state, possible state → (round state).Upholds relates fun result =>
      possible result.value)
    (count : Nat) {state : α} (start : possible state) :
    (Grammar.repeatWithin round count state).Upholds relates possible := by
  induction count generalizing state with
  | zero => exact .pure start
  | succ count ih =>
    refine .bind (rounds state start) fun result holds => ?_
    cases result with
    | done state => exact .pure holds
    | yield state => exact ih holds

end Build.Upholds

namespace Parse.Upholds

variable {α β : Type} {reading : Parse α} {next : α → Parse β} {possible weaker : α → Prop}
  {last : β → Prop}

/-- An answer. -/
theorem pure {answer : α} (holds : possible answer) :
    Upholds relates (Pure.pure answer) possible :=
  Build.Upholds.pure fun _ same => Except.ok.inj same ▸ holds

/-- A failure. -/
theorem throw {error : ParseError} : Upholds relates (MonadExcept.throw error) possible :=
  Build.Upholds.pure fun _ => nofun

/-- A step, which cannot fail. -/
theorem lift {step : Build α} (upholds : step.Upholds relates possible) :
    Upholds relates (liftM step) possible :=
  Build.Upholds.bind upholds fun _ holds => pure holds

/-- One reading after another. -/
theorem bind (first : reading.Upholds relates possible)
    (second : ∀ answer, possible answer → (next answer).Upholds relates last) :
    Upholds relates (reading >>= next) last := by
  rw [Upholds, ExceptT.run_bind]
  refine Build.Upholds.bind first fun result holds => ?_
  cases result with
  | ok answer => exact second answer (holds answer rfl)
  | error error => exact throw

omit [Parser.Cumulative relates] in
/-- More answers are possible. -/
theorem mono (upholds : reading.Upholds relates possible)
    (weakens : ∀ answer, possible answer → weaker answer) : reading.Upholds relates weaker :=
  Build.Upholds.mono upholds fun _ holds answer same => weakens answer (holds answer same)

/-- A loop whose states stay possible. -/
theorem repeatWithin {round : α → Parse (ForInStep α)}
    (rounds : ∀ state, possible state → (round state).Upholds relates fun result =>
      possible result.value)
    (count : Nat) {state : α} (start : possible state) :
    Upholds relates (Grammar.repeatWithin round count state) possible := by
  induction count generalizing state with
  | zero => exact .pure start
  | succ count ih =>
    refine .bind (rounds state start) fun result holds => ?_
    cases result with
    | done state => exact .pure holds
    | yield state => exact ih holds

end Parse.Upholds

/-- An abandoned construct leaves the error node that it became. -/
theorem Parser.exists_abandon (start now : Parser) : ∃ cursor span,
    (Grammar.abandon start.checkpoint now).2 =
      (now.withCursor cursor).withArena
        ((now.arena.truncate start.arena.mark).add .error span).2 := by
  obtain ⟨stop, arena⟩ := arena_abandon start now
  have quiet := Build.isQuiet_abandon start.checkpoint now
  have errors := quiet.errors
  have halted := quiet.halted
  generalize (Grammar.abandon start.checkpoint now).2 = final at arena errors halted
  obtain ⟨cursor, nodes, reports, isHalted⟩ := final
  dsimp only at arena errors halted
  rw [arena, errors, halted]
  exact ⟨cursor, _, rfl⟩

namespace Grammar

open Build Parse

/-- One level deeper, a relation is upheld. -/
def Upholds (relates : Parser → Parser → Prop) (grammar : Grammar) : Prop :=
  ∀ request, (grammar.deeper request).Upholds relates fun _ => True

/-- One level deeper, errors are only added. -/
abbrev Piles (grammar : Grammar) : Prop := grammar.Upholds Parser.KeepsErrors

/-- Every kind of token matches some kind of token, on both sides. -/
structure Meets (first second : SoftNames) (exact : Prop) : Prop where
  /-- On the left. -/
  left : ∀ kind : TokenKind Name, ∃ other, kind.Matches first second exact other
  /-- On the right. -/
  right : ∀ other : TokenKind Name, ∃ kind, TokenKind.Matches first second exact kind other

/-- Every kind of token matches itself. -/
theorem Meets.refl (soft : SoftNames) (exact : Prop) : Meets soft soft exact :=
  ⟨fun kind => ⟨kind, .refl _ _ kind⟩, fun kind => ⟨kind, .refl _ _ kind⟩⟩

variable {α : Type} {grammar first second : Grammar} {exact outer : Prop}

omit [Parser.Cumulative relates] in
/-- What is done unless the parser stops reading, and what is done if it does. -/
theorem upholds_shouldHalt {next : Bool → Build α} {possible : α → Prop}
    (stops : (next true).Upholds relates possible)
    (goes : ∀ parser : Parser, parser.isHalted = false →
      relates parser (next false parser).2 ∧ possible (next false parser).1) :
    (grammar.shouldHalt >>= next).Upholds relates possible := by
  intro parser
  have runs : (grammar.shouldHalt >>= next) parser =
    next (parser.halts grammar.options.recovery) parser := rfl
  rw [runs]
  cases halts : parser.halts grammar.options.recovery with
  | true => exact stops parser
  | false => exact goes parser (Bool.or_eq_false_iff.mp halts).1

/-- A construct that is read, or recovered from. -/
theorem upholds_attempt {skip : Cursor → α × Cursor} {reading : Parse NodeId}
    (upholds : reading.Upholds relates fun _ => True) (items : Array NodeId) {start : Parser}
    (goesOn : start.isHalted = false) :
    relates start (grammar.attemptStep reading skip items start).2 := by
  have read := (upholds start).1
  rw [attemptStep_eq]
  generalize reading.run start = outcome at read
  obtain ⟨result, failed⟩ := outcome
  cases result with
  | ok id => exact read
  | error error =>
    obtain ⟨cursor, span, abandoned⟩ := Parser.exists_abandon start
      ((failed.reported grammar.options.recovery error).withCursor
        (skip (failed.reported grammar.options.recovery error).cursor).2)
    have kept := Parser.Cumulative.abandoned grammar.options.recovery error start failed cursor span
      goesOn read
    rw [← Parser.arena_reported grammar.options.recovery error failed] at kept
    exact abandoned ▸ kept

/-- A construct that is read, or recovered from, takes no error back. -/
theorem accumulates_attempt {skip : Cursor → α × Cursor} {reading : Parse NodeId}
    (accumulates : reading.Accumulates fun _ => True) (items : Array NodeId) :
    (grammar.attemptStep reading skip items).Accumulates fun _ => True := by
  have start : checkpoint.Accumulates fun _ => True := .still (fun _ => rfl) fun _ => trivial
  refine .bind start fun start _ => .bind accumulates fun result _ => ?_
  cases result with
  | ok id => exact .pure trivial
  | error error =>
    exact .bind (.report grammar error) fun _ _ => .bind (.onCursor _) fun _ _ =>
      .bind (.quiet (isQuiet_abandon start)) fun _ _ => .pure trivial

/-- A round of a body. -/
theorem Upholds.bodyStep (upholds : grammar.Upholds relates) (terminators : TagSet)
    (statements : Array NodeId) :
    (grammar.bodyStep terminators statements).Upholds relates fun _ => True := by
  have skips : Build.skipToEnd.Upholds relates fun _ => True := .onCursor _
  refine upholds_shouldHalt (.bind skips fun _ _ => .pure trivial) fun parser goesOn =>
    ⟨Parser.Cumulative.trans (Parser.Cumulative.cursor parser parser.cursor.takeDirective.2) ?_,
      trivial⟩
  have stillOn : (parser.withCursor parser.cursor.takeDirective.2).isHalted = false := goesOn
  have takes : onCursor Cursor.takeDirective parser =
    (parser.cursor.takeDirective.1, parser.withCursor parser.cursor.takeDirective.2) := rfl
  generalize parser.withCursor parser.cursor.takeDirective.2 = later at stillOn takes
  show relates later ((onCursor Cursor.takeDirective >>= _ : Build (ForInStep (Array NodeId)))
    parser).2
  rw [run_bind, takes]
  cases parser.cursor.takeDirective.1 with
  | some token =>
    have upheld : (directive token).Upholds relates fun _ => True :=
      .tables (isStill_directive token) fun _ => trivial
    exact (upheld later).1
  | none =>
    show relates later ((if (later.cursor.current.tag == .endOfInput ||
      terminators.contains later.cursor.current.tag) = true then _ else _ :
        Build (ForInStep (Array NodeId))) later).2
    split
    · exact Parser.Cumulative.refl later
    · exact upholds_attempt (upholds .statement) statements stillOn

/-- A body. -/
theorem Upholds.body (upholds : grammar.Upholds relates) (terminators : TagSet) :
    (grammar.body terminators).Upholds relates fun _ => True := by
  have loop : (grammar.loop #[] (grammar.bodyStep terminators)).Upholds relates fun _ => True :=
    .repeatWithin (fun statements _ => upholds.bodyStep terminators statements) _ trivial
  exact .bind loop fun _ _ =>
    .tables (isStill_onArena fun arena => arena.gains_addList _) fun _ => trivial

/-- Rounds that agree leave states that agree. -/
theorem RoundsAgree.value {agree : α → α → Prop} {left right : ForInStep α}
    (rounds : RoundsAgree agree left right) : agree left.value right.value := by
  cases rounds <;> assumption

/-- What is put together of readings in lockstep upholds what each of them does, and has answers that
agree with an answer of the other side. -/
theorem Lockstep.upholds {agree : α → α → Prop} {left right : Parse α}
    (reading : Lockstep first second exact outer agree left right)
    (meets : Meets first.soft second.soft exact) (firstUpholds : first.Upholds relates)
    (secondUpholds : second.Upholds relates)
    (members : outer → first.classBody.Upholds relates (fun _ => True) ∧
      second.classBody.Upholds relates fun _ => True) :
    left.Upholds relates (fun answer => ∃ other, agree answer other) ∧
      right.Upholds relates fun other => ∃ answer, agree answer other := by
  induction reading with
  | pure agrees => exact ⟨.pure ⟨_, agrees⟩, .pure ⟨_, agrees⟩⟩
  | bind _ _ ih ihNext =>
    exact ⟨.bind ih.1 fun answer ⟨other, agrees⟩ => (ihNext answer other agrees).1,
      .bind ih.2 fun other ⟨answer, agrees⟩ => (ihNext answer other agrees).2⟩
  | imp _ weakens ih =>
    exact ⟨ih.1.mono fun answer ⟨other, agrees⟩ => ⟨other, weakens _ _ agrees⟩,
      ih.2.mono fun other ⟨answer, agrees⟩ => ⟨answer, weakens _ _ agrees⟩⟩
  | cursor =>
    refine ⟨.lift (.still (fun _ => rfl) fun parser => ?_),
      .lift (.still (fun _ => rfl) fun parser => ?_)⟩
    · obtain ⟨other, alike⟩ := meets.left parser.cursor.current.kind
      exact ⟨{ parser.cursor with current := ⟨other, parser.cursor.current.span⟩ }, alike,
        fun _ => rfl⟩
    · obtain ⟨kind, alike⟩ := meets.right parser.cursor.current.kind
      exact ⟨{ parser.cursor with current := ⟨kind, parser.cursor.current.span⟩ }, alike,
        fun _ => rfl⟩
  | still leftStill rightStill agrees =>
    have same (parser : Parser) : parser.SameTables parser := ⟨rfl, rfl, rfl, rfl⟩
    exact ⟨.lift (.tables leftStill fun parser =>
        ⟨_, (agrees parser parser fun _ => same parser).1⟩),
      .lift (.tables rightStill fun parser =>
        ⟨_, (agrees parser parser fun _ => same parser).1⟩)⟩
  | advance =>
    have matched (token : Token Name) : ∃ other : Token Name,
        token.kind.Matches first.soft second.soft exact other.kind :=
      (meets.left token.kind).imp' (⟨·, token.span⟩) fun _ alike => alike
    have matching (other : Token Name) : ∃ token : Token Name,
        TokenKind.Matches first.soft second.soft exact token.kind other.kind :=
      (meets.right other.kind).imp' (⟨·, other.span⟩) fun _ alike => alike
    exact ⟨.lift ((Build.Upholds.onCursor _).mono fun token _ => matched token),
      .lift ((Build.Upholds.onCursor _).mono fun other _ => matching other)⟩
  | splitSymbol =>
    exact ⟨.lift ((Build.Upholds.onCursor _).mono fun answer _ => ⟨answer, rfl⟩),
      .lift ((Build.Upholds.onCursor _).mono fun answer _ => ⟨answer, rfl⟩)⟩
  | ask =>
    exact ⟨.lift ((Build.Upholds.onCursor _).mono fun answer _ => ⟨answer, rfl⟩),
      .lift ((Build.Upholds.onCursor _).mono fun answer _ => ⟨answer, rfl⟩)⟩
  | throw => exact ⟨.throw, .throw⟩
  | report =>
    exact ⟨.lift ((Build.Upholds.report first _).mono fun _ _ => ⟨(), trivial⟩),
      .lift ((Build.Upholds.report second _).mono fun _ _ => ⟨(), trivial⟩)⟩
  | @deeper request =>
    exact ⟨(firstUpholds request).mono fun answer _ => ⟨answer, fun _ => rfl⟩,
      (secondUpholds request).mono fun answer _ => ⟨answer, fun _ => rfl⟩⟩
  | @body terminators =>
    exact ⟨.lift ((firstUpholds.body terminators).mono fun answer _ => ⟨answer, fun _ => rfl⟩),
      .lift ((secondUpholds.body terminators).mono fun answer _ => ⟨answer, fun _ => rfl⟩)⟩
  | classBody isOuter =>
    exact ⟨.lift ((members isOuter).1.mono fun answer _ => ⟨answer, rfl, fun _ => rfl⟩),
      .lift ((members isOuter).2.mono fun answer _ => ⟨answer, rfl, fun _ => rfl⟩)⟩
  | loop count starts _ ih =>
    refine ⟨.repeatWithin (fun state ⟨other, agrees⟩ => ?_) count ⟨_, starts⟩,
      .repeatWithin (fun other ⟨state, agrees⟩ => ?_) count ⟨_, starts⟩⟩
    · exact (ih state other agrees).1.mono fun result ⟨_, rounds⟩ => ⟨_, rounds.value⟩
    · exact (ih state other agrees).2.mono fun result ⟨_, rounds⟩ => ⟨_, rounds.value⟩

/-- A reading in lockstep with itself. -/
theorem Upholds.lockstep (upholds : grammar.Upholds relates) {agree : α → α → Prop}
    {reading : Parse α}
    (lockstep : Lockstep grammar grammar True outer agree reading reading)
    (members : outer → grammar.classBody.Upholds relates fun _ => True) :
    reading.Upholds relates fun _ => True :=
  (lockstep.upholds (.refl _ _) upholds upholds fun isOuter =>
    ⟨members isOuter, members isOuter⟩).1.mono fun _ _ => trivial

/-- A round of a class. -/
theorem Upholds.memberStep (upholds : grammar.Upholds relates) (members : Array NodeId) :
    (grammar.memberStep members).Upholds relates fun _ => True := by
  have member : grammar.classMember.Upholds relates fun _ => True :=
    upholds.lockstep (Lockstep.classMember rfl) False.elim
  have skips : Build.skipToEnd.Upholds relates fun _ => True := .onCursor _
  refine upholds_shouldHalt (.bind skips fun _ _ => .pure trivial) fun parser goesOn =>
    ⟨?_, trivial⟩
  show relates parser ((if (parser.cursor.current.tag == .kwEnd ||
    parser.cursor.current.tag == .endOfInput) = true then _ else _ :
      Build (ForInStep (Array NodeId))) parser).2
  split
  · exact Parser.Cumulative.refl parser
  · exact upholds_attempt member members goesOn

/-- The members of a class. -/
theorem Upholds.classBody (upholds : grammar.Upholds relates) :
    grammar.classBody.Upholds relates fun _ => True :=
  .repeatWithin (fun members _ => upholds.memberStep members) _ trivial

/-- A statement that no keyword introduces. -/
theorem Upholds.plainStatement (upholds : grammar.Upholds relates) :
    grammar.plainStatement.Upholds relates fun _ => True := by
  have tags : Build.currentTag.Upholds relates fun _ => True :=
    .still (fun _ => rfl) fun _ => trivial
  have importing : grammar.requireImport.Upholds relates fun _ => True :=
    upholds.lockstep (Lockstep.requireImport rfl) False.elim
  have stray : (Build.unexpected .unexpectedToken .empty).Upholds relates fun _ => True :=
    .still (fun _ => rfl) fun _ => trivial
  have expression : grammar.expression.Upholds relates fun _ => True :=
    upholds (.expression .assignment)
  refine .bind (.lift tags) fun tag _ => ?_
  split
  · refine .bind (.lift (.onCursor _)) fun found _ => ?_
    cases found with
    | true => exact importing
    | false => exact expression
  · split
    · exact .bind (.lift stray) fun _ _ => .throw
    · exact expression

/-- A statement. -/
theorem Upholds.statement (upholds : grammar.Upholds relates) :
    grammar.statement.Upholds relates fun _ => True := by
  have tags : Build.currentTag.Upholds relates fun _ => True :=
    .still (fun _ => rfl) fun _ => trivial
  rw [statement_eq]
  refine .bind (.lift tags) fun tag _ => ?_
  rcases @Lockstep.statementOf grammar grammar True True rfl trivial tag with
    ⟨isPlain, _⟩ | reading
  · rw [isPlain]
    exact upholds.plainStatement
  · exact upholds.lockstep reading fun _ => upholds.classBody

/-- At every level, a relation is upheld one level deeper. -/
theorem upholds_level (options : ParseOptions) (soft : SoftNames) (rounds levels : Nat) :
    (level options soft rounds levels).Upholds relates := by
  intro request
  induction levels generalizing request with
  | zero =>
    have current : Build.current.Upholds relates fun _ => True :=
      .still (fun _ => rfl) fun _ => trivial
    have skips : Build.skipToEnd.Upholds relates fun _ => True := .onCursor _
    exact .bind (.lift current) fun _ _ => .bind (.lift skips) fun _ _ => .throw
  | succ levels ih =>
    show (descend options soft rounds (levels + 1) request).Upholds relates _
    rw [descend_succ]
    have upholds : (level options soft rounds levels).Upholds relates := ih
    cases request with
    | statement => exact upholds.statement
    | expression least => exact upholds.lockstep (Lockstep.expressionFrom rfl least) False.elim
    | operand => exact upholds.lockstep (Lockstep.operand rfl) False.elim

end Grammar

end

end Vibescript
