import Vibescript.Proofs.Cursor.Foresight
import Vibescript.Proofs.Parser.Accumulation
import Vibescript.Proofs.Parser.Parting
import Vibescript.Proofs.Tree.Likeness

/-!
# A parse inside another one

A text that parses without errors parses in the same way where it stands inside another text.
`Parse.Follows` says so of one reading: if it succeeds on the text alone, it succeeds inside the other
text as well, and the answers agree. A reading that waits for a token which closes something may run
out of such tokens; then the text alone is not free of errors, and nothing is said. The rules below
say so of the ways in which readings are put together.
-/
namespace Vibescript

/-- What two parses need to know of each other: their words, and the tail of the text that the text of
the first stands in. -/
structure Seam where
  /-- The words of the first. -/
  first : SoftNames
  /-- The words of the second. -/
  second : SoftNames
  /-- The tokens after the text. -/
  tail : List (Token String)

/-- Two parses without errors stand beside each other. -/
structure Parser.Beside (seam : Seam) (here there : Parser) : Prop where
  /-- Their cursors stand beside each other. -/
  asking : ∃ tokens others, Cursor.Asking seam.tail tokens others seam.first.spelling
    seam.second.spelling here.cursor there.cursor
  /-- No error was reported on either side. -/
  clean : here.errors = #[] ∧ there.errors = #[]
  /-- None is halted. -/
  goesOn : here.isHalted = false ∧ there.isHalted = false

/-- The forests of two parsers. -/
def Parser.sides (here there : Parser) : Sides := ⟨here.forest, there.forest⟩

/-- Where a reading starts, and whether it may use up the tokens that close something. -/
structure Stance where
  /-- The cursors that it starts at. -/
  admits : Cursor → Prop
  /-- Whether it may use up the tokens that close something. -/
  mayRunOut : Bool

namespace Stance

/-- Before a token that closes something. -/
def inside : Stance := ⟨fun cursor => ¬cursor.Spent, true⟩

/-- Before some token. -/
def awake : Stance := ⟨fun cursor => cursor.isAtEnd = false, false⟩

/-- Anywhere. -/
def anywhere : Stance := ⟨fun _ => True, false⟩

/-- Before a token with a tag. -/
def facing (stance : Stance) (tag : Tag) : Stance :=
  ⟨fun cursor => stance.admits cursor ∧ cursor.current.tag = tag, stance.mayRunOut⟩

/-- Before a token or a directive. -/
def busy : Stance := ⟨Cursor.Busy, false⟩

/-- Where no directive waits. -/
def unclaimed (stance : Stance) : Stance :=
  ⟨fun cursor => stance.admits cursor ∧ cursor.takeDirective.1 = none, stance.mayRunOut⟩

/-- Where the next reading starts. -/
def after (stance : Stance) : Stance :=
  match stance.mayRunOut with
  | true => inside
  | false => anywhere

/-- Tokens are left. -/
def IsAwake (stance : Stance) : Prop :=
  ∀ (cursor : Cursor) (tokens : List (Token String)), cursor.Pending tokens →
    stance.admits cursor → cursor.isAtEnd = false

/-- Tokens are left before one that closes something. -/
theorem isAwake_inside : inside.IsAwake := by
  intro cursor tokens pending unspent
  cases atEnd : cursor.isAtEnd with
  | false => rfl
  | true => exact absurd (pending.spent atEnd) unspent

/-- Tokens are left. -/
theorem isAwake_awake : awake.IsAwake := fun _ _ _ => id

/-- Tokens are left where no directive waits and one of both is left. -/
theorem isAwake_unclaimed : busy.unclaimed.IsAwake :=
  fun _ _ _ admitted => admitted.1.resolve_right (absurd admitted.2)

/-- Tokens are left before one with a tag. -/
theorem IsAwake.facing {stance : Stance} (isAwake : stance.IsAwake) (tag : Tag) :
    (stance.facing tag).IsAwake :=
  fun cursor tokens pending admits => isAwake cursor tokens pending admits.1

end Stance

/-- A parser is halted by errors only. -/
def Parser.HaltsAtErrors (parser : Parser) : Prop := parser.isHalted = true → parser.errors ≠ #[]

namespace Parse

variable {α β : Type}

/-- A reading succeeds without errors. -/
def Gives (reading : Parse α) (here : Parser) (answer : α) (after : Parser) : Prop :=
  reading.run here = (.ok answer, after) ∧ after.errors = #[]

/-- A reading never succeeds without errors from some cursors. -/
def Refuses (reading : Parse α) (starts : Cursor → Prop) : Prop :=
  ∀ here answer after, here.isHalted = false → starts here.cursor →
    ¬reading.Gives here answer after

/-- A reading takes no error back, halts at errors only, and where it succeeds without errors it went
onward. -/
structure Tame (reading : Parse α) : Prop where
  /-- Errors are only added. -/
  accumulates : reading.Accumulates fun _ => True
  /-- It halts at errors only. -/
  halts : ∀ here : Parser, here.HaltsAtErrors → (reading.run here).2.HaltsAtErrors
  /-- The cursor goes onward. -/
  onward : ∀ here answer after, here.isHalted = false → reading.Gives here answer after →
    here.cursor.Onward after.cursor

/-- A parser that goes on goes on after a reading without errors. -/
theorem Tame.goesOn {reading : Parse α} (tame : reading.Tame) {here : Parser}
    (goesOn : here.isHalted = false) (clean : (reading.run here).2.errors = #[]) :
    (reading.run here).2.isHalted = false := by
  cases halted : (reading.run here).2.isHalted with
  | false => rfl
  | true =>
    refine absurd clean (tame.halts here (fun isHalted => ?_) halted)
    rw [goesOn] at isHalted
    contradiction

/-- No error was reported before when none was after. -/
theorem Tame.clean {reading : Parse α} (tame : reading.Tame) {here : Parser}
    (clean : (reading.run here).2.errors = #[]) : here.errors = #[] := by
  have adds := (tame.accumulates here).1
  rw [Parser.KeepsErrors, clean] at adds
  exact Array.toList_inj.mp (List.prefix_nil.mp adds)

/-- A step as a reading. -/
theorem gives_lift {step : Build α} {here after : Parser} {answer : α} :
    Gives (liftM step) here answer after ↔ step here = (answer, after) ∧ after.errors = #[] := by
  rw [Gives, run_lift, Prod.mk.injEq, Except.ok.injEq, Prod.ext_iff]

/-- One reading after another. -/
theorem gives_bind {reading : Parse α} {next : α → Parse β} {here after : Parser} {answer : β} :
    Gives (reading >>= next) here answer after ↔
      ∃ between middle, reading.run here = (.ok between, middle) ∧
        (next between).Gives middle answer after := by
  constructor
  · intro gives
    cases ran : reading.run here with
    | mk result middle =>
      cases result with
      | ok between =>
        rw [Gives, run_bind_ok ran] at gives
        exact ⟨between, middle, rfl, gives⟩
      | error error =>
        rw [Gives, run_bind_error ran] at gives
        exact absurd (congrArg Prod.fst gives.1) nofun
  · rintro ⟨between, middle, ran, gives⟩
    rwa [Gives, run_bind_ok ran]

/-- A reading that fails gives nothing. -/
theorem not_gives_throw {error : ParseError} {here after : Parser} {answer : α} :
    ¬Gives (throw error) here answer after :=
  fun gives => absurd (congrArg Prod.fst gives.1) nofun

/-- A parser that is not halted keeps a reported error. -/
theorem not_gives_report {grammar : Grammar} {error : ParseError} {here after : Parser}
    {answer : Unit} (goesOn : here.isHalted = false) :
    ¬Gives (liftM (grammar.report error)) here answer after := by
  intro gives
  obtain ⟨ran, clean⟩ := gives_lift.mp gives
  obtain rfl : (grammar.report error here).2 = after := congrArg Prod.snd ran
  have reported : (grammar.report error here).2.errors = here.errors.push error := by
    show (if here.isHalted = true then here else _ : Parser).errors = _
    rw [goesOn]
    rfl
  rw [reported] at clean
  exact absurd clean (by simp)

namespace Tame

/-- An answer. -/
theorem pure (answer : α) : Tame (Pure.pure answer : Parse α) := by
  refine ⟨.pure trivial, fun _ => id, fun here other after _ gives => ?_⟩
  obtain rfl : here = after := congrArg Prod.snd gives.1
  exact .refl _

/-- A failure. -/
theorem throw (error : ParseError) : Tame (MonadExcept.throw error : Parse α) :=
  ⟨.throw, fun _ => id, fun _ _ _ _ gives => (not_gives_throw gives).elim⟩

/-- A quiet step. -/
theorem quiet {step : Build α} (isQuiet : step.IsQuiet) : Tame (liftM step) := by
  refine ⟨.lift (.quiet isQuiet), fun here sound halted => ?_,
    fun here answer after _ gives => ?_⟩
  · have steps : here.Quiet ((liftM step : Parse α).run here).2 := isQuiet here
    rw [steps.halted] at halted
    rw [steps.errors]
    exact sound halted
  · obtain rfl : (step here).2 = after := congrArg Prod.snd (gives_lift.mp gives).1
    exact (isQuiet here).onward

/-- The parts of a reading that succeeds without errors. -/
theorem parts {reading : Parse α} {next : α → Parse β} (first : reading.Tame)
    (second : ∀ answer, (next answer).Tame) {here after : Parser} {answer : β}
    (goesOn : here.isHalted = false) (gives : (reading >>= next).Gives here answer after) :
    ∃ between middle, reading.Gives here between middle ∧ middle.isHalted = false ∧
      (next between).Gives middle answer after ∧ middle.cursor.Onward after.cursor := by
  obtain ⟨between, middle, ran, later⟩ := gives_bind.mp gives
  have clean : middle.errors = #[] := (second between).clean (later.1 ▸ later.2)
  have stillOn : middle.isHalted = false := by
    have halted := first.goesOn goesOn (by rw [ran]; exact clean)
    rwa [ran] at halted
  exact ⟨between, middle, ⟨ran, clean⟩, stillOn, later,
    (second between).onward middle answer after stillOn later⟩

/-- One reading after another. -/
theorem bind {reading : Parse α} {next : α → Parse β} (first : reading.Tame)
    (second : ∀ answer, (next answer).Tame) : Tame (reading >>= next) := by
  refine ⟨.bind first.accumulates fun answer _ => (second answer).accumulates,
    fun here sound => ?_, fun here answer after goesOn gives => ?_⟩
  · have middle := first.halts here sound
    cases ran : reading.run here with
    | mk result failed =>
      rw [ran] at middle
      cases result with
      | ok answer =>
        rw [run_bind_ok ran]
        exact (second answer).halts failed middle
      | error error =>
        rw [run_bind_error ran]
        exact middle
  · obtain ⟨between, middle, gave, _, _, further⟩ := first.parts second goesOn gives
    exact (first.onward here between middle goesOn gave).trans further

/-- A report. -/
theorem report (grammar : Grammar) (error : ParseError) : Tame (liftM (grammar.report error)) := by
  refine ⟨.lift (.report grammar error), fun here sound => ?_, fun _ _ _ goesOn gives =>
    (not_gives_report goesOn gives).elim⟩
  show Parser.HaltsAtErrors (here.reported grammar.options.recovery error)
  unfold Parser.reported
  split
  · exact sound
  · exact fun _ => by simp

/-- A loop. -/
theorem loop {round : α → Parse (ForInStep α)} (tame : ∀ state, (round state).Tame) (count : Nat)
    (state : α) : Tame (Grammar.repeatWithin round count state) := by
  induction count generalizing state with
  | zero => exact .pure state
  | succ count ih =>
    refine .bind (tame state) fun result => ?_
    cases result with
    | done state => exact .pure state
    | yield state => exact ih state

end Tame

/-- A reading that never succeeds without errors. -/
structure Barren (reading : Parse α) : Prop where
  /-- It takes no error back. -/
  tame : reading.Tame
  /-- It does not succeed. -/
  fails : ∀ here answer after, here.isHalted = false → ¬reading.Gives here answer after

namespace Barren

/-- A failure. -/
theorem throw (error : ParseError) : Barren (MonadExcept.throw error : Parse α) :=
  ⟨.throw error, fun _ _ _ _ => not_gives_throw⟩

/-- What fails after another reading. -/
theorem after {reading : Parse α} {next : α → Parse β} (tame : reading.Tame)
    (barren : ∀ answer, (next answer).Barren) : Barren (reading >>= next) := by
  refine ⟨.bind tame fun answer => (barren answer).tame, fun here answer after goesOn gives => ?_⟩
  obtain ⟨between, middle, _, stillOn, later, _⟩ :=
    tame.parts (fun answer => (barren answer).tame) goesOn gives
  exact (barren between).fails middle answer after stillOn later

/-- What fails before other readings. -/
theorem before {reading : Parse α} {next : α → Parse β} (barren : reading.Barren)
    (tame : ∀ answer, (next answer).Tame) : Barren (reading >>= next) := by
  refine ⟨.bind barren.tame tame, fun here answer after goesOn gives => ?_⟩
  obtain ⟨between, middle, first, _⟩ := barren.tame.parts tame goesOn gives
  exact barren.fails here between middle goesOn first

/-- A report. -/
theorem report (grammar : Grammar) (error : ParseError) :
    Barren (liftM (grammar.report error)) := by
  refine ⟨.report grammar error, fun here answer after goesOn gives => ?_⟩
  exact not_gives_report goesOn gives

/-- A failure at the current token. -/
theorem unexpected (code : ErrorCode) (expected : TagSet) (dress : ParseError → ParseError) :
    Barren (liftM (Build.unexpected code expected) >>= fun error =>
      MonadExcept.throw (dress error) : Parse α) :=
  .after (.quiet fun parser => .refl parser) fun _ => .throw _

/-- A failure at the current token, before other readings. -/
theorem unexpectedFirst (code : ErrorCode) (expected : TagSet) (dress : ParseError → ParseError)
    (next : β → Parse α) :
    Barren (liftM (Build.unexpected code expected) >>= fun error =>
      MonadExcept.throw (dress error) >>= next) :=
  .unexpected code expected dress

/-- A failure before other readings. -/
theorem throwFirst (error : ParseError) (next : β → Parse α) :
    Barren (MonadExcept.throw error >>= next) :=
  .throw error

end Barren

/-- A reading before others that never succeeds from some cursors. -/
theorem Refuses.bind {reading : Parse α} {next : α → Parse β} {starts : Cursor → Prop}
    (refuses : reading.Refuses starts) (tame : reading.Tame) (tameNext : ∀ answer, (next answer).Tame) :
    (reading >>= next).Refuses starts := by
  intro here answer after goesOn start gives
  obtain ⟨between, middle, first, _⟩ := tame.parts tameNext goesOn gives
  exact refuses here between middle goesOn start first

/-- A reading succeeds with an answer that agrees, and leaves the parsers beside each other. -/
def CatchesUp (seam : Seam) (agree : Agreement α) (reading : Parse α) (here there : Parser)
    (answer : α) (after : Parser) : Prop :=
  ∃ other later, reading.run there = (.ok other, later) ∧ after.Beside seam later ∧
    (here.sides there).Grows (after.sides later) ∧ (agree answer other).holds (after.sides later)

/-- A reading after one that succeeded. -/
theorem CatchesUp.bind {seam : Seam} {between : Agreement α} {agree : Agreement β}
    {reading : Parse α} {next : α → Parse β} {here there middle after : Parser} {answer : α} {last : β}
    (catches : reading.CatchesUp seam between here there answer middle)
    (more : ∀ other there', middle.Beside seam there' → (here.sides there).Grows (middle.sides there') →
      (between answer other).holds (middle.sides there') →
      (next other).CatchesUp seam agree middle there' last after) :
    (reading >>= next).CatchesUp seam agree here there last after := by
  obtain ⟨other, there', ran, kept, grows, agrees⟩ := catches
  obtain ⟨last', end', ranLast, keptLast, growsLast, agreesLast⟩ := more other there' kept grows agrees
  refine ⟨last', end', ?_, keptLast, grows.trans growsLast, agreesLast⟩
  rw [run_bind_ok ran]
  exact ranLast

/-- From parsers beside each other the second reading succeeds when the first does, with answers that
agree. -/
structure Follows (seam : Seam) (stance : Stance) (known : Lasting) (agree : Agreement α)
    (left right : Parse α) : Prop where
  /-- The first takes no error back. -/
  tame : left.Tame
  /-- The second succeeds when the first does. -/
  follows : ∀ here there : Parser, here.Beside seam there → known.holds (here.sides there) →
    stance.admits here.cursor → ∀ answer after, left.Gives here answer after →
      (stance.mayRunOut = true ∧ after.cursor.Spent) ∨
      right.CatchesUp seam agree here there answer after

/-- So it is anywhere, and the first reading needs a token that closes something. -/
structure Shuts (seam : Seam) (known : Lasting) (agree : Agreement α) (left right : Parse α) : Prop
    extends Follows seam .anywhere known agree left right where
  /-- The first never succeeds without such a token. -/
  closes : left.Refuses Cursor.Spent

end Parse

namespace Parser.Beside

variable {seam : Seam} {here there : Parser}

/-- Tokens of the first are pending. -/
theorem pending (beside : here.Beside seam there) : ∃ tokens, here.cursor.Pending tokens := by
  obtain ⟨tokens, _, asking⟩ := beside.asking
  exact ⟨tokens, asking.inset.pending⟩

/-- Tokens are left where a stance says so. -/
theorem notAtEnd (beside : here.Beside seam there) {stance : Stance} (isAwake : stance.IsAwake)
    (admits : stance.admits here.cursor) : here.cursor.isAtEnd = false := by
  obtain ⟨tokens, pending⟩ := beside.pending
  exact isAwake _ tokens pending admits

/-- The cursors are changed. -/
theorem withCursor (beside : here.Beside seam there) {first second : Cursor}
    (asking : ∃ tokens others, Cursor.Asking seam.tail tokens others seam.first.spelling
      seam.second.spelling first second) :
    (here.withCursor first).Beside seam (there.withCursor second) :=
  ⟨asking, beside.clean, beside.goesOn⟩

/-- The forests grow while cursors go onward. -/
theorem grows_withCursor (beside : here.Beside seam there) {first second : Cursor}
    (onward : here.cursor.Onward first) (further : there.cursor.Onward second) :
    (here.sides there).Grows ((here.withCursor first).sides (there.withCursor second)) := by
  obtain ⟨tokens, others, asking⟩ := beside.asking
  obtain ⟨_, _, moves⟩ := onward tokens asking.inset.pending
  obtain ⟨_, _, movesOther⟩ := further _ asking.inset.pendingOther
  exact ⟨⟨.refl _, moves.names, fun damaged => damaged.imp id (ne_empty_mono moves.errors)⟩,
    ⟨.refl _, movesOther.names, fun damaged => damaged.imp id (ne_empty_mono movesOther.errors)⟩⟩

end Parser.Beside

namespace Parse.Follows

variable {α β : Type} {seam : Seam} {stance : Stance} {known weaker : Lasting}
  {agree : Agreement α} {left right : Parse α}

/-- Where the first reading does not run out of tokens, the second catches up with it. -/
theorem catchesUp (reading : Follows seam stance known agree left right)
    (stays : stance.mayRunOut = false) {here there : Parser} (beside : here.Beside seam there)
    (holds : known.holds (here.sides there)) (admitted : stance.admits here.cursor) {answer : α}
    {after : Parser} (gives : left.Gives here answer after) :
    right.CatchesUp seam agree here there answer after :=
  (reading.follows here there beside holds admitted answer after gives).resolve_left
    fun ranOut => absurd ranOut.1 (ne_true_of_eq_false stays)

/-- Less has to be admitted. -/
theorem relax {other : Stance} (reading : Follows seam stance known agree left right)
    (admits : ∀ (cursor : Cursor) (tokens : List (Token String)), cursor.Pending tokens →
      other.admits cursor → stance.admits cursor)
    (runsOut : stance.mayRunOut = true → other.mayRunOut = true) :
    Follows seam other known agree left right := by
  refine ⟨reading.tame, fun here there beside holds admitted answer after gives => ?_⟩
  obtain ⟨tokens, pending⟩ := beside.pending
  exact (reading.follows here there beside holds (admits _ tokens pending admitted) answer after
    gives).imp_left (.imp_left runsOut)

/-- What holds anywhere holds where a stance says. -/
theorem of_anywhere (reading : Follows seam .anywhere known agree left right) :
    Follows seam stance known agree left right :=
  reading.relax (fun _ _ _ _ => trivial) nofun

/-- What holds before tokens holds where they are left. -/
theorem of_awake (isAwake : stance.IsAwake) (reading : Follows seam .awake known agree left right) :
    Follows seam stance known agree left right :=
  reading.relax isAwake nofun

/-- More is known before. -/
theorem weaken (reading : Follows seam stance weaker agree left right)
    (implies : ∀ sides, known.holds sides → weaker.holds sides) :
    Follows seam stance known agree left right :=
  ⟨reading.tame, fun here there beside holds => reading.follows here there beside (implies _ holds)⟩

/-- Less is known after. -/
theorem mono {looser : Agreement α} (reading : Follows seam stance known agree left right)
    (implies : ∀ answer other sides, (agree answer other).holds sides →
      (looser answer other).holds sides) : Follows seam stance known looser left right := by
  refine ⟨reading.tame, fun here there beside holds admitted answer after gives => ?_⟩
  refine (reading.follows here there beside holds admitted answer after gives).imp_right ?_
  rintro ⟨other, later, ran, kept, grows, agrees⟩
  exact ⟨other, later, ran, kept, grows, implies _ _ _ agrees⟩

/-- Rounds that both go on agree. -/
theorem rounds {leftRound rightRound : Parse (ForInStep α)}
    (reading : Follows seam stance known (.yielded agree) leftRound rightRound) :
    Follows seam stance known (.round agree) leftRound rightRound :=
  reading.mono fun _ _ _ => Agreement.round_of_yielded

/-- A reading that never succeeds. -/
theorem barren (barren : left.Barren) : Follows seam stance known agree left right :=
  ⟨barren.tame, fun here _ beside _ _ answer after gives =>
    (barren.fails here answer after beside.goesOn.1 gives).elim⟩

/-- A reading that never succeeds from some cursors. -/
theorem of_refuses (tame : left.Tame) (refuses : left.Refuses stance.admits) :
    Follows seam stance known agree left right :=
  ⟨tame, fun here _ beside _ admitted answer after gives =>
    (refuses here answer after beside.goesOn.1 admitted gives).elim⟩

/-- What holds where tokens are left holds anywhere, if the first reading fails at the end. -/
theorem anywhere_of_fails (reading : Follows seam .awake known agree left right)
    (fails : left.Refuses (·.isAtEnd = true)) : Follows seam .anywhere known agree left right := by
  refine ⟨reading.tame, fun here there beside holds _ answer after gives => .inr ?_⟩
  cases atEnd : here.cursor.isAtEnd with
  | false =>
    exact reading.catchesUp rfl beside holds atEnd gives
  | true => exact (fails here answer after beside.goesOn.1 atEnd gives).elim

/-- The second reading is another one, given what is known. -/
theorem congrRight {other : Parse α}
    (same : ∀ here there : Parser, here.Beside seam there → known.holds (here.sides there) →
      other = right)
    (reading : Follows seam stance known agree left right) :
    Follows seam stance known agree left other := by
  refine ⟨reading.tame, fun here there beside holds => ?_⟩
  rw [same here there beside holds]
  exact reading.follows here there beside holds

/-- An answer. -/
theorem pure {answer other : α} (agrees : ∀ sides, known.holds sides →
      (agree answer other).holds sides) :
    Follows seam .anywhere known agree (Pure.pure answer) (Pure.pure other) := by
  refine ⟨.pure answer, fun here there beside holds _ found after gives => .inr ?_⟩
  obtain ⟨rfl, rfl⟩ : answer = found ∧ here = after :=
    ⟨Except.ok.inj (congrArg Prod.fst gives.1), congrArg Prod.snd gives.1⟩
  exact ⟨other, there, rfl, beside, .refl _, agrees _ holds⟩

/-- Steps that keep parsers beside each other. -/
theorem step {left right : Build α} (isQuiet : left.IsQuiet)
    (keeps : ∀ here there : Parser, here.Beside seam there → known.holds (here.sides there) →
      stance.admits here.cursor → (left here).2.Beside seam (right there).2 ∧
        (here.sides there).Grows ((left here).2.sides (right there).2) ∧
        (agree (left here).1 (right there).1).holds ((left here).2.sides (right there).2)) :
    Follows seam stance known agree (liftM left) (liftM right) := by
  refine ⟨.quiet isQuiet, fun here there beside holds admitted answer after gives => .inr ?_⟩
  obtain ⟨ran, _⟩ := gives_lift.mp gives
  obtain ⟨rfl, rfl⟩ : (left here).1 = answer ∧ (left here).2 = after :=
    ⟨congrArg Prod.fst ran, congrArg Prod.snd ran⟩
  exact ⟨(right there).1, (right there).2, rfl, keeps here there beside holds admitted⟩

/-- A reading before others, after which the stance is that of the others. -/
theorem bind {between : Agreement α} {agree : Agreement β} {leftNext rightNext : α → Parse β}
    (reading : Follows seam stance known between left right)
    (next : ∀ answer other, Follows seam stance.after (known.and (between answer other)) agree
      (leftNext answer) (rightNext other)) :
    Follows seam stance known agree (left >>= leftNext) (right >>= rightNext) := by
  refine ⟨.bind reading.tame fun answer => (next answer answer).tame,
    fun here there beside holds admitted answer after gives => ?_⟩
  obtain ⟨between', middle, first, _, later, onward⟩ :=
    reading.tame.parts (fun answer => (next answer answer).tame) beside.goesOn.1 gives
  rcases reading.follows here there beside holds admitted between' middle first with
    ⟨runsOut, spent⟩ | catches
  · exact .inl ⟨runsOut, spent.onward onward⟩
  · by_cases spent : stance.mayRunOut = true ∧ middle.cursor.Spent
    · exact .inl ⟨spent.1, spent.2.onward onward⟩
    have admits : stance.after.admits middle.cursor := by
      unfold Stance.after
      split
      · next runsOut => exact fun isSpent => spent ⟨runsOut, isSpent⟩
      · trivial
    have runsOut : stance.after.mayRunOut = stance.mayRunOut := by
      unfold Stance.after
      split
      · next runsOut => exact runsOut.symm
      · next stays => exact stays.symm
    by_cases ends : stance.mayRunOut = true ∧ after.cursor.Spent
    · exact .inl ends
    · refine .inr (catches.bind fun other there' kept grows agrees => ?_)
      refine ((next between' other).follows middle there' kept ⟨known.mono grows holds, agrees⟩
        admits answer after later).resolve_left fun ⟨runs, isSpent⟩ => ends ⟨?_, isSpent⟩
      rw [← runsOut]
      exact runs

/-- What is known may be assumed. -/
theorem assuming {fact : Prop} (tame : left.Tame)
    (reading : fact → Follows seam stance known agree left right) :
    Follows seam stance (known.and (.of fact)) agree left right :=
  ⟨tame, fun here there beside ⟨holds, fact⟩ => (reading fact).follows here there beside holds⟩

/-- Readings after the same answer. -/
theorem ofSame {answer other : β} {left right : β → Parse α}
    (reading : ∀ answer, Follows seam stance known agree (left answer) (right answer)) :
    Follows seam stance (known.and (Agreement.same answer other)) agree (left answer)
      (right other) :=
  .assuming (reading answer).tame fun same => same ▸ reading answer

/-- What is known does not matter. -/
theorem regardless (reading : Follows seam stance .always agree left right) :
    Follows seam stance known agree left right :=
  reading.weaken fun _ _ => trivial

/-- A reading with the same answer on both sides before others. -/
theorem bindSame {agree : Agreement β} {leftNext rightNext : α → Parse β}
    (reading : Follows seam stance known .same left right)
    (next : ∀ answer, Follows seam stance.after known agree (leftNext answer) (rightNext answer)) :
    Follows seam stance known agree (left >>= leftNext) (right >>= rightNext) :=
  .bind reading fun _ _ => .ofSame next

/-- The answers are changed. -/
theorem map {change rename : α → β} {last : Agreement β}
    (reading : Follows seam stance known agree left right)
    (agrees : ∀ answer other sides, known.holds sides → (agree answer other).holds sides →
      (last (change answer) (rename other)).holds sides) :
    Follows seam stance known last (change <$> left) (rename <$> right) := by
  rw [map_eq_pure_bind, map_eq_pure_bind]
  exact .bind reading fun answer other =>
    .of_anywhere (.pure fun sides ⟨holds, alike⟩ => agrees _ _ sides holds alike)

/-- An answer that is there. -/
theorem present (reading : Follows seam stance known agree left right) :
    Follows seam stance known (.maybe agree) (some <$> left) (some <$> right) :=
  .map reading fun _ _ _ _ => id

/-- A choice by one answer. -/
theorem choose {found : Bool} {leftElse rightElse : Parse α}
    (yes : Follows seam stance known agree left right)
    (no : Follows seam stance known agree leftElse rightElse) :
    Follows seam stance known agree (if found = true then left else leftElse)
      (if found = true then right else rightElse) := by
  cases found with
  | true => exact yes
  | false => exact no

/-- A loop whose rounds run anywhere where it does. -/
theorem loop {leftRound rightRound : α → Parse (ForInStep α)} (sameStance : stance.after = stance)
    (count : Nat) {start other : α}
    (starts : ∀ sides, known.holds sides → (agree start other).holds sides)
    (round : ∀ state its, Follows seam stance (known.and (agree state its)) (Agreement.round agree)
      (leftRound state) (rightRound its)) :
    Follows seam stance known agree (Grammar.repeatWithin leftRound count start)
      (Grammar.repeatWithin rightRound count other) := by
  induction count generalizing known start other with
  | zero => exact .of_anywhere (.pure starts)
  | succ count ih =>
    have first := (round start other).weaken fun sides holds => ⟨holds, starts sides holds⟩
    refine .bind first fun result its => ?_
    rw [sameStance]
    -- Rounds that do not agree are ruled out by what is known.
    have apart {left right : Parse α} (tame : left.Tame) :
        Follows seam stance (known.and (.of False)) agree left right :=
      ⟨tame, fun _ _ _ holds => holds.2.elim⟩
    have tame (state : α) : (Grammar.repeatWithin leftRound count state).Tame :=
      .loop (fun state => (round state state).tame) count state
    cases result with
    | done state =>
      cases its with
      | done its => exact .of_anywhere (.pure fun _ holds => holds.2)
      | yield its => exact apart (.pure state)
    | yield state =>
      cases its with
      | done its => exact apart (tame state)
      | yield its =>
        exact ih (fun _ holds => holds.2) fun state its =>
          (round state its).weaken fun _ holds => ⟨holds.1.1, holds.2⟩

end Parse.Follows

namespace Parse.Shuts

variable {α β : Type} {seam : Seam} {stance : Stance} {known weaker : Lasting}
  {agree between : Agreement α} {last : Agreement β} {left right : Parse α}
  {leftNext rightNext : α → Parse β}

/-- So it is where a stance says. -/
theorem within (reading : Shuts seam known agree left right) :
    Follows seam stance known agree left right :=
  reading.toFollows.of_anywhere

/-- A reading that never succeeds. -/
theorem barren (barren : left.Barren) : Shuts seam known agree left right :=
  ⟨.barren barren, fun here answer after goesOn _ => barren.fails here answer after goesOn⟩

/-- What needs a token which closes something, after other readings. -/
theorem after (reading : Follows seam .inside known between left right)
    (next : ∀ answer other,
      Shuts seam (known.and (between answer other)) last (leftNext answer) (rightNext other)) :
    Shuts seam known last (left >>= leftNext) (right >>= rightNext) := by
  have parts {here after : Parser} {answer : β} (goesOn : here.isHalted = false)
      (gives : (left >>= leftNext).Gives here answer after) :=
    reading.tame.parts (fun answer => (next answer answer).tame) goesOn gives
  have closes : (left >>= leftNext).Refuses Cursor.Spent := by
    intro here answer after goesOn spent gives
    obtain ⟨between, middle, first, stillOn, later, _⟩ := parts goesOn gives
    have onward := reading.tame.onward here between middle goesOn first
    exact (next between between).closes middle answer after stillOn (spent.onward onward) later
  refine ⟨⟨.bind reading.tame fun answer => (next answer answer).tame,
    fun here there beside holds _ answer after gives => .inr ?_⟩, closes⟩
  obtain ⟨between, middle, first, stillOn, later, _⟩ := parts beside.goesOn.1 gives
  have unspent : ¬here.cursor.Spent := fun spent =>
    closes here answer after beside.goesOn.1 spent gives
  rcases reading.follows here there beside holds unspent between middle first with
    ⟨_, spent⟩ | catches
  · exact ((next between between).closes middle answer after stillOn spent later).elim
  · exact catches.bind fun other there' kept grows agrees =>
      (next between other).catchesUp rfl kept ⟨known.mono grows holds, agrees⟩ trivial later

/-- What needs a token which closes something, after a reading with the same answer on both sides. -/
theorem afterSame (reading : Follows seam .inside known .same left right)
    (next : ∀ answer, Shuts seam known last (leftNext answer) (rightNext answer)) :
    Shuts seam known last (left >>= leftNext) (right >>= rightNext) :=
  .after reading fun answer _ => ⟨.ofSame fun answer => (next answer).toFollows,
    (next answer).closes⟩

/-- What needs a token which closes something, before other readings. -/
theorem before (reading : Shuts seam known between left right)
    (next : ∀ answer other, Follows seam .anywhere (known.and (between answer other)) last
      (leftNext answer) (rightNext other)) :
    Shuts seam known last (left >>= leftNext) (right >>= rightNext) :=
  ⟨.bind reading.toFollows next,
    reading.closes.bind reading.tame fun answer => (next answer answer).tame⟩

end Parse.Shuts

end Vibescript
