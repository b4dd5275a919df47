import Vibescript.Proofs.Parser.Maintained
import Vibescript.Proofs.Parser.Program

/-!
# The levels of the grammar

The readings of a level are the productions over the level below. A `Grammar.Ladder` says at which
cursors each level can be entered so that whatever a level reads deeper can be entered as well.
What every production maintains is then maintained by every level, and by the reading of a whole
text.
-/
namespace Vibescript

open Cursor

namespace Grammar

open Build Parse

/-- The grammar with so many levels below it. -/
def level (options : ParseOptions) (soft : SoftNames) (rounds levels : Nat) : Grammar :=
  ⟨options, soft, rounds, descend options soft rounds levels⟩

/-- The reading of a request. -/
def reading (grammar : Grammar) : Request → Parse NodeId
  | .statement => grammar.statement
  | .expression least => grammar.expressionFrom least
  | .operand => grammar.operand

/-- A level reads with the productions over the level below. -/
theorem descend_succ (options : ParseOptions) (soft : SoftNames) (rounds levels : Nat)
    (request : Request) :
    descend options soft rounds (levels + 1) request =
      (level options soft rounds levels).reading request := by
  cases request <;> rfl

/-- The outermost level has as many levels below it as the nesting limit says. -/
theorem outermost_eq (options : ParseOptions) (soft : SoftNames) (rounds : Nat) :
    outermost options soft rounds = level options soft rounds options.maxDepth := rfl

/-- Where the levels can be entered. -/
structure Ladder (rounds : Nat) (enters : Nat → Request → Cursor → Prop) : Prop where
  /-- A reading begins at a cursor of a text. -/
  stands : ∀ (levels : Nat) (request : Request) (cursor : Cursor), enters levels request cursor →
    cursor.Reaches rounds 0
  /-- What a reading reads deeper begins past where it begins. -/
  deeper : ∀ (levels : Nat) (request other : Request) (cursor later : Cursor),
    enters (levels + 1) request cursor → later.Reaches rounds (cursor.current.span.start + 1) →
    enters levels other later
  /-- The expression of a statement begins where the statement does. -/
  begins : ∀ (levels : Nat) (cursor later : Cursor), enters (levels + 1) .statement cursor →
    later.Reaches rounds cursor.current.span.start → enters levels (.expression .assignment) later

/-- Every level can be entered from any cursor of a text. -/
def anywhere (rounds : Nat) : Nat → Request → Cursor → Prop :=
  fun _ _ cursor => cursor.Reaches rounds 0

/-- What is read deeper can be entered as well. -/
theorem ladder_anywhere (rounds : Nat) : Ladder rounds (anywhere rounds) :=
  ⟨fun _ _ _ entered => entered, fun _ _ _ _ _ _ later => later.mono (Nat.zero_le _) id,
    fun _ _ _ _ later => later.mono (Nat.zero_le _) id⟩

variable {soft : SoftNames} {rounds : Nat} {enters : Nat → Request → Cursor → Prop}

/-- Wherever it can be entered, a request is read side by side. -/
theorem Ladder.parallel (ladder : Ladder rounds enters) (options others : ParseOptions)
    (more fewer : Nat) {levels : Nat} {request : Request} {cursor : Cursor}
    (entered : enters (levels + 1) request cursor) :
    Parallel (level options soft rounds more) (level others soft rounds fewer) rounds
      (enters levels) (Reaches rounds cursor.current.span.start)
      (fun _ => Past rounds cursor.current.span.start)
      ((level options soft rounds more).reading request)
      ((level others soft rounds fewer).reading request) := by
  have alike : Alike (level options soft rounds more) (level others soft rounds fewer) rounds
      (enters levels) cursor.current.span.start :=
    ⟨rfl, rfl, rfl, fun other later => ladder.deeper levels request other cursor later entered⟩
  cases request with
  | statement => exact alike.statement fun later => ladder.begins levels cursor later entered
  | expression least => exact alike.expressionFrom least
  | operand => exact alike.operand

/-- The statements of a text are read side by side. -/
theorem parallel_body (options others : ParseOptions) (more fewer : Nat) {levels : Nat}
    (entered : ∀ (request : Request) (cursor : Cursor), cursor.Reaches rounds 0 →
      enters levels request cursor) :
    Parallel (level options soft rounds more) (level others soft rounds fewer) rounds
      (enters levels) (Reaches rounds 0) (fun _ => Reaches rounds 0)
      (liftM ((level options soft rounds more).body .empty))
      (liftM ((level others soft rounds fewer).body .empty)) := by
  have alike : Alike (level options soft rounds more) (level others soft rounds fewer) rounds
      (enters levels) 0 :=
    ⟨rfl, rfl, rfl, fun other later stands => entered other later stands.lower⟩
  exact alike.body (entered .statement) .empty

end Grammar

namespace Parser

open Grammar

variable (options : ParseOptions) (soft : SoftNames) {rounds : Nat}
  {enters : Nat → Request → Cursor → Prop} {holds : Parser → Prop}
  {fails : ParseError → Parser → Prop}

/-- The parser that skipped the rest of the text. -/
def skipped (parser : Parser) : Parser := parser.withCursor parser.cursor.skipToEnd

/-- The error of refusing to go deeper. -/
def refusal (limit : Nat) (parser : Parser) : ParseError :=
  .ofFault .nestingTooDeep (.nesting ⟨limit⟩) parser.cursor.current.span

/-- Refusing skips the rest of the text and fails at the current token. -/
theorem run_refuse (limit : Nat) (parser : Parser) :
    (refuse limit).run parser = (.error (parser.refusal limit), parser.skipped) := rfl

/-- Every level maintains what the productions maintain, if the level that refuses does. -/
theorem Maintains.settled (maintains : Maintains options.recovery holds fails)
    (ladder : Ladder rounds enters)
    (refuses : ∀ (request : Request) (parser : Parser), enters 0 request parser.cursor →
      holds parser → fails (parser.refusal options.maxDepth) parser.skipped)
    (levels : Nat) :
    (level options soft rounds levels).Settled rounds (enters levels) holds fails := by
  induction levels with
  | zero =>
    intro request parser entered start
    exact ⟨(Build.isQuiet_skipToEnd parser).onward, refuses request parser entered start⟩
  | succ levels ih =>
    intro request parser entered start
    show (descend options soft rounds (levels + 1) request).Settles parser _ fails
    rw [descend_succ]
    exact (ladder.parallel options options levels levels entered).settles maintains ih parser
      (ladder.stands _ _ _ entered).here start

/-- The reading of a text maintains what every level maintains. -/
theorem Maintains.program (maintains : Maintains options.recovery holds fails)
    (settled : (level options soft rounds options.maxDepth).Settled rounds (enters options.maxDepth)
      holds fails)
    (entered : ∀ (request : Request) (cursor : Cursor), cursor.Reaches rounds 0 →
      enters options.maxDepth request cursor)
    {parser : Parser} (stands : parser.cursor.Reaches rounds 0) (start : holds parser) :
    Build.Outcome (outermost options soft rounds).program parser fun _ final =>
      holds final ∧ final.cursor.Reaches rounds 0 := by
  have body := (parallel_body options options options.maxDepth options.maxDepth entered).settles
    maintains settled parser stands start
  refine .bind (Build.Outcome.mono (show Build.Outcome (Grammar.body _ .empty) parser fun _ final =>
    parser.cursor.Onward final.cursor ∧ holds final ∧ final.cursor.Reaches rounds 0 from body)
    fun range final ⟨_, kept, ends⟩ => ?_)
  exact ⟨maintains.quiet final _ ⟨.refl _, rfl, rfl⟩ kept, ends⟩

end Parser

end Vibescript
