import Vibescript.Parser.Program

/-!
# What readings do

A step and a reading are described by what holds after them: a reading by what holds when it
succeeds and by what holds when it fails. The rules follow the way in which readings are put
together. A loop keeps an invariant with a count that every round makes smaller; as long as the
count is below the bound on rounds, the bound is not reached.
-/
namespace Vibescript

variable {α β : Type}

/-- A step from a parser ends in an answer and a parser with a property. -/
def Build.Outcome (step : Build α) (parser : Parser) (property : α → Parser → Prop) : Prop :=
  property (step parser).1 (step parser).2

/-- A reading from a parser succeeds with one property or fails with another. -/
def Parse.Outcome (reading : Parse α) (parser : Parser) (success : α → Parser → Prop)
    (failure : ParseError → Parser → Prop) : Prop :=
  Build.Outcome reading.run parser fun result after =>
    match result with
    | .ok answer => success answer after
    | .error error => failure error after

/-- What one round of a loop leads to: the end of the loop with a property, or the next round with
an invariant and a smaller count. -/
def Round (invariant : Nat → α → Parser → Prop) (property : α → Parser → Prop) (count : Nat) :
    ForInStep α → Parser → Prop
  | .yield state, after => ∃ fewer < count, invariant fewer state after
  | .done state, after => property state after

namespace Build.Outcome

variable {step : Build α} {next : α → Build β} {parser : Parser}
  {property weaker : α → Parser → Prop} {last : β → Parser → Prop}

/-- A weaker property holds as well. -/
theorem mono (outcome : step.Outcome parser property)
    (implies : ∀ answer after, property answer after → weaker answer after) :
    step.Outcome parser weaker :=
  implies _ _ outcome

/-- Two properties hold together. -/
theorem and (left : step.Outcome parser property) (right : step.Outcome parser weaker) :
    step.Outcome parser fun answer after => property answer after ∧ weaker answer after :=
  ⟨left, right⟩

/-- One step after another. -/
theorem bind (first : step.Outcome parser fun answer after => (next answer).Outcome after last) :
    Build.Outcome (step >>= next) parser last :=
  first

/-- A step that only answers. -/
theorem pure {answer : α} (holds : property answer parser) :
    Build.Outcome (Pure.pure answer) parser property :=
  holds

/-- A step as a reading, which cannot fail. -/
theorem lift {failure : ParseError → Parser → Prop} (outcome : step.Outcome parser property) :
    Parse.Outcome (liftM step) parser property failure :=
  outcome

/-- Repeating a step keeps an invariant until the step is done. -/
theorem repeatWithin {round : α → Build (ForInStep α)} (invariant : Nat → α → Parser → Prop)
    (keeps : ∀ count state parser, invariant count state parser →
      (round state).Outcome parser (Round invariant property count))
    {rounds count : Nat} (enough : count < rounds) {state : α}
    (start : invariant count state parser) :
    (Grammar.repeatWithin round rounds state).Outcome parser property := by
  induction rounds generalizing count state parser with
  | zero => omega
  | succ rounds ih =>
    refine bind ((keeps count state parser start).mono fun result after holds => ?_)
    cases result with
    | yield state =>
      obtain ⟨fewer, less, holds⟩ := holds
      exact ih (by omega) holds
    | done state => exact pure holds

/-- Repeating a step so many rounds ends it with a property, or leaves the invariant. -/
theorem repeatUpTo {round : α → Build (ForInStep α)} (invariant : Nat → α → Parser → Prop)
    (keeps : ∀ count state parser, invariant count state parser →
      (round state).Outcome parser (Round invariant property count))
    (rounds : Nat) {count : Nat} {state : α} (start : invariant count state parser) :
    (Grammar.repeatWithin round rounds state).Outcome parser fun state after =>
      property state after ∨ ∃ count, invariant count state after := by
  induction rounds generalizing count state parser with
  | zero => exact pure (.inr ⟨count, start⟩)
  | succ rounds ih =>
    refine bind ((keeps count state parser start).mono fun result after holds => ?_)
    cases result with
    | yield state =>
      obtain ⟨_, _, holds⟩ := holds
      exact ih holds
    | done state => exact pure (.inl holds)

end Build.Outcome

namespace Parse.Outcome

variable {reading : Parse α} {next : α → Parse β} {parser : Parser}
  {success stronger : α → Parser → Prop} {failure worse : ParseError → Parser → Prop}
  {last : β → Parser → Prop}

/-- Weaker properties hold as well. -/
theorem mono (outcome : reading.Outcome parser stronger worse)
    (succeeds : ∀ answer after, stronger answer after → success answer after)
    (fails : ∀ error after, worse error after → failure error after) :
    reading.Outcome parser success failure := by
  refine Build.Outcome.mono outcome fun result after holds => ?_
  cases result with
  | ok answer => exact succeeds answer after holds
  | error error => exact fails error after holds

/-- A weaker property holds after success as well. -/
theorem imp (outcome : reading.Outcome parser stronger failure)
    (succeeds : ∀ answer after, stronger answer after → success answer after) :
    reading.Outcome parser success failure :=
  outcome.mono succeeds fun _ _ holds => holds

/-- Two descriptions hold together. -/
theorem and (left : reading.Outcome parser success failure)
    (right : reading.Outcome parser stronger worse) :
    reading.Outcome parser (fun answer after => success answer after ∧ stronger answer after)
      fun error after => failure error after ∧ worse error after := by
  refine Build.Outcome.mono (Build.Outcome.and left right) fun result after holds => ?_
  cases result with
  | ok answer => exact holds
  | error error => exact holds

/-- One reading after another. -/
theorem bind (first : reading.Outcome parser
      (fun answer after => (next answer).Outcome after last failure) failure) :
    Parse.Outcome (reading >>= next) parser last failure := by
  rw [Parse.Outcome, ExceptT.run_bind]
  refine Build.Outcome.bind (Build.Outcome.mono first fun result after holds => ?_)
  cases result with
  | ok answer => exact holds
  | error error => exact holds

/-- A reading that only answers. -/
theorem pure {answer : α} (holds : success answer parser) :
    Parse.Outcome (Pure.pure answer) parser success failure :=
  holds

/-- A reading that only fails. -/
theorem throw {error : ParseError} (holds : failure error parser) :
    Parse.Outcome (MonadExcept.throw error : Parse α) parser success failure :=
  holds

/-- A reading whose answer is changed. -/
theorem map {change : α → β}
    (outcome : reading.Outcome parser (fun answer after => last (change answer) after) failure) :
    Parse.Outcome (change <$> reading) parser last failure := by
  rw [map_eq_pure_bind]
  exact bind (outcome.imp fun answer after holds => pure holds)

/-- Repeating a reading keeps an invariant until the reading is done or fails. -/
theorem repeatWithin {round : α → Parse (ForInStep α)} (invariant : Nat → α → Parser → Prop)
    (keeps : ∀ count state parser, invariant count state parser →
      (round state).Outcome parser (Round invariant success count) failure)
    {rounds count : Nat} (enough : count < rounds) {state : α}
    (start : invariant count state parser) :
    Parse.Outcome (Grammar.repeatWithin round rounds state) parser success failure := by
  induction rounds generalizing count state parser with
  | zero => omega
  | succ rounds ih =>
    refine bind ((keeps count state parser start).imp fun result after holds => ?_)
    cases result with
    | yield state =>
      obtain ⟨fewer, less, holds⟩ := holds
      exact ih (by omega) holds
    | done state => exact pure holds

end Parse.Outcome

/-! Questions about the present state change nothing, and their answer is known. -/

section

variable {parser : Parser} {success : α → Parser → Prop} {failure : ParseError → Parser → Prop}

/-- Asking for the cursor. -/
theorem Build.outcome_cursor {next : Cursor → Build α} :
    Build.Outcome (Build.cursor >>= next) parser success ↔
      (next parser.cursor).Outcome parser success := Iff.rfl

/-- Asking for the tag of the current token. -/
theorem Build.outcome_currentTag {next : Tag → Build α} :
    Build.Outcome (Build.currentTag >>= next) parser success ↔
      (next parser.cursor.current.tag).Outcome parser success := Iff.rfl

/-- Asking for the cursor. -/
theorem Parse.outcome_cursor {next : Cursor → Parse α} :
    Parse.Outcome (liftM Build.cursor >>= next) parser success failure ↔
      (next parser.cursor).Outcome parser success failure := Iff.rfl

/-- Asking for the current token. -/
theorem Parse.outcome_current {next : Token Name → Parse α} :
    Parse.Outcome (liftM Build.current >>= next) parser success failure ↔
      (next parser.cursor.current).Outcome parser success failure := Iff.rfl

/-- Asking for the tag of the current token. -/
theorem Parse.outcome_currentTag {next : Tag → Parse α} :
    Parse.Outcome (liftM Build.currentTag >>= next) parser success failure ↔
      (next parser.cursor.current.tag).Outcome parser success failure := Iff.rfl

/-- Asking for the span of a node. -/
theorem Parse.outcome_nodeSpan {id : NodeId} {next : Span → Parse α} :
    Parse.Outcome (liftM (Build.nodeSpan id) >>= next) parser success failure ↔
      (next (parser.arena.span id)).Outcome parser success failure := Iff.rfl

/-- Asking whether the current token has a tag. -/
theorem Parse.outcome_check {tag : Tag} {next : Bool → Parse α} :
    Parse.Outcome (liftM (Build.check tag) >>= next) parser success failure ↔
      (next (parser.cursor.check tag)).Outcome parser success failure := Iff.rfl

/-- Asking for the error of finding the current token. -/
theorem Parse.outcome_unexpected {code : ErrorCode} {expected : TagSet}
    {next : ParseError → Parse α} :
    Parse.Outcome (liftM (Build.unexpected code expected) >>= next) parser success failure ↔
      (next (.unexpected code expected parser.cursor.current.tag
        parser.cursor.current.span)).Outcome parser success failure := Iff.rfl

end

end Vibescript
