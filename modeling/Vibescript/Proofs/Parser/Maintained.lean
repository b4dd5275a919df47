import Vibescript.Proofs.Parser.Alike

/-!
# What every reading maintains

A property of parsers that every quiet step and every report keeps is kept by every production, and
with it by the reading of a whole text at any nesting limit. `Parser.Maintains` names the
conditions; a failure has a property of its own, which a report turns back into the first. The
levels of the grammar are climbed once, in `settles_descend`, for any account of where a level can
be entered.
-/
namespace Vibescript

open Cursor

/-- The parser after an error was reported. -/
def Parser.reported (recovery : RecoveryMode) (error : ParseError) (parser : Parser) : Parser :=
  if parser.isHalted then parser
  else
    { parser with
      errors := parser.errors.push error
      isHalted := recovery == .failFast || error.code == .nestingTooDeep }

/-- Reporting an error leaves the cursor. -/
theorem Parser.cursor_reported (recovery : RecoveryMode) (error : ParseError) (parser : Parser) :
    (parser.reported recovery error).cursor = parser.cursor := by
  unfold reported
  split <;> rfl

/-- A parser after an error was reported is not further. -/
theorem Parser.onward_reported (recovery : RecoveryMode) (error : ParseError) (parser : Parser) :
    parser.cursor.Onward (parser.reported recovery error).cursor := by
  rw [cursor_reported]
  exact .refl _

/-- Whether a parser skips the rest of the text at the next statement. -/
def Parser.halts (recovery : RecoveryMode) (parser : Parser) : Bool :=
  parser.isHalted || (recovery == .failFast && parser.cursor.hasLexicalErrors)

/-- A property of parsers is maintained, and failures have another. -/
structure Parser.Maintains (recovery : RecoveryMode) (holds : Parser → Prop)
    (fails : ParseError → Parser → Prop) : Prop where
  /-- Quiet steps keep the property. -/
  quiet : ∀ before after : Parser, before.Quiet after → holds before → holds after
  /-- Finding the current token where others were expected is a failure. -/
  unexpected : ∀ (error : ParseError) (parser : Parser), holds parser →
    error.code.category = .grammatical → error.span = parser.cursor.current.span →
      fails error parser
  /-- After a failure was reported, the property holds again. -/
  reported : ∀ (error : ParseError) (parser : Parser), fails error parser →
    holds (parser.reported recovery error)

/-- From a parser, a reading goes onward; it succeeds with one property or fails with another. -/
def Parse.Settles {α : Type} (reading : Parse α) (parser : Parser)
    (success : α → Parser → Prop) (fails : ParseError → Parser → Prop) : Prop :=
  reading.Outcome parser
    (fun answer final => parser.cursor.Onward final.cursor ∧ success answer final)
    fun error final => parser.cursor.Onward final.cursor ∧ fails error final

/-- Wherever a reading one level deeper can be entered, it maintains a property. -/
def Grammar.Settled (grammar : Grammar) (rounds : Nat) (enters : Request → Cursor → Prop)
    (holds : Parser → Prop) (fails : ParseError → Parser → Prop) : Prop :=
  ∀ (request : Request) (parser : Parser), enters request parser.cursor → holds parser →
    (grammar.deeper request).Settles parser
      (fun _ final => holds final ∧ final.cursor.Past rounds parser.cursor.current.span.start) fails

namespace Parse.Settles

variable {α β : Type} {reading : Parse α} {next : α → Parse β} {parser : Parser}
  {success : α → Parser → Prop} {last : β → Parser → Prop} {fails : ParseError → Parser → Prop}

/-- What settles later is onward from before. -/
theorem later {middle : Parser} (settles : reading.Settles middle success fails)
    (onward : parser.cursor.Onward middle.cursor) :
    reading.Outcome middle
      (fun answer final => parser.cursor.Onward final.cursor ∧ success answer final)
      fun error final => parser.cursor.Onward final.cursor ∧ fails error final :=
  Parse.Outcome.mono settles (fun _ _ ⟨further, ends⟩ => ⟨onward.trans further, ends⟩)
    fun _ _ ⟨further, ends⟩ => ⟨onward.trans further, ends⟩

/-- One reading after another. -/
theorem bind (first : reading.Settles parser success fails)
    (second : ∀ answer final, success answer final → (next answer).Settles final last fails) :
    Parse.Settles (reading >>= next) parser last fails :=
  Parse.Outcome.bind (Parse.Outcome.imp first fun answer middle ⟨onward, holds⟩ =>
    (second answer middle holds).later onward)

/-- A step before a reading. -/
theorem stepped {step : Build α} (onward : parser.cursor.Onward (step parser).2.cursor)
    (second : (next (step parser).1).Settles (step parser).2 last fails) :
    Parse.Settles (liftM step >>= next) parser last fails :=
  Parse.Outcome.bind (second.later onward)

/-- A reading whose failure does not end the reading it is part of. -/
theorem attempt {next : Except ParseError α → Parse β} (first : reading.Settles parser success fails)
    (succeeds : ∀ answer final, success answer final → (next (.ok answer)).Settles final last fails)
    (recovers : ∀ error final, parser.cursor.Onward final.cursor → fails error final →
      (next (.error error)).Settles final last fails) :
    Parse.Settles (liftM reading.run >>= next) parser last fails := by
  rw [Settles, Parse.Outcome] at first
  refine Parse.Outcome.bind (Build.Outcome.lift (first.mono fun result middle holds => ?_))
  cases result with
  | ok answer => exact (succeeds answer middle holds.2).later holds.1
  | error error => exact (recovers error middle holds.1 holds.2).later holds.1

/-- Less is known of a success. -/
theorem imp {weaker : α → Parser → Prop} (settles : reading.Settles parser success fails)
    (implies : ∀ answer final, success answer final → weaker answer final) :
    reading.Settles parser weaker fails :=
  Parse.Outcome.imp settles fun answer final ⟨onward, holds⟩ => ⟨onward, implies answer final holds⟩

/-- More is known of a success. -/
theorem also {kept : Parser → Prop} {known more : α → Cursor → Prop}
    (settles : reading.Settles parser (fun answer final => kept final ∧ known answer final.cursor)
      fails)
    (holds : reading.Outcome parser (fun answer final => more answer final.cursor) fun _ _ => True) :
    reading.Settles parser (fun answer final => kept final ∧ more answer final.cursor) fails :=
  (Parse.Outcome.and settles holds).mono
    (fun _ _ ⟨⟨onward, holds, _⟩, ends⟩ => ⟨onward, holds, ends⟩) fun _ _ ⟨failed, _⟩ => failed

/-- The error of finding the current token is reported. -/
theorem reported {grammar : Grammar} {code : ErrorCode} {expected : TagSet}
    {dress : ParseError → ParseError} {kept : Parser → Prop} {before : Cursor → Prop}
    (holds : kept (parser.reported grammar.options.recovery (dress (.unexpected code expected
      parser.cursor.current.tag parser.cursor.current.span))))
    (stands : before parser.cursor) :
    Parse.Settles
      (liftM (Build.unexpected code expected) >>= fun error => liftM (grammar.report (dress error)))
      parser (fun _ final => kept final ∧ before final.cursor) fails := by
  refine Parse.outcome_unexpected.mpr (.lift ⟨?_, holds, ?_⟩)
  · exact Parser.onward_reported grammar.options.recovery _ parser
  · exact (Parser.cursor_reported grammar.options.recovery _ parser).symm ▸ stands

end Parse.Settles

namespace Grammar

open Build Parse

variable {α : Type} {first second : Grammar} {rounds : Nat} {enters : Request → Cursor → Prop}
  {before : Cursor → Prop} {after : α → Cursor → Prop} {left right : Parse α}
  {holds : Parser → Prop} {fails : ParseError → Parser → Prop}

/-- Parallel readings are parallel the other way round. -/
theorem Parallel.symm (reading : Parallel first second rounds enters before after left right) :
    Parallel second first rounds enters before after right left := by
  induction reading with
  | pure answer holds => exact .pure answer holds
  | step quiet => exact .step quiet
  | bind _ _ ih ihNext => exact .bind ih ihNext
  | fail keeps other => exact .fail keeps other
  | report keeps other => exact .report keeps other
  | deeper request begins ends => exact .deeper request begins ends
  | loop count start _ ih => exact .loop count start ih
  | attempt floor reached _ _ leftFails rightFails _ ih ihNext ihRest =>
    exact .attempt floor reached ih ihNext rightFails leftFails ihRest
  | halt answer stops _ ih => exact .halt answer stops ih
  | imp enough weakens _ ih => exact .imp enough weakens ih
  | also _ leftHolds rightHolds ih => exact .also ih rightHolds leftHolds
  | never unreached => exact .never unreached

/-- A reading maintains what quiet steps, failures and reports maintain. -/
theorem Parallel.settles (reading : Parallel first second rounds enters before after left right)
    (maintains : Parser.Maintains first.options.recovery holds fails)
    (deeper : first.Settled rounds enters holds fails) (parser : Parser)
    (stands : before parser.cursor) (start : holds parser) :
    left.Settles parser (fun answer final => holds final ∧ after answer final.cursor) fails := by
  induction reading generalizing parser with
  | pure answer implies => exact .pure ⟨.refl _, start, implies _ stands⟩
  | step quiet =>
    obtain ⟨steps, ends⟩ := quiet parser stands
    exact .lift ⟨steps.onward, maintains.quiet _ _ steps start, ends⟩
  | bind _ _ ih ihNext =>
    exact (ih parser stands start).bind fun answer final ⟨kept, ends⟩ =>
      ihNext answer final ends kept
  | @fail _ _ _ code expected dress keeps family =>
    obtain ⟨sameCode, sameSpan⟩ := keeps (.unexpected code expected parser.cursor.current.tag
      parser.cursor.current.span)
    refine Parse.outcome_unexpected.mpr (.throw ⟨.refl _, ?_⟩)
    exact maintains.unexpected _ _ start ((congrArg ErrorCode.category sameCode).trans family)
      sameSpan
  | @report _ code expected dress keeps family =>
    obtain ⟨sameCode, sameSpan⟩ := keeps (.unexpected code expected parser.cursor.current.tag
      parser.cursor.current.span)
    have failed := maintains.unexpected _ _ start
      ((congrArg ErrorCode.category sameCode).trans family) sameSpan
    exact .reported (maintains.reported _ _ failed) stands
  | deeper request begins ends =>
    exact (deeper request parser (begins _ stands) start).imp fun id final ⟨kept, past⟩ =>
      ⟨kept, ends _ _ id stands past⟩
  | loop count state _ ih =>
    induction count generalizing state parser with
    | zero => exact .pure ⟨.refl _, start, stands⟩
    | succ count again =>
      refine (ih state parser stands start).bind fun result final ⟨kept, ends⟩ => ?_
      cases result with
      | done state => exact .pure ⟨.refl _, kept, ends⟩
      | yield state => exact again state final ends kept
  | attempt floor reached _ _ leftFails _ _ ih ihNext ihRest =>
    refine (ih parser stands start).attempt ?_ ?_
    · exact fun answer final ⟨kept, ends⟩ => ihNext answer final ends kept
    · intro error final onward failed
      have recovered := (reached _ stands).onward onward
      rw [← Parser.cursor_reported first.options.recovery error final] at recovered
      rw [leftFails]
      exact .stepped (Parser.onward_reported first.options.recovery error final)
        (ihRest _ recovered (maintains.reported _ _ failed))
  | halt answer stops _ ih =>
    refine .stepped (.refl _) ?_
    split
    · have skips := isQuiet_skipToEnd parser
      exact .stepped skips.onward
        (.pure ⟨.refl _, maintains.quiet _ _ skips start, stops _ stands⟩)
    · exact ih parser stands start
  | imp enough weakens _ ih =>
    exact (ih parser (enough _ stands) start).imp fun answer final ⟨kept, ends⟩ =>
      ⟨kept, weakens _ _ ends⟩
  | also _ leftHolds _ ih =>
    exact (ih parser stands start).also (leftHolds parser stands)
  | never unreached => exact absurd stands (unreached _)

end Grammar

end Vibescript
