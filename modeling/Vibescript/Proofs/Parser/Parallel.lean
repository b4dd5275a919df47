import Vibescript.Proofs.Cursor.Places
import Vibescript.Proofs.Parser.Steps

/-!
# Readings side by side

A production reaches the level below through `Grammar.deeper` only, and what it does about errors
depends on the options only. So one production of two grammars takes the same steps, up to
what happens one level deeper and up to the error at which a parse stops.
`Grammar.Parallel` is this relation, together with what is known of the cursor before and after
the steps. What holds of parallel readings is then proved once, by induction on the relation,
with a case for each way in which readings are put together.
-/
namespace Vibescript

namespace Parser

/-- A step that moves the cursor onward and reports no error. -/
structure Quiet (before after : Parser) : Prop where
  /-- The cursor goes onward. -/
  onward : before.cursor.Onward after.cursor
  /-- The errors stay. -/
  errors : after.errors = before.errors
  /-- A parser is halted by errors only. -/
  halted : after.isHalted = before.isHalted

/-- Nothing happens. -/
theorem Quiet.refl (parser : Parser) : parser.Quiet parser := ⟨.refl _, rfl, rfl⟩

/-- One quiet step after another. -/
theorem Quiet.trans {first second third : Parser} (left : first.Quiet second)
    (right : second.Quiet third) : first.Quiet third :=
  ⟨left.onward.trans right.onward, right.errors.trans left.errors, right.halted.trans left.halted⟩

end Parser

namespace Build

variable {α β : Type}

/-- A step that is quiet wherever it starts. -/
def IsQuiet (step : Build α) : Prop := ∀ parser : Parser, parser.Quiet (step parser).2

/-- A step that only answers. -/
theorem IsQuiet.pure (answer : α) : IsQuiet (Pure.pure answer) := Parser.Quiet.refl

/-- One quiet step after another. -/
theorem IsQuiet.bind {step : Build α} {next : α → Build β} (first : step.IsQuiet)
    (second : ∀ answer, (next answer).IsQuiet) : IsQuiet (step >>= next) :=
  fun parser => (first parser).trans (second _ _)

/-- A step of the cursor. -/
theorem isQuiet_onCursor {step : Cursor → α × Cursor}
    (onward : ∀ cursor : Cursor, cursor.Onward (step cursor).2) : IsQuiet (onCursor step) :=
  fun parser => ⟨onward parser.cursor, rfl, rfl⟩

/-- A step of the arena. -/
theorem isQuiet_onArena (step : Arena → α × Arena) : IsQuiet (onArena step) :=
  fun _ => ⟨.refl _, rfl, rfl⟩

/-- A step that leaves the cursor and the errors alone. -/
theorem isQuiet_still {step : Build α} (still : ∀ parser : Parser,
      (step parser).2.cursor = parser.cursor ∧ (step parser).2.errors = parser.errors ∧
        (step parser).2.isHalted = parser.isHalted) : IsQuiet step := by
  intro parser
  obtain ⟨cursor, errors, halted⟩ := still parser
  refine ⟨?_, errors, halted⟩
  rw [cursor]
  exact .refl _

/-- Skipping the rest of the text. -/
theorem isQuiet_skipToEnd : IsQuiet skipToEnd :=
  isQuiet_onCursor fun cursor => cursor.onward_skipUntil fun _ => false

/-- Interning texts one after another. -/
theorem isQuiet_internAll (texts : List String) : IsQuiet (texts.mapM intern) := by
  induction texts with
  | nil => exact .pure _
  | cons text texts ih =>
    rw [List.mapM_cons]
    exact .bind (isQuiet_onCursor fun cursor => cursor.onward_intern text) fun _ =>
      .bind ih fun _ => .pure _

/-- A claimed directive becomes a node. -/
theorem isQuiet_directive (token : Token Name) : IsQuiet (Grammar.directive token) := by
  unfold Grammar.directive
  split
  · exact isQuiet_onArena _
  · exact .bind (isQuiet_still fun _ => ⟨rfl, rfl, rfl⟩) fun _ => .bind (isQuiet_internAll _)
      fun _ => .bind (isQuiet_onArena _) fun _ => isQuiet_onArena _

/-- A construct is abandoned. -/
theorem isQuiet_abandon (start : Grammar.Checkpoint) : IsQuiet (Grammar.abandon start) := by
  have ends : IsQuiet (do
      onArena fun arena => ((), arena.truncate start.mark)
      let span ← if (← cursor).position == start.position then Pure.pure (Span.point start.start.start)
        else spanFrom start.start
      addNode .error span) := by
    refine .bind (isQuiet_onArena _) fun _ => .bind (isQuiet_still fun _ => ⟨rfl, rfl, rfl⟩)
      fun cursor => ?_
    dsimp only
    split
    · exact .bind (.pure _) fun _ => isQuiet_onArena _
    · exact .bind (isQuiet_still fun _ => ⟨rfl, rfl, rfl⟩) fun _ => isQuiet_onArena _
  refine .bind (isQuiet_still fun _ => ⟨rfl, rfl, rfl⟩) fun cursor => ?_
  dsimp only
  split
  · exact .bind (isQuiet_onCursor Cursor.onward_advance) fun _ => ends
  · exact ends

end Build

namespace Grammar

open Build Parse

/-- Readings that take the same steps, from cursors with a property to cursors with a property
that depends on the answer. The readings one level deeper begin where they can be entered. -/
inductive Parallel (first second : Grammar) (rounds : Nat) (enters : Request → Cursor → Prop) :
    {α : Type} → (Cursor → Prop) → (α → Cursor → Prop) → Parse α → Parse α → Prop
  /-- An answer. -/
  | pure {α : Type} {before : Cursor → Prop} {after : α → Cursor → Prop} (answer : α)
      (holds : ∀ cursor, before cursor → after answer cursor) :
      Parallel first second rounds enters before after (Pure.pure answer) (Pure.pure answer)
  /-- The same quiet step. -/
  | step {α : Type} {before : Cursor → Prop} {after : α → Cursor → Prop} {step : Build α}
      (quiet : ∀ parser : Parser, before parser.cursor →
        parser.Quiet (step parser).2 ∧ after (step parser).1 (step parser).2.cursor) :
      Parallel first second rounds enters before after (liftM step) (liftM step)
  /-- One reading after another. -/
  | bind {α β : Type} {before : Cursor → Prop} {between : α → Cursor → Prop}
      {after : β → Cursor → Prop} {left right : Parse α} {leftNext rightNext : α → Parse β}
      (reading : Parallel first second rounds enters before between left right)
      (next : ∀ answer, Parallel first second rounds enters (between answer) after
        (leftNext answer) (rightNext answer)) :
      Parallel first second rounds enters before after (left >>= leftNext) (right >>= rightNext)
  /-- The error of finding the current token. -/
  | fail {α : Type} {before : Cursor → Prop} {after : α → Cursor → Prop} {code : ErrorCode}
      {expected : TagSet} {dress : ParseError → ParseError}
      (keeps : ∀ error, (dress error).code = error.code ∧ (dress error).span = error.span)
      (family : code.category = .grammatical) :
      Parallel first second rounds enters before after
        (liftM (unexpected code expected) >>= fun error => throw (dress error))
        (liftM (unexpected code expected) >>= fun error => throw (dress error))
  /-- The error of finding the current token, reported without failing. -/
  | report {before : Cursor → Prop} {code : ErrorCode} {expected : TagSet}
      {dress : ParseError → ParseError}
      (keeps : ∀ error, (dress error).code = error.code ∧ (dress error).span = error.span)
      (family : code.category = .grammatical) :
      Parallel first second rounds enters before (fun _ => before)
        (liftM (unexpected code expected) >>= fun error => liftM (first.report (dress error)))
        (liftM (unexpected code expected) >>= fun error => liftM (second.report (dress error)))
  /-- A reading one level deeper. -/
  | deeper {before : Cursor → Prop} {after : NodeId → Cursor → Prop} (request : Request)
      (begins : ∀ cursor, before cursor → enters request cursor)
      (ends : ∀ cursor final id, before cursor →
        final.Past rounds cursor.current.span.start → after id final) :
      Parallel first second rounds enters before after (first.deeper request)
        (second.deeper request)
  /-- A loop. -/
  | loop {α : Type} {before : Cursor → Prop} {left right : α → Parse (ForInStep α)} (count : Nat)
      (start : α) (round : ∀ state, Parallel first second rounds enters before (fun _ => before)
        (left state) (right state)) :
      Parallel first second rounds enters before (fun _ => before)
        (repeatWithin left count start) (repeatWithin right count start)
  /-- A construct that is reported and recovered from when it fails. -/
  | attempt {α β : Type} {before : Cursor → Prop} {between : α → Cursor → Prop}
      {after : β → Cursor → Prop} {left right : Parse α}
      {leftNext rightNext : Except ParseError α → Parse β} {leftRest rightRest : Parse β}
      (floor : Nat) (reached : ∀ cursor, before cursor → cursor.Reaches rounds floor)
      (reading : Parallel first second rounds enters before between left right)
      (succeeds : ∀ answer, Parallel first second rounds enters (between answer) after
        (leftNext (.ok answer)) (rightNext (.ok answer)))
      (leftFails : ∀ error, leftNext (.error error) =
        (liftM (first.report error) >>= fun _ => leftRest))
      (rightFails : ∀ error, rightNext (.error error) =
        (liftM (second.report error) >>= fun _ => rightRest))
      (recovers : Parallel first second rounds enters (Cursor.Reaches rounds floor) after
        leftRest rightRest) :
      Parallel first second rounds enters before after (liftM left.run >>= leftNext)
        (liftM right.run >>= rightNext)
  /-- A place where a halted parse skips the rest of the text. -/
  | halt {α : Type} {before : Cursor → Prop} {after : α → Cursor → Prop} {left right : Parse α}
      (answer : α) (stops : ∀ cursor, before cursor → after answer cursor.skipToEnd)
      (goesOn : Parallel first second rounds enters before after left right) :
      Parallel first second rounds enters before after
        (liftM first.shouldHalt >>= fun halts =>
          if halts = true then liftM skipToEnd >>= fun _ => Pure.pure answer else left)
        (liftM second.shouldHalt >>= fun halts =>
          if halts = true then liftM skipToEnd >>= fun _ => Pure.pure answer else right)
  /-- Less is known. -/
  | imp {α : Type} {before stronger : Cursor → Prop} {after weaker : α → Cursor → Prop}
      {left right : Parse α} (enough : ∀ cursor, before cursor → stronger cursor)
      (weakens : ∀ answer cursor, after answer cursor → weaker answer cursor)
      (reading : Parallel first second rounds enters stronger after left right) :
      Parallel first second rounds enters before weaker left right
  /-- More is known of where a reading succeeds. -/
  | also {α : Type} {before : Cursor → Prop} {after stronger : α → Cursor → Prop}
      {left right : Parse α} (reading : Parallel first second rounds enters before after left right)
      (leftHolds : ∀ parser : Parser, before parser.cursor → left.Outcome parser
        (fun answer final => stronger answer final.cursor) fun _ _ => True)
      (rightHolds : ∀ parser : Parser, before parser.cursor → right.Outcome parser
        (fun answer final => stronger answer final.cursor) fun _ _ => True) :
      Parallel first second rounds enters before stronger left right
  /-- A place that is never reached. -/
  | never {α : Type} {before : Cursor → Prop} {after : α → Cursor → Prop} {left right : Parse α}
      (unreached : ∀ cursor, ¬ before cursor) :
      Parallel first second rounds enters before after left right

namespace Parallel

variable {α β : Type} {first second : Grammar} {rounds floor : Nat}
  {enters : Request → Cursor → Prop} {before : Cursor → Prop} {after : α → Cursor → Prop}
  {tags : Tag → Prop} {tag : Tag}

/-- The answer is changed. -/
theorem map {left right : Parse α} {change : α → β} {last : β → Cursor → Prop}
    (reading : Parallel first second rounds enters before after left right)
    (holds : ∀ answer cursor, after answer cursor → last (change answer) cursor) :
    Parallel first second rounds enters before last (change <$> left) (change <$> right) := by
  rw [map_eq_pure_bind, map_eq_pure_bind]
  exact .bind reading fun answer => .pure _ (holds answer)

/-- Less is known of the current token. -/
theorem weaken {others : Tag → Prop} {left right : Parse α} (implies : ∀ tag, tags tag → others tag)
    (reading : Parallel first second rounds enters (Cursor.At rounds floor others) after left right) :
    Parallel first second rounds enters (Cursor.At rounds floor tags) after left right :=
  .imp (fun _ stands => stands.mono (Nat.le_refl _) (implies _)) (fun _ _ holds => holds) reading

/-- Less is known after a reading. -/
theorem forget {weaker : α → Cursor → Prop} {left right : Parse α}
    (reading : Parallel first second rounds enters before after left right)
    (weakens : ∀ answer cursor, after answer cursor → weaker answer cursor) :
    Parallel first second rounds enters before weaker left right :=
  .imp (fun _ stands => stands) weakens reading

/-- A reading that goes further past an offset goes past it. -/
theorem lower {left right : Parse α} (reading : Parallel first second rounds enters before
      (fun _ => Cursor.Past rounds (floor + 1)) left right) :
    Parallel first second rounds enters before (fun _ => Cursor.Past rounds floor) left right :=
  reading.forget fun _ _ => Cursor.At.lower

/-- A reading can begin later. -/
theorem later {left right : Parse α}
    (reading : Parallel first second rounds enters (Cursor.At rounds floor tags) after left right) :
    Parallel first second rounds enters (Cursor.At rounds (floor + 1) tags) after left right :=
  .imp (fun _ => Cursor.At.lower) (fun _ _ holds => holds) reading

/-- The error of finding the current token, before other steps. -/
theorem failFirst {code : ErrorCode} {expected : TagSet} {dress : ParseError → ParseError}
    {leftNext rightNext : β → Parse α}
    (keeps : ∀ error, (dress error).code = error.code ∧ (dress error).span = error.span)
    (family : code.category = .grammatical) :
    Parallel first second rounds enters before after
      (liftM (unexpected code expected) >>= fun error => throw (dress error) >>= leftNext)
      (liftM (unexpected code expected) >>= fun error => throw (dress error) >>= rightNext) :=
  .fail keeps family

/-- An error that is reported before other steps. -/
theorem reportFirst {code : ErrorCode} {expected : TagSet} {dress : ParseError → ParseError}
    {leftNext rightNext : Parse α}
    (keeps : ∀ error, (dress error).code = error.code ∧ (dress error).span = error.span)
    (family : code.category = .grammatical)
    (next : Parallel first second rounds enters before after leftNext rightNext) :
    Parallel first second rounds enters before after
      (liftM (unexpected code expected) >>= fun error =>
        liftM (first.report (dress error)) >>= fun _ => leftNext)
      (liftM (unexpected code expected) >>= fun error =>
        liftM (second.report (dress error)) >>= fun _ => rightNext) := by
  rw [← bind_assoc, ← bind_assoc]
  exact .bind (.report keeps family) fun _ => next

/-- A choice by an answer. -/
theorem choose {found : Bool} {left right leftElse rightElse : Parse α}
    (yes : Parallel first second rounds enters before after left right)
    (no : Parallel first second rounds enters before after leftElse rightElse) :
    Parallel first second rounds enters before after (if found = true then left else leftElse)
      (if found = true then right else rightElse) := by
  cases found with
  | true => exact yes
  | false => exact no

/-- A choice by the tag of the current token. -/
theorem branch {found : Bool} {left right leftElse rightElse : Parse α}
    (yes : Parallel first second rounds enters (Cursor.Faces rounds floor tag) after left right)
    (no : Parallel first second rounds enters (Cursor.At rounds floor tags) after leftElse
      rightElse) :
    Parallel first second rounds enters
      (Cursor.At rounds floor fun current => tags current ∧ (current == tag) = found) after
      (if found = true then left else leftElse) (if found = true then right else rightElse) := by
  cases found with
  | true => exact yes.weaken fun _ same => beq_iff_eq.mp same.2
  | false => exact no.weaken fun _ same => same.1

/-- A reading that is made if an answer says so, before others. -/
theorem chosen {found : Bool} {left right : Parse α} {between : Cursor → Prop}
    {last : β → Cursor → Prop} {leftNext rightNext : Option α → Parse β}
    (reading : Parallel first second rounds enters before (fun _ => between) left right)
    (skips : ∀ cursor, before cursor → between cursor)
    (next : ∀ answer, Parallel first second rounds enters between last (leftNext answer)
      (rightNext answer)) :
    Parallel first second rounds enters before last
      (if found = true then some <$> left >>= leftNext else Pure.pure none >>= leftNext)
      (if found = true then some <$> right >>= rightNext else Pure.pure none >>= rightNext) :=
  choose (.bind (reading.map fun _ _ holds => holds) next) (.bind (.pure none skips) next)

/-- A reading that is made if a token has a tag, before others. -/
theorem optional {found : Bool} {left right : Parse α} {last : β → Cursor → Prop}
    {leftNext rightNext : Option α → Parse β}
    (reading : Parallel first second rounds enters (Cursor.Faces rounds floor tag)
      (fun _ => Cursor.At rounds floor tags) left right)
    (next : ∀ answer, Parallel first second rounds enters (Cursor.At rounds floor tags) last
      (leftNext answer) (rightNext answer)) :
    Parallel first second rounds enters
      (Cursor.At rounds floor fun current => tags current ∧ (current == tag) = found) last
      (if found = true then some <$> left >>= leftNext else Pure.pure none >>= leftNext)
      (if found = true then some <$> right >>= rightNext else Pure.pure none >>= rightNext) :=
  branch (.bind (reading.map fun _ _ holds => holds) next)
    (.bind (.pure none fun _ stands => stands) next)

/-- A step that leaves the cursor and the errors alone. -/
theorem still {step : Build α} (still : ∀ parser : Parser, (step parser).2.cursor = parser.cursor ∧
      (step parser).2.errors = parser.errors ∧ (step parser).2.isHalted = parser.isHalted)
    (holds : ∀ parser : Parser, before parser.cursor → after (step parser).1 parser.cursor) :
    Parallel first second rounds enters before after (liftM step) (liftM step) := by
  refine .step fun parser stands => ?_
  obtain ⟨cursor, errors, halted⟩ := still parser
  refine ⟨⟨?_, errors, halted⟩, ?_⟩
  · rw [cursor]
    exact .refl _
  · rw [cursor]
    exact holds parser stands

/-- A step that only builds. -/
theorem builds {step : Build α} (still : ∀ parser : Parser, (step parser).2.cursor = parser.cursor ∧
      (step parser).2.errors = parser.errors ∧ (step parser).2.isHalted = parser.isHalted) :
    Parallel first second rounds enters before (fun _ => before) (liftM step) (liftM step) :=
  .still still fun _ stands => stands

/-- A quiet step leads no cursor back. -/
theorem quiet {step : Build α} (quiet : step.IsQuiet) :
    Parallel first second rounds enters (Cursor.At rounds floor tags)
      (fun _ => Cursor.Reaches rounds floor) (liftM step) (liftM step) :=
  .step fun parser stands => ⟨quiet parser, stands.onward (quiet parser).onward⟩

/-- Adding a node. -/
theorem addNode (kind : NodeKind) (span : Span) :
    Parallel first second rounds enters before (fun _ => before) (liftM (Build.addNode kind span))
      (liftM (Build.addNode kind span)) :=
  builds fun _ => ⟨rfl, rfl, rfl⟩

/-- Adding a list of children. -/
theorem addList (ids : Array NodeId) :
    Parallel first second rounds enters before (fun _ => before) (liftM (Build.addList ids))
      (liftM (Build.addList ids)) :=
  builds fun _ => ⟨rfl, rfl, rfl⟩

/-- Adding a list of names. -/
theorem addNames (names : Array Name) :
    Parallel first second rounds enters before (fun _ => before) (liftM (Build.addNames names))
      (liftM (Build.addNames names)) :=
  builds fun _ => ⟨rfl, rfl, rfl⟩

/-- Closing a node. -/
theorem close (kind : NodeKind) (start : Span) :
    Parallel first second rounds enters before (fun _ => before) (liftM (Build.close kind start))
      (liftM (Build.close kind start)) :=
  builds fun _ => ⟨rfl, rfl, rfl⟩

/-- Asking for the span of a node. -/
theorem nodeSpan (id : NodeId) :
    Parallel first second rounds enters before (fun _ => before) (liftM (Build.nodeSpan id))
      (liftM (Build.nodeSpan id)) :=
  builds fun _ => ⟨rfl, rfl, rfl⟩

/-- Asking for the cursor. -/
theorem cursor :
    Parallel first second rounds enters before (fun found cursor => before cursor ∧ found = cursor)
      (liftM Build.cursor) (liftM Build.cursor) :=
  .still (fun _ => ⟨rfl, rfl, rfl⟩) fun _ stands => ⟨stands, rfl⟩

/-- Asking for the current token. -/
theorem current :
    Parallel first second rounds enters (Cursor.At rounds floor tags)
      (fun token => Cursor.Faces rounds floor token.tag) (liftM Build.current)
      (liftM Build.current) :=
  .still (fun _ => ⟨rfl, rfl, rfl⟩) fun _ stands => stands.mono (Nat.le_refl _) fun _ => rfl

/-- Asking for the tag of the current token. -/
theorem currentTag :
    Parallel first second rounds enters (Cursor.At rounds floor tags)
      (fun tag => Cursor.Faces rounds floor tag) (liftM Build.currentTag)
      (liftM Build.currentTag) :=
  .still (fun _ => ⟨rfl, rfl, rfl⟩) fun _ stands => stands.mono (Nat.le_refl _) fun _ => rfl

/-- Asking for the tag of a token of which something is known. -/
theorem tagged :
    Parallel first second rounds enters (Cursor.At rounds floor tags)
      (fun tag => Cursor.At rounds floor fun current => tags current ∧ current = tag)
      (liftM Build.currentTag) (liftM Build.currentTag) :=
  .still (fun _ => ⟨rfl, rfl, rfl⟩) fun _ stands =>
    stands.mono (Nat.le_refl _) fun same => ⟨same, rfl⟩

/-- Asking whether the current token has a tag. -/
theorem check (tag : Tag) :
    Parallel first second rounds enters (Cursor.At rounds floor tags)
      (fun found => Cursor.At rounds floor fun current => tags current ∧ (current == tag) = found)
      (liftM (Build.check tag)) (liftM (Build.check tag)) :=
  .still (fun _ => ⟨rfl, rfl, rfl⟩) fun _ stands =>
    stands.mono (Nat.le_refl _) fun same => ⟨same, rfl⟩

/-- Asking a question about the tokens ahead. -/
theorem ask {question : Lookahead α} (asks : question.Peeks) :
    Parallel first second rounds enters (Cursor.At rounds floor tags)
      (fun _ => Cursor.At rounds floor tags) (liftM (Build.onCursor question))
      (liftM (Build.onCursor question)) :=
  .step fun parser stands =>
    ⟨⟨asks.onward parser.cursor, rfl, rfl⟩, stands.looks (asks parser.cursor)⟩

/-- Interning a text. -/
theorem intern (text : String) :
    Parallel first second rounds enters (Cursor.At rounds floor tags)
      (fun _ => Cursor.At rounds floor tags) (liftM (Build.intern text))
      (liftM (Build.intern text)) :=
  .step fun _ stands => ⟨⟨Cursor.onward_intern _ _, rfl, rfl⟩,
    stands.looks fun _ pending => Cursor.looks_intern pending text⟩

/-- A step over a token. -/
theorem advance :
    Parallel first second rounds enters (Cursor.At rounds floor tags)
      (fun _ => Cursor.Reaches rounds floor) (liftM Build.advance) (liftM Build.advance) :=
  .quiet (isQuiet_onCursor Cursor.onward_advance)

/-- A step over a token outside string literals goes past it, and gives it back. -/
theorem pastToken (whole : tag.isWhole = true) :
    Parallel first second rounds enters (Cursor.Faces rounds floor tag)
      (fun token cursor => token.tag = tag ∧ cursor.Past rounds floor) (liftM Build.advance)
      (liftM Build.advance) := by
  refine .step fun parser stands => ⟨isQuiet_onCursor Cursor.onward_advance parser, ?_⟩
  refine ⟨?_, stands.past whole⟩
  rw [← stands.tag]
  exact congrArg Token.tag parser.cursor.advance_fst

/-- A step over a token outside string literals goes past it. -/
theorem past (whole : tag.isWhole = true) :
    Parallel first second rounds enters (Cursor.Faces rounds floor tag)
      (fun _ => Cursor.Past rounds floor) (liftM Build.advance) (liftM Build.advance) :=
  (pastToken whole).forget fun _ _ stands => stands.2

/-- A step over a token with a tag, or none. -/
theorem eat (tag : Tag) :
    Parallel first second rounds enters (Cursor.At rounds floor tags)
      (fun _ => Cursor.Reaches rounds floor) (liftM (Build.eat tag)) (liftM (Build.eat tag)) :=
  .quiet (isQuiet_onCursor fun cursor => cursor.onward_eat tag)

/-- A step over a token outside string literals, or none, leads into no literal. -/
theorem eatPast {tag : Tag} (whole : tag.isWhole = true) :
    Parallel first second rounds enters (Cursor.Past rounds floor)
      (fun _ => Cursor.Past rounds floor) (liftM (Build.eat tag)) (liftM (Build.eat tag)) := by
  refine .step fun parser stands =>
    ⟨isQuiet_onCursor (fun cursor => cursor.onward_eat tag) parser, ?_⟩
  show (parser.cursor.eat tag).2.Past rounds floor
  unfold Cursor.eat
  by_cases found : parser.cursor.check tag = true
  · rw [if_pos found]
    have faces : parser.cursor.Faces rounds (floor + 1) tag :=
      stands.mono (Nat.le_refl _) fun _ => beq_iff_eq.mp found
    exact (faces.past whole).lower
  · rw [if_neg found]
    exact stands

/-- Splitting a symbol. -/
theorem splitSymbol :
    Parallel first second rounds enters (Cursor.Past rounds floor)
      (fun _ => Cursor.Past rounds floor) (liftM Build.splitSymbol) (liftM Build.splitSymbol) := by
  refine .step fun parser stands =>
    ⟨isQuiet_onCursor Cursor.onward_splitSymbol parser, ?_⟩
  have reached := stands.onward parser.cursor.onward_splitSymbol
  exact ⟨reached.pending, reached.floor, Cursor.isQuoted_splitSymbol stands.tag⟩

/-- A token with a tag, or a failure. -/
theorem expectWith {tag : Tag} (whole : tag.isWhole = true) {code : ErrorCode}
    (family : code.category = .grammatical) (construct : Construct) :
    Parallel first second rounds enters (Cursor.At rounds floor tags)
      (fun _ => Cursor.Past rounds floor) (Parse.expectWith code tag construct)
      (Parse.expectWith code tag construct) := by
  exact .bind (.check tag) fun found => .branch (past whole)
    (.fail (fun _ => ⟨rfl, rfl⟩) family)

/-- A token with a tag, or a failure. -/
theorem expect {tag : Tag} (whole : tag.isWhole = true) (construct : Construct) :
    Parallel first second rounds enters (Cursor.At rounds floor tags)
      (fun _ => Cursor.Past rounds floor) (Parse.expect tag construct)
      (Parse.expect tag construct) :=
  expectWith whole rfl construct

/-- An identifier, or a failure. -/
theorem expectIdentifier (construct : Construct) :
    Parallel first second rounds enters (Cursor.At rounds floor tags)
      (fun _ => Cursor.Past rounds floor) (Parse.expectIdentifier construct)
      (Parse.expectIdentifier construct) := by
  refine .bind .current fun token => ?_
  split
  · next name same =>
    have tag : token.tag = .identifier := congrArg TokenKind.tag same
    rw [tag]
    exact .bind (past rfl) fun _ => .pure _ fun _ stands => stands
  · exact .fail (fun _ => ⟨rfl, rfl⟩) rfl

/-- A constant, or a failure. -/
theorem expectConstant (construct : Construct) :
    Parallel first second rounds enters (Cursor.At rounds floor tags)
      (fun _ => Cursor.Past rounds floor) (Parse.expectConstant construct)
      (Parse.expectConstant construct) := by
  refine .bind .current fun token => ?_
  split
  · next name same =>
    have tag : token.tag = .constant := congrArg TokenKind.tag same
    rw [tag]
    exact .bind (past rfl) fun _ => .pure _ fun _ stands => stands
  · exact .fail (fun _ => ⟨rfl, rfl⟩) rfl

/-- The `end` of a block, or a failure. -/
theorem expectEnd (opener : Tag) (span : Span) (construct : Construct) :
    Parallel first second rounds enters (Cursor.At rounds floor tags)
      (fun _ => Cursor.Past rounds floor) (Parse.expectEnd opener span construct)
      (Parse.expectEnd opener span construct) := by
  refine .bind (.check .kwEnd) fun found => .branch ?_ (.fail (fun _ => ⟨rfl, rfl⟩) rfl)
  exact .bind (past rfl) fun _ => .pure _ fun _ stands => stands

/-- The closing bracket of a list, or a failure. -/
theorem expectCloser {code : ErrorCode} (family : code.category = .grammatical) {closer : Tag}
    (whole : closer.isWhole = true) (construct : Construct) :
    Parallel first second rounds enters (Cursor.Past rounds floor)
      (fun _ => Cursor.Past rounds floor) (expectCloser code closer construct)
      (expectCloser code closer construct) := by
  refine .bind (eatPast whole) fun found => ?_
  cases found with
  | true => exact .pure _ fun _ stands => stands
  | false => exact .fail (fun _ => ⟨rfl, rfl⟩) family

end Parallel

end Grammar

end Vibescript
