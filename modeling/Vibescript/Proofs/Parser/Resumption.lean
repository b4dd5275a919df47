import Vibescript.Proofs.Parser.Levels

/-!
# Where a body goes on

A statement that begins at a string literal consumes its first token unless the nesting limit
stops it, and skipping never stops inside a literal, since no line breaks between the tokens of
one. So a round of a body that begins outside string literals ends outside them, also when its
statement fails and an error node takes its place.
-/
namespace Vibescript

open Cursor

namespace Cursor

variable {first second : Cursor} {rounds floor : Nat} {tags : Tag → Prop}

/-- Going onward takes no token back. -/
theorem At.position_le (stands : first.At rounds floor tags) (onward : first.Onward second) :
    first.position ≤ second.position := by
  obtain ⟨tokens, pending, _⟩ := stands.pending
  obtain ⟨taken, rest, moves⟩ := onward tokens pending
  rw [moves.position]
  exact Nat.le_add_right _ _

end Cursor

namespace Parser

open Build Parse Grammar

variable {soft : SoftNames} {rounds position levels : Nat} {options : ParseOptions}
  {parser : Parser}

/-- What reporting an error does. -/
theorem outcome_report {α : Type} {grammar : Grammar} {error : ParseError} {next : Unit → Build α}
    {property : α → Parser → Prop} :
    Build.Outcome (grammar.report error >>= next) parser property ↔
      (next ()).Outcome (parser.reported grammar.options.recovery error) property := Iff.rfl

/-- Nothing in particular is maintained as well. -/
theorem maintains_nothing (recovery : RecoveryMode) :
    Maintains recovery (fun _ => True) fun _ _ => True :=
  ⟨fun _ _ _ _ => trivial, fun _ _ _ _ _ => trivial, fun _ _ _ => trivial⟩

/-- A parser at a cursor of a text has consumed more than so many tokens. -/
def Beyond (rounds position : Nat) (parser : Parser) : Prop :=
  parser.cursor.Reaches rounds 0 ∧ position < parser.cursor.position

/-- What was consumed stays consumed. -/
theorem maintains_beyond (recovery : RecoveryMode) (rounds position : Nat) :
    Maintains recovery (Beyond rounds position) fun _ => Beyond rounds position := by
  refine ⟨?_, fun _ _ beyond _ _ => beyond, ?_⟩
  · intro before after quiet ⟨stands, further⟩
    have le := stands.position_le quiet.onward
    exact ⟨stands.onward quiet.onward, by omega⟩
  · intro error parser beyond
    rwa [Beyond, cursor_reported]

/-- At every level, what was consumed stays consumed. -/
theorem settled_beyond (options : ParseOptions) (soft : SoftNames) (rounds position levels : Nat) :
    (level options soft rounds levels).Settled rounds (anywhere rounds levels)
      (Beyond rounds position) fun _ => Beyond rounds position :=
  (maintains_beyond options.recovery rounds position).settled options soft (ladder_anywhere rounds)
    (fun _ parser _ beyond =>
      (maintains_beyond options.recovery rounds position).quiet _ _ (isQuiet_skipToEnd parser) beyond)
    levels

/-- Every level takes the same steps as itself. -/
theorem alike_level (options : ParseOptions) (soft : SoftNames) (rounds levels : Nat) :
    Alike (level options soft rounds levels) (level options soft rounds levels) rounds
      (anywhere rounds levels) 0 :=
  ⟨rfl, rfl, rfl, fun _ _ stands => stands.lower⟩

/-- A token that is stepped over was consumed. -/
theorem beyond_advance (stands : parser.cursor.Reaches rounds 0)
    (notEnd : parser.cursor.isAtEnd = false) :
    Beyond rounds parser.cursor.position (parser.withCursor parser.cursor.advance.2) := by
  refine ⟨stands.onward parser.cursor.onward_advance, ?_⟩
  obtain ⟨tokens, pending, _⟩ := stands.pending
  obtain ⟨rest, moves⟩ := moves_advance_of_pending pending notEnd
  have counted := moves.position
  rw [List.length_singleton] at counted
  exact Nat.lt_of_lt_of_eq (Nat.lt_succ_self _) counted.symm

/-- A string literal consumes its first token. -/
theorem beyond_stringLiteral (faces : parser.cursor.Faces rounds 0 .stringOpen) :
    (level options soft rounds levels).stringLiteral.Outcome parser
      (fun _ final => Beyond rounds parser.cursor.position final)
      fun _ final => Beyond rounds parser.cursor.position final := by
  have alike := alike_level options soft rounds levels
  have opened := beyond_advance faces.reaches (notAtEnd faces.tag Tag.noConfusion)
  rw [stringLiteral_eq]
  refine .bind (Parse.outcome_check.mpr ?_)
  have found : parser.cursor.check .stringOpen = true := beq_iff_eq.mpr faces.tag
  rw [if_pos found]
  refine .lift (outcome_onCursor.mpr ?_)
  have rest := (Parallel.bind alike.pieces fun value => .bind (.intern value) fun name =>
    .close (.string name) parser.cursor.advance.1.span).settles
      (maintains_beyond options.recovery rounds parser.cursor.position)
      (settled_beyond options soft rounds parser.cursor.position levels) _ opened.1 opened
  exact Outcome.mono rest (fun _ _ ends => ends.2.1) fun _ _ ends => ends.2

/-- An expression that begins with a string literal consumes its first token. -/
theorem beyond_expressionFrom (faces : parser.cursor.Faces rounds 0 .stringOpen)
    (least : BindingPower) :
    ((level options soft rounds levels).expressionFrom least).Outcome parser (fun _ _ => True)
      fun _ final => Beyond rounds parser.cursor.position final := by
  have alike := alike_level options soft rounds levels
  have maintains := maintains_beyond options.recovery rounds parser.cursor.position
  have settled := settled_beyond options soft rounds parser.cursor.position levels
  have literal := (@beyond_stringLiteral soft rounds levels options parser faces).and
    (outcome_stringLiteral faces.reaches rfl)
  have primary : (level options soft rounds levels).primary.Outcome parser
      (fun _ middle => Beyond rounds parser.cursor.position middle ∧ middle.cursor.Past rounds 0)
      fun _ final => Beyond rounds parser.cursor.position final := by
    refine Parse.outcome_current.mpr ?_
    rw [TokenKind.eq_stringOpen faces.tag]
    exact literal.mono (fun _ _ both => both) fun _ _ both => both.1
  have operand : (level options soft rounds levels).operand.Outcome parser
      (fun _ middle => Beyond rounds parser.cursor.position middle ∧ middle.cursor.Past rounds 0)
      fun _ final => Beyond rounds parser.cursor.position final := by
    refine Parse.outcome_currentTag.mpr ?_
    rw [faces.tag]
    refine .bind (primary.imp fun first middle ⟨beyond, past⟩ => ?_)
    exact Outcome.mono ((alike.chain first).settles maintains settled middle past beyond)
      (fun _ _ ends => ends.2) fun _ _ ends => ends.2
  rw [expressionFrom_eq]
  refine .bind (operand.imp fun first middle ⟨beyond, past⟩ => ?_)
  exact Outcome.mono ((alike.infixes least first).settles maintains settled middle past beyond)
    (fun _ _ _ => trivial) fun _ _ ends => ends.2

/-- A statement that begins with a string literal consumes its first token, or it fails at the
nesting limit. -/
theorem beyond_statement (faces : parser.cursor.Faces rounds 0 .stringOpen) :
    (descend options soft rounds levels .statement).Outcome parser (fun _ _ => True)
      fun _ final => final.cursor.isAtEnd = true ∨
        parser.cursor.position < final.cursor.position := by
  have refuses : (refuse options.maxDepth).Outcome parser (fun _ _ => True)
      fun _ final => final.cursor.isAtEnd = true ∨
        parser.cursor.position < final.cursor.position :=
    .inl (isAtEnd_skipToEnd parser.cursor)
  cases levels with
  | zero => exact refuses
  | succ levels =>
    rw [descend_succ]
    refine Parse.outcome_currentTag.mpr ?_
    rw [faces.tag]
    refine Parse.outcome_currentTag.mpr ?_
    rw [faces.tag]
    show (descend options soft rounds levels (.expression .assignment)).Outcome _ _ _
    cases levels with
    | zero => exact refuses
    | succ levels =>
      rw [descend_succ]
      exact (beyond_expressionFrom faces .assignment).mono (fun _ _ _ => trivial)
        fun _ _ beyond => .inr beyond.2

/-- Skipping after an error does not stop inside a string literal. -/
theorem outside_synchronize {first second : Cursor} {tokens taken rest : List (Token String)}
    (moves : first.Moves tokens taken rest second) (pending : first.Pending tokens)
    (strung : Token.Strung first.source tokens) (outside : first.current.tag.isQuoted = false) :
    (second.synchronize .statementBoundary).2.current.tag.isQuoted = false := by
  by_contra inside
  rw [Bool.not_eq_false] at inside
  obtain ⟨more, left, further⟩ := second.onward_synchronize .statementBoundary rest moves.pending
  have stops := second.stops_skipUntil fun cursor =>
    TagSet.contains .statementBoundary cursor.current.tag || cursor.isAtLineStart
  have unbroken := ((moves.trans further).inside pending strung outside inside).1
  change (second.synchronize .statementBoundary).2.isAtEnd = true ∨
    (TagSet.contains .statementBoundary (second.synchronize .statementBoundary).2.current.tag ||
      (second.synchronize .statementBoundary).2.isAtLineStart) = true at stops
  rw [unbroken, Bool.or_false, isAtEnd, beq_iff_eq] at stops
  revert stops inside
  cases (second.synchronize .statementBoundary).2.current.tag <;> decide

/-- Where an abandoned construct leaves the cursor. -/
theorem cursor_abandon (start now : Parser) :
    (Grammar.abandon start.checkpoint now).2.cursor = (start.stepFrom now).cursor := by
  have built (parser : Parser) : Build.Outcome (do
      onArena fun arena => ((), arena.truncate start.checkpoint.mark)
      let span ← if (← Build.cursor).position == start.checkpoint.position then
          pure (Span.point start.checkpoint.start.start)
        else spanFrom start.checkpoint.start
      addNode .error span) parser fun _ final => final.cursor = parser.cursor := by
    refine .bind (outcome_onArena.mpr (Build.outcome_cursor.mpr ?_))
    split <;> exact .bind rfl
  have steps : Build.Outcome (Grammar.abandon start.checkpoint) now fun _ final =>
      final.cursor = (start.stepFrom now).cursor := by
    refine Build.outcome_cursor.mpr ?_
    rw [stepFrom]
    dsimp only
    split
    · next still =>
      have same : (now.cursor.position == start.cursor.position && !now.cursor.isAtEnd) = true :=
        still
      rw [if_pos same]
      exact .bind (built _)
    · next moved =>
      have other : ¬(now.cursor.position == start.cursor.position && !now.cursor.isAtEnd) = true :=
        moved
      rw [if_neg other]
      exact built now
  exact steps

/-- No string literal goes on after a tag outside of them, other than the one that opens one. -/
theorem quotes_eq_false {tag : Tag} (outside : tag.isQuoted = false) (other : tag ≠ .stringOpen) :
    tag.quotes = false := by
  cases tag <;> first | rfl | contradiction

/-- After a statement failed and tokens were skipped, a forced step does not lead into a string
literal: it would step over a quotation mark that the statement left where it was. -/
theorem outside_stepFrom {start failed : Parser} (stands : start.cursor.Reaches rounds 0)
    (onward : start.cursor.Onward failed.cursor)
    (outside : start.cursor.current.tag.isQuoted = false)
    (opened : start.cursor.current.tag = .stringOpen →
      failed.cursor.isAtEnd = true ∨ start.cursor.position < failed.cursor.position) :
    (start.stepFrom (failed.withCursor
      (failed.cursor.synchronize .statementBoundary).2)).cursor.current.tag.isQuoted = false := by
  have skips := failed.cursor.onward_synchronize .statementBoundary
  have quiet : (failed.cursor.synchronize .statementBoundary).2.current.tag.isQuoted = false := by
    obtain ⟨tokens, pending, strung, _⟩ := stands.pending
    obtain ⟨taken, rest, moves⟩ := onward tokens pending
    exact outside_synchronize moves pending strung outside
  generalize (failed.cursor.synchronize .statementBoundary).2 = skipped at skips quiet ⊢
  rw [stepFrom]
  split
  · next still =>
    change (skipped.position == start.cursor.position && !skipped.isAtEnd) = true at still
    rw [Bool.and_eq_true, beq_iff_eq, Bool.not_eq_true'] at still
    have failing := stands.onward onward
    have other : skipped.current.tag ≠ .stringOpen := by
      by_cases opens : start.cursor.current.tag = .stringOpen
      · rcases opened opens with ended | moved
        · have atEnd := failing.atEnd skips ended
          rw [still.2] at atEnd
          contradiction
        · have le := failing.position_le skips
          omega
      · obtain ⟨tokens, pending, _⟩ := stands.pending
        obtain ⟨taken, rest, moves⟩ := onward.trans skips tokens pending
        have counted := moves.position
        obtain rfl : taken = [] := List.eq_nil_of_length_eq_zero (by omega)
        exact @Moves.still _ _ _ _ (fun tag => tag ≠ .stringOpen) moves pending Tag.noConfusion
          Tag.noConfusion opens
    exact (failing.onward skips).outside_advance still.2 (quotes_eq_false quiet other)
  · exact quiet

/-- A statement that is read, or what takes its place when it fails, ends outside string
literals. -/
theorem outside_statementStep {now : Parser} {ids : Array NodeId}
    (stands : now.cursor.Reaches rounds 0) (outside : now.cursor.current.tag.isQuoted = false) :
    ((level options soft rounds levels).statementStep ids).Outcome now fun _ after =>
      after.cursor.current.tag.isQuoted = false := by
  have moves := (maintains_nothing options.recovery).settled options soft (ladder_anywhere rounds)
    (fun _ _ _ _ => trivial) levels .statement now stands trivial
  have opened : ((level options soft rounds levels).deeper .statement).Outcome now
      (fun _ _ => True) fun _ failed => now.cursor.current.tag = .stringOpen →
        failed.cursor.isAtEnd = true ∨ now.cursor.position < failed.cursor.position := by
    by_cases opens : now.cursor.current.tag = .stringOpen
    · have faces : now.cursor.Faces rounds 0 .stringOpen :=
        stands.mono (Nat.le_refl _) fun _ => opens
      exact (beyond_statement faces).mono (fun _ _ _ => trivial) fun _ _ holds _ => holds
    · exact Outcome.mono moves (fun _ _ _ => trivial) fun _ _ _ same => absurd same opens
  refine outcome_checkpoint.mpr (.bind (Build.Outcome.mono (Parse.Outcome.and moves opened)
    fun result after holds => ?_))
  cases result with
  | ok id => exact .pure holds.1.2.2.tag
  | error error =>
    obtain ⟨⟨onward, _⟩, passed⟩ := holds
    rw [← cursor_reported options.recovery error after] at onward passed
    refine outcome_report.mpr (.bind (outcome_onCursor.mpr (.bind ?_)))
    show (Grammar.abandon now.checkpoint _).2.cursor.current.tag.isQuoted = false
    rw [cursor_abandon]
    exact outside_stepFrom stands onward outside passed

end Parser

end Vibescript
