import Vibescript.Proofs.Parser.Resumption

/-!
# Every round makes progress

A round of a body or of a class leaves the loop, or it consumes a token or a directive: what is
read ends past the token it began at, and where a reading fails, the recovery steps over a token
itself if nothing was consumed before.
-/
namespace Vibescript

open Cursor

/-- When nothing is taken, the first ordinary token that is left starts where the first did. -/
theorem Consumes.start_head_ordinary {whole taken rest : List (Token String)}
    (consumes : Consumes whole taken rest) (none : taken = []) :
    (Token.ordinary rest).head?.map (·.span.start) =
      (Token.ordinary whole).head?.map (·.span.start) := by
  induction consumes with
  | done => rfl
  | take => contradiction
  | demote directive _ ih => rw [ih none, Token.ordinary_cons_directive directive]
  | split directives _ ih =>
    rw [ih none]
    rw [Token.ordinary_append, Token.ordinary_append, Token.ordinary_eq_nil directives,
      @Token.ordinary_cons (.colonOf _) rfl, @Token.ordinary_cons ⟨.symbol _, _⟩ rfl]
    rfl

namespace Cursor

variable {first second : Cursor} {rounds floor : Nat} {tags : Tag → Prop}

/-- When nothing is consumed, the current token starts where it did. -/
theorem At.start_eq (stands : first.At rounds floor tags) (onward : first.Onward second)
    (still : second.position = first.position) :
    second.isAtEnd = first.isAtEnd ∧ second.current.span.start = first.current.span.start := by
  obtain ⟨tokens, pending, _⟩ := stands.pending
  obtain ⟨taken, rest, moves⟩ := onward tokens pending
  have counted := moves.position
  have none : taken = [] := List.eq_nil_of_length_eq_zero (by omega)
  have same := moves.consumes.start_head_ordinary none
  cases firstEnd : first.isAtEnd with
  | true =>
    have secondEnd := stands.atEnd onward firstEnd
    rw [(pending.atEnd firstEnd).1, (moves.pending.atEnd secondEnd).1]
    exact ⟨secondEnd, congrArg Text.byteLength moves.source⟩
  | false =>
    obtain ⟨others, ordinary⟩ := pending.ordinary firstEnd
    rw [ordinary] at same
    cases secondEnd : second.isAtEnd with
    | true =>
      rw [(moves.pending.atEnd secondEnd).2.2] at same
      contradiction
    | false =>
      obtain ⟨later, remains⟩ := moves.pending.ordinary secondEnd
      rw [remains] at same
      exact ⟨rfl, Option.some.inj same⟩

/-- A cursor that went past the current token has consumed a token. -/
theorem At.position_lt (stands : first.At rounds floor tags) (onward : first.Onward second)
    (past : second.Past rounds first.current.span.start) : first.position < second.position := by
  have le := stands.position_le onward
  have further := past.floor
  by_contra still
  have same := (stands.start_eq onward (by omega)).2
  omega

end Cursor

/-- Whether a loop goes on after a round. -/
def goesOn {α : Type} : ForInStep α → Prop
  | .yield _ => True
  | .done _ => False

namespace Parser

open Build Parse Grammar

variable {soft : SoftNames} {rounds levels : Nat} {options : ParseOptions} {parser : Parser}

/-- Between a construct and what is left of it after a failure, a token is consumed: if none was
before, by the recovery. -/
theorem position_lt_stepFrom {start now : Parser} (stands : start.cursor.Reaches rounds 0)
    (onward : start.cursor.Onward now.cursor) (notEnd : start.cursor.isAtEnd = false) :
    start.cursor.position < (start.stepFrom now).cursor.position := by
  have le := stands.position_le onward
  rw [stepFrom]
  by_cases still : now.cursor.position = start.cursor.position
  · have goesOn : now.cursor.isAtEnd = false := by
      rw [(stands.start_eq onward still).1, notEnd]
    rw [if_pos (by simp [still, goesOn])]
    have beyond := beyond_advance (stands.onward onward) goesOn
    exact Nat.lt_of_le_of_lt le beyond.2
  · rw [if_neg (by simp [still])]
    omega

/-- A construct that fails is reported, tokens are skipped, and an error node takes its place: at
least one token is consumed. -/
theorem progress_recover {grammar : Grammar} {α : Type} {skip : Cursor → α × Cursor} {failed : Parser}
    {error : ParseError} {items : Array NodeId} (stands : parser.cursor.Reaches rounds 0)
    (notEnd : parser.cursor.isAtEnd = false) (onward : parser.cursor.Onward failed.cursor)
    (skips : ∀ cursor : Cursor, cursor.Onward (skip cursor).2) :
    Build.Outcome
      (do
        grammar.report error
        let _ ← onCursor skip
        return ForInStep.yield (items.push (← abandon parser.checkpoint)))
      failed fun result final => goesOn result → parser.cursor.position < final.cursor.position := by
  refine outcome_report.mpr (.bind (outcome_onCursor.mpr (.bind ?_)))
  intro _
  show parser.cursor.position < (Grammar.abandon parser.checkpoint _).2.cursor.position
  rw [cursor_abandon]
  refine position_lt_stepFrom stands ?_ notEnd
  rw [← cursor_reported grammar.options.recovery error failed] at onward
  exact onward.trans (skips _)

/-- A statement, or what takes its place when it fails, consumes a token. -/
theorem progress_statementStep (ids : Array NodeId) (stands : parser.cursor.Reaches rounds 0)
    (notEnd : parser.cursor.isAtEnd = false) :
    ((level options soft rounds levels).statementStep ids).Outcome parser
      fun result final => goesOn result → parser.cursor.position < final.cursor.position := by
  have settled := (maintains_nothing options.recovery).settled options soft (ladder_anywhere rounds)
    (fun _ _ _ _ => trivial) levels .statement parser stands trivial
  rw [Parse.Settles, Parse.Outcome] at settled
  refine outcome_checkpoint.mpr (.bind (Build.Outcome.mono settled fun result after holds => ?_))
  cases result with
  | ok id =>
    have past := holds.2.2
    exact .pure fun _ => stands.position_lt holds.1 past
  | error error =>
    exact progress_recover stands notEnd holds.1 fun cursor => cursor.onward_synchronize _

/-- A round of a body consumes a token or a directive, or it leaves the loop. -/
theorem progress_bodyStep (terminators : TagSet) (ids : Array NodeId)
    (stands : parser.cursor.Reaches rounds 0) :
    ((level options soft rounds levels).bodyStep terminators ids).Outcome parser
      fun result final => goesOn result → parser.cursor.position < final.cursor.position := by
  obtain ⟨tokens, pending, _⟩ := stands.pending
  refine outcome_shouldHalt (fun _ => nofun) ?_
  rw [if_neg Bool.false_ne_true]
  refine .bind (outcome_onCursor.mpr ?_)
  rcases moves_takeDirective pending with ⟨none, _⟩ | ⟨mark, rest, found, _, moves⟩
  · rw [none]
    refine Build.outcome_currentTag.mpr ?_
    change Build.Outcome (ite ((parser.cursor.current.tag == .endOfInput ||
      terminators.contains parser.cursor.current.tag) = true) _ _) parser _
    by_cases stops : (parser.cursor.current.tag == .endOfInput ||
      terminators.contains parser.cursor.current.tag) = true
    · rw [if_pos stops]
      exact .pure nofun
    · rw [if_neg stops]
      rw [Bool.or_eq_true, not_or] at stops
      exact progress_statementStep ids stands (Bool.not_eq_true _ ▸ stops.1)
  · rw [found]
    refine .bind (show Build.Outcome (directive mark) _ _ from fun _ => ?_)
    have claimed := stands.onward parser.cursor.onward_takeDirective
    have le := claimed.position_le
      (isQuiet_directive mark (parser.withCursor parser.cursor.takeDirective.2)).onward
    have counted := moves.position
    rw [List.length_singleton] at counted
    exact Nat.lt_of_lt_of_le (by omega) le

/-- A round of a class consumes a token, or it leaves the loop. -/
theorem progress_memberStep (members : Array NodeId) (stands : parser.cursor.Reaches rounds 0) :
    ((level options soft rounds levels).memberStep members).Outcome parser
      fun result final => goesOn result → parser.cursor.position < final.cursor.position := by
  refine outcome_shouldHalt (fun _ => nofun) ?_
  rw [if_neg Bool.false_ne_true]
  refine Build.outcome_currentTag.mpr ?_
  by_cases stops : (parser.cursor.current.tag == .kwEnd ||
    parser.cursor.current.tag == .endOfInput) = true
  · rw [if_pos stops]
    exact .pure nofun
  · rw [if_neg stops]
    rw [Bool.or_eq_true, not_or] at stops
    have notEnd : parser.cursor.isAtEnd = false := Bool.not_eq_true _ ▸ stops.2
    have alike : Alike (level options soft rounds levels) (level options soft rounds levels) rounds
        (anywhere rounds levels) parser.cursor.current.span.start :=
      ⟨rfl, rfl, rfl, fun _ _ later => later.mono (Nat.zero_le _) id⟩
    have member := alike.classMember.settles (maintains_nothing options.recovery)
      ((maintains_nothing options.recovery).settled options soft (ladder_anywhere rounds)
        (fun _ _ _ _ => trivial) levels) parser stands.here trivial
    rw [Parse.Settles, Parse.Outcome] at member
    refine outcome_checkpoint.mpr (.bind (Build.Outcome.mono member fun result after holds => ?_))
    cases result with
    | ok id =>
      have past := holds.2.2
      exact .pure fun _ => stands.position_lt holds.1 past
    | error error =>
      exact progress_recover stands notEnd holds.1 fun cursor =>
        cursor.onward_skipUntil fun now => startsMember _ now.current

end Parser

end Vibescript
