import Vibescript.Proofs.Parser.Stamina

/-!
# Levels that mirror each other

The readings of a level of the respelled text mirror those of a level of the text itself, when the
second level has at least as much room. Then so do the bodies and the classes over these levels, and
everything that is put together of them in lockstep.
-/
namespace Vibescript

open Build Parse Grammar

namespace Grammar

variable {source : String} {options : ParseOptions} {first second : SoftNames} {rounds : Nat}
  {cuts : ParseError → Prop} {levels others : Nat} {α : Type}

/-- The readings one level deeper mirror each other, a statement up to a pause. -/
structure LevelsMirror (source : String) (options : ParseOptions) (first second : SoftNames)
    (rounds : Nat) (cuts : ParseError → Prop) (levels others : Nat) : Prop where
  /-- Expressions and operands. -/
  deeper : ∀ request, request ≠ .statement →
    Mirrors (Parser.Tracks source first second rounds) cuts (fun _ _ => True)
      (descend options first rounds levels request) (descend options second rounds others request)
  /-- Statements. -/
  statement : StatementsMirror source cuts (level options first rounds levels)
    (level options second rounds others) rounds (descend options first rounds levels .statement)
    (descend options second rounds others .statement)

/-- A round of a class ends it, or it reads a member. -/
theorem memberStep_eq {grammar : Grammar} {parser : Parser} {items : Array NodeId}
    (goesOn : grammar.shouldHalt parser = (false, parser)) :
    grammar.memberStep items parser =
      if parser.cursor.current.tag == .kwEnd || parser.cursor.current.tag == .endOfInput
      then (.done items, parser)
      else grammar.attemptStep grammar.classMember (fun cursor =>
        ((), cursor.skipUntil fun cursor => grammar.startsMember cursor.current)) items parser := by
  rw [memberStep, run_bind, goesOn]
  show (if (parser.cursor.current.tag == .kwEnd || parser.cursor.current.tag == .endOfInput) = true
    then _ else _ : Build (ForInStep (Array NodeId))) parser = _
  split
  · rfl
  · rfl

namespace LevelsMirror

variable (mirror : LevelsMirror source options first second rounds cuts levels others)

include mirror

/-- Bodies. -/
theorem body {terminators : TagSet} (closes : terminators.union .bodyEnd = .bodyEnd) :
    Mirrors (Parser.Tracks source first second rounds) cuts (fun _ _ => True)
      (liftM ((level options first rounds levels).body terminators))
      (liftM ((level options second rounds others).body terminators)) := by
  intro here there kept
  rw [Grammar.body, Grammar.body, liftM_bind, liftM_bind]
  have adds (ids : Array NodeId) : Parse.Accumulates (liftM (addList ids)) fun _ => True :=
    .lift (.quiet (isQuiet_onArena _))
  have statements : Mirrored (Parser.Tracks source first second rounds) cuts
      (fun _ _ : Array NodeId => True)
      ((liftM ((level options first rounds levels).loop #[]
        ((level options first rounds levels).bodyStep terminators)) : Parse _).run here)
      ((liftM ((level options second rounds others).loop #[]
        ((level options second rounds others).bodyStep terminators)) : Parse _).run there) := by
    obtain ⟨lefts, rights, unspoilt, unspoiltOther, _⟩ := id kept
    exact mirrored_statements (upholds_level options first rounds levels)
      (upholds_level options second rounds others) (proceeds_level options first rounds levels)
      (proceeds_level options second rounds others) mirror.statement closes rounds rounds #[] #[]
      here there kept unspoilt.reaches unspoiltOther.reaches
  refine Mirrored.bind statements (fun ids _ => adds ids) (fun ids _ => adds ids)
    fun ids others here there _ kept => ?_
  exact .same trivial (kept.still (isStill_addList ids) (isStill_addList others))

/-- Readings in lockstep, without classes. -/
theorem inner {agree : α → α → Prop} {left right : Parse α}
    (reading : Lockstep (level options first rounds levels) (level options second rounds others)
      False False agree left right) :
    Mirrors (Parser.Tracks source first second rounds) cuts agree left right :=
  reading.mirrors (upholds_level options first rounds levels)
    (upholds_level options second rounds others) mirror.deeper (fun _ closes => mirror.body closes)
    False.elim

/-- The members of classes. -/
theorem classBody : Mirrors (Parser.Tracks source first second rounds) cuts
    (fun items others => items.size = others.size)
    (liftM (level options first rounds levels).classBody)
    (liftM (level options second rounds others).classBody) := by
  have piles : (level options first rounds levels).Piles :=
    upholds_level options first rounds levels
  have pilesOther : (level options second rounds others).Piles :=
    upholds_level options second rounds others
  have member := mirror.inner (Lockstep.classMember rfl)
  rw [Grammar.classBody, Grammar.classBody, Grammar.loop, Grammar.loop, liftM_repeatWithin,
    liftM_repeatWithin]
  refine .repeatWithin (fun items more (_ : items.size = more.size) => .lift
    ((piles.memberStep items).mono fun result _ => ⟨result.value, rfl⟩))
    (fun items more _ => .lift ((pilesOther.memberStep more).mono fun result _ =>
      ⟨result.value, rfl⟩)) (fun items more sizes here there kept => ?_) _ rfl
  obtain ⟨lefts, rights, unspoilt, unspoiltOther, _⟩ := id kept
  rw [run_lift, run_lift, memberStep_eq (unspoilt.shouldHalt _),
    memberStep_eq (unspoiltOther.shouldHalt _), ← kept.tag]
  split
  · exact .same (.done sizes) kept
  · have mirrored := member here there kept
    generalize ran : (level options first rounds levels).classMember.run here = outcome at mirrored
    generalize ranOther : (level options second rounds others).classMember.run there = outcomeOther
      at mirrored
    cases mirrored with
    | refused fails =>
      rw [← ran] at fails
      exact .refused (.reported (attemptStep_fails fails))
    | cut fails =>
      rw [← ranOther] at fails
      exact .cut (.reported (attemptStep_fails fails))
    | same _ kept =>
      rw [attemptStep_ok ran, attemptStep_ok ranOther]
      exact .same (.yield (by rw [Array.size_push, Array.size_push, sizes])) kept

/-- Readings in lockstep. -/
theorem lockstep {outer : Prop} {agree : α → α → Prop} {left right : Parse α}
    (reading : Lockstep (level options first rounds levels) (level options second rounds others)
      False outer agree left right) :
    Mirrors (Parser.Tracks source first second rounds) cuts agree left right :=
  reading.mirrors (upholds_level options first rounds levels)
    (upholds_level options second rounds others) mirror.deeper (fun _ closes => mirror.body closes)
    fun _ => mirror.classBody

end LevelsMirror

end Grammar

end Vibescript
