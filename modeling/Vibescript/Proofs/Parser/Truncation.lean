import Vibescript.Proofs.Parser.Standing
import Vibescript.Proofs.Tree.Displays

/-!
# A parse that stops at the first error truncates the tree

The rounds over the statements of a text are the same for a parse that stops at the first error and
for one that recovers, until a round in which they part. The first one reads one statement more at
most, and then it halts; the other one goes on. So the statements before the last one of the first
parse are the first ones of both.
-/
namespace Vibescript

open Build Parse Grammar

namespace Grammar

variable {grammar : Grammar} {parser : Parser}

end Grammar

namespace Parser

variable {soft : SoftNames} {rounds : Nat} {start parser : Parser} {tokens : List (Token String)}

/-- A parser that stopped halts. -/
theorem halts_of_left {stop : Stop} (stopped : (atFirst rounds).left stop parser) :
    parser.halts .failFast = true := by
  cases stop with
  | reported error =>
    obtain ⟨_, halted⟩ : Stopped error parser := stopped
    rw [halts, halted]
    rfl
  | lexical =>
    obtain ⟨_, _, lexical, _⟩ : Exhausted rounds parser := stopped
    have found : parser.cursor.hasLexicalErrors = true := by
      simpa [Cursor.hasLexicalErrors] using lexical
    rw [halts, found]
    exact Bool.or_true _

/-- A round over statements is the same for both parses, or it leads the one that stops at the first
error to a parser that halts. -/
theorem Fresh.bodyStep (fresh : Fresh rounds 0 parser) (limit : Nat) (statements : Array NodeId) :
    ((outermost (.failing limit) soft rounds).bodyStep .empty statements parser =
        (outermost (.recovering limit) soft rounds).bodyStep .empty statements parser ∧
      Fresh rounds 0 ((outermost (.failing limit) soft rounds).bodyStep .empty statements parser).2) ∨
    ((outermost (.failing limit) soft rounds).bodyStep .empty statements parser).2.halts .failFast =
      true := by
  have lawful := lawful_atFirst rounds
  have leftSettled (stop : Stop) : (level (.failing limit) soft rounds limit).Settled rounds
      (anywhere rounds limit) ((atFirst rounds).left stop) ((atFirst rounds).leftFails stop) :=
    (lawful.left stop).settled (.failing limit) soft (ladder_anywhere rounds)
      (fun _ _ _ holds => left_refused limit holds) limit
  have descends := lawful.descend (.failing limit) (.recovering limit) soft 0
    (fun _ _ holds => left_refused limit holds) (right_settled soft limit)
    (parts_refuse soft limit) limit
  have round : Parallel (outermost (.failing limit) soft rounds)
      (outermost (.recovering limit) soft rounds) rounds (anywhere rounds limit)
      (Cursor.Reaches rounds 0) (fun _ => Cursor.Reaches rounds 0)
      (liftM ((outermost (.failing limit) soft rounds).bodyStep .empty statements))
      (liftM ((outermost (.recovering limit) soft rounds).bodyStep .empty statements)) :=
    Alike.bodyStep (fun _ stands => stands) .empty statements
  rcases round.parts lawful leftSettled (fun stop => right_settled soft limit stop limit) descends
    parser fresh.1 fresh with ⟨same, settles⟩ | ⟨stop, settles, _⟩
  · rw [run_lift, run_lift] at same
    obtain ⟨answers, states⟩ := Prod.mk.inj same
    exact .inl ⟨Prod.ext (Except.ok.inj answers) states, settles.2.1⟩
  · exact .inr (halts_of_left settles.2.1)

/-- What was gathered from the start of a text has S-expressions and keeps them. -/
theorem Gathers.displays {bound : Nat} {ids : Array NodeId} (empty : start.arena = .empty)
    (gathers : start.Gathers soft rounds tokens [] [] .statement bound ids parser) :
    ∃ texts, List.Forall₂ parser.forest.Displays ids.toList texts := by
  obtain ⟨_, _, run, _⟩ := gathers
  have ordered : (start.nodesSince parser).Pairwise fun left right => left.index < right.index := by
    have whole : start.nodesSince parser = parser.arena.ids := by
      simp [nodesSince, Arena.ids, empty, Arena.empty, Arena.size]
    rw [whole]
    exact Arena.pairwise_ids _
  have all : ∀ id ∈ ids.toList, ∃ shown, parser.forest.Displays id shown := by
    refine fun id member => run.spells.displays ordered (run.spells.postorder.subset ?_)
    exact List.mem_flatMap.mpr ⟨.node .statement id, List.mem_map_of_mem member,
      List.mem_singleton.mpr rfl⟩
  generalize ids.toList = items at all
  induction items with
  | nil => exact ⟨[], .nil⟩
  | cons id items ih =>
    obtain ⟨first, others⟩ := List.forall_mem_cons.mp all
    obtain ⟨shown, displays⟩ := first
    obtain ⟨texts, rest⟩ := ih others
    exact ⟨shown :: texts, .cons displays rest⟩

/-- Rounds over statements keep the forest. -/
theorem Gathers.grows {options : ParseOptions} {bound : Nat} {ids : Array NodeId}
    (gathers : start.Gathers soft rounds tokens [] [] .statement bound ids parser) (count : Nat) :
    parser.forest.Grows (repeatWithin ((outermost options soft rounds).bodyStep .empty) count #[]
      parser).2.forest := by
  obtain ⟨_, _, run, _⟩ := gathers
  have goes : Build.Outcome (repeatWithin ((outermost options soft rounds).bodyStep .empty) count #[])
      parser _ :=
    (Run.refl run.readyNow).statementRounds (deepens_descend options soft rounds options.maxDepth)
      .empty count
  obtain ⟨_, _, _, further⟩ := goes
  exact further.passes.forest

end Parser

end Vibescript
