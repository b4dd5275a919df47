import Vibescript.Proofs.Parser.Sequence
import Vibescript.Proofs.Source.Lines

/-!
# The statements of a program at another place

Where the tokens of a source text without errors are followed by a tail that does not go on with them,
a body of another text reads the statements of the first text, with the same S-expressions, and stands
at the tail after them.
-/
namespace Vibescript

open Build Parse Grammar

/-- The S-expressions of the statements of a program. -/
def ParseOutput.sexps (output : ParseOutput) : List String :=
  output.tree.statements.map output.tree.sexpOf

/-- Nothing ends a program but its end. -/
theorem Tag.startsStatement_of_empty (tag : Tag) (terminates : TagSet.contains .empty tag = true) :
    tag.startsStatement = false := by
  rw [TagSet.contains_empty] at terminates
  contradiction

namespace Parser

variable {options others : ParseOptions} {source : String} {seam : Seam} {ids : Array NodeId}
  {here there after : Parser} {rounds count : Nat} {soft : SoftNames}

/-- The statements of a program are shown as they are in its tree. -/
theorem Lists.sexps_eq (lists : Lists options source ids after) {texts : List String}
    (displays : List.Forall₂ after.forest.Displays ids.toList texts) :
    (parseWith options source).sexps = texts := by
  have grows := lists.grows
  rw [ParseOutput.sexps, lists.statements, parseWith_eq, tree_finish]
  generalize Parser.run options source = outcome at grows ⊢
  exact Forest.map_sexpWithin displays grows _ grows.arena.size_le

/-- A parser without errors stands before tokens. -/
structure Poised (soft : SoftNames) (tokens : List (Token String)) (parser : Parser) : Prop where
  /-- The tokens are pending. -/
  pending : parser.cursor.Pending tokens
  /-- The soft keywords are known. -/
  knows : parser.cursor.lexer.names.Knows soft.spelling
  /-- No error was reported. -/
  clean : parser.errors = #[]
  /-- The parser is not halted. -/
  goesOn : parser.isHalted = false

/-- So does a parser at the start of a text. -/
theorem Begins.poised {start : Parser} (begins : Begins source soft start) :
    start.Poised soft (sourceTokens source) :=
  ⟨begins.ready.pending, begins.ready.soft, begins.errors, begins.halted⟩

/-- Where no tokens are left, no directives are. -/
theorem Poised.idle (poised : here.Poised soft []) : ¬here.cursor.Busy := fun busy =>
  busy.ne_nil poised.pending rfl

/-- Where the first of two parsers is at the end of its text, the second one stands before the
tail. -/
theorem Beside.poised_tail (beside : here.Beside seam there) (idle : ¬here.cursor.Busy) :
    there.Poised seam.second seam.tail := by
  obtain ⟨tokens, others, asking⟩ := beside.asking
  obtain rfl := asking.inset.pending.eq_nil_of_not_busy idle
  obtain ⟨_, _, follow⟩ := asking.inset.follow
  have pending := asking.inset.pendingOther
  cases follow with
  | nil => exact ⟨pending, asking.knowsOther, beside.clean.2, beside.goesOn.2⟩

/-- However many rounds over its statements are taken, a parser stays in its text. -/
theorem Begins.text_of_run {start : Parser} (begins : Begins source soft start)
    (enough : Parser.rounds source ≤ rounds)
    (ran : repeatWithin ((outermost options soft rounds).bodyStep .empty) count #[] start =
      (ids, after)) : after.cursor.source = source.toList := by
  have ready : start.Ready soft rounds (sourceTokens source) :=
    ⟨begins.ready.pending, Nat.lt_of_lt_of_le begins.ready.rounds enough, begins.ready.soft,
      begins.ready.halted⟩
  have deepens : (outermost options soft rounds).Deepens soft rounds :=
    deepens_descend options soft rounds options.maxDepth
  have moved := (Run.refl ready).statementRounds deepens .empty count
  rw [Build.Outcome] at moved
  obtain ⟨_, _, _, run⟩ := moved
  have stays := run.passes.moves.source.trans begins.text
  rwa [ran] at stays

section

variable {first second : SoftNames} {start : Parser} {before earlier levels : Nat}
  {tokens tail : List (Token String)} {terminators : TagSet}
  (follow : Token.Follow source.toList there.cursor.source before earlier (sourceTokens source)
    tokens)
  (detached : Token.Detached (sourceTokens source) tail)

include follow detached

/-- A parser at the start of a text stands beside one before the same tokens and a tail. -/
theorem Begins.beside (begins : Begins source first start)
    (poised : there.Poised second (tokens ++ tail)) : start.Beside ⟨first, second, tail⟩ there := by
  rw [← begins.text] at follow
  exact ⟨⟨sourceTokens source, tokens,
    ⟨begins.ready.pending, poised.pending, ⟨_, _, follow⟩, detached⟩, begins.ready.soft,
      poised.knows⟩, ⟨begins.errors, poised.clean⟩, ⟨begins.halted, poised.goesOn⟩⟩

/-- A body of another text reads the statements of a text. -/
theorem Lists.inside (lists : Lists options source ids after) (begins : Begins source first start)
    (ran : repeatWithin ((outermost options first rounds).bodyStep .empty) count #[] start =
      (ids, after)) (clean : after.errors = #[]) (idle : ¬after.cursor.Busy)
    (recovers : options.recovery = .recover ∧ others.recovery = .recover)
    (le : options.maxDepth ≤ levels)
    (closes : ∀ tag : Tag, terminators.contains tag = true → tag.startsStatement = false)
    (poised : there.Poised second (tokens ++ tail)) :
    ∃ used ≤ count, ∃ ids' later,
      (∀ more, repeatWithin ((level others second rounds levels).bodyStep terminators)
          (used + more) #[] there =
        repeatWithin ((level others second rounds levels).bodyStep terminators) more ids' later) ∧
      later.Poised second tail ∧ there.forest.Grows later.forest ∧
      List.Forall₂ later.forest.Displays ids'.toList (parseWith options source).sexps := by
  have inlaid :=
    @inlaid_level ⟨first, second, tail⟩ options others rounds options.maxDepth levels recovers le
  obtain ⟨used, le, ids', later, runs, beside, grows, agrees⟩ :=
    inlaid.outerLoop (refuses_statement recovers.1) closes (begins.beside follow detached poised)
      Agreement.empty ran clean idle
  obtain ⟨texts, displays, displaysOther⟩ := Agreement.displayed agrees
  rw [lists.sexps_eq displays]
  exact ⟨used, le, ids', later, runs, beside.poised_tail idle, grows.right, displaysOther⟩

/-- A body of another text reads the statements of a text without errors. -/
theorem Poised.inside (poised : there.Poised second (tokens ++ tail))
    (clean : (parseWith options source).errors = []) (enough : Parser.rounds source ≤ rounds)
    (recovers : options.recovery = .recover ∧ others.recovery = .recover)
    (le : options.maxDepth ≤ levels)
    (closes : ∀ tag : Tag, terminators.contains tag = true → tag.startsStatement = false) :
    ∃ used ≤ Parser.rounds source, ∃ ids later,
      (∀ more, repeatWithin ((level others second rounds levels).bodyStep terminators)
          (used + more) #[] there =
        repeatWithin ((level others second rounds levels).bodyStep terminators) more ids later) ∧
      later.Poised second tail ∧ there.forest.Grows later.forest ∧
      List.Forall₂ later.forest.Displays ids.toList (parseWith options source).sexps := by
  obtain ⟨ids, after, reads⟩ := exists_readsStatements clean enough
  exact reads.toLists.inside follow detached (begins_start source) reads.ran reads.clean reads.idle
    recovers le closes poised

end

end Parser

end Vibescript
