import Vibescript.Proofs.Parser.Accumulation
import Vibescript.Proofs.Parser.LexicalErrors
import Vibescript.Proofs.Tree.Descent

/-!
# Error nodes and the errors of a parser

A construct that fails gives way to one error node, whatever error nodes stood in it. Its error is
reported, unless the parser halted while it was read; then an error was reported in the meantime,
since it was not halted where the construct began. So there are never more error nodes than errors
of the parser, and errors of the lexer account for none of them.
-/
namespace Vibescript

/-- The codes of problems of the grammar and of the nesting limit are written with these digits. -/
def ErrorCode.isSyntaxOrLimit (code : ErrorCode) : Bool :=
  ['E', '1'].isPrefixOf code.text.toList || ['E', '2'].isPrefixOf code.text.toList

/-- These are all codes but those of the lexer. -/
theorem ErrorCode.isSyntaxOrLimit_eq (code : ErrorCode) :
    code.isSyntaxOrLimit = !code.isLexical := by
  cases code <;> decide +kernel

namespace Parser

/-- A parser has gained no more error nodes than errors, and it halted only with an error. -/
structure Tallies (before after : Parser) : Prop where
  /-- The nodes are kept. -/
  arena : before.arena.Grows after.arena
  /-- The errors are kept. -/
  errors : before.errors.size ≤ after.errors.size
  /-- Every new error node has a new error. -/
  tally : after.arena.errorNodes + before.errors.size ≤
    before.arena.errorNodes + after.errors.size
  /-- A parser halts with an error. -/
  halted : after.isHalted = true → before.isHalted = true ∨ before.errors.size < after.errors.size

namespace Tallies

variable {first second third : Parser}

/-- What was done later is added. -/
theorem trans (left : first.Tallies second) (right : second.Tallies third) :
    first.Tallies third := by
  have fewer := left.errors
  have fewerLater := right.errors
  have tally := left.tally
  have tallyLater := right.tally
  refine ⟨left.arena.trans right.arena, by omega, by omega, fun halts => ?_⟩
  rcases right.halted halts with halted | more
  · exact (left.halted halted).imp_right (Nat.lt_of_lt_of_le · right.errors)
  · exact .inr (Nat.lt_of_le_of_lt left.errors more)

/-- A report adds an error, unless the parser is halted. -/
theorem reported (recovery : RecoveryMode) (error : ParseError) (parser : Parser) :
    parser.Tallies (parser.reported recovery error) := by
  unfold Parser.reported
  split
  · exact ⟨.refl _, Nat.le_refl _, Nat.le_refl _, .inl⟩
  · refine ⟨.refl _, ?_, ?_, fun _ => .inr ?_⟩
    all_goals
      dsimp only
      rw [Array.size_push]
      omega

/-- When a construct of a parser that was not halted was reported, there is an error more. -/
theorem lt_reported (tallies : first.Tallies second) (goesOn : first.isHalted = false)
    (recovery : RecoveryMode) (error : ParseError) :
    first.errors.size < (second.reported recovery error).errors.size := by
  unfold Parser.reported
  split
  next halts =>
    refine (tallies.halted halts).resolve_left ?_
    rw [goesOn]
    exact Bool.false_ne_true
  next =>
    have := tallies.errors
    dsimp only
    rw [Array.size_push]
    omega

/-- A construct that failed gives way to one error node, and it left an error at least. -/
theorem abandoned (tallies : first.Tallies second) (goesOn : first.isHalted = false)
    (recovery : RecoveryMode) (error : ParseError) (cursor : Cursor) (span : Span) :
    first.Tallies (((second.reported recovery error).withCursor cursor).withArena
      ((second.arena.truncate first.arena.mark).add .error span).2) := by
  have more := tallies.lt_reported goesOn recovery error
  rw [tallies.arena.truncate]
  refine ⟨first.arena.grows_add _ _, Nat.le_of_lt more, ?_, fun _ => .inr more⟩
  have counted := first.arena.errorNodes_add .error span
  rw [if_pos rfl] at counted
  show (first.arena.add .error span).2.errorNodes + _ ≤
    _ + (second.reported recovery error).errors.size
  omega

end Tallies

/-- Whatever is done, no error node is gained without an error. -/
instance cumulative_tallies : Cumulative Tallies where
  refl _ := ⟨.refl _, Nat.le_refl _, Nat.le_refl _, .inl⟩
  trans := Tallies.trans
  cursor _ _ := ⟨.refl _, Nat.le_refl _, Nat.le_refl _, .inl⟩
  tables _ _ _ gains :=
    ⟨gains.grows, Nat.le_refl _, Nat.add_le_add_right (Nat.le_of_eq gains.errorNodes) _, .inl⟩
  reported := Tallies.reported
  abandoned recovery error _ _ cursor span goesOn tallies :=
    tallies.abandoned goesOn recovery error cursor span

/-- A parser that stops at the first error has reported one at most. -/
def IsSingle (parser : Parser) : Prop :=
  parser.errors.size ≤ 1 ∧ (parser.isHalted = false → parser.errors.size = 0)

/-- A parse that stops at the first error reports one at most. -/
theorem maintains_isSingle : Maintains .failFast IsSingle fun _ => IsSingle := by
  refine ⟨fun before after quiet single => ?_, fun _ _ single _ _ => single,
    fun error parser single => ?_⟩
  · rw [IsSingle, quiet.errors, quiet.halted]
    exact single
  · unfold Parser.reported
    split
    · exact single
    next goesOn =>
      refine ⟨?_, nofun⟩
      dsimp only
      rw [Array.size_push, single.2 (Bool.eq_false_iff.mpr goesOn)]

/-- A parse that stops at the first error ends with one at most. -/
theorem size_errors_run {options : ParseOptions} (failFast : options.recovery = .failFast)
    (source : String) : (Parser.run options source).2.errors.size ≤ 1 := by
  have begins := begins_start source
  rw [run_eq]
  generalize Parser.start source = start at begins
  have maintains : Maintains options.recovery IsSingle fun _ => IsSingle :=
    failFast ▸ maintains_isSingle
  have settled := maintains.settled options start.1
    (Grammar.ladder_anywhere (Parser.rounds source)) (fun _ _ _ single => single) options.maxDepth
  have none : start.2.IsSingle := by simp [IsSingle, begins.errors]
  exact (maintains.program options start.1 settled (fun _ _ stands => stands) begins.reaches
    none).1.1

/-- A parse ends with no more error nodes than errors of the parser. -/
theorem errorNodes_run (options : ParseOptions) (source : String) :
    (Parser.run options source).2.arena.errorNodes ≤
      (Parser.run options source).2.errors.size := by
  have begins := begins_start source
  rw [run_eq]
  generalize Parser.start source = start at begins
  have upholds : (Grammar.outermost options start.1 (Parser.rounds source)).Upholds Tallies :=
    Grammar.upholds_level options start.1 (Parser.rounds source) options.maxDepth
  have program : Build.Upholds Tallies
      (Grammar.outermost options start.1 (Parser.rounds source)).program fun _ => True :=
    .bind (upholds.body .empty) fun body _ => .bind (.still (fun _ => rfl) fun _ => trivial)
      fun _ (_ : True) => .tables (Build.isStill_onArena fun arena => arena.gains_add (by nofun) _)
        fun _ => trivial
  have tally := (program start.2).1.tally
  rw [begins.errors, begins.arena] at tally
  simpa [Arena.errorNodes, Arena.empty] using tally

end Parser

/-- The tree of a parse has no more error nodes than its parser has errors. -/
theorem errorCount_le_size (options : ParseOptions) (source : String) :
    (parseWith options source).tree.errorCount ≤
      (Parser.run options source).2.errors.toList.length := by
  have tally := Parser.errorNodes_run options source
  have whole := isWhole_parseWith options source
  rw [parseWith_eq, Parser.tree_finish] at whole ⊢
  generalize Parser.run options source = run at tally whole ⊢
  rw [SyntaxTree.errorCount_eq whole, Array.length_toList]
  exact tally

/-- A tree without reported errors has no error node; with recovery it has no more of them than
errors of the grammar and of the nesting limit are reported; and a parse that stops at the first
error reports one error and has one error node at most. -/
theorem errorCount_parseWith (options : ParseOptions) (source : String) :
    ((parseWith options source).errors = [] → (parseWith options source).tree.errorCount = 0) ∧
      (options.recovery = .recover → (parseWith options source).tree.errorCount ≤
        (parseWith options source).errors.countP (·.code.isSyntaxOrLimit)) ∧
      (options.recovery = .failFast → (parseWith options source).errors.length ≤ 1 ∧
        (parseWith options source).tree.errorCount ≤ 1) := by
  have tally := errorCount_le_size options source
  have above := Parser.isAboveTokens_run options source
  have single := fun failFast : options.recovery = .failFast =>
    Parser.size_errors_run failFast source
  rw [Parser.errors_parseWith]
  generalize (Parser.run options source).2 = final at tally above single
  generalize (parseWith options source).tree.errorCount = count at tally
  refine ⟨fun clean => ?_, fun recovers => ?_, fun failFast => ⟨?_, ?_⟩⟩
  · have none : ParseError.sorted ((Piece.faults source.toList).map ParseError.ofLexical ++
        final.errors.toList) = [] := by
      split at clean
      · exact (List.take_eq_nil_iff.mp clean).resolve_left nofun
      · exact clean
    have empty : final.errors.toList = [] := by
      refine List.eq_nil_iff_forall_not_mem.mpr fun error member => ?_
      have reported := ParseError.mem_sorted.mpr (List.mem_append_right
        ((Piece.faults source.toList).map ParseError.ofLexical) member)
      rw [none] at reported
      exact nomatch reported
    rw [empty] at tally
    exact Nat.le_zero.mp tally
  · rw [recovers, if_neg (by nofun), ParseError.sorted, (List.mergeSort_perm _ _).countP_eq,
      List.countP_append]
    have all : final.errors.toList.countP (·.code.isSyntaxOrLimit) = final.errors.toList.length := by
      refine List.countP_eq_length.mpr fun error member => ?_
      rw [ErrorCode.isSyntaxOrLimit_eq, ParseError.isLexical_eq, above error member]
      rfl
    omega
  · rw [failFast, if_pos (by rfl), List.length_take]
    exact Nat.min_le_left _ _
  · have := single failFast
    rw [Array.length_toList] at tally
    omega

end Vibescript
