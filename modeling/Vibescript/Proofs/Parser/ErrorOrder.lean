import Vibescript.Proofs.Parser.FailFast

/-!
# The order of errors

A parse reports its errors in the order of the text: each is reported at a token that does not stand
before those of earlier reports. So sorting the errors of a parse together with those of the lexer
keeps the former in the order of their reports.
-/
namespace Vibescript

open Cursor

namespace ParseError

/-- Whether an error is not one of the lexer. -/
def isAboveTokens (error : ParseError) : Bool := error.code.category != .lexical

/-- Errors of the lexer are lexical. -/
theorem isAboveTokens_ofLexical (error : LexicalError) :
    (ofLexical error).isAboveTokens = false := by
  show (error.fault.code.category != .lexical) = false
  cases error.fault <;> rfl

/-- Errors in order stay as they are when errors of the lexer are sorted in. -/
theorem filter_sorted {errors : List ParseError} (lexical : List LexicalError)
    (ordered : errors.Pairwise fun left right => left.span.start ≤ right.span.start) :
    (sorted (lexical.map ofLexical ++ errors)).filter isAboveTokens =
      errors.filter isAboveTokens := by
  have none : (lexical.map ofLexical).filter isAboveTokens = [] := by
    rw [List.filter_eq_nil_iff]
    intro error member
    obtain ⟨fault, _, rfl⟩ := List.mem_map.mp member
    rw [isAboveTokens_ofLexical]
    exact Bool.false_ne_true
  have same : (sorted (lexical.map ofLexical ++ errors)).filter isAboveTokens |>.Perm
      (errors.filter isAboveTokens) := by
    have perm := (List.mergeSort_perm (lexical.map ofLexical ++ errors) notAfter).filter
      isAboveTokens
    rwa [List.filter_append, none, List.nil_append] at perm
  have within : errors.Sublist (sorted (lexical.map ofLexical ++ errors)) :=
    List.sublist_mergeSort notAfter_trans notAfter_total (ordered.imp decide_eq_true)
      (List.sublist_append_right _ _)
  exact ((within.filter isAboveTokens).eq_of_length same.length_eq.symm).symm

end ParseError

namespace Parser

/-- The errors that a parser reported stand in order, and none of them after an offset. -/
structure Ordered (parser : Parser) (last : Nat) : Prop where
  /-- They stand in order. -/
  ordered : parser.errors.toList.Pairwise fun left right => left.span.start ≤ right.span.start
  /-- None of them stands after the offset. -/
  early : ∀ error ∈ parser.errors.toList, error.span.start ≤ last

/-- The errors stand in order when the offset is later. -/
theorem Ordered.mono {parser : Parser} {last later : Nat} (ordered : parser.Ordered last)
    (le : last ≤ later) : parser.Ordered later :=
  ⟨ordered.ordered, fun error member => (ordered.early error member).trans le⟩

/-- A report at the offset keeps the errors in order. -/
theorem Ordered.reported {parser : Parser} {error : ParseError}
    (ordered : parser.Ordered error.span.start) (recovery : RecoveryMode) :
    (parser.reported recovery error).Ordered error.span.start := by
  unfold Parser.reported
  split
  · exact ordered
  · refine ⟨?_, fun other member => ?_⟩
    · show (parser.errors.push error).toList.Pairwise _
      rw [Array.toList_push]
      refine List.pairwise_append.mpr ⟨ordered.ordered, List.pairwise_singleton _ _, ?_⟩
      intro other member last isLast
      rw [List.mem_singleton.mp isLast]
      exact ordered.early other member
    · change other ∈ (parser.errors.push error).toList at member
      rw [Array.toList_push] at member
      rcases List.mem_append.mp member with early | isLast
      · exact ordered.early other early
      · rw [List.mem_singleton.mp isLast]

/-- A parser reported errors in the order of the text, up to its current token. -/
def Chronicles (rounds : Nat) (parser : Parser) : Prop :=
  parser.cursor.Reaches rounds 0 ∧ parser.Ordered parser.cursor.current.span.start

variable {rounds : Nat}

/-- Quiet steps keep the order. -/
theorem Chronicles.quiet {before after : Parser} (chronicles : Chronicles rounds before)
    (quiet : before.Quiet after) : Chronicles rounds after := by
  obtain ⟨stands, ordered⟩ := chronicles
  have later := (stands.here.onward quiet.onward).floor
  refine ⟨stands.onward quiet.onward, ?_⟩
  obtain ⟨inOrder, early⟩ := ordered.mono later
  rw [← quiet.errors] at inOrder early
  exact ⟨inOrder, early⟩

/-- A parse reports errors in the order of the text. -/
theorem maintains_chronicles (recovery : RecoveryMode) (rounds : Nat) :
    Maintains recovery (Chronicles rounds) fun error parser =>
      Chronicles rounds parser ∧ parser.Ordered error.span.start ∧
        error.span.start ≤ parser.cursor.current.span.start := by
  refine ⟨fun _ _ quiet chronicles => chronicles.quiet quiet, ?_, ?_⟩
  · intro error parser chronicles _ spans
    rw [spans]
    exact ⟨chronicles, chronicles.2, Nat.le_refl _⟩
  · intro error parser ⟨⟨stands, _⟩, ordered, le⟩
    rw [Chronicles, cursor_reported]
    exact ⟨stands, (ordered.reported recovery).mono le⟩

/-- A parse reports its errors in the order of the text. -/
theorem ordered_run (options : ParseOptions) (source : String) :
    (Parser.run options source).2.errors.toList.Pairwise
      fun left right => left.span.start ≤ right.span.start := by
  have begins := begins_start source
  rw [run_eq]
  generalize Parser.start source = start at begins
  have maintains := maintains_chronicles options.recovery (Parser.rounds source)
  have settled := maintains.settled options start.1
    (Grammar.ladder_anywhere (Parser.rounds source)) (fun _ parser _ chronicles => ?_)
    options.maxDepth
  · have nothing : Chronicles (Parser.rounds source) start.2 :=
      ⟨begins.reaches, by simp [begins.errors], by simp [begins.errors]⟩
    exact (maintains.program options start.1 settled (fun _ _ stands => stands)
      begins.reaches nothing).1.2.ordered
  · -- The rest of the text is skipped, so the refusal stands at an earlier token.
    have skips := Build.isQuiet_skipToEnd parser
    exact ⟨chronicles.quiet skips, ⟨chronicles.2.ordered, chronicles.2.early⟩,
      (chronicles.1.here.onward skips.onward).floor⟩

end Parser

/-- The errors of a parse that are not those of the lexer, in the order of their reports. -/
theorem filter_errors_parseWith (limit : Nat) (source : String) :
    (parseWith (.recovering limit) source).errors.filter ParseError.isAboveTokens =
      (Parser.run (.recovering limit) source).2.errors.toList.filter ParseError.isAboveTokens := by
  rw [Parser.errors_parseWith, if_neg (by nofun)]
  exact ParseError.filter_sorted _ (Parser.ordered_run _ source)

end Vibescript
