import Vibescript.Proofs.Parser.ErrorOrder
import Vibescript.Proofs.Source.Recorded

/-!
# Lexical errors in a parse

A parser reports grammatical errors and the nesting limit, never an error of the lexer. So the
lexical errors of a parse are those that reading the tokens alone finds, each of them once, sorted
stably by their places, wherever the parser recovered, gave up or looked ahead.
-/
namespace Vibescript

open Cursor

/-- The letter and the digit that the codes of the lexer are written with. -/
def ErrorCode.isLexical (code : ErrorCode) : Bool := ['E', '0'].isPrefixOf code.text.toList

/-- The codes of lexical problems are written alike, and no others. -/
theorem ErrorCode.isLexical_iff (code : ErrorCode) :
    code.isLexical = true ↔ code.category = .lexical := by
  cases code <;> decide +kernel

namespace ParseError

/-- An error has a lexical code if it is one of the lexer. -/
theorem isLexical_eq (error : ParseError) : error.code.isLexical = !error.isAboveTokens := by
  rw [Bool.eq_iff_iff, ErrorCode.isLexical_iff]
  simp [isAboveTokens]

/-- An error more is sorted in between those that start before it and all others. -/
theorem sorted_cons (error : ParseError) (errors : List ParseError) :
    sorted (error :: errors) = (sorted errors).filter (!error.notAfter ·) ++
        error :: (sorted errors).filter error.notAfter ∧
      sorted errors = (sorted errors).filter (!error.notAfter ·) ++
        (sorted errors).filter error.notAfter := by
  obtain ⟨before, after, whole, rest, early⟩ := exists_sorted_cons error errors
  have late : ∀ other ∈ after, error.notAfter other = true := by
    have inOrder := pairwise_sorted (error :: errors)
    rw [whole] at inOrder
    exact fun other member => decide_eq_true
      (List.rel_of_pairwise_cons (List.pairwise_append.mp inOrder).2.1 member)
  have notLate : ∀ other ∈ before, error.notAfter other = false := fun other member =>
    decide_eq_false (Nat.not_le.mpr (early other member))
  rw [whole, rest, List.filter_append, List.filter_append,
    List.filter_eq_self.mpr late, List.filter_eq_self.mpr (by simpa using notLate),
    List.filter_eq_nil_iff.mpr (by simpa using late),
    List.filter_eq_nil_iff.mpr (by simpa using notLate), List.append_nil, List.nil_append]
  exact ⟨rfl, rfl⟩

/-- Errors of a kind are sorted on their own. -/
theorem filter_sorted_eq (accepts : ParseError → Bool) (errors : List ParseError) :
    (sorted errors).filter accepts = sorted (errors.filter accepts) := by
  induction errors with
  | nil => simp [sorted]
  | cons error errors ih =>
    rw [(sorted_cons error errors).1, List.filter_append, List.filter_cons, List.filter_comm,
      List.filter_comm accepts, ih, List.filter_cons]
    split
    · exact (sorted_cons error _).1.symm
    · exact (sorted_cons error _).2.symm

end ParseError

namespace Parser

/-- No error of a parser is one of the lexer. -/
def IsAboveTokens (parser : Parser) : Prop :=
  ∀ error ∈ parser.errors.toList, error.isAboveTokens = true

/-- A report of an error above tokens keeps all errors above them. -/
theorem IsAboveTokens.reported {parser : Parser} (above : parser.IsAboveTokens)
    {error : ParseError} (isAbove : error.isAboveTokens = true) (recovery : RecoveryMode) :
    (parser.reported recovery error).IsAboveTokens := by
  unfold Parser.reported
  split
  · exact above
  · intro other member
    change other ∈ (parser.errors.push error).toList at member
    rw [Array.toList_push] at member
    rcases List.mem_append.mp member with early | isLast
    · exact above other early
    · rw [List.mem_singleton.mp isLast]
      exact isAbove

/-- A parse reports grammatical errors. -/
theorem maintains_isAboveTokens (recovery : RecoveryMode) :
    Maintains recovery IsAboveTokens fun error parser =>
      parser.IsAboveTokens ∧ error.isAboveTokens = true := by
  refine ⟨fun _ _ quiet above => ?_, fun error _ above family _ => ⟨above, ?_⟩,
    fun _ _ ⟨above, isAbove⟩ => above.reported isAbove recovery⟩
  · rw [IsAboveTokens, quiet.errors]
    exact above
  · rw [ParseError.isAboveTokens, family]
    rfl

/-- No error that a parser reports is one of the lexer. -/
theorem isAboveTokens_run (options : ParseOptions) (source : String) :
    (Parser.run options source).2.IsAboveTokens := by
  have begins := begins_start source
  rw [run_eq]
  generalize Parser.start source = start at begins
  have maintains := maintains_isAboveTokens options.recovery
  have settled := maintains.settled options start.1
    (Grammar.ladder_anywhere (Parser.rounds source)) (fun _ parser _ above => ?_) options.maxDepth
  · have nothing : start.2.IsAboveTokens := by simp [IsAboveTokens, begins.errors]
    exact (maintains.program options start.1 settled (fun _ _ stands => stands)
      begins.reaches nothing).1
  · -- A level that refuses reports the nesting limit.
    exact ⟨above, rfl⟩

end Parser

/-- The lexical errors of a parse are those of its text, sorted stably by their places, and all
errors stand in order. -/
theorem lexical_errors_parseWith (limit : Nat) (source : String) :
    (parseWith (.recovering limit) source).errors.filter (·.code.isLexical) =
        ParseError.sorted ((lex source).lexer.errors.toList.map ParseError.ofLexical) ∧
      (parseWith (.recovering limit) source).errors.Pairwise
        fun left right => left.span.start ≤ right.span.start := by
  rw [Parser.errors_parseWith, if_neg (by nofun), (recorded_lex source).1]
  refine ⟨?_, ParseError.pairwise_sorted _⟩
  have lexical : ((Piece.faults source.toList).map ParseError.ofLexical).filter
      (·.code.isLexical) = (Piece.faults source.toList).map ParseError.ofLexical := by
    refine List.filter_eq_self.mpr fun error member => ?_
    obtain ⟨fault, _, rfl⟩ := List.mem_map.mp member
    rw [ParseError.isLexical_eq, ParseError.isAboveTokens_ofLexical]
    rfl
  have none : (Parser.run (.recovering limit) source).2.errors.toList.filter
      (·.code.isLexical) = [] := by
    refine List.filter_eq_nil_iff.mpr fun error member => ?_
    rw [ParseError.isLexical_eq, Parser.isAboveTokens_run _ _ error member]
    exact Bool.false_ne_true
  rw [ParseError.filter_sorted_eq, List.filter_append, lexical, none, List.append_nil]

end Vibescript
