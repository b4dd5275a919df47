import Vibescript.Proofs.Parser.Justification
import Vibescript.Proofs.Parser.LexicalErrors

/-!
# The errors that a parse reports

A parser accepts errors in the order of the text, and every one of them lies in the text: an error is
raised at the current token, and it is reported before the cursor goes back, since it never does. So
the sorting at the end of a parse puts the errors of the lexer between those of the parser, and
leaves the latter in the order in which they were reported.
-/
namespace Vibescript

open Cursor

/-- An error lies in a text. -/
def ParseError.LiesIn (source : List Char) (error : ParseError) : Prop :=
  error.span.start ≤ error.span.stop ∧ error.span.stop ≤ Text.byteLength source

/-- The current token of a cursor lies in the text. -/
theorem Cursor.Pending.current_liesIn {cursor : Cursor} {tokens : List (Token String)}
    (pending : cursor.Pending tokens) :
    cursor.current.span.start ≤ cursor.current.span.stop ∧
      cursor.current.span.stop ≤ Text.byteLength cursor.source := by
  by_cases atEnd : cursor.isAtEnd = true
  · rw [(pending.atEnd atEnd).1]
    exact ⟨Nat.le_refl _, Nat.le_refl _⟩
  · obtain ⟨before, rest, rfl, _, _, _⟩ := pending.ahead (Bool.not_eq_true _ ▸ atEnd)
    have stands := pending.line.stands (cursor.current.written cursor.lexer.names) (by simp)
    exact ⟨stands.ordered, stands.inside⟩

namespace Parser

variable {source : List Char} {rounds : Nat}

/-- A parser reads a text, and the errors that it reported lie in the text. -/
structure Located (source : List Char) (rounds : Nat) (parser : Parser) : Prop where
  /-- The cursor has tokens to read. -/
  reaches : parser.cursor.Reaches rounds 0
  /-- They are tokens of the text. -/
  text : parser.cursor.source = source
  /-- The errors lie in the text. -/
  errors : ∀ error ∈ parser.errors.toList, error.LiesIn source

/-- Quiet steps go on in the same text. -/
theorem Located.quiet {before after : Parser} (located : Located source rounds before)
    (quiet : before.Quiet after) : Located source rounds after := by
  obtain ⟨tokens, pending, _, _⟩ := located.reaches.pending
  obtain ⟨taken, rest, moves⟩ := quiet.onward tokens pending
  refine ⟨located.reaches.onward quiet.onward, moves.source.trans located.text, ?_⟩
  rw [quiet.errors]
  exact located.errors

/-- An error at the current token lies in the text. -/
theorem Located.liesIn {parser : Parser} (located : Located source rounds parser)
    {error : ParseError} (span : error.span = parser.cursor.current.span) :
    error.LiesIn source := by
  obtain ⟨tokens, pending, _, _⟩ := located.reaches.pending
  rw [ParseError.LiesIn, span, ← located.text]
  exact pending.current_liesIn

/-- A parse raises and reports errors in its text. -/
theorem maintains_located (recovery : RecoveryMode) (source : List Char) (rounds : Nat) :
    Maintains recovery (Located source rounds) fun error parser =>
      Located source rounds parser ∧ error.LiesIn source := by
  refine ⟨fun _ _ quiet located => located.quiet quiet,
    fun _ _ located _ span => ⟨located, located.liesIn span⟩, ?_⟩
  rintro error parser ⟨located, lies⟩
  refine ⟨?_, ?_, fun other member => ?_⟩
  · rw [cursor_reported]
    exact located.reaches
  · rw [cursor_reported]
    exact located.text
  · rcases mem_errors_reported member with early | rfl
    · exact located.errors other early
    · exact lies

/-- The errors that a parse reports lie in its text. -/
theorem located_run (options : ParseOptions) (source : String) :
    Located source.toList (Parser.rounds source) (Parser.run options source).2 := by
  have begins := begins_start source
  rw [run_eq]
  generalize Parser.start source = start at begins
  have maintains := maintains_located options.recovery source.toList (Parser.rounds source)
  have settled := maintains.settled options start.1
    (Grammar.ladder_anywhere (Parser.rounds source)) (fun _ parser _ located => ?_)
    options.maxDepth
  · have nothing : Located source.toList (Parser.rounds source) start.2 :=
      ⟨begins.reaches, begins.text, by simp [begins.errors]⟩
    exact (maintains.program options start.1 settled (fun _ _ stands => stands)
      begins.reaches nothing).1
  · -- The refusal stands at the token before which the rest of the text is skipped.
    exact ⟨located.quiet (Build.isQuiet_skipToEnd parser), located.liesIn rfl⟩

end Parser

/-- Errors were reported in the order of a text. -/
structure ParseError.InOrder (source : List Char) (reports : List ParseError) : Prop where
  /-- None starts before an earlier one. -/
  ordered : reports.Pairwise fun left right => left.span.start ≤ right.span.start
  /-- Each lies in the text. -/
  inside : ∀ error ∈ reports, error.LiesIn source
  /-- Sorting them together with whatever errors of the lexer keeps them all in their order. -/
  merged : ∀ lexical : List LexicalError,
    (sorted (lexical.map ofLexical ++ reports)).filter isAboveTokens = reports

/-- A parse reports its errors in the order of the text, whatever the nesting limit and the recovery.
Apart from errors of the lexer its result has exactly these, in this order; when it stops at the first
error, it has the first of them at most. -/
theorem inOrder_parseWith (options : ParseOptions) (source : String) :
    let reports := (Parser.run options source).2.errors.toList
    let kept := (parseWith options source).errors.filter ParseError.isAboveTokens
    ParseError.InOrder source.toList reports ∧
      if options.recovery == .failFast then kept <+: reports else kept = reports := by
  intro reports kept
  have above : reports.filter ParseError.isAboveTokens = reports :=
    List.filter_eq_self.mpr (Parser.isAboveTokens_run options source)
  have ordered := Parser.ordered_run options source
  have merged (lexical : List LexicalError) :
      (ParseError.sorted (lexical.map ParseError.ofLexical ++ reports)).filter
        ParseError.isAboveTokens = reports :=
    (ParseError.filter_sorted lexical ordered).trans above
  refine ⟨⟨ordered, (Parser.located_run options source).errors, merged⟩, ?_⟩
  dsimp only [kept]
  rw [Parser.errors_parseWith]
  split
  · rw [← merged (Piece.faults source.toList)]
    exact (List.take_prefix 1 _).filter _
  · exact merged _

end Vibescript
