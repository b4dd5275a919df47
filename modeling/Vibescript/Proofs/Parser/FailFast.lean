import Vibescript.Proofs.Parser.DepthLimit
import Vibescript.Proofs.Source.Faults

/-!
# Stopping at the first error

A parse that stops at the first error goes as one that recovers, until an error is reported or
until the lexer is found to have met one where a statement may begin. In the first case no later
error of the parse that recovers stands before the one that was reported, so both have the same
first error. In the second case the lexer may have looked ahead, over an error that the parse that
recovers has still to report: then the parse that stops gives the first error of the lexer, and
only errors of the parser stand before it.
-/
namespace Vibescript

open Cursor

/-- The options that stop at the first error, at a nesting limit. -/
abbrev ParseOptions.failing (limit : Nat) : ParseOptions := ⟨limit, .failFast⟩

namespace ParseError

/-- Whether an error does not stand after another one. -/
def notAfter (left right : ParseError) : Bool := left.span.start ≤ right.span.start

/-- Errors in the order of their places. -/
def sorted (errors : List ParseError) : List ParseError := errors.mergeSort notAfter

variable {error first : ParseError} {errors others : List ParseError}

/-- Errors in the order of their places are the same errors. -/
theorem mem_sorted : error ∈ sorted errors ↔ error ∈ errors := (List.mergeSort_perm _ _).mem_iff

/-- The order of places is transitive. -/
theorem notAfter_trans (left middle right : ParseError) (first : left.notAfter middle = true)
    (second : middle.notAfter right = true) : left.notAfter right = true := by
  simp only [notAfter, decide_eq_true_eq] at *
  omega

/-- Of two errors one does not stand after the other. -/
theorem notAfter_total (left right : ParseError) :
    (left.notAfter right || right.notAfter left) = true := by
  simp only [notAfter, Bool.or_eq_true, decide_eq_true_eq]
  omega

/-- Errors in the order of their places are in that order. -/
theorem pairwise_sorted (errors : List ParseError) :
    (sorted errors).Pairwise fun left right => left.span.start ≤ right.span.start :=
  (List.pairwise_mergeSort notAfter_trans notAfter_total errors).imp of_decide_eq_true

/-- An error more takes its place after those that stand before it and before all others. -/
theorem exists_sorted_cons (error : ParseError) (errors : List ParseError) :
    ∃ before after, sorted (error :: errors) = before ++ error :: after ∧
      sorted errors = before ++ after ∧
      ∀ other ∈ before, other.span.start < error.span.start := by
  obtain ⟨before, after, whole, rest, early⟩ :=
    List.mergeSort_cons notAfter_trans notAfter_total error errors
  refine ⟨before, after, whole, rest, fun other member => ?_⟩
  simpa [notAfter] using early other member

/-- An error more is the first unless it stands after the first of the others. -/
theorem head?_sorted_cons (isFirst : (sorted errors).head? = some first) :
    (sorted (error :: errors)).head? =
      some (if error.span.start ≤ first.span.start then error else first) := by
  obtain ⟨before, after, whole, rest, early⟩ := exists_sorted_cons error errors
  have ordered := pairwise_sorted (error :: errors)
  rw [whole] at ordered ⊢
  rw [rest] at isFirst
  cases before with
  | nil =>
    have member : first ∈ after := List.mem_of_mem_head? isFirst
    have le := (List.pairwise_cons.mp ordered).1 first member
    rw [if_pos le]
    rfl
  | cons other before =>
    obtain rfl : other = first := Option.some.inj isFirst
    rw [if_neg (Nat.not_le_of_lt (early other List.mem_cons_self))]
    rfl

/-- Of some errors and others, the first of the former has only others before it. -/
theorem exists_sorted_append (filled : errors ≠ []) (others : List ParseError) :
    ∃ before first after, sorted (errors ++ others) = before ++ first :: after ∧
      (sorted errors).head? = some first ∧
      ∀ other ∈ before, other ∈ others ∧ other.span.start < first.span.start := by
  induction errors with
  | nil => contradiction
  | cons error errors ih =>
    obtain ⟨front, back, whole, rest, early⟩ := exists_sorted_cons error (errors ++ others)
    have ordered := pairwise_sorted (error :: (errors ++ others))
    rw [whole] at ordered
    rw [List.cons_append, whole]
    cases errors with
    | nil =>
      refine ⟨front, error, back, rfl, by simp [sorted], fun other member =>
        ⟨?_, early other member⟩⟩
      refine mem_sorted.mp (?_ : other ∈ sorted ([] ++ others))
      rw [rest]
      exact List.mem_append_left _ member
    | cons next errors =>
      obtain ⟨before, first, after, same, isFirst, less⟩ := ih (List.cons_ne_nil _ _)
      rw [head?_sorted_cons isFirst]
      rw [rest] at same
      by_cases le : error.span.start ≤ first.span.start
      · -- The new error comes first, so those before it were before the first one already.
        refine ⟨front, error, back, rfl, by rw [if_pos le], fun other member =>
          ⟨?_, early other member⟩⟩
        obtain ⟨middle, isBefore, _⟩ | ⟨middle, isFront, rest⟩ := List.append_eq_append_iff.mp same
        · exact (less other (isBefore ▸ List.mem_append_left _ member)).1
        · cases middle with
          | nil =>
            rw [List.append_nil] at isFront
            exact (less other (isFront ▸ member)).1
          | cons head middle =>
            obtain rfl : first = head := (List.cons.inj rest).1
            have later := early first (by rw [isFront]; simp)
            omega
      · -- The new error comes after the first one, and so after those before that.
        have notAfter : first ∉ back := fun member => le
          ((List.pairwise_cons.mp (List.pairwise_append.mp ordered).2.1).1 first member)
        rw [if_neg le]
        obtain ⟨middle, _, isBack⟩ | ⟨middle, isFront, rest⟩ := List.append_eq_append_iff.mp same
        · exact absurd (isBack ▸ by simp) notAfter
        · cases middle with
          | nil =>
            rw [List.nil_append] at rest
            exact absurd (rest ▸ List.mem_cons_self) notAfter
          | cons head middle =>
            obtain rfl : first = head := (List.cons.inj rest).1
            refine ⟨before, first, middle ++ error :: back, ?_, rfl, less⟩
            rw [isFront]
            simp

/-- The first error stays the first when none that is added stands before one of the others. -/
theorem head?_sorted_append {least : Nat} (member : error ∈ errors)
    (early : error.span.start ≤ least) (late : ∀ other ∈ others, least ≤ other.span.start) :
    (sorted (errors ++ others)).head? = (sorted errors).head? := by
  obtain ⟨before, first, after, whole, isFirst, less⟩ :=
    exists_sorted_append (List.ne_nil_of_mem member) others
  rw [whole, isFirst]
  cases before with
  | nil => rfl
  | cons other before =>
    obtain ⟨added, otherEarly⟩ := less other List.mem_cons_self
    have firstEarly : first.span.start ≤ error.span.start := by
      cases order : sorted errors with
      | nil => simp [order] at isFirst
      | cons head tail =>
        obtain rfl : head = first := by simpa [order] using isFirst
        have inOrder := mem_sorted.mpr member
        rw [order] at inOrder
        cases inOrder with
        | head => exact Nat.le_refl _
        | tail _ later =>
          have ordered := pairwise_sorted errors
          rw [order] at ordered
          exact (List.pairwise_cons.mp ordered).1 error later
    have otherLate := late other added
    omega

end ParseError

/-! A parse meets all errors of the lexer. -/

namespace Parser

variable {soft : SoftNames} {rounds count : Nat} {start now : Parser} {grammar : Grammar}
  {tokens taken rest : List (Token String)} {parts : List Part} {ids : Array NodeId}

/-- All errors of a text were met. -/
def Meets (start now : Parser) : Prop :=
  now.cursor.lexer.errors.toList = start.cursor.lexer.faults ∧
    now.cursor.lexer.source = start.cursor.lexer.source

/-- At the end of the text, all its errors were met. -/
theorem Passes.meets (passes : start.Passes tokens taken rest now)
    (atEnd : now.cursor.isAtEnd = true) : start.Meets now := by
  refine ⟨?_, passes.moves.source⟩
  rw [← passes.moves.faults, Lexer.faults, (passes.moves.pending.atEnd atEnd).2.1,
    List.filterMap_nil, List.append_nil]

/-- One round over the statements of a text reads one of them, or all errors were met. -/
theorem Gathers.meets (deepens : grammar.Deepens soft rounds)
    (gathers : start.Gathers soft rounds tokens parts taken .statement count ids now) :
    Build.Outcome (grammar.bodyStep .empty ids) now
      (Round (start.Gathers soft rounds tokens parts taken .statement)
        (fun _ => start.Meets) count) := by
  obtain ⟨more, rest, run, rfl⟩ := gathers
  refine outcome_bodyStep run.readyNow .empty ?_ ?_ ?_ ?_
  · obtain ⟨skipped, left, passes, _⟩ := Passes.skipUntil run.passes.moves.pending fun _ => false
    exact fun _ => (run.passes.trans passes).meets (isAtEnd_skipToEnd now.cursor)
  · exact fun id mark left after _ next => run.push next (List.cons_ne_nil _ _)
  · exact fun ends => run.passes.meets (ends.2.resolve_right fun terminated => by
      rw [TagSet.contains_empty] at terminated
      contradiction)
  · refine fun notEnd => (outcome_statementStep deepens run.readyNow notEnd).mono
      fun result after ⟨id, item, left, same, filled, next⟩ => ?_
    rw [same]
    exact run.push next filled

/-- A parse meets all errors of the text. -/
theorem meets_run (options : ParseOptions) (source : String) :
    (Parser.run options source).2.cursor.lexer.errors.toList = Piece.faults source.toList ∧
      (Parser.run options source).2.cursor.lexer.length = Text.byteLength source.toList := by
  have begins := begins_start source
  rw [run_eq]
  generalize Parser.start source = start at begins
  have deepens := deepens_descend options start.1 (Parser.rounds source) options.maxDepth
  have gathers : start.2.Gathers start.1 (Parser.rounds source) (sourceTokens source) [] []
      .statement (Consumes.weight (sourceTokens source)) #[] start.2 :=
    ⟨[], sourceTokens source, .refl begins.ready, rfl⟩
  have items := Build.Outcome.repeatWithin _
    (fun count ids parser gathers => Gathers.meets deepens gathers) begins.ready.rounds gathers
  have program : Build.Outcome (Grammar.outermost options start.1 (Parser.rounds source)).program
      start.2 fun _ => start.2.Meets :=
    .bind (.bind (items.mono fun ids now all => outcome_onArena.mpr all))
  have ⟨errors, same⟩ : start.2.Meets _ := program
  exact ⟨errors.trans begins.faults, congrArg Text.byteLength (same.trans begins.text)⟩

/-! Where a parse that stops at the first error parts from one that recovers. -/

/-- A parser has reported nothing, and has reached an offset. -/
def Fresh (rounds floor : Nat) (parser : Parser) : Prop :=
  parser.cursor.Reaches rounds floor ∧ parser.errors = #[] ∧ parser.isHalted = false

/-- A parser stopped at an error. -/
def Stopped (error : ParseError) (parser : Parser) : Prop :=
  parser.errors = #[error] ∧ parser.isHalted = true

/-- A parser skipped the rest of the text because of an error of the lexer, and whatever it reported
stands at the end. -/
def Exhausted (rounds : Nat) (parser : Parser) : Prop :=
  parser.cursor.Reaches rounds 0 ∧ parser.cursor.isAtEnd = true ∧
    parser.cursor.lexer.errors.toList ≠ [] ∧
    ∀ error ∈ parser.errors.toList, parser.cursor.lexer.length ≤ error.span.start

/-- The errors that a parser reported begin with one, and the others do not stand before it. -/
def Follows (rounds : Nat) (error : ParseError) (parser : Parser) : Prop :=
  parser.cursor.Reaches rounds error.span.start ∧
    ∃ later, parser.errors.toList = error :: later ∧
      ∀ other ∈ later, error.span.start ≤ other.span.start

/-- A parser that has reported nothing can go onward. -/
theorem Fresh.quiet {floor : Nat} {before after : Parser} (fresh : Fresh rounds floor before)
    (quiet : before.Quiet after) : Fresh rounds floor after :=
  ⟨fresh.1.onward quiet.onward, quiet.errors.trans fresh.2.1, quiet.halted.trans fresh.2.2⟩

/-- A parser that stops at the first error records it and halts. -/
theorem reported_failFast {parser : Parser} (goesOn : parser.isHalted = false)
    (error : ParseError) :
    parser.reported .failFast error = { parser with
      errors := parser.errors.push error
      isHalted := true } := by
  rw [reported, if_neg (by simp [goesOn])]
  rfl

/-- A parser that stopped reports nothing more. -/
theorem maintains_stopped (error : ParseError) :
    Maintains .failFast (Stopped error) fun _ => Stopped error := by
  refine ⟨fun before after quiet ⟨errors, halted⟩ => ?_, fun _ _ stopped _ _ => stopped, ?_⟩
  · exact ⟨quiet.errors.trans errors, quiet.halted.trans halted⟩
  · intro other parser ⟨errors, halted⟩
    rw [reported_halted halted]
    exact ⟨errors, halted⟩

/-- At the end of the text, errors stand there. -/
theorem maintains_exhausted (rounds : Nat) :
    Maintains .failFast (Exhausted rounds) fun error parser =>
      Exhausted rounds parser ∧ parser.cursor.lexer.length ≤ error.span.start := by
  refine ⟨?_, ?_, ?_⟩
  · intro before after quiet ⟨stands, atEnd, lexical, late⟩
    obtain ⟨tokens, pending, _⟩ := stands.pending
    obtain ⟨taken, rest, moves⟩ := quiet.onward tokens pending
    refine ⟨stands.onward quiet.onward, stands.atEnd quiet.onward atEnd, ?_, ?_⟩
    · exact fun none => lexical (List.prefix_nil.mp (none ▸ moves.errors))
    · rw [quiet.errors]
      have same : after.cursor.lexer.length = before.cursor.lexer.length :=
        congrArg Text.byteLength moves.source
      rwa [same]
  · intro error parser exhausted _ spans
    obtain ⟨tokens, pending, _⟩ := exhausted.1.pending
    refine ⟨exhausted, ?_⟩
    rw [spans, (pending.atEnd exhausted.2.1).1]
    exact Nat.le_refl _
  · intro error parser ⟨⟨stands, atEnd, lexical, late⟩, atLast⟩
    unfold reported
    split
    · exact ⟨stands, atEnd, lexical, late⟩
    · refine ⟨stands, atEnd, lexical, fun other member => ?_⟩
      rw [Array.toList_push] at member
      rcases List.mem_append.mp member with early | last
      · exact late other early
      · rwa [List.mem_singleton.mp last]

/-- No error stands before the first that was reported. -/
theorem maintains_follows (rounds : Nat) (error : ParseError) :
    Maintains .recover (Follows rounds error) fun other parser =>
      Follows rounds error parser ∧ error.span.start ≤ other.span.start := by
  refine ⟨?_, ?_, ?_⟩
  · intro before after quiet ⟨stands, later⟩
    rw [Follows, quiet.errors]
    exact ⟨stands.onward quiet.onward, later⟩
  · intro other parser follows _ spans
    rw [spans]
    exact ⟨follows, follows.1.floor⟩
  · intro other parser ⟨⟨stands, later, errors, late⟩, notBefore⟩
    unfold reported
    split
    · exact ⟨stands, later, errors, late⟩
    · refine ⟨stands, later ++ [other], by rw [Array.toList_push, errors]; rfl, ?_⟩
      intro another member
      rcases List.mem_append.mp member with early | last
      · exact late another early
      · rwa [List.mem_singleton.mp last]

/-- Why a parse stops before the end of the text. -/
inductive Stop where
  /-- An error was reported. -/
  | reported (error : ParseError)
  /-- The lexer had met an error. -/
  | lexical

/-- A parse that stops at the first error goes together with one that recovers until it stops. -/
def atFirst (rounds : Nat) : Parting Stop where
  same := Fresh rounds 0
  fails error := Fresh rounds error.span.start
  left
    | .reported error => Stopped error
    | .lexical => Exhausted rounds
  leftFails
    | .reported error => fun _ => Stopped error
    | .lexical => fun error parser =>
      Exhausted rounds parser ∧ parser.cursor.lexer.length ≤ error.span.start
  right
    | .reported error => Follows rounds error
    | .lexical => fun _ => True
  rightFails
    | .reported error => fun other parser =>
      Follows rounds error parser ∧ error.span.start ≤ other.span.start
    | .lexical => fun _ _ => True

/-- The parses part at the first error only. -/
theorem lawful_atFirst (rounds : Nat) : (atFirst rounds).Lawful .failFast .recover where
  quiet _ _ quiet fresh := fresh.quiet quiet
  unexpected error parser fresh _ spans := by
    refine ⟨?_, fresh.2⟩
    rw [spans]
    exact fresh.1.here
  reported error parser fresh := by
    obtain ⟨stands, errors, goesOn⟩ := fresh
    refine .inr ⟨.reported error, ?_, ?_⟩
    · show Stopped error (parser.reported .failFast error)
      rw [reported_failFast goesOn, errors]
      exact ⟨rfl, rfl⟩
    · show Follows rounds error (parser.reported .recover error)
      rw [reported_recover goesOn, errors]
      exact ⟨stands, [], rfl, by simp⟩
  goesOn parser fresh := by
    show (parser.isHalted || false) = false
    rw [fresh.2.2]
    rfl
  halts parser fresh halts := by
    obtain ⟨stands, errors, goesOn⟩ := fresh
    have lexical : parser.cursor.hasLexicalErrors = true := by
      change (parser.isHalted || parser.cursor.hasLexicalErrors) = true at halts
      rwa [goesOn] at halts
    have skips := Build.isQuiet_skipToEnd parser
    obtain ⟨tokens, pending, _⟩ := stands.pending
    obtain ⟨taken, rest, moves⟩ := skips.onward tokens pending
    refine ⟨.lexical, ⟨stands.onward skips.onward, isAtEnd_skipToEnd _, fun none => ?_, ?_⟩, trivial⟩
    · have before := List.prefix_nil.mp (none ▸ moves.errors)
      rw [Array.toList_eq_nil_iff] at before
      rw [Cursor.hasLexicalErrors, before] at lexical
      contradiction
    · show ∀ error ∈ parser.errors.toList, _
      simp [errors]
  left
    | .reported error => maintains_stopped error
    | .lexical => maintains_exhausted rounds
  right
    | .reported error => maintains_follows rounds error
    | .lexical => ⟨fun _ _ _ _ => trivial, fun _ _ _ _ _ => trivial, fun _ _ _ => trivial⟩

/-- A parser that stopped stays so where a level is refused. -/
theorem left_refused {parser : Parser} {stop : Stop} (limit : Nat)
    (holds : (atFirst rounds).left stop parser) :
    (atFirst rounds).leftFails stop (parser.refusal limit) parser.skipped := by
  have skipped := ((lawful_atFirst rounds).left stop).quiet _ _ (Build.isQuiet_skipToEnd parser)
    holds
  cases stop with
  | reported error => exact skipped
  | lexical =>
    obtain ⟨stands, atEnd, _⟩ := holds
    obtain ⟨tokens, pending, _⟩ := stands.pending
    have atLast : parser.cursor.current.span.start = parser.cursor.lexer.length :=
      congrArg (fun token => token.span.start) (pending.atEnd atEnd).1
    refine ⟨skipped, ?_⟩
    show parser.cursor.skipToEnd.lexer.length ≤ parser.cursor.current.span.start
    rw [Cursor.skipToEnd, Cursor.skipUntil_atEnd atEnd]
    exact Nat.le_of_eq atLast.symm

/-- A parse that recovers keeps what holds of it after the other stopped. -/
theorem right_settled (soft : SoftNames) (limit : Nat) (stop : Stop) (levels : Nat) :
    (Grammar.level (.recovering limit) soft rounds levels).Settled rounds
      (Grammar.anywhere rounds levels) ((atFirst rounds).right stop)
      ((atFirst rounds).rightFails stop) := by
  have lawful := lawful_atFirst rounds
  refine (lawful.right stop).settled (.recovering limit) soft (Grammar.ladder_anywhere rounds)
    (fun _ parser _ holds => ?_) levels
  cases stop with
  | reported error =>
    refine ⟨(lawful.right (.reported error)).quiet _ _ (Build.isQuiet_skipToEnd parser) holds, ?_⟩
    exact holds.1.floor
  | lexical => trivial

/-- Both parses refuse to go deeper than the limit. -/
theorem parts_refuse (soft : SoftNames) (limit : Nat) (request : Request) (parser : Parser)
    (stands : parser.cursor.Reaches rounds 0) (fresh : Fresh rounds 0 parser) :
    (Grammar.refuse limit).Parts (atFirst rounds)
      (Grammar.descend (.recovering limit) soft rounds 0 request) parser
      fun _ => Past rounds parser.cursor.current.span.start := by
  have skips := Build.isQuiet_skipToEnd parser
  exact .inl ⟨rfl, .failed (run_refuse limit parser) skips.onward
    (Fresh.quiet ⟨stands.here, fresh.2⟩ skips)⟩

/-- A parse that stops at the first error gives what one that recovers gives, or it stops. -/
theorem Fresh.program {soft : SoftNames} {parser : Parser} (fresh : Fresh rounds 0 parser)
    (limit : Nat) :
    ((Grammar.outermost (.failing limit) soft rounds).program parser =
        (Grammar.outermost (.recovering limit) soft rounds).program parser ∧
      Fresh rounds 0 ((Grammar.outermost (.failing limit) soft rounds).program parser).2) ∨
    ∃ stop, (atFirst rounds).left stop
        ((Grammar.outermost (.failing limit) soft rounds).program parser).2 ∧
      (atFirst rounds).right stop
        ((Grammar.outermost (.recovering limit) soft rounds).program parser).2 :=
  (lawful_atFirst rounds).program (.failing limit) (.recovering limit) soft 0
    (fun _ _ holds => left_refused limit holds) (right_settled soft limit)
    (parts_refuse soft limit) rfl fresh.1 fresh

/-- The errors of a parse, those of the text among them, in the order of their places. -/
theorem errors_parseWith (options : ParseOptions) (source : String) :
    (parseWith options source).errors =
      if options.recovery == .failFast then
        (ParseError.sorted ((Piece.faults source.toList).map ParseError.ofLexical ++
          (Parser.run options source).2.errors.toList)).take 1
      else ParseError.sorted ((Piece.faults source.toList).map ParseError.ofLexical ++
        (Parser.run options source).2.errors.toList) := by
  have meets := meets_run options source
  rw [parseWith_eq, ← meets.1]
  generalize Parser.run options source = run
  rfl

/-- A parse that skipped the rest of a text because of an error of the lexer gives the first one. -/
theorem Exhausted.head? {source : String} {parser : Parser} {rounds : Nat}
    (exhausted : Exhausted rounds parser)
    (faults : parser.cursor.lexer.errors.toList = Piece.faults source.toList)
    (length : parser.cursor.lexer.length = Text.byteLength source.toList) :
    (Piece.faults source.toList).map ParseError.ofLexical ≠ [] ∧
      (ParseError.sorted ((Piece.faults source.toList).map ParseError.ofLexical ++
        parser.errors.toList)).head? =
      (ParseError.sorted ((Piece.faults source.toList).map ParseError.ofLexical)).head? := by
  obtain ⟨_, _, lexical, late⟩ := exhausted
  rw [faults] at lexical
  rw [length] at late
  obtain ⟨fault, member⟩ := List.exists_mem_of_ne_nil _ lexical
  have error := List.mem_map_of_mem (f := ParseError.ofLexical) member
  exact ⟨List.ne_nil_of_mem error,
    ParseError.head?_sorted_append error (Piece.start_le_of_mem_faults member) late⟩

end Parser

end Vibescript
