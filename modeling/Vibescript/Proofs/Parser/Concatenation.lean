import Vibescript.Proofs.Parser.Standing
import Vibescript.Proofs.Source.Stream

/-!
# Programs one below the other

Line breaks do not end statements, but where the first token of a program neither goes on with the
statement before it nor is a value that a `return` before it would return, the program is read below
another one as it is by itself: the statements of both texts are those of the one and of the other.
-/
namespace Vibescript

open Build Parse Grammar

/-- The tokens of a text that are neither directives nor its end. -/
def LexOutput.ordinary (output : LexOutput) : List (Token Name) :=
  output.tokens.filter fun token => token.tag != .endOfInput && !token.kind.isDirective

/-- The tags of these tokens. -/
theorem LexOutput.map_tag_ordinary (source : String) :
    (lex source).ordinary.map Token.tag =
      (Token.ordinary (Parser.sourceTokens source)).map Token.tag := by
  have whole : Token.ordinary (Parser.sourceTokens source) =
      (lex source).ordinary.map (Token.written (lex source).lexer.names) := by
    rw [Parser.sourceTokens, ← filter_written_lex, Token.ordinary, List.filter_filter,
      LexOutput.written, List.filter_map, LexOutput.ordinary]
    congr 1
    refine List.filter_congr fun token _ => ?_
    simp [Bool.and_comm, bne, beq_eq_decide]
  rw [whole, List.map_map]
  exact List.map_congr_left fun token _ => (Token.tag_written _ _).symm

/-- Of the tokens that start a statement, three may go on with one. -/
theorem Tag.attaches_of_startsStatement {tag : Tag}
    (starts : tag = .endOfInput ∨ tag.startsStatement = true)
    (others : tag ∉ [Tag.minus, .leftBracket, .leftParen]) : tag.attaches = false := by
  revert starts others
  cases tag <;> decide

namespace Parser

variable {options : ParseOptions} {above below whole : String}
  (isWhole : whole.toList = above.toList ++ '\n' :: below.toList)

include isWhole

/-- The tokens of two texts with a line break between them. -/
theorem sourceTokens_lines (clean : Piece.faults above.toList = []) :
    sourceTokens whole = sourceTokens above ++
      (sourceTokens below).map (Token.shift (Text.byteLength above.toList + 1)) := by
  rw [sourceTokens, isWhole]
  exact Piece.tokens_lines clean

omit isWhole in
/-- What stands below a text does not go on with it. -/
theorem detached_lines (recovers : options.recovery = .recover)
    (clean : (parseWith options above).errors = [])
    (cleanBelow : (parseWith options below).errors = [])
    (last : ∀ token ∈ (Token.ordinary (sourceTokens above)).getLast?, token.tag ≠ .kwReturn)
    (first : Token.opening (sourceTokens below) ∉ [Tag.minus, .leftBracket, .leftParen])
    (distance : Nat) :
    Token.Detached (sourceTokens above) ((sourceTokens below).map (Token.shift distance)) := by
  have opening : Token.opening ((sourceTokens below).map (Token.shift distance)) =
      Token.opening (sourceTokens below) := by
    rw [Token.opening, Token.opening, Token.kinds_shift]
  refine ⟨?_, rests_sourceTokens clean, fun token isLast returns => absurd returns (last token isLast)⟩
  rw [opening]
  exact Tag.attaches_of_startsStatement (startsStatement_opening recovers cleanBelow) first

omit isWhole in
/-- What a program ends with goes on with nothing at the end of the text. -/
theorem detached_nil (clean : (parseWith options below).errors = []) :
    Token.Detached (sourceTokens below) [] :=
  ⟨rfl, rests_sourceTokens clean, fun _ _ _ => rfl⟩

variable (recovers : options.recovery = .recover)
  (clean : (parseWith options above).errors = [])
  (cleanBelow : (parseWith options below).errors = [])
  (last : ∀ token ∈ (Token.ordinary (sourceTokens above)).getLast?, token.tag ≠ .kwReturn)
  (first : Token.opening (sourceTokens below) ∉ [Tag.minus, .leftBracket, .leftParen])

include recovers clean cleanBelow last first

/-- From the start of both texts the statements of the one are read, and then those of the other. -/
theorem Begins.reads_lines {soft : SoftNames} {start : Parser} {rounds : Nat}
    (begins : Begins whole soft start) (enough : Parser.rounds above ≤ rounds)
    (enoughBelow : Parser.rounds below ≤ rounds) (enoughBoth : Parser.rounds whole ≤ rounds)
    (roundsEnough : Parser.rounds above + Parser.rounds below ≤ rounds) :
    ∃ ids after, repeatWithin ((outermost options soft rounds).bodyStep .empty) rounds #[] start =
        (ids, after) ∧ after.errors = #[] ∧
      List.Forall₂ after.forest.Displays ids.toList
        ((parseWith options above).sexps ++ (parseWith options below).sexps) := by
  have poised := begins.poised
  rw [sourceTokens_lines isWhole (clean_iff.mp clean).1] at poised
  -- The first text, before the tokens of the second.
  have follow : Token.Follow above.toList start.cursor.source 0 0 (sourceTokens above)
      (sourceTokens above) := by
    rw [begins.text, isWhole]
    exact (Token.Sit.of_source above.toList).follow_append
  obtain ⟨used, usedLe, ids, middle, runs, poisedMiddle, _, displays⟩ :=
    poised.inside follow
      (detached_lines recovers clean cleanBelow last first _) clean enough ⟨recovers, recovers⟩
      (Nat.le_refl _) Tag.startsStatement_of_empty
  -- The second text, at the end of the whole.
  have text : middle.cursor.source = whole.toList := begins.text_of_run enoughBoth (runs 0)
  have followBelow : Token.Follow below.toList middle.cursor.source 0
      (Text.byteLength above.toList + 1) (sourceTokens below)
      ((sourceTokens below).map (Token.shift (Text.byteLength above.toList + 1))) := by
    have inside : whole.toList = (above.toList ++ ['\n']) ++ below.toList ++ [] := by
      rw [isWhole]
      simp
    have length : Text.byteLength above.toList + 1 = Text.byteLength (above.toList ++ ['\n']) := by
      rw [Text.byteLength_append]
      rfl
    have sit : Token.Sit below.toList 0 (sourceTokens below) := Token.Sit.of_source below.toList
    rw [text, inside, length]
    exact sit.follow_shift
  rw [← List.append_nil ((sourceTokens below).map _)] at poisedMiddle
  obtain ⟨more, moreLe, idsBelow, after, runsBelow, poisedAfter, grows, displaysBelow⟩ :=
    poisedMiddle.inside followBelow (detached_nil cleanBelow) cleanBelow
      enoughBelow ⟨recovers, recovers⟩ (Nat.le_refl _) Tag.startsStatement_of_empty
  obtain ⟨left, rfl⟩ : ∃ left, rounds = used + (more + left) := ⟨rounds - used - more, by omega⟩
  refine ⟨ids ++ idsBelow, after, ?_, poisedAfter.clean, ?_⟩
  · have level : level options soft (used + (more + left)) options.maxDepth =
        outermost options soft (used + (more + left)) := rfl
    rw [level] at runs runsBelow
    have joined := statements_append (outermost options soft (used + (more + left))) .empty ids #[]
      (more + left) middle
    rw [Array.append_empty, runsBelow, statements_idle recovers poisedAfter.goesOn poisedAfter.idle]
      at joined
    rw [runs, joined]
  · rw [Array.toList_append]
    exact List.rel_append (displays.imp fun _ _ shows => shows.mono grows) displaysBelow

end Parser

/-- The last ordinary token of a text has a tag of its tokens. -/
theorem LexOutput.exists_getLast? {source : String} {token : Token String}
    (isLast : token ∈ (Token.ordinary (Parser.sourceTokens source)).getLast?) :
    ∃ last ∈ (lex source).ordinary.getLast?, last.tag = token.tag := by
  have tags := congrArg List.getLast? (LexOutput.map_tag_ordinary source)
  rw [List.getLast?_map, List.getLast?_map, Option.mem_def.mp isLast] at tags
  exact Option.map_eq_some_iff.mp tags

/-- The tag of the first ordinary token of a text. -/
theorem LexOutput.opening_eq (source : String) : Token.opening (Parser.sourceTokens source) =
    ((lex source).ordinary.head?.map Token.tag).getD .endOfInput := by
  have tags := congrArg List.head? (LexOutput.map_tag_ordinary source)
  rw [List.head?_map] at tags
  rw [tags, Token.opening, Token.kinds]
  cases Token.ordinary (Parser.sourceTokens source) <;> rfl

/-- The statements of two programs one below the other are those of the one, and then those of the
other, unless the second program starts with a token that goes on with the first, or could be
returned by it. -/
theorem sexps_lines (limit : Nat) {above below : String}
    (clean : (parseWith (.recovering limit) above).errors = [])
    (cleanBelow : (parseWith (.recovering limit) below).errors = [])
    (last : ∀ token ∈ (lex above).ordinary.getLast?, token.tag ≠ .kwReturn)
    (first : ∀ token ∈ (lex below).ordinary.head?,
      token.tag ∉ [Tag.minus, .leftBracket, .leftParen]) :
    (parseWith (.recovering limit) (above ++ "\n" ++ below)).errors = [] ∧
      (parseWith (.recovering limit) (above ++ "\n" ++ below)).sexps =
        (parseWith (.recovering limit) above).sexps ++
          (parseWith (.recovering limit) below).sexps := by
  have isWhole : (above ++ "\n" ++ below).toList = above.toList ++ '\n' :: below.toList := by
    simp
  generalize above ++ "\n" ++ below = whole at isWhole ⊢
  have returns (token : Token String)
      (isLast : token ∈ (Token.ordinary (Parser.sourceTokens above)).getLast?) :
      token.tag ≠ .kwReturn := by
    obtain ⟨token', isLast', same⟩ := LexOutput.exists_getLast? isLast
    exact same ▸ last token' isLast'
  have attaches : Token.opening (Parser.sourceTokens below) ∉
      [Tag.minus, .leftBracket, .leftParen] := by
    rw [LexOutput.opening_eq]
    cases isFirst : (lex below).ordinary.head? with
    | none => decide
    | some token => exact first token isFirst
  have enough : Parser.rounds whole ≤
      Parser.rounds whole + (Parser.rounds above + Parser.rounds below) := Nat.le_add_right _ _
  obtain ⟨ids, after, ran, noErrors, displays⟩ :=
    (Parser.begins_start whole).reads_lines isWhole rfl clean cleanBelow returns attaches
      (by omega) (by omega) enough (by omega)
  have lists := Parser.lists_of_run enough ran
  refine ⟨Parser.clean_iff.mpr ⟨?_, lists.errors.trans noErrors⟩, lists.sexps_eq displays⟩
  rw [isWhole]
  exact Piece.faults_lines (Parser.clean_iff.mp clean).1 (Parser.clean_iff.mp cleanBelow).1

/-- A directive and an expression below a conditional and an assignment. -/
theorem sexps_lines_directive :
    (parseWith (.recovering 8) "if x y end\nz = y").errors = [] ∧
      (parseWith (.recovering 8) "# uses: json\na.b = [1]").errors = [] ∧
      (parseWith (.recovering 8)
        ("if x y end\nz = y" ++ "\n" ++ "# uses: json\na.b = [1]")).errors = [] ∧
      (parseWith (.recovering 8)
          ("if x y end\nz = y" ++ "\n" ++ "# uses: json\na.b = [1]")).sexps =
        (parseWith (.recovering 8) "if x y end\nz = y").sexps ++
          (parseWith (.recovering 8) "# uses: json\na.b = [1]").sexps := by
  have above : (parseWith (.recovering 8) "if x y end\nz = y").errors = [] := by decide +kernel
  have below : (parseWith (.recovering 8) "# uses: json\na.b = [1]").errors = [] := by
    decide +kernel
  have last : (lex "if x y end\nz = y").ordinary.getLast?.map Token.tag = some .identifier := by
    decide +kernel
  have first : (lex "# uses: json\na.b = [1]").ordinary.head?.map Token.tag =
      some .identifier := by
    decide +kernel
  refine ⟨above, below, sexps_lines 8 above below (fun token isLast => ?_) fun token isFirst => ?_⟩
  · rw [Option.mem_def.mp isLast] at last
    rw [Option.some.inj last]
    decide
  · rw [Option.mem_def.mp isFirst] at first
    rw [Option.some.inj first]
    decide

end Vibescript
