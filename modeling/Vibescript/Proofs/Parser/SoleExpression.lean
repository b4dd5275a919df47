import Vibescript.Proofs.Parser.SoleStatement
import Vibescript.Proofs.Tree.Imports

/-!
# Programs of one expression

A source text that is written with the lexemes of an expression, with single spaces between them, is
a program whose only statement is that expression, unless the expression is an import. The text has
neither errors nor directives nor line breaks, so only the shape of an import could be read in
another way.
-/
namespace Vibescript

open Build Parse Grammar TokenKind

namespace Lexeme

variable {lexemes : List Lexeme}

/-- The tokens of lexemes are no directives. -/
theorem ordinary_sourceTokens (lexemes : List Lexeme) :
    Token.ordinary (Parser.sourceTokens (source lexemes)) =
      Parser.sourceTokens (source lexemes) := by
  refine List.filter_eq_self.mpr fun token member => ?_
  rw [plain_source member]
  rfl

/-- Lexemes with single spaces between them are their tokens. -/
theorem isCode_source (lexemes : List Lexeme) :
    Text.IsCode (source lexemes).toList (lexemes.flatMap Lexeme.kinds) :=
  ⟨kinds_source lexemes, faults_source lexemes, fun _ => plain_source⟩

/-- The tokens of lexemes are those of their source text. -/
theorem kinds_sourceTokens (lexemes : List Lexeme) :
    Token.kinds (Parser.sourceTokens (source lexemes)) = lexemes.flatMap Lexeme.kinds :=
  (isCode_source lexemes).kinds_sourceTokens

/-- On the line of some lexemes nothing goes on with an import. -/
theorem stops_of_closesAt {place : Nat}
    (closes : Lookahead.ClosesAt (source lexemes).toList
      (Parser.sourceTokens (source lexemes)) place) :
    Lookahead.continuesExpression (tagAt (lexemes.flatMap Lexeme.kinds) (place + 1)) = false := by
  rw [← kinds_sourceTokens]
  cases continues : Lookahead.continuesExpression
      (tagAt (Token.kinds (Parser.sourceTokens (source lexemes))) (place + 1)) with
  | false => rfl
  | true =>
    obtain ⟨close, next, isClose, isNext, breaks⟩ := closes.ends continues
    rw [ordinary_sourceTokens] at isClose isNext
    obtain ⟨inside, rfl⟩ := List.getElem?_eq_some_iff.mp isClose
    obtain ⟨within, rfl⟩ := List.getElem?_eq_some_iff.mp isNext
    have whole : Parser.sourceTokens (source lexemes) =
        (Parser.sourceTokens (source lexemes)).take place ++
          (Parser.sourceTokens (source lexemes))[place] ::
          (Parser.sourceTokens (source lexemes))[place + 1] ::
          (Parser.sourceTokens (source lexemes)).drop (place + 1 + 1) := by
      rw [← List.drop_eq_getElem_cons, ← List.drop_eq_getElem_cons, List.take_append_drop]
    exact absurd (List.contains_iff_mem.mp breaks) (unbroken_source whole)

end Lexeme

/-- The text of an expression that is no import does not have the shape of one. -/
theorem Expression.not_isImport {expression : Expression} (stratified : expression.IsStratified)
    (ordinary : ¬ expression.IsImport) :
    ¬ Lookahead.IsImport (Lexeme.source expression.lexemes).toList
      (Parser.sourceTokens (Lexeme.source expression.lexemes)) := by
  rintro ⟨target, past, whole, ⟨opens, pieces, inside, all⟩, ends⟩
  have kinds := Lexeme.kinds_sourceTokens expression.lexemes
  change _ = expression.kinds at kinds
  have same : expression.kinds = .identifier target :: .fixed .assign :: .identifier "require" ::
      .fixed .leftParen :: .stringOpen :: (pieces ++ .stringClose :: expression.kinds.drop past) := by
    rw [kinds] at whole opens inside
    rw [← inside, ← opens]
    exact whole
  rcases ends with closes | ⟨comma, last, ⟨opensName, names, insideName, every⟩, closes⟩
  · have parenthesis := closes.closes
    have stops := Lexeme.stops_of_closesAt closes
    rw [kinds] at parenthesis
    have isClosed : ImportEnds (expression.kinds.drop (past + 1)) (expression.kinds.drop past) := by
      rw [parenthesis]
      exact .closes
    refine ordinary (isImport_of_kinds stratified same all isClosed ?_)
    rw [tagAt, List.getElem?_drop]
    exact stops
  · have parenthesis := closes.closes
    have stops := Lexeme.stops_of_closesAt closes
    rw [kinds] at comma opensName insideName parenthesis
    have isClosed : ImportEnds (expression.kinds.drop (last + 1)) (expression.kinds.drop past) := by
      rw [comma, opensName, insideName, parenthesis]
      exact .named names every
    refine ordinary (isImport_of_kinds stratified same all isClosed ?_)
    rw [tagAt, List.getElem?_drop]
    exact stops

namespace Parser

variable {soft : SoftNames} {rounds bound : Nat} {start now : Parser} {grammar : Grammar}
  {tokens taken rest : List (Token String)} {parts : List Part} {ids : Array NodeId}

/-- Where no import starts, a statement that begins as an expression does is one. -/
theorem succeeds_statement (completes : grammar.Completes soft rounds bound)
    (sameSoft : grammar.soft = soft) {expression : Expression}
    (stratified : expression.IsStratified) (short : expression.lexemes.length ≤ bound)
    (ready : now.Ready soft rounds tokens) (kinds : Token.kinds tokens = expression.kinds)
    (noImport : ¬ Lookahead.IsImport now.cursor.source tokens) :
    grammar.statement.Succeeds soft rounds now [] fun id forest => forest.Shows expression id := by
  obtain ⟨kind, more, same, starts, _⟩ := expression.head_kinds stratified
  have reads (later : Parser) (faces : later.Faces soft rounds expression.kinds) :
      grammar.expression.Decides True soft rounds later [] fun id forest =>
        forest.Shows expression id := by
    rw [← List.append_nil expression.kinds] at faces
    exact (completes.expression stratified (Nat.zero_le _) short
      (endsExpression_of_separates rfl .assignment) faces).decides trivial
  exact (decides_statement sameSoft (by rw [same]; exact starts) ready kinds noImport
    reads).succeeds trivial

end Parser

/-- An expression is the only statement of a program. -/
def SyntaxTree.IsSole (tree : SyntaxTree) (expression : Expression) : Prop :=
  ∃ id, tree.statements = [id] ∧ expression.StandsAt tree.arena tree.names id

/-- Every expression that is no import is the only statement of the program that is written with its
lexemes and single spaces between them, if the nesting limit exceeds their number. There are no
errors. -/
theorem isSole_parseWith (options : ParseOptions) (expression : Expression)
    (stratified : expression.IsStratified) (ordinary : ¬ expression.IsImport)
    (shallow : expression.lexemes.length < options.maxDepth) :
    (parseWith options (Lexeme.source expression.lexemes)).errors = [] ∧
      (parseWith options (Lexeme.source expression.lexemes)).tree.IsSole expression := by
  obtain ⟨levels, deep⟩ : ∃ levels, options.maxDepth = levels + 1 :=
    ⟨options.maxDepth - 1, by omega⟩
  have filled : expression.kinds ≠ [] := by
    obtain ⟨kind, more, same, _⟩ := expression.head_kinds stratified
    exact same ▸ List.cons_ne_nil _ _
  obtain ⟨errors, forest, id, length, shows, tree⟩ := sole_parseWith
    (Lexeme.isCode_source expression.lexemes) filled deep fun soft start begins =>
      Parser.succeeds_statement (completes_level ..) rfl stratified (by omega) begins.ready
        (Lexeme.kinds_sourceTokens expression.lexemes)
        (begins.text ▸ Expression.not_isImport stratified ordinary)
  refine ⟨errors, id, ?_⟩
  rw [tree]
  exact ⟨forest.statements_sole id length,
    Expression.StandsAt.mono (forest.grows_sole id length) (.refl _) shows⟩

/-- An assignment that starts like an import and goes on with an operator. -/
theorem isSole_parseWith_sum : ∃ expression : Expression,
    Lexeme.source expression.lexemes = "a = require ( \"p\" , as : \"q\" ) + - b" ∧
      expression.IsStratified ∧ ¬ expression.IsImport ∧ expression.lexemes.length < 14 ∧
      (parseWith ⟨14, .recover⟩ (Lexeme.source expression.lexemes)).errors = [] ∧
      (parseWith ⟨14, .recover⟩ (Lexeme.source expression.lexemes)).tree.IsSole expression := by
  let name (text : String) (reads : IsLexeme text.toList [.identifier text]) : Expression :=
    .atom ⟨text, .identifier text, rfl, reads⟩
  let literal (text value : String)
      (reads : IsLexeme text.toList [.stringOpen, .stringContent value, .stringClose]) : Literal :=
    ⟨text, [.stringContent value], by simp [TokenKind.pieceText?], reads⟩
  let items : Items := .cons none (.string (literal "\"p\"" "p" (by decide +kernel)))
    (.cons (some (.name ⟨"as", by decide +kernel⟩))
      (.string (literal "\"q\"" "q" (by decide +kernel))) .nil)
  let sum : Expression := .operation ⟨.plus, .binary .add, rfl⟩
    (.call ⟨"require", by decide +kernel⟩ items)
    (.unary .negate (name "b" (by decide +kernel)))
  have stratified : (Expression.operation ⟨.assign, .assign, rfl⟩
      (name "a" (by decide +kernel)) sum).IsStratified :=
    ⟨by decide, trivial, by decide, by decide, ⟨rfl, trivial, rfl, trivial, trivial⟩, by decide,
      by decide, trivial⟩
  have ordinary : ¬ (Expression.operation ⟨.assign, .assign, rfl⟩
      (name "a" (by decide +kernel)) sum).IsImport := by
    unfold sum
    nofun
  exact ⟨_, by decide +kernel, stratified, ordinary, by decide,
    isSole_parseWith ⟨14, .recover⟩ _ stratified ordinary (by decide)⟩

end Vibescript
