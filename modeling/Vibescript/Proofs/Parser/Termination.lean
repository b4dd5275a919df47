import Vibescript.Proofs.Parser.Coverage
import Vibescript.Proofs.Parser.Rounds

/-!
# Parsing ends because every loop makes progress

The loops of the parser run on a number of rounds that is computed from the source text. More rounds
change nothing, since every round consumes a token or a directive or leaves its loop; so no loop ever
stops because its rounds are used up. A recovery consumes a token as well, and therefore every error
node covers some of the source text.
-/
namespace Vibescript

open Cursor

namespace Piece

/-- Only the last piece of a text can be empty. -/
theorem filled_or_end (passed : Nat) (mode : Mode) (before : Option Char) (offset : Nat)
    (text : List Char) :
    ∀ piece ∈ listFrom passed mode before offset text,
      piece.span.start < piece.span.stop ∨ piece.span.start = offset + Text.byteLength text := by
  induction text generalizing passed mode before offset with
  | nil =>
    cases mode with
    | code => nofun
    | string opening =>
      intro piece member
      obtain rfl := List.mem_singleton.mp member
      exact .inr rfl
  | cons char rest ih =>
    have step : offset + Text.byteLength (char :: rest) =
        offset + char.utf8Size + Text.byteLength rest := by
      rw [Text.byteLength_cons, Nat.add_assoc]
    rw [step]
    cases passed with
    | succ more => exact ih more mode (some char) _
    | zero =>
      intro piece member
      rcases List.mem_cons.mp member with rfl | later
      · refine .inl ?_
        have filled := char.utf8Size_pos
        rw [span, Text.byteLength_cons]
        dsimp only
        omega
      · exact ih _ _ _ _ piece later

end Piece

/-- A token of a text that is empty stands at its end. -/
theorem Token.filled_or_end (source : List Char) {token : Token String}
    (member : token ∈ Piece.tokens (Piece.list source)) :
    token.span.start < token.span.stop ∨ token.span.start = Text.byteLength source := by
  obtain ⟨piece, inList, read⟩ := List.mem_filterMap.mp member
  obtain ⟨kind, _, rfl⟩ := Option.map_eq_some_iff.mp read
  have ends := Piece.filled_or_end 0 .code none 0 source piece inList
  rwa [Nat.zero_add] at ends

namespace Grammar

open Build Parse

/-- Twins read the same program, and its error nodes start in the text. -/
theorem Twins.program {first second : Grammar} {rounds : Nat} (twins : Twins first second rounds)
    {parser : Parser} (calm : parser.Calm rounds) :
    first.program parser = second.program parser ∧
      (first.program parser).2.arena.ErrorsBefore parser.cursor.lexer.length := by
  have body : Steady rounds (fun _ => True) (fun _ => False) (liftM (first.body .empty))
    (liftM (second.body .empty)) := twins.body .empty
  obtain ⟨same, leads, _⟩ := body parser calm trivial
  have ends : ∀ grammar : Grammar, grammar.program parser = Build.addNode
      (.program (grammar.body .empty parser).1)
      ⟨0, (grammar.body .empty parser).2.cursor.lexer.length⟩ (grammar.body .empty parser).2 :=
    fun _ => rfl
  rw [Parse.run_lift, Parse.run_lift] at same
  obtain ⟨answers, states⟩ := Prod.mk.inj same
  constructor
  · rw [ends, ends, Prod.ext (Except.ok.inj answers) states]
  · intro id span found
    rw [ends] at found
    rcases Arena.node?_of_add found with root | before
    · have kinds := congrArg Node.kind root
      contradiction
    · rw [← calm.stands.length_eq leads.onward]
      exact leads.calm.errors id span before

variable (options : ParseOptions) (soft : SoftNames) {rounds more fewer : Nat}
  (enough : rounds ≤ more) (enoughToo : rounds ≤ fewer)

include enough enoughToo

/-- Two levels are twins if what is one level deeper is steady. -/
theorem twins_of_steady (levels : Nat) (deeper : ∀ request : Request, Steady rounds (fun _ => True)
      (fun _ => True) (descend options soft more levels request)
      (descend options soft fewer levels request)) :
    Twins (level options soft more levels) (level options soft fewer levels) rounds := by
  refine ⟨rfl, rfl, enough, enoughToo, deeper, fun parser calm opens => ?_⟩
  have faces : parser.cursor.Faces rounds 0 .stringOpen :=
    calm.stands.mono (Nat.le_refl _) fun _ => opens
  exact Parser.beyond_statement (faces.more enough)

/-- At every level, readings with more rounds are the same. -/
theorem steady_descend (levels : Nat) (request : Request) :
    Steady rounds (fun _ => True) (fun _ => True) (descend options soft more levels request)
      (descend options soft fewer levels request) := by
  induction levels generalizing request with
  | zero => exact .current fun token _ => .anywhere (.bind steady_skipToEnd fun _ => .throw)
  | succ levels ih =>
    have twins := twins_of_steady options soft enough enoughToo levels ih
    rw [descend_succ, descend_succ]
    cases request with
    | statement => exact twins.statement
    | expression least => exact twins.expressionFrom least
    | operand => exact twins.operand

/-- A program is the same with more rounds, and its error nodes start in the text. -/
theorem program_steady {parser : Parser} (calm : parser.Calm rounds) :
    (outermost options soft more).program parser = (outermost options soft fewer).program parser ∧
      ((outermost options soft more).program parser).2.arena.ErrorsBefore
        parser.cursor.lexer.length :=
  (twins_of_steady options soft enough enoughToo options.maxDepth
    (steady_descend options soft enough enoughToo options.maxDepth)).program calm

end Grammar

namespace Parser

open Build Parse Grammar

variable {source : String} {soft : SoftNames} {start : Parser}

/-- A parse begins outside string literals. -/
theorem Begins.calm (begins : Begins source soft start) : start.Calm (Parser.rounds source) := by
  have outside := (@Cursor.Pending.opens_iff _ _ (fun tag => tag.isQuoted = false)
    begins.ready.pending rfl).mp (Token.Opens.of_source source.toList)
  refine ⟨⟨begins.reaches.pending, Nat.zero_le _, outside⟩, ?_⟩
  intro id span found
  rw [begins.arena, Arena.node?] at found
  contradiction

/-- The error nodes of a parse start in the text. -/
theorem errorsBefore_run (options : ParseOptions) (source : String) :
    (Parser.run options source).2.arena.ErrorsBefore (Text.byteLength source.toList) := by
  have begins := begins_start source
  rw [run_eq]
  generalize Parser.start source = start at begins
  have length : start.2.cursor.lexer.length = Text.byteLength source.toList :=
    congrArg Text.byteLength begins.text
  rw [← length]
  exact (program_steady options start.1 (Nat.le_refl _) (Nat.le_refl _) begins.calm).2

/-- A token that was taken is empty only at the end of the text. -/
theorem ReadsProgram.filled_or_end {root : NodeId} {final : Parser} {body : NodeRange}
    {below : List NodeId} {taken rest : List (Token String)}
    (reads : ReadsProgram source root final body below taken rest) {token : Token String}
    (member : token ∈ taken) :
    token.span.start < token.span.stop ∨ token.span.start = Text.byteLength source.toList := by
  by_cases closes : token.kind = .stringClose
  · have halves (name : String) (span : Span) :
        (Token.colonOf span).kind ≠ .stringClose ∧ (Token.wordOf name span).kind ≠ .stringClose :=
      ⟨nofun, fun same => TokenKind.tag_ofWord_ne name rfl Tag.noConfusion Tag.noConfusion
        (congrArg TokenKind.tag same)⟩
    exact reads.consumes.forall_taken
      (fun token => token.kind = .stringClose → token.span.start < token.span.stop ∨
        token.span.start = Text.byteLength source.toList)
      (fun name span _ => ⟨fun same => absurd same (halves name span).1,
        fun same => absurd same (halves name span).2⟩)
      (fun _ inside _ => Token.filled_or_end source.toList inside) token member closes
  · have line := Token.InLine.of_source source.toList
    have strung : Token.Strung source.toList (taken ++ rest) :=
      @Token.Strung.append_consumes _ _ _ _ [] reads.consumes line
        (Token.Strung.of_source source.toList)
    exact .inl (strung.solid token (List.mem_append_left _ member) closes)

/-- An error node that starts in the text covers some of it. -/
theorem ReadsProgram.filled {root : NodeId} {final : Parser} {body : NodeRange}
    {below : List NodeId} {taken rest : List (Token String)}
    (reads : ReadsProgram source root final body below taken rest) {id : NodeId} {span : Span}
    (found : final.arena.node? id = some ⟨.error, span⟩)
    (inside : span.start < Text.byteLength source.toList) : span.start < span.stop := by
  have isNode := Arena.mem_ids_of_node? found
  rw [reads.nodes] at isNode
  rcases List.mem_append.mp isNode with below | root
  · obtain ⟨node, own, _, same, hull, _, isInfix⟩ := reads.spells.exists_own id below
    obtain rfl : node = ⟨.error, span⟩ := Option.some.inj (same.symm.trans found)
    obtain ⟨first, isFirst, last, isLast, ends⟩ := hull
    change span = ⟨first.span.start, last.span.stop⟩ at ends
    have inOwn := List.mem_of_mem_head? isFirst
    rw [ends] at inside ⊢
    have filled := (reads.filled_or_end (isInfix.subset inOwn)).resolve_right (Nat.ne_of_lt inside)
    obtain ⟨before, after, whole⟩ := isInfix
    have line := reads.inLine
    rw [← whole] at line
    have own := (Token.InLine.append_iff.mp (Token.InLine.append_iff.mp line).1).2.1
    exact Nat.lt_of_lt_of_le filled (own.stop_le isLast inOwn)
  · obtain rfl := List.mem_singleton.mp root
    have kinds := congrArg Node.kind (Option.some.inj (reads.found.symm.trans found))
    contradiction

/-- Why the parse of a source text ends. A parser of the text is one whose cursor came from the start
of it. -/
structure Terminates (options : ParseOptions) (source : String) : Prop where
  /-- No loop uses up its rounds: with more of them the parse is the same. -/
  rounds : ∀ more, Parser.rounds source ≤ more →
    (outermost options (Parser.start source).1 more).program (Parser.start source).2 =
      Parser.run options source
  /-- A round of a body consumes a token or a directive, or it leaves the loop. -/
  body : ∀ (levels : Nat) (parser : Parser) (terminators : TagSet) (statements : Array NodeId),
    (Parser.start source).2.cursor.Onward parser.cursor →
    ((level options (Parser.start source).1 (Parser.rounds source) levels).bodyStep terminators
      statements).Outcome parser fun result final =>
        goesOn result → parser.cursor.position < final.cursor.position
  /-- A round of a class consumes a token, or it leaves the loop. -/
  members : ∀ (levels : Nat) (parser : Parser) (members : Array NodeId),
    (Parser.start source).2.cursor.Onward parser.cursor →
    ((level options (Parser.start source).1 (Parser.rounds source) levels).memberStep
      members).Outcome parser fun result final =>
        goesOn result → parser.cursor.position < final.cursor.position
  /-- Wherever a construct failed, when it is abandoned a token has been consumed since its start. -/
  recovery : ∀ first failed : Parser, (Parser.start source).2.cursor.Onward first.cursor →
    first.cursor.Onward failed.cursor → first.cursor.isAtEnd = false →
    first.cursor.position < (abandon first.checkpoint failed).2.cursor.position
  /-- No error node is empty. -/
  filled : ∀ (id : NodeId) (span : Span),
    (parseWith options source).tree.arena.node? id = some ⟨.error, span⟩ → span.start < span.stop
  /-- Skipping goes on until its condition holds or the text ends. -/
  skips : ∀ (cursor : Cursor) (stop : Cursor → Bool),
    (cursor.skipUntil stop).isAtEnd = true ∨ stop (cursor.skipUntil stop) = true

end Parser

/-- Parsing ends on every source text, whatever the nesting limit and the recovery: every loop makes
progress, every recovery consumes a token, and skipping ends. -/
theorem terminates_parseWith (options : ParseOptions) (source : String) :
    Parser.Terminates options source := by
  have begins := Parser.begins_start source
  have calm := begins.calm
  have reached (parser : Parser) (onward : (Parser.start source).2.cursor.Onward parser.cursor) :
      parser.cursor.Reaches (Parser.rounds source) 0 := calm.stands.onward onward
  constructor
  case rounds =>
    intro more enough
    rw [Parser.run_eq]
    exact (Grammar.program_steady options _ enough (Nat.le_refl _) calm).1
  case body =>
    exact fun levels parser terminators statements onward =>
      Parser.progress_bodyStep terminators statements (reached parser onward)
  case members =>
    exact fun levels parser members onward =>
      Parser.progress_memberStep members (reached parser onward)
  case recovery =>
    intro first failed onward further notEnd
    rw [Parser.cursor_abandon]
    exact Parser.position_lt_stepFrom (reached first onward) further notEnd
  case filled =>
    intro id span found
    obtain ⟨body, below, taken, rest, reads⟩ := Parser.reads_run options source
    have starts := Parser.errorsBefore_run options source id span
    rw [parseWith_eq] at found
    generalize Parser.run options source = result at reads starts found
    exact reads.filled found (starts found)
  case skips => exact fun cursor stop => cursor.stops_skipUntil stop

end Vibescript
