import Vibescript.Proofs.Parser.Accumulation
import Vibescript.Proofs.Parser.Completeness
import Vibescript.Proofs.Parser.Coverage
import Vibescript.Proofs.Parser.FailFast
import Vibescript.Proofs.Parser.Fidelity
import Vibescript.Proofs.Source.Words
import Vibescript.Proofs.Tree.Likeness

/-!
# Programs of one statement

Where a source text has neither errors nor directives, its program follows from how its first
statement is read. If that reading cannot fail and takes all tokens, the program has no errors and
this statement only. If that reading can only fail, the program has an error.
-/
namespace Vibescript

open Build Parse Grammar TokenKind

/-- A reading succeeds on its way to other kinds if something is the case, and fails otherwise. -/
def Parse.Decides {α : Type} (accepts : Prop) (soft : SoftNames) (rounds : Nat) (reading : Parse α)
    (start : Parser) (rest : List (TokenKind String)) (holds : α → Forest → Prop) : Prop :=
  reading.Outcome start
    (fun answer after => accepts ∧ start.Goes after ∧ after.Faces soft rounds rest ∧
      holds answer after.forest)
    fun _ _ => ¬accepts

namespace Parse

variable {α β : Type} {accepts : Prop} {soft : SoftNames} {rounds : Nat} {reading : Parse α}
  {next : α → Parse β} {start : Parser} {rest middle : List (TokenKind String)}
  {holds : α → Forest → Prop} {last : β → Forest → Prop}

/-- A reading that cannot fail succeeds if something is the case. -/
theorem Succeeds.decides (succeeds : reading.Succeeds soft rounds start rest holds)
    (is : accepts) : reading.Decides accepts soft rounds start rest holds :=
  Outcome.mono succeeds (fun _ _ known => ⟨is, known⟩) fun _ _ => False.elim

/-- A reading that cannot fail, of which something more is known, comes before others. -/
theorem Succeeds.along {success : α → Parser → Prop} {failure : ParseError → Parser → Prop}
    {ends : β → Parser → Prop} {fails : ParseError → Parser → Prop}
    (first : reading.Succeeds soft rounds start middle holds)
    (reads : reading.Outcome start success failure)
    (second : ∀ answer now, start.Goes now → now.Faces soft rounds middle →
      holds answer now.forest → success answer now → (next answer).Outcome now ends fails) :
    Parse.Outcome (reading >>= next) start ends fails :=
  Outcome.bind ((reads.and first).mono
    (fun answer now ⟨known, goes, faces, shown⟩ => second answer now goes faces shown known)
    fun _ _ both => both.2.elim)

/-- A reading that decides comes after one that cannot fail. -/
theorem Succeeds.bindDecides (first : reading.Succeeds soft rounds start middle holds)
    (second : ∀ answer now, start.Goes now → now.Faces soft rounds middle →
      holds answer now.forest → (next answer).Decides accepts soft rounds now rest last) :
    Decides accepts soft rounds (reading >>= next) start rest last := by
  refine Outcome.bind (Outcome.mono first (fun answer now ⟨goes, faces, known⟩ => ?_)
    fun _ _ => False.elim)
  exact Outcome.imp (second answer now goes faces known) fun _ _ ⟨is, more, known⟩ =>
    ⟨is, goes.trans more, known⟩

namespace Decides

/-- A reading that cannot fail comes after one that decides. -/
theorem bind (first : reading.Decides accepts soft rounds start middle holds)
    (second : accepts → ∀ answer now, start.Goes now → now.Faces soft rounds middle →
      holds answer now.forest → (next answer).Succeeds soft rounds now rest last) :
    Decides accepts soft rounds (reading >>= next) start rest last := by
  refine Outcome.bind (Outcome.imp first fun answer now ⟨is, goes, faces, known⟩ => ?_)
  exact Outcome.mono (second is answer now goes faces known)
    (fun _ _ ⟨more, known⟩ => ⟨is, goes.trans more, known⟩) fun _ _ => False.elim

/-- A reading that decides, of which something more is known, comes before others that do. -/
theorem along {success : α → Parser → Prop} {failure : ParseError → Parser → Prop}
    {ends : β → Parser → Prop} (first : reading.Decides accepts soft rounds start middle holds)
    (reads : reading.Outcome start success failure)
    (second : accepts → ∀ answer now, start.Goes now → now.Faces soft rounds middle →
      holds answer now.forest → success answer now →
      (next answer).Outcome now ends fun _ _ => ¬accepts) :
    Parse.Outcome (reading >>= next) start ends fun _ _ => ¬accepts :=
  Outcome.bind ((reads.and first).mono
    (fun answer now ⟨known, is, goes, faces, shown⟩ => second is answer now goes faces shown known)
    fun _ _ both => both.2)

/-- A reading that decides one thing comes before one that decides another. -/
theorem seq {other : Prop} (first : reading.Decides accepts soft rounds start middle holds)
    (second : ∀ answer now, start.Goes now → now.Faces soft rounds middle →
      holds answer now.forest → (next answer).Decides other soft rounds now rest last) :
    Decides (accepts ∧ other) soft rounds (reading >>= next) start rest last := by
  refine Outcome.bind (Outcome.mono first (fun answer now ⟨is, goes, faces, known⟩ => ?_)
    fun _ _ isNot both => isNot both.1)
  exact Outcome.mono (second answer now goes faces known)
    (fun _ _ ⟨too, more, known⟩ => ⟨⟨is, too⟩, goes.trans more, known⟩)
    fun _ _ isNot both => isNot both.2

/-- What is decided may be put differently. -/
theorem iff {other : Prop} (decides : reading.Decides accepts soft rounds start rest holds)
    (same : accepts ↔ other) : reading.Decides other soft rounds start rest holds :=
  propext same ▸ decides

/-- If it is the case, the reading cannot fail. -/
theorem succeeds (decides : reading.Decides accepts soft rounds start rest holds) (is : accepts) :
    reading.Succeeds soft rounds start rest holds :=
  Outcome.mono decides (fun _ _ known => known.2) fun _ _ isNot => isNot is

/-- If it is not the case, the reading can only fail. -/
theorem fails (decides : reading.Decides accepts soft rounds start rest holds)
    (isNot : ¬accepts) : reading.Outcome start (fun _ _ => False) fun _ _ => True :=
  Outcome.mono decides (fun _ _ known => isNot known.1) fun _ _ _ => trivial

end Decides

end Parse

/-- The tree of one statement that stands at a node of a forest. -/
def Forest.sole (forest : Forest) (id : NodeId) (length : Nat) : SyntaxTree :=
  let (range, arena) := forest.arena.addList [id]
  let (root, arena) := arena.add (.program range) ⟨0, length⟩
  ⟨arena, forest.names, root⟩

/-- A node as it is shown, from its words and from the texts of its fields. -/
def SyntaxTree.shown (production : String) (words fields : List String) : String :=
  "(" ++ production ++ String.join (words.map (" " ++ ·)) ++ String.join fields ++ ")"

/-- A list has one node only, and from now on that node is shown by a text. -/
def Forest.DisplaysSole (forest : Forest) (range : NodeRange) (text : String) : Prop :=
  ∀ label, Agreement.FieldShows forest (label, .list range) (Agreement.listText label [text])

namespace Forest

variable {forest before : Forest} {id : NodeId} {length : Nat} {kind : NodeKind} {span : Span}
  {text : String} {words texts : List String}

/-- The tree of one statement has this statement. -/
theorem statements_sole (forest : Forest) (id : NodeId) (length : Nat) :
    (forest.sole id length).statements = [id] :=
  (SyntaxTree.statements_add (forest.arena.contains_addList [id]) _ _).trans
    (forest.arena.list_addList [id])

/-- The nodes of a forest stay in the tree of one statement. -/
theorem grows_sole (forest : Forest) (id : NodeId) (length : Nat) :
    forest.arena.Grows (forest.sole id length).arena :=
  (forest.arena.grows_addList [id]).trans (Arena.grows_add _ _ _)

/-- The tree of one statement is shown with this statement. -/
theorem toSexp_sole (displays : forest.Displays id text) (length : Nat) :
    (forest.sole id length).toSexp = "(program " ++ text ++ ")" := by
  have size : (forest.sole id length).arena.size = forest.arena.size + 1 :=
    (Arena.size_add _ _ _).trans (congrArg (· + 1) (forest.arena.size_addList [id]))
  have kind : (forest.sole id length).kind (forest.sole id length).root =
      .program (forest.arena.addList [id]).1 :=
    Arena.kind_of_node? (Arena.node?_add _ _ _)
  have list : (forest.sole id length).arena.list (forest.arena.addList [id]).1 = [id] :=
    ((Arena.grows_add _ _ _).list (forest.arena.contains_addList [id])).trans
      (forest.arena.list_addList [id])
  have shown := displays.shows ⟨(forest.sole id length).arena, forest.names, forest.isDamaged⟩
    ⟨forest.grows_sole id length, .refl _, fun damaged => damaged⟩ (forest.sole id length).root _
    displays.inside
  rw [SyntaxTree.toSexp, SyntaxTree.sexpOf, size, SyntaxTree.sexpWithin, kind]
  dsimp only
  rw [list, List.map_singleton, String.join_cons]
  change "(" ++ "program" ++ String.join [] ++ (" " ++ SyntaxTree.sexpWithin
    (forest.sole id length) forest.arena.size id ++ String.join []) ++ ")" = _
  rw [show SyntaxTree.sexpWithin (forest.sole id length) forest.arena.size id = text from shown]
  rw [show "(program " = "(" ++ "program" ++ " " from rfl]
  simp only [String.join_nil, String.append_empty, String.append_assoc]

/-- A node is shown by its words and fields if these stay the same. -/
theorem displays_of_node? (found : forest.arena.node? id = some ⟨kind, span⟩)
    (inner : ∀ body, kind ≠ .program body)
    (attributes : ∀ after : Forest, forest.Grows after → ∀ root : NodeId,
      SyntaxTree.attributes ⟨after.arena, after.names, root⟩ kind = words)
    (fields : ∀ after : Forest, forest.Grows after → ∀ (root : NodeId) (depth : Nat),
      id.index ≤ depth → (kind.fields.map fun (field, child) =>
        SyntaxTree.fieldText (SyntaxTree.sexpWithin ⟨after.arena, after.names, root⟩ depth)
          ⟨after.arena, after.names, root⟩ field child) = texts) :
    forest.Displays id (SyntaxTree.shown kind.name words texts) := by
  refine ⟨(Array.getElem?_eq_some_iff.mp found).choose, fun after grows root depth deep => ?_⟩
  obtain ⟨depth, rfl⟩ := Nat.exists_eq_succ_of_ne_zero (Nat.ne_zero_of_lt deep)
  have isKind : SyntaxTree.kind ⟨after.arena, after.names, root⟩ id = kind := by
    rw [SyntaxTree.kind, Arena.kind, grows.arena.node? found]
    rfl
  rw [SyntaxTree.sexpWithin_of_kind isKind inner, attributes after grows root,
    fields after grows root depth (Nat.lt_succ_iff.mp deep)]
  rfl

end Forest

namespace Parser

variable {soft : SoftNames} {rounds bound : Nat} {start now : Parser} {grammar : Grammar}
  {tokens taken rest : List (Token String)} {parts : List Part} {ids : Array NodeId}
  {kinds : List (TokenKind String)} {kind : NodeKind} {span : Span} {words texts : List String}

/-- Asking for the current token. -/
theorem decides_current {α : Type} {accepts : Prop} {next : Token Name → Parse α}
    {after : List (TokenKind String)} {holds : α → Forest → Prop} :
    Decides accepts soft rounds (liftM Build.current >>= next) now after holds ↔
      (next now.cursor.current).Decides accepts soft rounds now after holds := Iff.rfl

/-- Asking whether the current token has a tag. -/
theorem decides_check {α : Type} {accepts : Prop} {tag : Tag} {next : Bool → Parse α}
    {after : List (TokenKind String)} {holds : α → Forest → Prop} :
    Decides accepts soft rounds (liftM (Build.check tag) >>= next) now after holds ↔
      (next (now.cursor.check tag)).Decides accepts soft rounds now after holds := Iff.rfl

/-- A node whose children are shown is shown once it is added. -/
theorem succeeds_shown (faces : now.Faces soft rounds kinds)
    (inner : ∀ body, kind ≠ .program body)
    (attributes : ∀ after : Forest, now.forest.Grows after → ∀ root : NodeId,
      SyntaxTree.attributes ⟨after.arena, after.names, root⟩ kind = words)
    (fields : List.Forall₂ (Agreement.FieldShows now.forest) kind.fields texts) :
    Succeeds soft rounds (liftM (Build.addNode kind span)) now kinds fun id forest =>
      forest.Displays id (SyntaxTree.shown kind.name words texts) := by
  obtain ⟨goes, more⟩ := faces.withArena (now.arena.grows_add kind span)
  refine .lift (outcome_onArena.mpr ⟨goes, more, ?_⟩)
  refine Forest.displays_of_node? (now.arena.node?_add kind span) inner
    (fun after grows => attributes after (goes.forest.trans grows))
    fun after grows root depth deep => ?_
  exact Agreement.map_fieldText fields (goes.forest.trans grows) root deep

/-- The `end` of a construct is stepped over. -/
theorem succeeds_expectEnd (faces : now.Faces soft rounds (.fixed .kwEnd :: kinds)) (opener : Tag)
    (span : Span) (construct : Construct) :
    (Parse.expectEnd opener span construct).Succeeds soft rounds now kinds fun _ _ => True := by
  have closes : now.cursor.check .kwEnd = true := faces.check_self
  refine succeeds_check.mpr ?_
  rw [if_pos closes]
  exact .bind (succeeds_advance faces) fun _ _ _ faces _ => .pure faces trivial

/-- A node that is shown becomes a list of one. -/
theorem succeeds_soleList {id : NodeId} {text : String} (faces : now.Faces soft rounds kinds)
    (displays : now.forest.Displays id text) :
    Succeeds soft rounds (liftM (Build.addList #[id])) now kinds fun range forest =>
      forest.DisplaysSole range text :=
  Parse.Outcome.imp (succeeds_addList faces #[id]) fun range after ⟨goes, faces, inside, listed⟩ =>
    ⟨goes, faces, fun label => Agreement.fieldShows_list inside
      (by rw [listed]; exact .cons (displays.mono goes.forest) .nil) label⟩

/-- A round that ends a loop, if it does not fail. -/
theorem decides_done {α : Type} {accepts : Prop} {step : α → Parse (ForInStep α)} {state : α}
    {count : Nat} {last : α → Forest → Prop}
    (round : (step state).Decides accepts soft rounds now kinds fun result forest =>
      ∃ answer, result = .done answer ∧ last answer forest) :
    (repeatWithin step (count + 1) state).Decides accepts soft rounds now kinds last := by
  rw [repeatWithin]
  refine .bind round fun _ result later _ faces done => ?_
  obtain ⟨answer, isDone, shown⟩ := done
  rw [isDone]
  exact .pure faces shown

/-- A list of one item. -/
theorem decides_soleItem {accepts : Prop} {closer : Tag} {item : Parse NodeId} {text : String}
    {after : List (TokenKind String)} (sameRounds : grammar.rounds = rounds)
    (opens : tagAt kinds 0 ≠ closer) (ends : tagAt after 0 ≠ .comma)
    (faces : now.Faces soft rounds kinds)
    (reads : item.Decides accepts soft rounds now after fun id forest => forest.Displays id text) :
    (grammar.itemsUntil closer item).Decides accepts soft rounds now after fun ids forest =>
      ∃ id, ids = #[id] ∧ forest.Displays id text := by
  obtain ⟨count, enough⟩ : ∃ count, grammar.rounds = count + 1 :=
    ⟨rounds - 1, by have := faces.length_lt; omega⟩
  rw [itemsUntil_eq, enough]
  refine decides_done ?_
  refine decides_check.mpr ?_
  rw [faces.check, if_neg (by rwa [beq_iff_eq])]
  refine .bind reads fun _ id later _ faces displays => ?_
  refine .bind (succeeds_eat_none faces ends) fun eaten last goes faces isEaten => ?_
  rw [isEaten]
  exact .pure faces ⟨#[id], rfl, id, rfl, displays.mono goes.forest⟩

/-- Where no import starts, a statement that begins as an expression does is one. -/
theorem decides_statement {accepts : Prop} {after : List (TokenKind String)}
    {holds : NodeId → Forest → Prop} (sameSoft : grammar.soft = soft)
    (starts : TagSet.expressionStart.contains (tagAt kinds 0) = true)
    (ready : now.Ready soft rounds tokens) (same : Token.kinds tokens = kinds)
    (noImport : ¬ Lookahead.IsImport now.cursor.source tokens)
    (reads : ∀ later : Parser, later.Faces soft rounds kinds →
      grammar.expression.Decides accepts soft rounds later after holds) :
    grammar.statement.Decides accepts soft rounds now after holds := by
  have faces : now.Faces soft rounds kinds := ⟨tokens, ready, same⟩
  have plain : grammar.plainStatement.Decides accepts soft rounds now after holds := by
    unfold Grammar.plainStatement
    refine Parse.outcome_currentTag.mpr ?_
    rw [faces.tag]
    by_cases isName : (tagAt kinds 0 == .identifier) = true
    · rw [if_pos isName]
      have tells : (Lookahead.startsImport grammar.soft.importName grammar.soft.asKey).Tells
          now.cursor.source tokens soft.spelling fun answer => answer = true →
            Lookahead.IsImport now.cursor.source tokens := by
        rw [sameSoft]
        exact Lookahead.tells_startsImport
          (by simp [SoftNames.spelling, SoftNames.all, softKeywords])
          (by simp [SoftNames.spelling, SoftNames.all, softKeywords])
      obtain ⟨looks, holds⟩ := tells now.cursor rfl ready.pending ready.soft
      have passes := Passes.of_moves looks.moves
      refine Parse.Outcome.bind (.lift (outcome_onCursor.mpr ?_))
      rw [if_neg fun yes => noImport (holds yes)]
      exact Parse.Outcome.imp (reads _ ⟨tokens, passes.ready ready, same⟩) fun _ _ =>
        And.imp_right (And.imp_left (Goes.trans ⟨passes.forest, rfl, rfl⟩))
    · rw [if_neg isName]
      have opens : TagSet.bodyEnd.contains (tagAt kinds 0) = false := by
        revert starts
        cases tagAt kinds 0 <;> decide
      rw [if_neg (by rw [opens]; exact Bool.false_ne_true)]
      exact reads now faces
  unfold Grammar.statement
  refine Parse.outcome_currentTag.mpr ?_
  rw [faces.tag]
  split
  case h_17 => exact plain
  all_goals
    rename_i opens
    rw [opens] at starts
    exact absurd starts (by decide)

/-- Where a text has neither errors nor directives, a body that ends at once is empty. -/
theorem Reading.succeeds_emptyBody {kind : TokenKind String} {terminators : TagSet}
    (reading : start.Reading soft rounds tokens parts now) (sameRounds : grammar.rounds = rounds)
    (undamaged : ¬ now.forest.isDamaged)
    (plain : ∀ token ∈ tokens, token.kind.isDirective = false)
    (faces : now.Faces soft rounds (kind :: kinds)) (ends : terminators.contains kind.tag = true) :
    Succeeds soft rounds (liftM (grammar.body terminators)) now (kind :: kinds)
      fun range forest => forest.arena.Contains range ∧ forest.arena.list range = [] := by
  obtain ⟨taken, rest, run, _⟩ := reading
  have none : now.cursor.takeDirective = (none, now.cursor) := by
    rcases Cursor.moves_takeDirective run.readyNow.pending with ⟨none, _⟩ | claimed
    · exact none
    · obtain ⟨mark, left, _, directive, moves⟩ := claimed
      have member := (run.passes.moves.consumes.trans moves.consumes).mem_of_isDirective
        (List.mem_append_right _ List.mem_cons_self) (by rwa [Token.isDirective_written])
      rw [← Token.isDirective_written now.cursor.lexer.names, plain _ member] at directive
      contradiction
  have stops : (now.cursor.current.tag == .endOfInput ||
      terminators.contains now.cursor.current.tag) = true := by
    rw [faces.tag, Bool.or_eq_true]
    exact .inr ends
  have round : (grammar.bodyStep terminators #[]).Outcome now
      fun result after => result = .done #[] ∧ after = now := by
    refine outcome_shouldHalt
      (fun halts => absurd (damaged_of_shouldHalt run.readyNow halts) undamaged) ?_
    refine .bind (outcome_onCursor.mpr ?_)
    rw [none]
    refine Build.outcome_currentTag.mpr ?_
    change Build.Outcome (ite ((now.cursor.current.tag == .endOfInput ||
      terminators.contains now.cursor.current.tag) = true) _ _) now _
    rw [if_pos stops]
    exact .pure ⟨rfl, rfl⟩
  obtain ⟨count, enough⟩ : ∃ count, grammar.rounds = count + 1 :=
    ⟨rounds - 1, by have := faces.length_lt; omega⟩
  have loops : (grammar.loop #[] (grammar.bodyStep terminators)).Outcome now
      fun ids after => ids = #[] ∧ after = now := by
    rw [Grammar.loop, enough, Grammar.repeatWithin]
    refine .bind (round.mono fun result after known => ?_)
    rw [known.1]
    exact .pure ⟨rfl, known.2⟩
  refine .lift (.bind (loops.mono fun ids after known => ?_))
  rw [known.1, known.2]
  exact succeeds_addList faces #[]

/-- Where a text has neither errors nor directives, a round of a body ends it or reads a
statement. -/
theorem Run.plainStep {property : ForInStep (Array NodeId) → Parser → Prop}
    (run : start.Run soft rounds tokens parts taken rest now) (terminators : TagSet)
    (undamaged : ¬ now.forest.isDamaged)
    (plain : ∀ token ∈ tokens, token.kind.isDirective = false)
    (ends : BodyEnds terminators rest now → property (.done ids) now)
    (reads : now.cursor.isAtEnd = false → (grammar.statementStep ids).Outcome now property) :
    (grammar.bodyStep terminators ids).Outcome now property := by
  refine outcome_bodyStep run.readyNow terminators ?_ ?_ ends reads
  · exact fun halts => absurd (damaged_of_shouldHalt run.readyNow halts) undamaged
  · intro id mark left after directive next
    have consumes := (run.append next).passes.moves.consumes
    have member := consumes.mem_of_isDirective (List.mem_append_right _ List.mem_cons_self)
      directive
    rw [plain mark member] at directive
    contradiction

/-- A text without errors does no damage as long as nothing is reported. -/
theorem Run.undamaged (run : start.Run soft rounds tokens parts taken rest now)
    (faults : start.cursor.lexer.faults = []) (errors : now.errors = #[]) :
    ¬ now.forest.isDamaged := by
  have none : now.cursor.lexer.errors.toList = [] := by
    have whole := run.passes.moves.faults.trans faults
    rw [Lexer.faults] at whole
    exact (List.append_eq_nil_iff.mp whole).1
  rintro (reported | lexical)
  · exact reported errors
  · exact lexical (Array.toList_eq_nil_iff.mp none)

/-- A statement that cannot fail is read in its round. -/
theorem succeeds_statementStep (deepens : grammar.Deepens soft rounds)
    (ready : now.Ready soft rounds rest) {kinds : List (TokenKind String)}
    {holds : NodeId → Forest → Prop}
    (succeeds : (grammar.deeper .statement).Succeeds soft rounds now kinds holds) :
    (grammar.statementStep ids).Outcome now fun result after => ∃ id item left,
      result = .yield (ids.push id) ∧ now.Run soft rounds rest [.node .statement id] item left after ∧
        now.Goes after ∧ after.Faces soft rounds kinds ∧ holds id after.forest := by
  refine outcome_checkpoint.mpr (.bind (Build.Outcome.mono
    ((deepens.statement now rest ready trivial).and succeeds) fun result after holds => ?_))
  cases result with
  | error error => exact holds.2.elim
  | ok id =>
    obtain ⟨⟨item, left, run, _⟩, course⟩ := holds
    exact .pure ⟨id, item, left, rfl, run, course⟩

/-- A body whose first statement cannot fail and takes all tokens is that statement. -/
theorem Begins.soleStatement {source : String} (begins : Begins source soft start)
    (deepens : grammar.Deepens soft (Parser.rounds source))
    (faults : Piece.faults source.toList = [])
    (plain : ∀ token ∈ sourceTokens source, token.kind.isDirective = false)
    (filled : sourceTokens source ≠ []) {holds : NodeId → Forest → Prop}
    (succeeds : (grammar.deeper .statement).Succeeds soft (Parser.rounds source) start [] holds) :
    Build.Outcome (grammar.loop #[] (grammar.bodyStep .empty)) start fun ids after =>
      ∃ id, ids = #[id] ∧ after.errors = #[] ∧ holds id after.forest := by
  have faults : start.cursor.lexer.faults = [] := begins.faults.trans faults
  have run := Run.refl begins.ready
  obtain ⟨count, enough⟩ : ∃ count, grammar.rounds = count + 1 + 1 :=
    ⟨2 * (Piece.list source.toList).length, deepens.sameRounds⟩
  rw [loop, enough, repeatWithin]
  -- The first round reads the statement, since there are tokens.
  refine .bind (run.plainStep .empty (run.undamaged faults begins.errors) plain ?_ fun _ => ?_)
  · intro ends
    have atEnd := ends.2.resolve_right (by rw [TagSet.contains_empty]; exact Bool.false_ne_true)
    exact absurd (ends.1 atEnd) filled
  refine (succeeds_statementStep deepens begins.ready succeeds).mono
    fun result after found => ?_
  obtain ⟨id, item, left, isYield, next, goes, faces, known⟩ := found
  rw [isYield]
  -- The second round finds the end of the text.
  have errors : after.errors = #[] := goes.errors.trans begins.errors
  have both := run.append next
  refine .bind (both.plainStep .empty (both.undamaged faults errors) plain ?_ fun notEnd => ?_)
  · exact fun _ => .pure ⟨id, rfl, errors, known⟩
  · have atEnd : after.cursor.isAtEnd = true := by
      rw [Cursor.isAtEnd, faces.tag]
      rfl
    rw [atEnd] at notEnd
    contradiction

/-- A program whose only statement cannot fail and takes all tokens. -/
theorem Begins.soleProgram {source : String} (begins : Begins source soft start)
    (deepens : grammar.Deepens soft (Parser.rounds source))
    (faults : Piece.faults source.toList = [])
    (plain : ∀ token ∈ sourceTokens source, token.kind.isDirective = false)
    (filled : sourceTokens source ≠ []) {holds : NodeId → Forest → Prop}
    (succeeds : (grammar.deeper .statement).Succeeds soft (Parser.rounds source) start [] holds) :
    Build.Outcome grammar.program start fun root final => final.errors = #[] ∧
      ∃ forest id length, holds id forest ∧
        (⟨final.arena, final.cursor.lexer.names, root⟩ : SyntaxTree) = forest.sole id length := by
  refine .bind (.bind ((begins.soleStatement deepens faults plain filled succeeds).mono
    fun ids after found => ?_))
  obtain ⟨id, rfl, errors, known⟩ := found
  refine Parser.outcome_onArena.mpr (Build.outcome_cursor.mpr (Parser.outcome_onArena.mpr ?_))
  exact ⟨errors, after.forest, id, _, known, rfl⟩

/-- A program whose first statement can only fail has an error. -/
theorem Begins.failingProgram {source : String} (begins : Begins source soft start)
    (deepens : grammar.Deepens soft (Parser.rounds source)) (piles : grammar.Piles)
    (faults : Piece.faults source.toList = [])
    (plain : ∀ token ∈ sourceTokens source, token.kind.isDirective = false)
    (filled : sourceTokens source ≠ [])
    (fails : (grammar.deeper .statement).Outcome start (fun _ _ => False) fun _ _ => True) :
    Build.Outcome grammar.program start fun _ final => final.errors ≠ #[] := by
  have faults : start.cursor.lexer.faults = [] := begins.faults.trans faults
  have run := Run.refl begins.ready
  have stays {α : Type} {step : Build α} {now : Parser} (accumulates : step.Accumulates fun _ => True)
      (errors : now.errors ≠ #[]) : step.Outcome now fun _ after => after.errors ≠ #[] :=
    ne_empty_mono (accumulates now).1 errors
  obtain ⟨count, enough⟩ : ∃ count, grammar.rounds = count + 1 :=
    ⟨2 * (Piece.list source.toList).length + 1, deepens.sameRounds⟩
  -- The first round reports the error; afterwards errors are only added.
  have first : (grammar.bodyStep .empty #[]).Outcome start fun _ after => after.errors ≠ #[] := by
    refine run.plainStep .empty (run.undamaged faults begins.errors) plain ?_ fun _ => ?_
    · intro ends
      have atEnd := ends.2.resolve_right (by rw [TagSet.contains_empty]; exact Bool.false_ne_true)
      exact absurd (ends.1 atEnd) filled
    refine outcome_checkpoint.mpr (.bind (Build.Outcome.mono
      ((deepens.statement start _ begins.ready trivial).and fails) fun result after holds => ?_))
    cases result with
    | ok id => exact holds.2.elim
    | error error =>
      obtain ⟨⟨taken, rest, _, passes, _⟩, _⟩ := holds
      have reported : (grammar.report error).Outcome after fun _ now => now.errors ≠ #[] := by
        change (after.reported grammar.options.recovery error).errors ≠ #[]
        unfold reported
        split
        · next halted =>
          refine (passes.halted halted).resolve_left fun before => ?_
          rw [begins.halted] at before
          contradiction
        · exact Array.push_ne_empty
      refine .bind (reported.mono fun _ now errors => stays ?_ errors)
      exact .bind (.onCursor _) fun _ _ => .bind (.quiet (isQuiet_abandon _)) fun _ _ => .pure trivial
  have body : Build.Outcome (grammar.loop #[] (grammar.bodyStep .empty)) start
      fun _ after => after.errors ≠ #[] := by
    rw [loop, enough, repeatWithin]
    refine .bind (first.mono fun result after errors => ?_)
    cases result with
    | done ids => exact .pure errors
    | yield ids =>
      exact stays (.repeatWithin (fun ids _ => piles.bodyStep .empty ids) _ trivial) errors
  exact .bind (.bind (body.mono fun ids after errors => errors))

end Parser

variable {options : ParseOptions} {source : String} {kinds : List (TokenKind String)} {levels : Nat}

/-- The tokens of a source text without directives are all ordinary. -/
theorem Text.IsCode.kinds_sourceTokens (code : Text.IsCode source.toList kinds) :
    Token.kinds (Parser.sourceTokens source) = kinds := by
  rw [Token.kinds, Token.ordinary, List.filter_eq_self.mpr]
  · exact code.kinds
  · intro token member
    rw [code.plain token member]
    rfl

/-- A source text with one statement that cannot fail has no errors, and its tree is that of the
statement. -/
theorem sole_parseWith {holds : NodeId → Forest → Prop} (code : Text.IsCode source.toList kinds)
    (filled : kinds ≠ []) (deep : options.maxDepth = levels + 1)
    (succeeds : ∀ soft start, Parser.Begins source soft start →
      (level options soft (Parser.rounds source) levels).statement.Succeeds soft
        (Parser.rounds source) start [] holds) :
    (parseWith options source).errors = [] ∧ ∃ forest id length,
      holds id forest ∧ (parseWith options source).tree = forest.sole id length := by
  have lexical := (Parser.meets_run options source).1
  rw [code.faults, Array.toList_eq_nil_iff] at lexical
  have begins := Parser.begins_start source
  rw [parseWith_eq, Parser.errors_finish, Parser.tree_finish]
  rw [Parser.run_eq] at lexical ⊢
  generalize Parser.start source = start at *
  have statement : ((outermost options start.1 (Parser.rounds source)).deeper .statement).Succeeds
      start.1 (Parser.rounds source) start.2 [] holds := by
    show (descend options start.1 _ options.maxDepth .statement).Succeeds _ _ _ _ _
    rw [deep, descend_succ]
    exact succeeds start.1 start.2 begins
  have program := begins.soleProgram (Parser.deepens_descend options start.1 _ options.maxDepth)
    code.faults code.plain (fun none => filled (code.kinds.symm.trans (congrArg _ none))) statement
  exact ⟨⟨lexical, program.1⟩, program.2⟩

/-- A source text whose first statement can only fail has an error. -/
theorem errors_parseWith_ne_nil (code : Text.IsCode source.toList kinds) (filled : kinds ≠ [])
    (deep : options.maxDepth = levels + 1)
    (fails : ∀ soft start, Parser.Begins source soft start →
      (level options soft (Parser.rounds source) levels).statement.Outcome start
        (fun _ _ => False) fun _ _ => True) :
    (parseWith options source).errors ≠ [] := by
  have begins := Parser.begins_start source
  rw [parseWith_eq, Ne, Parser.errors_finish, Parser.run_eq]
  generalize Parser.start source = start at *
  have program := begins.failingProgram (Parser.deepens_descend options start.1 _ options.maxDepth)
    (upholds_level options start.1 _ options.maxDepth) code.faults code.plain
    (fun none => filled (code.kinds.symm.trans (congrArg _ none))) (by
      show (descend options start.1 _ options.maxDepth .statement).Outcome _ _ _
      rw [deep, descend_succ]
      exact fails start.1 start.2 begins)
  exact fun none => program none.2

/-- A source text whose first statement decides has no errors exactly if it is accepted. Then its
tree is that of the statement. -/
theorem decides_parseWith {accepts : Prop} {holds : NodeId → Forest → Prop}
    (code : Text.IsCode source.toList kinds) (filled : kinds ≠ [])
    (deep : options.maxDepth = levels + 1)
    (decides : ∀ soft start, Parser.Begins source soft start →
      (level options soft (Parser.rounds source) levels).statement.Decides accepts soft
        (Parser.rounds source) start [] holds) :
    ((parseWith options source).errors = [] ↔ accepts) ∧ (accepts → ∃ forest id length,
      holds id forest ∧ (parseWith options source).tree = forest.sole id length) := by
  have sole (is : accepts) := sole_parseWith code filled deep fun soft start begins =>
    (decides soft start begins).succeeds is
  refine ⟨⟨fun none => ?_, fun is => (sole is).1⟩, fun is => (sole is).2⟩
  by_contra isNot
  exact errors_parseWith_ne_nil code filled deep (fun soft start begins =>
    (decides soft start begins).fails isNot) none

end Vibescript
