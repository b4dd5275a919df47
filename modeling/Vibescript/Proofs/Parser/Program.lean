import Vibescript.Proofs.Parser.Statements

/-!
# What a parse reads

The levels of the grammar are read by induction on their number, with the level that refuses at
the bottom. So whatever the nesting limit, a parse reads a program: the nodes of its arena are
the nodes below the root and the root, and without an error every token was taken.
-/
namespace Vibescript

namespace Parser

open Build Parse

variable {soft : SoftNames} {rounds : Nat} {start now : Parser}
  {tokens taken rest : List (Token String)} {parts : List Part}

/-- Refusing to go deeper passes over the rest of the text. -/
theorem strays_refuse (limit : Nat) (ready : start.Ready soft rounds tokens)
    {success : NodeId → Parser → Prop} :
    (Grammar.refuse limit).Outcome start success
      fun _ after => start.Strays soft rounds tokens after := by
  refine Parse.outcome_current.mpr ?_
  obtain ⟨taken, rest, passes, plain⟩ := Passes.skipUntil ready.pending fun _ => false
  refine .bind (.lift (outcome_onCursor.mpr (.throw ⟨taken, rest, ready, passes, ?_⟩)))
  exact fun token member => plain token (List.mem_of_mem_head? member)

/-- The readings with so many levels left are those of a grammar. -/
theorem deepens_descend (options : ParseOptions) (soft : SoftNames) (rounds levels : Nat) :
    (Grammar.mk options soft rounds (Grammar.descend options soft rounds levels)).Deepens soft
      rounds := by
  induction levels with
  | zero =>
    refine ⟨rfl, rfl, fun start tokens ready _ => ?_, fun least _ start tokens ready _ => ?_,
      fun start tokens ready _ => ?_, fun least start tokens _ ready => ?_⟩
    · exact strays_refuse options.maxDepth ready
    · exact strays_refuse options.maxDepth ready
    · exact strays_refuse options.maxDepth ready
    · exact (strays_refuse options.maxDepth ready).mono (fun _ _ holds => holds)
        fun _ _ _ => trivial
  | succ levels deepens =>
    refine ⟨rfl, rfl, reads_statement deepens, fun least tight start tokens ready _ => ?_,
      reads_operand deepens, fun least start tokens tight ready => ?_⟩
    · exact (reads_expressionFrom deepens tight start tokens ready).imp fun _ _ both => both.1
    · exact (reads_expressionFrom deepens tight start tokens ready).mono
        (fun _ _ both => both.2) fun _ _ _ => trivial

/-- The soft keywords are interned. -/
theorem knows_softNames {names : NameTable} (sound : names.Sound) :
    names.Grows (softNames names).2 ∧ (softNames names).2.Sound ∧
      (softNames names).2.Knows (softNames names).1.spelling := by
  have step : ∀ {table : NameTable} {known : List (Name × String)} (text : String),
      names.Grows table ∧ table.Sound ∧ table.Knows known →
      names.Grows (table.intern text).2 ∧ (table.intern text).2.Sound ∧
        (table.intern text).2.Knows (known ++ [((table.intern text).1, text)]) :=
    fun text ⟨grows, sound, knows⟩ => ⟨grows.trans (NameTable.grows_intern _ text),
      NameTable.sound_intern sound text, knows.intern sound text⟩
  have nothing : names.Grows names ∧ names.Sound ∧ names.Knows [] := ⟨.refl _, sound, nofun⟩
  rw [softNames]
  exact step "setter" (step "getter" (step "property" (step "as" (step "require" nothing))))

/-- The tokens of a source text in their order. -/
def sourceTokens (source : String) : List (Token String) :=
  Piece.tokens (Piece.list source.toList)

/-- The parser at the start of a source text stands on the cursor there, with the soft keywords
interned. -/
theorem start_eq (source : String) :
    Parser.start source =
      ((softNames (Cursor.ofSource source).lexer.names).1,
        ⟨{ Cursor.ofSource source with
            lexer := { (Cursor.ofSource source).lexer with
              names := (softNames (Cursor.ofSource source).lexer.names).2 } },
          .empty, #[], false⟩) := by
  rw [Parser.start]

/-- A parser at the start of a source text is ready to read its tokens. -/
structure Begins (source : String) (soft : SoftNames) (start : Parser) : Prop where
  /-- The tokens of the text are pending. -/
  ready : start.Ready soft (Parser.rounds source) (sourceTokens source)
  /-- The cursor stands in the text. -/
  text : start.cursor.source = source.toList
  /-- The errors of the text are still to be met. -/
  faults : start.cursor.lexer.faults = (Lexer.ofSource source).faults
  /-- There are no nodes yet. -/
  arena : start.arena = .empty
  /-- There are no errors yet. -/
  errors : start.errors = #[]
  /-- The parser is not halted. -/
  halted : start.isHalted = false

/-- A parse begins at the start of its source text. -/
theorem begins_start (source : String) :
    Begins source (Parser.start source).1 (Parser.start source).2 := by
  obtain ⟨pending, same, faults⟩ := Cursor.start_ofSource source
  obtain ⟨grows, sound, knows⟩ := knows_softNames pending.sound
  rw [start_eq]
  dsimp only
  generalize Cursor.ofSource source = cursor at *
  generalize softNames cursor.lexer.names = found at *
  refine ⟨⟨Lexer.Shows.grow pending grows sound, ?_, knows, nofun⟩, same, faults, rfl, rfl, rfl⟩
  have bound := Consumes.weight_le_length (sourceTokens source)
  have fewer : (sourceTokens source).length ≤ (Piece.list source.toList).length :=
    List.length_filterMap_le _ _
  rw [Parser.rounds]
  omega

/-- A program was read: its node is the last, the nodes below it are all the others, and without
damage every token was taken. -/
structure ReadsProgram (source : String) (root : NodeId) (final : Parser) (body : NodeRange)
    (below : List NodeId) (taken rest : List (Token String)) : Prop where
  /-- The root spans the whole text. -/
  found : final.arena.node? root = some ⟨.program body, ⟨0, Text.byteLength source.toList⟩⟩
  /-- The root is written with the tokens that were taken. -/
  spells : final.forest.Spells (NodeKind.program body).production below taken
  /-- There are no other nodes. -/
  nodes : final.arena.ids = below ++ [root]
  /-- The tokens come from the text. -/
  consumes : Consumes (sourceTokens source) taken rest
  /-- They are all of it. -/
  whole : ¬ final.forest.isDamaged → rest = []
  /-- The uses directives declare the names in their comments. -/
  declares : ∀ id ∈ below, final.arena.Declares final.cursor.lexer.names source.toList id

/-- A program is read from the start of its source text. -/
theorem Begins.program {source : String} {grammar : Grammar} (begins : Begins source soft start)
    (deepens : grammar.Deepens soft (Parser.rounds source)) :
    Build.Outcome grammar.program start fun root final => ∃ body below taken rest,
      ReadsProgram source root final body below taken rest := by
  refine .bind (((Run.refl begins.ready).body deepens .empty).mono
    fun body final ⟨taken, rest, run, ends⟩ => ?_)
  refine Build.outcome_cursor.mpr (outcome_onArena.mpr ?_)
  have length : final.cursor.lexer.length = Text.byteLength source.toList := by
    rw [← begins.text, ← run.passes.moves.source]
    rfl
  rw [length]
  have grows := final.arena.grows_add (.program body) ⟨0, Text.byteLength source.toList⟩
  have step := Passes.of_grows run.passes.moves.pending grows
  refine ⟨body, start.nodesSince final, taken, rest, final.arena.node?_add _ _, ?_, ?_, ?_, ?_, ?_⟩
  · exact run.spells.mono step.forest
  · rw [Arena.ids, withArena, Arena.size_add, Arena.idsFrom_succ, nodesSince, begins.arena]
    simp [Arena.add, Arena.size, Arena.empty]
  · exact run.passes.moves.consumes
  · intro undamaged
    obtain ⟨whole, atEnd | terminated⟩ := ends.resolve_left undamaged
    · exact whole atEnd
    · rw [TagSet.contains_empty] at terminated
      contradiction
  · intro id member
    have declared := step.declares (run.declares id member)
      (lt_of_mem_nodesSince run.passes member)
    exact Eq.subst (motive := fun text => Arena.Declares _ _ text id)
      (run.passes.moves.source.trans begins.text) declared

/-- A parse reads a program with the outermost level. -/
theorem run_eq (options : ParseOptions) (source : String) :
    Parser.run options source =
      (Grammar.outermost options (Parser.start source).1 (Parser.rounds source)).program
        (Parser.start source).2 := by
  rw [Parser.run]

/-- A parse reads a program. -/
theorem reads_run (options : ParseOptions) (source : String) :
    ∃ body below taken rest, ReadsProgram source (Parser.run options source).1
      (Parser.run options source).2 body below taken rest := by
  have begins := begins_start source
  rw [run_eq]
  generalize Parser.start source = start at *
  exact begins.program (deepens_descend options start.1 (Parser.rounds source) options.maxDepth)

/-- The result of a parse has the nodes and the names of the parser at the end. -/
theorem tree_finish (parser : Parser) (options : ParseOptions) (root : NodeId) :
    (parser.finish options root).tree =
      ⟨parser.arena, parser.cursor.lexer.names, root⟩ := rfl

end Parser

/-- The result of a parse is that of the parser at the end. -/
theorem parseWith_eq (options : ParseOptions) (source : String) :
    parseWith options source =
      (Parser.run options source).2.finish options (Parser.run options source).1 := by
  rw [parseWith]

end Vibescript
