import Vibescript.Proofs.Parser.Steps

/-!
# Bodies and recovery

A body is read statement by statement. A statement that fails leaves tokens that were passed
over and perhaps nodes; the nodes are taken back, and the tokens become those of an error node.
So a body spells its statements whether or not they are well formed. What a body skips when the
parser halts is skipped after an error.
-/
namespace Vibescript

/-- No operator that binds at least as tightly as a power stands at a parser. -/
def Parser.StopsAt (least : BindingPower) (now : Parser) : Prop :=
  ∀ op ∈ InfixOp.ofTag? now.cursor.current.tag, op.power.rank < least.rank

/-- What the readings one level deeper read. -/
structure Grammar.Deepens (grammar : Grammar) (soft : SoftNames) (rounds : Nat) : Prop where
  /-- The soft keywords. -/
  sameSoft : grammar.soft = soft
  /-- The bound on the rounds of a loop. -/
  sameRounds : grammar.rounds = rounds
  /-- A statement. -/
  statement : (grammar.deeper .statement).Reads soft rounds fun id => [.node .statement id]
  /-- An expression of some power. -/
  expression (least : BindingPower) : least.rank ≤ BindingPower.unary.rank →
    (grammar.deeper (.expression least)).Reads soft rounds fun id => [.node (.expression least) id]
  /-- The operand of a unary operator. -/
  operand : (grammar.deeper .operand).Reads soft rounds fun id => [.node (.expression .unary) id]
  /-- No operator that an expression could go on with follows it. -/
  stops (least : BindingPower) (start : Parser) (tokens : List (Token String)) :
    least.rank ≤ BindingPower.unary.rank → start.Ready soft rounds tokens →
    (grammar.deeper (.expression least)).Outcome start (fun _ after => after.StopsAt least)
      fun _ _ => True

/-- The part of a round of a body that reads a statement. -/
def Grammar.statementStep (grammar : Grammar) (statements : Array NodeId) :
    Build (ForInStep (Array NodeId)) := do
  let start ← checkpoint
  match ← (grammar.deeper .statement).run with
  | .ok id => return .yield (statements.push id)
  | .error error =>
    grammar.report error
    let _ ← Build.onCursor fun cursor => cursor.synchronize .statementBoundary
    return .yield (statements.push (← abandon start))

/-- When nothing is taken, an ordinary token that was there is still there. -/
theorem Consumes.ordinary_ne_nil {whole rest : List (Token String)}
    (consumes : Consumes whole [] rest) (some : Token.ordinary whole ≠ []) :
    Token.ordinary rest ≠ [] := by
  generalize none : ([] : List (Token String)) = taken at consumes
  induction consumes with
  | done => exact some
  | take => contradiction
  | demote directive _ ih =>
    refine ih ?_ none
    rwa [Token.ordinary_cons_directive directive] at some
  | split _ _ ih =>
    refine ih ?_ none
    rw [Token.ordinary_append, Token.ordinary_cons rfl]
    simp

namespace Parser

variable {soft : SoftNames} {rounds : Nat} {start now : Parser} {grammar : Grammar}
  {tokens taken rest : List (Token String)} {parts : List Part}

/-- The checkpoint at a parser. -/
def checkpoint (parser : Parser) : Grammar.Checkpoint :=
  ⟨parser.cursor.current.span, parser.cursor.position, parser.arena.mark⟩

/-- The parser after a token was stepped over, if nothing was since a checkpoint. -/
def stepFrom (start now : Parser) : Parser :=
  if now.cursor.position == start.cursor.position && !now.cursor.isAtEnd then
    now.withCursor now.cursor.advance.2
  else now

/-- An abandoned construct becomes an error node in the arena that was there before it. -/
theorem abandon_eq (start now : Parser)
    (passed : (start.stepFrom now).cursor.position ≠ start.cursor.position)
    (grows : start.arena.Grows (start.stepFrom now).arena) :
    Grammar.abandon start.checkpoint now =
      ((start.arena.add .error ⟨start.cursor.current.span.start,
          max (start.stepFrom now).cursor.previous.stop start.cursor.current.span.start⟩).1,
        (start.stepFrom now).withArena (start.arena.add .error ⟨start.cursor.current.span.start,
          max (start.stepFrom now).cursor.previous.stop start.cursor.current.span.start⟩).2) := by
  rw [← grows.truncate]
  have other : ¬((start.stepFrom now).cursor.position == start.cursor.position) = true := by
    simpa using passed
  unfold Grammar.abandon
  change (ite ((now.cursor.position == start.cursor.position && !now.cursor.isAtEnd) = true) _ _ :
    Build NodeId) now = _
  rw [stepFrom] at other ⊢
  by_cases still : (now.cursor.position == start.cursor.position && !now.cursor.isAtEnd) = true
  · rw [if_pos still] at other
    simp only [if_pos still]
    change (ite (((now.withCursor now.cursor.advance.2).cursor.position ==
      start.cursor.position) = true) _ _ : Build NodeId) _ = _
    rw [if_neg other]
    rfl
  · rw [if_neg still] at other
    simp only [if_neg still]
    change (ite ((now.cursor.position == start.cursor.position) = true) _ _ : Build NodeId) _ = _
    rw [if_neg other]
    rfl

/-- Stepping over a token reports nothing. -/
theorem errors_stepFrom (start now : Parser) : (start.stepFrom now).errors = now.errors := by
  unfold stepFrom
  split <;> rfl

/-- At least one token is passed over before the nodes of a construct are taken back. -/
theorem Passes.stepFrom (passes : start.Passes tokens taken rest now)
    (pending : start.cursor.Pending tokens) (notEnd : start.cursor.isAtEnd = false) :
    ∃ all left, start.Passes tokens all left (start.stepFrom now) ∧ all ≠ [] ∧ taken ⊆ all ∧
      ((∀ token ∈ taken.head?, token.kind.isDirective = false) →
        ∀ token ∈ all.head?, token.kind.isDirective = false) := by
  have position := passes.moves.position
  rw [Parser.stepFrom]
  cases taken with
  | cons token taken =>
    rw [if_neg]
    · exact ⟨_, _, passes, List.cons_ne_nil _ _, List.Subset.refl _, id⟩
    · simp [position]
  | nil =>
    obtain ⟨_, first⟩ := pending.ordinary notEnd
    have remains := passes.moves.consumes.ordinary_ne_nil (by simp [first])
    have more : now.cursor.isAtEnd = false := by
      cases atEnd : now.cursor.isAtEnd with
      | false => rfl
      | true => exact absurd (passes.moves.pending.atEnd atEnd).2.2 remains
    rw [if_pos (by simp [position, more])]
    obtain ⟨before, left, rfl, directive, plain, _⟩ := passes.moves.pending.ahead more
    have moves := Cursor.moves_advance passes.moves.pending directive more
    refine ⟨_, left, passes.trans (.of_moves moves), by simp, by simp, fun _ => ?_⟩
    simpa using plain

/-- A construct that went wrong is abandoned: whatever was passed over since its start becomes an
error node. -/
theorem Strays.abandon (strays : start.Strays soft rounds tokens now)
    (notEnd : start.cursor.isAtEnd = false) (damaged : now.errors ≠ #[]) {category : Category}
    (admitted : category.admits .error = true) :
    Build.Outcome (Grammar.abandon start.checkpoint) now fun id after =>
      start.Reading soft rounds tokens [.node category id] after := by
  obtain ⟨taken, rest, ready, passed, opened⟩ := strays
  obtain ⟨taken, rest, passes, some, _, opens⟩ := passed.stepFrom ready.pending notEnd
  have opens := opens opened
  rw [← errors_stepFrom start] at damaged
  have position := passes.moves.position
  have length := List.length_pos_iff.mpr some
  rw [Build.Outcome, abandon_eq start now (by omega) passes.arena]
  have hull := passes.hull ready.pending opens some (Eq.refl start.cursor.current.span.start)
  refine ⟨taken, rest, ⟨ready, ⟨passes.moves, Arena.grows_add _ _ _, passes.errors,
    passes.halted⟩, ?_, ?_⟩, opens, fun _ => some⟩ <;>
    rw [nodesSince, withArena, Arena.size_add, Nat.add_sub_cancel_left, Arena.idsFrom_succ]
  · exact .of_node (Arena.node?_add ..) admitted hull (.of_writes (.skipped (Or.inl damaged) taken))
  · exact List.forall_mem_singleton.mpr
      (Arena.declares_add _ _ _ (fun _ => NodeKind.noConfusion) _)

/-- Skipping passes over tokens. -/
theorem Passes.skipUntil (pending : now.cursor.Pending tokens) (stop : Cursor → Bool) :
    ∃ taken rest, now.Passes tokens taken rest (now.withCursor (now.cursor.skipUntil stop)) ∧
      ∀ token ∈ taken, token.kind.isDirective = false := by
  obtain ⟨taken, rest, moves, plain⟩ :=
    Cursor.moves_skipWithin stop now.cursor.tokensLeft pending
  exact ⟨taken, rest, .of_moves moves, plain⟩

/-- A construct that failed is reported, tokens are skipped, and an error node takes its place. -/
theorem Strays.recover (strays : start.Strays soft rounds tokens now)
    (notEnd : start.cursor.isAtEnd = false) {α : Type} {skip : Cursor → α × Cursor}
    {stop : Cursor → Bool} (skips : ∀ cursor, (skip cursor).2 = cursor.skipUntil stop)
    (error : ParseError) {category : Category} (admitted : category.admits .error = true)
    {β : Type} {next : NodeId → Build β} {property : β → Parser → Prop}
    (goes : ∀ id after, start.Reading soft rounds tokens [.node category id] after →
      (next id).Outcome after property) :
    Build.Outcome
      (do
        grammar.report error
        let _ ← Build.onCursor skip
        let id ← Grammar.abandon start.checkpoint
        next id)
      now property := by
  obtain ⟨taken, rest, ready, passes, opens⟩ := strays
  refine .bind ((Passes.report grammar error (passes.ready ready)).mono
    fun _ reported ⟨reports, damaged, _, _⟩ => ?_)
  obtain ⟨more, left, skipped, plain⟩ := Passes.skipUntil reports.moves.pending stop
  refine .bind (outcome_onCursor.mpr ?_)
  rw [skips]
  have whole := (passes.trans reports).trans skipped
  rw [List.append_nil] at whole
  refine .bind (Build.Outcome.mono (Strays.abandon ⟨_, left, ready, whole, ?_⟩ notEnd damaged
    admitted) goes)
  cases taken with
  | nil => exact fun token member => plain token (List.mem_of_mem_head? member)
  | cons token taken => exact opens

/-- Interning texts one after another passes over nothing. -/
theorem Passes.internAll (texts : List String) (pending : now.cursor.Pending tokens) :
    Build.Outcome (texts.mapM Build.intern) now fun names after =>
      now.Passes tokens [] tokens after ∧ after.arena = now.arena ∧
        (∀ name ∈ names, after.forest.names.Holds name) ∧
        names.map after.forest.names.text = texts := by
  induction texts generalizing now with
  | nil => exact .pure ⟨.refl pending, rfl, by simp, rfl⟩
  | cons text texts ih =>
    rw [List.mapM_cons]
    have looks := Cursor.looks_intern pending text
    have first : now.Passes tokens [] tokens (now.withCursor (now.cursor.intern text).2) :=
      .of_moves looks.moves
    refine .bind (outcome_onCursor.mpr (.bind ((ih looks.pending).mono
      fun names after ⟨passes, arena, held, named⟩ => .pure ⟨first.trans passes, arena, ?_, ?_⟩)))
    · intro name member
      rcases List.mem_cons.mp member with rfl | later
      · exact passes.moves.names.holds (NameTable.holds_intern pending.sound text)
      · exact held name later
    · rw [List.map_cons, named]
      exact congrArg (· :: texts) ((passes.moves.names.text
        (NameTable.holds_intern pending.sound text)).trans
          (NameTable.text_intern pending.sound text))

/-- A claimed directive becomes a node. -/
theorem Run.directive {token : Token Name} {written : Token String}
    (run : start.Run soft rounds tokens [.token token.kind] [written] rest now)
    (isDirective : token.kind.isDirective = true) (spans : written.span = token.span) :
    Build.Outcome (Grammar.directive token) now fun id after =>
      start.Run soft rounds tokens [.node .statement id] [written] rest after := by
  have hull : token.span.Hull [written] := by
    refine ⟨written, rfl, written, rfl, ?_⟩
    rw [spans]
  unfold Grammar.directive
  split
  · next major minor same =>
    rw [same] at run
    refine outcome_onArena.mpr (run.addNode _
      (Arena.declares_add _ _ _ (fun _ => NodeKind.noConfusion) _) fun forest _ found spells => ?_)
    exact .of_node found rfl hull spells
  · next other =>
    have uses : token.kind = .usesDirective := by
      cases same : token.kind with
      | versionDirective major minor => exact absurd same (other major minor)
      | usesDirective => rfl
      | _ => rw [same] at isDirective; contradiction
    rw [uses] at run
    refine Build.outcome_cursor.mpr (.bind ((Passes.internAll _ run.passes.moves.pending).mono
      fun names interned ⟨passes, arena, held, texts⟩ => ?_))
    have named := run.pass passes (congrArg Arena.size arena)
    have listed := Passes.of_grows passes.moves.pending
      (interned.arena.grows_addNames names.toArray.toList)
    have gathered := named.pass listed (Arena.size_addNames ..)
    have declares := @Arena.declares_usesDirective interned.arena interned.cursor.lexer.names
      now.cursor.source names token.span held texts
    rw [← passes.moves.source] at declares
    refine .bind (outcome_onArena.mpr (outcome_onArena.mpr
      (gathered.addNode _ declares fun forest grows found spells => ?_)))
    have inside := interned.arena.containsNames_addNames names.toArray.toList
    have comment : forest.Writes (.comment (interned.arena.addNames names.toArray.toList).1) [] := by
      refine .comment (grows.arena.containsNames inside) fun name member => ?_
      have list := (grows.arena.nameList inside).trans
        (interned.arena.nameList_addNames names.toArray.toList)
      rw [list] at member
      exact grows.names.holds (held name (by simpa using member))
    have whole := spells.append (.of_writes comment)
    rw [List.append_nil, List.append_nil] at whole
    exact .of_node found rfl hull whole

/-- Items of a body were read, and so many tokens at most are left. -/
def Gathers (soft : SoftNames) (rounds : Nat) (start : Parser) (tokens : List (Token String))
    (parts : List Part) (taken : List (Token String)) (category : Category) (count : Nat)
    (ids : Array NodeId) (now : Parser) : Prop :=
  ∃ more rest, start.Run soft rounds tokens (parts ++ ids.toList.map (.node category))
    (taken ++ more) rest now ∧ Consumes.weight rest = count

/-- The items of a body were read, up to what was skipped because of an error. -/
def Gathered (soft : SoftNames) (rounds : Nat) (start : Parser) (tokens : List (Token String))
    (parts : List Part) (taken : List (Token String)) (category : Category)
    (ending : List (Token String) → Parser → Prop) (ids : Array NodeId) (now : Parser) : Prop :=
  ∃ more rest, start.Run soft rounds tokens (parts ++ ids.toList.map (.node category) ++ [.skipped])
    (taken ++ more) rest now ∧ (now.forest.isDamaged ∨ ending rest now)

variable {category : Category} {count : Nat} {ids : Array NodeId}
  {ending : List (Token String) → Parser → Prop}

/-- An item more was read. -/
theorem Run.push {after : Parser} {id : NodeId} {more item left : List (Token String)}
    (run : start.Run soft rounds tokens (parts ++ ids.toList.map (.node category)) (taken ++ more)
      rest now)
    (next : now.Run soft rounds rest [.node category id] item left after) (some : item ≠ []) :
    ∃ fewer < Consumes.weight rest,
      start.Gathers soft rounds tokens parts taken category fewer (ids.push id) after := by
  have less := next.passes.moves.consumes.weight_le
  have length := List.length_pos_iff.mpr some
  refine ⟨Consumes.weight left, by omega, more ++ item, left, ?_, rfl⟩
  have whole := run.append next
  simpa using whole

/-- The body ends where nothing is skipped. -/
theorem Run.finish {more : List (Token String)}
    (run : start.Run soft rounds tokens (parts ++ ids.toList.map (.node category)) (taken ++ more)
      rest now)
    (ending : List (Token String) → Parser → Prop) (ends : ending rest now) :
    start.Gathered soft rounds tokens parts taken category ending ids now := by
  refine ⟨more, rest, ⟨run.ready, run.passes, ?_, run.declares⟩, .inr ends⟩
  have spells := run.spells.append (.of_writes .whole)
  rwa [List.append_nil, List.append_nil] at spells

/-- The body ends where the rest of the text is skipped. -/
theorem Run.abort {more : List (Token String)}
    (run : start.Run soft rounds tokens (parts ++ ids.toList.map (.node category)) (taken ++ more)
      rest now)
    (damaged : now.forest.isDamaged) :
    Build.Outcome Build.skipToEnd now fun _ after =>
      start.Gathered soft rounds tokens parts taken category ending ids after := by
  obtain ⟨skipped, left, passes, _⟩ := Passes.skipUntil run.passes.moves.pending fun _ => false
  have damage := passes.forest.damage damaged
  refine outcome_onCursor.mpr ⟨more ++ skipped, left, ?_, .inl damage⟩
  have next : now.Run soft rounds rest [.skipped] skipped left _ :=
    .of_passes run.readyNow passes rfl (.of_writes (.skipped damage skipped))
  have whole := run.append next
  rw [List.append_assoc taken] at whole
  exact whole

/-- A parser that should halt has met an error. -/
theorem damaged_of_shouldHalt (ready : now.Ready soft rounds rest)
    (halts : (grammar.shouldHalt now).1 = true) : now.forest.isDamaged := by
  change (now.isHalted || (grammar.options.recovery == .failFast &&
    now.cursor.hasLexicalErrors)) = true at halts
  simp only [Bool.or_eq_true, Bool.and_eq_true] at halts
  rcases halts with halted | ⟨_, lexical⟩
  · exact .inl (ready.halted halted)
  · refine .inr ?_
    simpa [Cursor.hasLexicalErrors] using lexical

/-- Asking whether to halt. -/
theorem outcome_shouldHalt {α : Type} {next : Bool → Build α} {property : α → Parser → Prop}
    (halts : (grammar.shouldHalt now).1 = true → (next true).Outcome now property)
    (goes : (next false).Outcome now property) :
    Build.Outcome (grammar.shouldHalt >>= next) now property := by
  change (next (grammar.shouldHalt now).1).Outcome now property
  cases answer : (grammar.shouldHalt now).1 with
  | false => exact goes
  | true => exact halts answer

/-- Asking for a checkpoint. -/
theorem outcome_checkpoint {α : Type} {next : Grammar.Checkpoint → Build α}
    {property : α → Parser → Prop} :
    Build.Outcome (Grammar.checkpoint >>= next) now property ↔
      (next now.checkpoint).Outcome now property := Iff.rfl

/-- The place where a body of statements ends: at a terminator or at the end of the text, with
every directive claimed. -/
def BodyEnds (terminators : TagSet) (rest : List (Token String)) (now : Parser) : Prop :=
  (now.cursor.isAtEnd = true → rest = []) ∧
    (now.cursor.isAtEnd = true ∨ terminators.contains now.cursor.current.tag = true)

/-- A round of a body halts, claims a directive, ends the body or reads a statement. -/
theorem outcome_bodyStep {property : ForInStep (Array NodeId) → Parser → Prop}
    (ready : now.Ready soft rounds rest) (terminators : TagSet)
    (halts : (grammar.shouldHalt now).1 = true →
      property (.done ids) (now.withCursor now.cursor.skipToEnd))
    (claims : ∀ (id : NodeId) (mark : Token String) (left : List (Token String)) (after : Parser),
      mark.kind.isDirective = true →
      now.Run soft rounds rest [.node .statement id] [mark] left after →
      property (.yield (ids.push id)) after)
    (ends : BodyEnds terminators rest now → property (.done ids) now)
    (reads : now.cursor.isAtEnd = false → (grammar.statementStep ids).Outcome now property) :
    (grammar.bodyStep terminators ids).Outcome now property := by
  refine outcome_shouldHalt (fun answer => halts answer) ?_
  rw [if_neg Bool.false_ne_true]
  refine .bind (outcome_onCursor.mpr ?_)
  rcases Cursor.moves_takeDirective ready.pending with ⟨none, atEnd⟩ | claimed
  · rw [none]
    refine Build.outcome_currentTag.mpr ?_
    change Build.Outcome (ite ((now.cursor.current.tag == .endOfInput ||
      terminators.contains now.cursor.current.tag) = true) _ _) now _
    by_cases stops : (now.cursor.current.tag == .endOfInput ||
      terminators.contains now.cursor.current.tag) = true
    · rw [if_pos stops]
      exact .pure (ends ⟨atEnd, Bool.or_eq_true _ _ ▸ stops⟩)
    · rw [if_neg stops]
      rw [Bool.or_eq_true, not_or] at stops
      exact reads (Bool.not_eq_true _ ▸ stops.1)
  · obtain ⟨mark, left, found, directive, moves⟩ := claimed
    rw [found]
    have taken : now.Run soft rounds rest [.token mark.kind]
        [mark.written now.cursor.lexer.names] left (now.withCursor now.cursor.takeDirective.2) := by
      refine .of_passes ready (.of_moves moves) rfl (.of_writes (.token ?_ ?_))
      · have known := Token.known_of_isDirective directive now.cursor.lexer.names
        exact (known.map_text moves.names).symm
      · exact Token.known_of_isDirective directive _
    exact .bind ((taken.directive directive rfl).mono fun id after next =>
      .pure (claims id _ left after (by rwa [Token.isDirective_written]) next))

/-- The statement of a round is read, or an error node takes its place. -/
theorem outcome_statementStep (deepens : grammar.Deepens soft rounds)
    (ready : now.Ready soft rounds rest) (notEnd : now.cursor.isAtEnd = false) :
    (grammar.statementStep ids).Outcome now fun result after => ∃ id item left,
      result = .yield (ids.push id) ∧ item ≠ [] ∧
        now.Run soft rounds rest [.node .statement id] item left after := by
  refine outcome_checkpoint.mpr (.bind (Build.Outcome.mono
    (deepens.statement now rest ready trivial) fun result after holds => ?_))
  cases result with
  | ok id =>
    obtain ⟨item, left, next, _, some⟩ := holds
    exact .pure ⟨id, item, left, rfl, some (List.cons_ne_nil _ _), next⟩
  | error error =>
    refine Strays.recover holds notEnd (fun _ => rfl) error
      (show Category.statement.admits .error = true from rfl)
      fun id after ⟨item, left, next, _, filled⟩ => ?_
    exact .pure ⟨id, item, left, rfl, filled (List.cons_ne_nil _ _), next⟩

/-- One round of a body reads a directive or a statement, or it ends the body. -/
theorem Gathers.bodyStep (deepens : grammar.Deepens soft rounds) (terminators : TagSet)
    (gathers : start.Gathers soft rounds tokens parts taken .statement count ids now) :
    Build.Outcome (grammar.bodyStep terminators ids) now
      (Round (start.Gathers soft rounds tokens parts taken .statement)
        (start.Gathered soft rounds tokens parts taken .statement (BodyEnds terminators))
        count) := by
  obtain ⟨more, rest, run, rfl⟩ := gathers
  refine outcome_bodyStep run.readyNow terminators ?_ ?_ ?_ ?_
  · exact fun halts => run.abort (damaged_of_shouldHalt run.readyNow halts)
  · exact fun id mark left after _ next => run.push next (List.cons_ne_nil _ _)
  · exact fun ends => run.finish (BodyEnds terminators) ends
  · refine fun notEnd => (outcome_statementStep deepens run.readyNow notEnd).mono
      fun result after ⟨id, item, left, same, filled, next⟩ => ?_
    rw [same]
    exact run.push next filled

/-- The statements of a body are read, up to what was skipped because of an error. -/
theorem Run.statements (deepens : grammar.Deepens soft rounds) (terminators : TagSet)
    (run : start.Run soft rounds tokens parts taken rest now) :
    Build.Outcome (grammar.loop #[] (grammar.bodyStep terminators)) now
      (start.Gathered soft rounds tokens parts taken .statement (BodyEnds terminators)) := by
  have gathers : start.Gathers soft rounds tokens parts taken .statement (Consumes.weight rest)
      #[] now := ⟨[], rest, by simpa using run, rfl⟩
  have enough : Consumes.weight rest < grammar.rounds := by
    rw [deepens.sameRounds]
    exact run.readyNow.rounds
  exact Build.Outcome.repeatWithin _
    (fun count ids parser gathers => Gathers.bodyStep deepens terminators gathers) enough gathers

/-- So many rounds over statements pass over some tokens. -/
theorem Run.statementRounds (deepens : grammar.Deepens soft rounds) (terminators : TagSet)
    (run : start.Run soft rounds tokens parts taken rest now) (bound : Nat) :
    Build.Outcome (Grammar.repeatWithin (grammar.bodyStep terminators) bound #[]) now fun _ after =>
      ∃ parts taken rest, start.Run soft rounds tokens parts taken rest after := by
  have gathers : start.Gathers soft rounds tokens parts taken .statement (Consumes.weight rest)
      #[] now := ⟨[], rest, by simpa using run, rfl⟩
  refine (Build.Outcome.repeatUpTo _
    (fun count ids parser gathers => Gathers.bodyStep deepens terminators gathers) bound
    gathers).mono fun ids after holds => ?_
  rcases holds with ⟨_, _, run, _⟩ | ⟨_, _, _, run, _⟩
  · exact ⟨_, _, _, run⟩
  · exact ⟨_, _, _, run⟩

/-- A body reads its statements and what was skipped after them. -/
theorem Run.body (deepens : grammar.Deepens soft rounds)
    (terminators : TagSet) (run : start.Run soft rounds tokens parts taken rest now) :
    Build.Outcome (grammar.body terminators) now fun range after => ∃ more left,
      start.Run soft rounds tokens (parts ++ Part.body range) (taken ++ more) left after ∧
        (after.forest.isDamaged ∨ BodyEnds terminators left after) := by
  refine .bind ((run.statements deepens terminators).mono
    fun ids after ⟨more, left, read, ends⟩ => ?_)
  refine outcome_onArena.mpr ⟨more, left, ?_, ends⟩
  have gathered := read.gather (.nodes .statement (after.arena.addList ids.toList).1)
    (after.arena.grows_addList ids.toList) (after.arena.size_addList ids.toList)
    (by rw [Part.expand?, Arena.list_addList]) (after.arena.contains_addList ids.toList)
  rwa [List.append_assoc] at gathered

/-- A reading goes on with a body. -/
theorem Reading.body (reading : start.Reading soft rounds tokens parts now) (some : parts ≠ [])
    (deepens : grammar.Deepens soft rounds) (terminators : TagSet)
    {failure : ParseError → Parser → Prop} :
    Parse.Outcome (liftM (grammar.body terminators)) now
      (fun range after => start.Reading soft rounds tokens (parts ++ Part.body range) after)
      failure := by
  obtain ⟨taken, rest, run, opens, filled⟩ := reading
  refine .lift ((run.body deepens terminators).mono fun range after ⟨more, left, read, _⟩ => ?_)
  exact ⟨taken ++ more, left, read, opens_of_ne_nil opens (filled some) more,
    fun _ => by simp [filled some]⟩

end Parser

end Vibescript
