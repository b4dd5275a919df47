import Vibescript.Proofs.Cursor.Lookahead
import Vibescript.Proofs.Parser.Reading

/-!
# What single steps read

Each step of the parser adds to what was read: a token that is taken adds a part that is written
with it, a node that is closed takes the place of its production, a list takes the place of its
items. A reading that fails leaves what was read before as tokens that were passed over.
-/
namespace Vibescript

namespace Parser

/-- The parser with another cursor. -/
def withCursor (parser : Parser) (cursor : Cursor) : Parser := { parser with cursor }

/-- The parser with another arena. -/
def withArena (parser : Parser) (arena : Arena) : Parser := { parser with arena }

/-- What a step of the cursor does. -/
theorem outcome_onCursor {α : Type} {step : Cursor → α × Cursor} {parser : Parser}
    {property : α → Parser → Prop} :
    Build.Outcome (Build.onCursor step) parser property ↔
      property (step parser.cursor).1 (parser.withCursor (step parser.cursor).2) := Iff.rfl

/-- What a step of the arena does. -/
theorem outcome_onArena {α : Type} {step : Arena → α × Arena} {parser : Parser}
    {property : α → Parser → Prop} :
    Build.Outcome (Build.onArena step) parser property ↔
      property (step parser.arena).1 (parser.withArena (step parser.arena).2) := Iff.rfl

/-- A cursor on a token that is not the end is not at the end. -/
theorem notAtEnd {cursor : Cursor} {tag : Tag} (current : cursor.current.tag = tag)
    (other : tag ≠ .endOfInput) : cursor.isAtEnd = false := by
  rw [Cursor.isAtEnd, current, beq_eq_false_iff_ne]
  exact other

variable {soft : SoftNames} {rounds : Nat} {start now : Parser}
  {tokens taken rest : List (Token String)} {parts others : List Part} {part : Part}
  {failure : ParseError → Parser → Prop}

/-- A step of the cursor passes over tokens. -/
theorem Passes.of_moves {cursor : Cursor} (moves : now.cursor.Moves tokens taken rest cursor) :
    now.Passes tokens taken rest (now.withCursor cursor) :=
  ⟨moves, .refl _, List.prefix_rfl, .inl⟩

/-- Parts stay read while nothing is passed over and no node is built. -/
theorem Run.pass {after : Parser} (run : start.Run soft rounds tokens parts taken rest now)
    {left : List (Token String)} (passes : now.Passes rest [] left after)
    (size : after.arena.size = now.arena.size) :
    start.Run soft rounds tokens parts taken left after := by
  have whole := run.passes.trans passes
  rw [List.append_nil] at whole
  have nodes : start.nodesSince after = start.nodesSince now := by
    rw [nodesSince, size, nodesSince]
  refine ⟨run.ready, whole, ?_, ?_⟩ <;> rw [nodes]
  · exact run.spells.mono passes.forest
  · exact fun id member => passes.declares (run.declares id member)
      (lt_of_mem_nodesSince run.passes member)

namespace Reading

/-- The pending tokens of a reading. -/
theorem pending (reading : start.Reading soft rounds tokens parts now) :
    ∃ rest, now.cursor.Pending rest := by
  obtain ⟨_, rest, run, _⟩ := reading
  exact ⟨rest, run.passes.moves.pending⟩

/-- A reading can go on. -/
theorem ready (reading : start.Reading soft rounds tokens parts now) :
    ∃ rest, now.Ready soft rounds rest := by
  obtain ⟨_, rest, run, _⟩ := reading
  exact ⟨rest, run.readyNow⟩

/-- Tokens that a step of the cursor takes are read as parts that they write. -/
theorem write {cursor : Cursor} (reading : start.Reading soft rounds tokens parts now)
    (step : ∀ rest, now.cursor.Pending rest → ∃ more left,
      now.cursor.Moves rest more left cursor ∧
      (∀ token ∈ more, token.kind.isDirective = false) ∧ (others ≠ [] → more ≠ []) ∧
      (now.withCursor cursor).forest.Spells others [] more) :
    start.Reading soft rounds tokens (parts ++ others) (now.withCursor cursor) := by
  obtain ⟨taken, rest, run, opens, filled⟩ := reading
  obtain ⟨more, left, moves, plain, some, spells⟩ := step rest run.passes.moves.pending
  refine append run opens filled
    ⟨more, left, .of_passes run.readyNow (.of_moves moves) rfl spells, ?_, some⟩
  exact fun token member => plain token (List.mem_of_mem_head? member)

/-- A step of the cursor that takes nothing reads nothing. -/
theorem still {cursor : Cursor} (reading : start.Reading soft rounds tokens parts now)
    (step : ∀ rest, now.cursor.Pending rest → ∃ left, now.cursor.Moves rest [] left cursor) :
    start.Reading soft rounds tokens parts (now.withCursor cursor) := by
  rw [← List.append_nil parts]
  refine reading.write fun rest pending => ?_
  obtain ⟨left, moves⟩ := step rest pending
  exact ⟨[], left, moves, by simp, by simp, .nil⟩

/-- The current token is read as a part that it writes. -/
theorem advance (reading : start.Reading soft rounds tokens parts now) (part : Part)
    (notEnd : now.cursor.isAtEnd = false)
    (writes : now.cursor.current.kind.Known now.cursor.lexer.names →
      now.forest.Writes part [now.cursor.current.written now.cursor.lexer.names]) :
    Parse.Outcome (liftM Build.advance) now
      (fun token after => start.Reading soft rounds tokens (parts ++ [part]) after ∧
        token = now.cursor.current ∧ after = now.withCursor now.cursor.advance.2) failure := by
  refine .lift (outcome_onCursor.mpr ⟨reading.write fun rest pending => ?_,
    now.cursor.advance_fst, rfl⟩)
  obtain ⟨before, left, rfl, directive, plain, known⟩ := pending.ahead notEnd
  have moves := Cursor.moves_advance pending directive notEnd
  refine ⟨_, left, moves, ?_, by simp, ?_⟩
  · intro token member
    rw [List.mem_singleton.mp member, Token.isDirective_written]
    exact plain
  · exact .of_writes ((writes known).mono (Passes.of_moves moves).forest)

/-- A token of a kind is read as that token. -/
theorem advance_token (reading : start.Reading soft rounds tokens parts now)
    (notEnd : now.cursor.isAtEnd = false) {kind : TokenKind Name}
    (current : now.cursor.current.kind = kind) :
    Parse.Outcome (liftM Build.advance) now
      (fun token after => start.Reading soft rounds tokens (parts ++ [.token kind]) after ∧
        token = now.cursor.current ∧ after = now.withCursor now.cursor.advance.2) failure := by
  refine reading.advance (.token kind) notEnd fun known => ?_
  rw [current] at known
  have reads := congrArg (TokenKind.map now.forest.names.text) current
  exact .token reads known

/-- A keyword, an operator or a punctuation mark is read as that word. -/
theorem advance_word (reading : start.Reading soft rounds tokens parts now) {tag : Tag}
    (current : now.cursor.current.tag = tag) (spelled : tag.spelling?.isSome = true) :
    Parse.Outcome (liftM Build.advance) now
      (fun token after => start.Reading soft rounds tokens (parts ++ [.word tag spelled]) after ∧
        token = now.cursor.current ∧ after = now.withCursor now.cursor.advance.2) failure := by
  refine reading.advance_token (notAtEnd current ?_) (TokenKind.eq_fixed current spelled)
  rintro rfl
  contradiction

/-- A word is read if it is there; otherwise nothing happens. -/
theorem eat (reading : start.Reading soft rounds tokens parts now) (tag : Tag)
    (spelled : tag.spelling?.isSome = true) :
    Parse.Outcome (liftM (Build.eat tag)) now
      (fun eaten after =>
        (eaten = true ∧ start.Reading soft rounds tokens (parts ++ [.word tag spelled]) after) ∨
        (eaten = false ∧ after = now ∧ now.cursor.check tag = false)) failure := by
  refine .lift (outcome_onCursor.mpr ?_)
  rw [Cursor.eat]
  by_cases found : now.cursor.check tag = true
  · rw [if_pos found]
    have step : Parse.Outcome (liftM Build.advance) now _ failure :=
      reading.advance_word (beq_iff_eq.mp found) spelled
    exact .inl ⟨rfl, step.1⟩
  · rw [if_neg found]
    exact .inr ⟨rfl, rfl, Bool.not_eq_true _ ▸ found⟩

/-- Splitting a symbol reads nothing. -/
theorem splitSymbol (reading : start.Reading soft rounds tokens parts now) :
    Parse.Outcome (liftM Build.splitSymbol) now
      (fun _ after => start.Reading soft rounds tokens parts after ∧
        after = now.withCursor now.cursor.splitSymbol.2) failure := by
  refine .lift (outcome_onCursor.mpr ⟨reading.still fun rest pending => ?_, rfl⟩)
  obtain ⟨left, moves, _⟩ := Cursor.moves_splitSymbol_of_pending pending
  exact ⟨left, moves⟩

/-- Interning reads nothing. -/
theorem intern (reading : start.Reading soft rounds tokens parts now) (text : String) :
    Parse.Outcome (liftM (Build.intern text)) now
      (fun name after => start.Reading soft rounds tokens parts after ∧
        after = now.withCursor (now.cursor.intern text).2 ∧
        after.forest.names.Holds name ∧ after.forest.names.text name = text) failure := by
  obtain ⟨_, pending⟩ := reading.pending
  refine .lift (outcome_onCursor.mpr ⟨reading.still fun rest pending => ?_, rfl, ?_, ?_⟩)
  · exact ⟨rest, (Cursor.looks_intern pending text).moves⟩
  · exact NameTable.holds_intern pending.sound text
  · exact NameTable.text_intern pending.sound text

/-- A question is answered; nothing is read. -/
theorem ask {α : Type} (reading : start.Reading soft rounds tokens parts now)
    {question : Lookahead α} {property : List Char → List (Token String) → α → Prop}
    (tells : ∀ source rest, question.Tells source rest soft.spelling (property source rest)) :
    Parse.Outcome (liftM (Build.onCursor question)) now
      (fun answer after => start.Reading soft rounds tokens parts after ∧
        after.cursor.current = now.cursor.current ∧
        ∃ rest, after.Ready soft rounds rest ∧ property now.cursor.source rest answer)
      failure := by
  obtain ⟨taken, rest, run, opens, filled⟩ := reading
  obtain ⟨looks, holds⟩ := tells _ rest now.cursor rfl run.readyNow.pending run.readyNow.soft
  have passed := run.pass (.of_moves looks.moves) rfl
  exact .lift (outcome_onCursor.mpr ⟨⟨taken, rest, passed, opens, filled⟩, looks.current, rest,
    passed.readyNow, holds⟩)

/-- A word is read or the reading fails. -/
theorem expectWith (reading : start.Reading soft rounds tokens parts now) (code : ErrorCode)
    (tag : Tag) (spelled : tag.spelling?.isSome = true) (construct : Construct) :
    Parse.Outcome (Parse.expectWith code tag construct) now
      (fun token after => start.Reading soft rounds tokens (parts ++ [.word tag spelled]) after ∧
        token = now.cursor.current)
      fun _ after => start.Strays soft rounds tokens after := by
  refine Parse.outcome_check.mpr ?_
  by_cases found : now.cursor.check tag = true
  · rw [if_pos found]
    exact (reading.advance_word (beq_iff_eq.mp found) spelled).imp
      fun token after ⟨read, same, _⟩ => ⟨read, same⟩
  · rw [if_neg found]
    exact Parse.outcome_unexpected.mpr (.throw reading.strays)

/-- A word is read or the reading fails. -/
theorem expect (reading : start.Reading soft rounds tokens parts now) (tag : Tag)
    (spelled : tag.spelling?.isSome = true) (construct : Construct) :
    Parse.Outcome (Parse.expect tag construct) now
      (fun token after => start.Reading soft rounds tokens (parts ++ [.word tag spelled]) after ∧
        token = now.cursor.current)
      fun _ after => start.Strays soft rounds tokens after :=
  reading.expectWith .unexpectedToken tag spelled construct

/-- An identifier is read or the reading fails. -/
theorem expectIdentifier (reading : start.Reading soft rounds tokens parts now)
    (construct : Construct) :
    Parse.Outcome (Parse.expectIdentifier construct) now
      (fun found after =>
        start.Reading soft rounds tokens (parts ++ [.token (.identifier found.1)]) after ∧
        now.cursor.current = ⟨.identifier found.1, found.2⟩ ∧
        after = now.withCursor now.cursor.advance.2)
      fun _ after => start.Strays soft rounds tokens after := by
  refine Parse.outcome_current.mpr ?_
  split
  · next name same =>
    have notEnd : now.cursor.isAtEnd = false := notAtEnd (congrArg TokenKind.tag same)
      Tag.noConfusion
    refine .bind ((reading.advance_token notEnd same).imp fun _ after ⟨read, _, step⟩ => ?_)
    exact .pure ⟨read, by rw [← same], step⟩
  · exact Parse.outcome_unexpected.mpr (.throw reading.strays)

/-- A constant is read or the reading fails. -/
theorem expectConstant (reading : start.Reading soft rounds tokens parts now)
    (construct : Construct) :
    Parse.Outcome (Parse.expectConstant construct) now
      (fun name after =>
        start.Reading soft rounds tokens (parts ++ [.token (.constant name)]) after)
      fun _ after => start.Strays soft rounds tokens after := by
  refine Parse.outcome_current.mpr ?_
  split
  · next name same =>
    have notEnd : now.cursor.isAtEnd = false := notAtEnd (congrArg TokenKind.tag same)
      Tag.noConfusion
    exact .bind ((reading.advance_token notEnd same).imp fun _ after ⟨read, _⟩ => .pure read)
  · exact Parse.outcome_unexpected.mpr (.throw reading.strays)

/-- The `end` of a block is read or the reading fails. -/
theorem expectEnd (reading : start.Reading soft rounds tokens parts now) (opener : Tag)
    (span : Span) (construct : Construct) :
    Parse.Outcome (Parse.expectEnd opener span construct) now
      (fun _ after => start.Reading soft rounds tokens (parts ++ [.word .kwEnd]) after)
      fun _ after => start.Strays soft rounds tokens after := by
  refine Parse.outcome_check.mpr ?_
  by_cases found : now.cursor.check .kwEnd = true
  · rw [if_pos found]
    exact .bind ((reading.advance_word (beq_iff_eq.mp found) rfl).imp
      fun _ after ⟨read, _⟩ => .pure read)
  · rw [if_neg found]
    exact Parse.outcome_unexpected.mpr (.throw reading.strays)

/-- The closing bracket of a list is read or the reading fails. -/
theorem expectCloser (reading : start.Reading soft rounds tokens parts now) (code : ErrorCode)
    (closer : Tag) (spelled : closer.spelling?.isSome = true) (construct : Construct) :
    Parse.Outcome (Grammar.expectCloser code closer construct) now
      (fun _ after => start.Reading soft rounds tokens (parts ++ [.word closer spelled]) after)
      fun _ after => start.Strays soft rounds tokens after := by
  refine .bind ((reading.eat closer spelled).imp fun eaten after result => ?_)
  rcases result with ⟨rfl, read⟩ | ⟨rfl, rfl, _⟩
  · exact .pure read
  · exact Parse.outcome_unexpected.mpr (.throw reading.strays)

end Reading

/-- A step of the arena passes over nothing. -/
theorem Passes.of_grows {arena : Arena} (pending : now.cursor.Pending tokens)
    (grows : now.arena.Grows arena) : now.Passes tokens [] tokens (now.withArena arena) :=
  ⟨.refl pending, grows, List.prefix_rfl, .inl⟩

/-- A parser that passed over an ordinary token first was not at the end, and its current token
was the first ordinary one. -/
theorem Passes.current {token : Token String} (passes : start.Passes tokens taken rest now)
    (pending : start.cursor.Pending tokens) (isFirst : token ∈ taken.head?)
    (plain : token.kind.isDirective = false) :
    (Token.ordinary tokens).head? = some (start.cursor.current.written start.cursor.lexer.names) ∧
      token.span.start = start.cursor.current.span.start := by
  obtain ⟨first, found, begins⟩ := passes.moves.consumes.head_start isFirst plain
  have notEnd : start.cursor.isAtEnd = false := by
    cases atEnd : start.cursor.isAtEnd with
    | false => rfl
    | true =>
      rw [(pending.atEnd atEnd).2.2] at found
      contradiction
  obtain ⟨more, ordinary⟩ := pending.ordinary notEnd
  rw [ordinary] at found ⊢
  obtain rfl := Option.some.inj found
  exact ⟨rfl, begins.symm⟩

/-- A span from the start of the tokens that were passed over to their end is their hull. -/
theorem Passes.hull (passes : start.Passes tokens taken rest now)
    (pending : start.cursor.Pending tokens)
    (opens : ∀ token ∈ taken.head?, token.kind.isDirective = false) (some : taken ≠ [])
    {span : Span} (starts : span.start = start.cursor.current.span.start) :
    Span.Hull ⟨span.start, max now.cursor.previous.stop span.start⟩ taken := by
  have moves := passes.moves
  obtain ⟨first, others, rfl⟩ := List.exists_cons_of_ne_nil some
  obtain ⟨last, isLast⟩ : ∃ last, last ∈ (first :: others).getLast? :=
    ⟨_, List.getLast?_eq_some_getLast some⟩
  have begins := (passes.current pending rfl (opens first rfl)).2
  have line := (moves.consumes.inLine pending.line).1
  have reaches := (Token.InLine.append_iff.mp line).1.start_le_stop rfl isLast
  have previous := moves.previous
  rw [isLast] at previous
  have ends : now.cursor.previous.stop = last.span.stop := congrArg Span.stop previous
  refine ⟨first, rfl, last, isLast, ?_⟩
  rw [ends, starts, ← begins, Nat.max_eq_left reaches]

namespace Run

/-- A node takes the place of parts that were read. -/
theorem addNode (run : start.Run soft rounds tokens parts taken rest now) {kind : NodeKind}
    {span : Span} (others : List Part)
    (declares : (now.arena.add kind span).2.Declares now.cursor.lexer.names now.cursor.source
      (now.arena.add kind span).1)
    (spells : ∀ forest : Forest, now.forest.Grows forest →
      forest.arena.node? (now.arena.add kind span).1 = some ⟨kind, span⟩ →
      forest.Spells parts (start.nodesSince now) taken →
      forest.Spells others (start.nodesSince now ++ [(now.arena.add kind span).1]) taken) :
    start.Run soft rounds tokens others taken rest
      (now.withArena (now.arena.add kind span).2) := by
  have step := Passes.of_grows run.passes.moves.pending (now.arena.grows_add kind span)
  have passes := run.passes.trans step
  rw [List.append_nil] at passes
  have size := run.passes.arena.size_le
  have nodes : start.nodesSince (now.withArena (now.arena.add kind span).2) =
      start.nodesSince now ++ [(now.arena.add kind span).1] := by
    have last : (now.arena.add kind span).1 = ⟨now.arena.size⟩ := rfl
    rw [nodesSince, nodesSince, withArena, Arena.size_add, last,
      show now.arena.size + 1 - start.arena.size =
        now.arena.size - start.arena.size + 1 by omega, Arena.idsFrom_succ]
    congr 3
    omega
  refine ⟨run.ready, passes, ?_, ?_⟩ <;> rw [nodes]
  · exact spells _ step.forest (now.arena.node?_add kind span) (run.spells.mono step.forest)
  · refine List.forall_mem_append.mpr ⟨fun id member => ?_, List.forall_mem_singleton.mpr declares⟩
    exact step.declares (run.declares id member) (lt_of_mem_nodesSince run.passes member)

/-- What begins at an ordinary token is no uses directive. -/
theorem ne_usesDirective {kind : NodeKind}
    (run : start.Run soft rounds tokens kind.production taken rest now)
    (opens : ∀ token ∈ taken.head?, token.kind.isDirective = false) (range : NameRange) :
    kind ≠ .usesDirective range := by
  rintro rfl
  obtain ⟨_, _, _, _, -, rfl, first, -⟩ := (show now.forest.Spells
    ([.token .usesDirective] ++ [.comment range]) _ taken from run.spells).split
  obtain ⟨token, -, rfl, written⟩ := first.token_inv
  cases written with
  | token reads =>
    have plain := opens token rfl
    rw [reads] at plain
    contradiction

/-- A part takes the place of the parts that it stands for. -/
theorem gather {arena : Arena} {items later : List Part}
    (run : start.Run soft rounds tokens (parts ++ items ++ later) taken rest now) (part : Part)
    (grows : now.arena.Grows arena) (size : arena.size = now.arena.size)
    (stands : part.expand? arena = some items) (inside : part.Inside arena) :
    start.Run soft rounds tokens (parts ++ [part] ++ later) taken rest (now.withArena arena) := by
  have step := Passes.of_grows run.passes.moves.pending grows
  have passes := run.passes.trans step
  rw [List.append_nil] at passes
  have nodes : start.nodesSince (now.withArena arena) = start.nodesSince now := by
    rw [nodesSince, withArena, size, nodesSince]
  refine ⟨run.ready, passes, ?_, ?_⟩ <;> rw [nodes]
  · obtain ⟨_, _, _, _, same, whole, first, last⟩ := (run.spells.mono step.forest).split
    obtain ⟨_, _, _, _, rfl, rfl, before, middle⟩ := first.split
    rw [same, whole]
    refine (before.append (.expand stands inside ?_)).append last
    simpa using middle
  · exact fun id member => step.declares (run.declares id member)
      (lt_of_mem_nodesSince run.passes member)

/-- A node that covers everything that was read takes the place of its production. -/
theorem close {kind : NodeKind} (run : start.Run soft rounds tokens parts taken rest now)
    (opens : ∀ token ∈ taken.head?, token.kind.isDirective = false) (filled : taken ≠ [])
    (whole : kind.production = parts) {category : Category}
    (admitted : category.admits kind = true) {span : Span}
    (starts : span.start = start.cursor.current.span.start) :
    Parse.Outcome (liftM (Build.close kind span)) now
      (fun id after => start.Run soft rounds tokens [.node category id] taken rest after)
      failure := by
  subst whole
  have hull := run.passes.hull run.ready.pending opens filled starts
  exact .lift (run.addNode _ (Arena.declares_add _ _ _ (run.ne_usesDirective opens) _)
    fun forest _ found spells => .of_node found admitted hull spells)

/-- What was read can be seen as other parts, with the same tokens and the same nodes. -/
theorem recast (run : start.Run soft rounds tokens parts taken rest now) (others : List Part)
    (same : ∀ nodes, now.forest.Spells parts nodes taken →
      now.forest.Spells others nodes taken) :
    start.Run soft rounds tokens others taken rest now :=
  ⟨run.ready, run.passes, same _ run.spells, run.declares⟩

/-- A node that was read begins where the reading began. -/
theorem span_start {category : Category} {id : NodeId}
    (run : start.Run soft rounds tokens [.node category id] taken rest now)
    (opens : ∀ token ∈ taken.head?, token.kind.isDirective = false) :
    (now.arena.span id).start = start.cursor.current.span.start := by
  obtain ⟨kind, span, _, _, found, _, ⟨token, isFirst, _, _, hull⟩, _⟩ := run.spells.node_inv
  have same : now.arena.span id = span := Arena.span_of_node? found
  rw [same, hull]
  exact (run.passes.current run.ready.pending isFirst (opens token isFirst)).2

end Run

namespace Reading

/-- A node that covers everything that was read takes the place of its production. -/
theorem close {kind : NodeKind} (reading : start.Reading soft rounds tokens parts now)
    (whole : kind.production = parts) (nonempty : parts ≠ []) {category : Category}
    (admitted : category.admits kind = true) {span : Span}
    (starts : span.start = start.cursor.current.span.start) :
    Parse.Outcome (liftM (Build.close kind span)) now
      (fun id after => start.Reading soft rounds tokens [.node category id] after) failure := by
  obtain ⟨taken, rest, run, opens, filled⟩ := reading
  have some := filled nonempty
  exact (run.close opens some whole admitted starts).imp fun _ after closed =>
    ⟨taken, rest, closed, opens, fun _ => some⟩

/-- A part takes the place of the parts that it stands for, before others that were read since. -/
theorem gather {arena : Arena} {items later : List Part}
    (reading : start.Reading soft rounds tokens (parts ++ items ++ later) now)
    (nonempty : parts ++ items ++ later ≠ []) (grows : now.arena.Grows arena)
    (size : arena.size = now.arena.size) (stands : part.expand? arena = some items)
    (inside : part.Inside arena) :
    start.Reading soft rounds tokens (parts ++ [part] ++ later) (now.withArena arena) := by
  obtain ⟨taken, rest, run, opens, filled⟩ := reading
  exact ⟨taken, rest, run.gather part grows size stands inside, opens, fun _ => filled nonempty⟩

/-- A list takes the place of its items, before others that were read since. -/
theorem addListBefore {items later : List Part} {ids : Array NodeId}
    (reading : start.Reading soft rounds tokens (parts ++ items ++ later) now)
    (part : NodeRange → Part) (nonempty : parts ++ items ++ later ≠ [])
    (stands : ∀ (arena : Arena) (range : NodeRange), arena.list range = ids.toList →
      (part range).expand? arena = some items)
    (inside : ∀ (arena : Arena) (range : NodeRange), arena.Contains range →
      (part range).Inside arena) :
    Parse.Outcome (liftM (Build.addList ids)) now
      (fun range after => start.Reading soft rounds tokens (parts ++ [part range] ++ later) after)
      failure :=
  .lift (reading.gather nonempty (now.arena.grows_addList ids.toList)
    (now.arena.size_addList ids.toList) (stands _ _ (now.arena.list_addList ids.toList))
    (inside _ _ (now.arena.contains_addList ids.toList)))

/-- A list takes the place of its items. -/
theorem addList {items : List Part} {ids : Array NodeId}
    (reading : start.Reading soft rounds tokens (parts ++ items) now)
    (part : NodeRange → Part) (nonempty : parts ++ items ≠ [])
    (stands : ∀ (arena : Arena) (range : NodeRange), arena.list range = ids.toList →
      (part range).expand? arena = some items)
    (inside : ∀ (arena : Arena) (range : NodeRange), arena.Contains range →
      (part range).Inside arena) :
    Parse.Outcome (liftM (Build.addList ids)) now
      (fun range after => start.Reading soft rounds tokens (parts ++ [part range]) after)
      failure := by
  rw [← List.append_nil (parts ++ items)] at reading nonempty
  refine (reading.addListBefore part nonempty stands inside).imp fun range after read => ?_
  rwa [List.append_nil] at read

/-- A list of names takes the place of its items, before others that were read since. -/
theorem addNamesBefore {items later : List Part} {names : Array Name}
    (reading : start.Reading soft rounds tokens (parts ++ items ++ later) now)
    (part : NameRange → Part) (nonempty : parts ++ items ++ later ≠ [])
    (stands : ∀ (arena : Arena) (range : NameRange), arena.nameList range = names.toList →
      (part range).expand? arena = some items)
    (inside : ∀ (arena : Arena) (range : NameRange), arena.ContainsNames range →
      (part range).Inside arena) :
    Parse.Outcome (liftM (Build.addNames names)) now
      (fun range after =>
        start.Reading soft rounds tokens (parts ++ [part range] ++ later) after ∧
        range.size = names.toList.length)
      failure :=
  .lift ⟨reading.gather nonempty (now.arena.grows_addNames names.toList)
    (now.arena.size_addNames names.toList) (stands _ _ (now.arena.nameList_addNames names.toList))
    (inside _ _ (now.arena.containsNames_addNames names.toList)),
    now.arena.size_fst_addNames names.toList⟩

/-- A list of names takes the place of its items. -/
theorem addNames {items : List Part} {names : Array Name}
    (reading : start.Reading soft rounds tokens (parts ++ items) now)
    (part : NameRange → Part) (nonempty : parts ++ items ≠ [])
    (stands : ∀ (arena : Arena) (range : NameRange), arena.nameList range = names.toList →
      (part range).expand? arena = some items)
    (inside : ∀ (arena : Arena) (range : NameRange), arena.ContainsNames range →
      (part range).Inside arena) :
    Parse.Outcome (liftM (Build.addNames names)) now
      (fun range after =>
        start.Reading soft rounds tokens (parts ++ [part range]) after ∧
        range.size = names.toList.length)
      failure := by
  rw [← List.append_nil (parts ++ items)] at reading nonempty
  refine (reading.addNamesBefore part nonempty stands inside).imp
    fun range after ⟨read, size⟩ => ⟨?_, size⟩
  rwa [List.append_nil] at read

end Reading

/-- Reporting an error passes over nothing, and there is an error afterwards. -/
theorem Passes.report (grammar : Grammar) (error : ParseError)
    (ready : now.Ready soft rounds tokens) :
    Build.Outcome (grammar.report error) now fun _ after =>
      now.Passes tokens [] tokens after ∧ after.errors ≠ #[] ∧ after.cursor = now.cursor ∧
        after.arena = now.arena := by
  have same : (grammar.report error now).2 = if now.isHalted = true then now else
      { now with
        errors := now.errors.push error
        isHalted := grammar.options.recovery == .failFast || error.code == .nestingTooDeep } := rfl
  rw [Build.Outcome, same]
  by_cases halted : now.isHalted = true
  · rw [if_pos halted]
    exact ⟨.refl ready.pending, ready.halted halted, rfl, rfl⟩
  · rw [if_neg halted]
    exact ⟨⟨.refl ready.pending, .refl _, by simp, fun _ => .inr (by simp)⟩, by simp, rfl, rfl⟩

namespace Reading

/-- An error is reported; nothing is read. -/
theorem report (reading : start.Reading soft rounds tokens parts now) (grammar : Grammar)
    (error : ParseError) :
    Build.Outcome (grammar.report error) now
      fun _ after => start.Reading soft rounds tokens parts after := by
  obtain ⟨taken, rest, run, opens, filled⟩ := reading
  refine (Passes.report grammar error run.readyNow).mono
    fun _ after ⟨passes, _, _, arena⟩ => ?_
  exact ⟨taken, rest, run.pass passes (congrArg Arena.size arena), opens, filled⟩

/-- A node of a single token is no uses directive. -/
theorem ne_usesDirective {kind : NodeKind} {word : TokenKind Name}
    (single : kind.production = [.token word]) (range : NameRange) :
    kind ≠ .usesDirective range := by
  rintro rfl
  exact absurd (List.cons.inj single).2 (List.cons_ne_nil _ _)

/-- A node of a single token takes the place of that token. -/
theorem leaf {kind : NodeKind} {word : TokenKind Name}
    (reading : start.Reading soft rounds tokens (parts ++ [.token word]) now)
    (single : kind.production = [.token word]) {category : Category}
    (admitted : category.admits kind = true) {span : Span} (spans : span = now.cursor.previous) :
    Parse.Outcome (liftM (Build.addNode kind span)) now
      (fun id after => start.Reading soft rounds tokens (parts ++ [.node category id]) after)
      failure := by
  obtain ⟨taken, rest, run, opens, filled⟩ := reading
  have some : taken ≠ [] := filled (by simp)
  have added := run.addNode (parts ++ [.node category (now.arena.add kind span).1])
    (Arena.declares_add _ _ _ (ne_usesDirective single) _) fun forest _ found spells => by
      obtain ⟨_, _, others, last, same, whole, first, second⟩ := spells.split
      obtain ⟨token, rfl, rfl, written⟩ := second.token_inv
      rw [List.append_nil] at same
      have previous := run.passes.moves.previous
      rw [whole, List.getLast?_append, List.getLast?_singleton] at previous
      have hull : span.Hull [token] := by
        refine ⟨token, rfl, token, rfl, ?_⟩
        rw [spans, previous]
        rfl
      have inner : forest.Spells kind.production [] [token] := by
        rw [single]
        exact .of_writes written
      rw [same, whole]
      exact first.append (.of_node found admitted hull inner)
  exact .lift ⟨taken, rest, added, opens, fun _ => some⟩

/-- A node of the current token takes its place before a word that was read since. -/
theorem leafBefore {kind : NodeKind} {word : TokenKind Name} {tag : Tag}
    {spelled : tag.spelling?.isSome = true}
    (reading : start.Reading soft rounds tokens [.token word, .word tag spelled] now)
    (single : kind.production = [.token word]) {category : Category}
    (admitted : category.admits kind = true)
    (notSymbol : start.cursor.current.tag ≠ .symbol) :
    Parse.Outcome (liftM (Build.addNode kind start.cursor.current.span)) now
      (fun id after => start.Reading soft rounds tokens
        [.node category id, .word tag spelled] after) failure := by
  obtain ⟨taken, rest, run, opens, filled⟩ := reading
  have some : taken ≠ [] := filled (by simp)
  have pending := run.ready.pending
  have added := run.addNode [.node category (now.arena.add kind start.cursor.current.span).1,
    .word tag spelled] (Arena.declares_add _ _ _ (ne_usesDirective single) _)
    fun forest _ found spells => by
      obtain ⟨_, _, _, _, same, rfl, first, second⟩ :=
        (show forest.Spells ([.token word] ++ [.word tag spelled]) _ _ from spells).split
      obtain ⟨token, rfl, rfl, written⟩ := first.token_inv
      obtain ⟨other, rfl, rfl, later⟩ := second.token_inv
      have ordinary := (run.passes.current pending rfl (opens token rfl)).1
      have current := run.passes.moves.consumes.head_eq rfl (opens token rfl) ordinary
        (by rwa [Token.tag_written])
      have hull : start.cursor.current.span.Hull [token] := by
        refine ⟨token, rfl, token, rfl, ?_⟩
        rw [current]
        rfl
      have inner : forest.Spells kind.production [] [token] := by
        rw [single]
        exact .of_writes written
      rw [same]
      exact (Forest.Spells.of_node found admitted hull inner).append (.of_writes later)
  exact .lift ⟨taken, rest, added, opens, fun _ => some⟩

end Reading

end Parser

end Vibescript
