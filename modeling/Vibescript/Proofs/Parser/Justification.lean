import Vibescript.Proofs.Parser.Maintained
import Vibescript.Proofs.Tree.Brackets
import Vibescript.Proofs.Tree.Spans

/-!
# What errors rest on

An error of the parser lists the tokens that would have been accepted and the one that was found,
and an unclosed block names the keyword that opened it. `ParseError.Justified` says that neither is
made up: what was found was not acceptable, and the keyword is among the tokens that were taken.
`Grammar.Justifies` says of a reading that the errors which it reports, and the one with which it
fails, are justified. There is one rule for each way in which readings are put together; the rules
carry along what is known of the current token and which tokens were taken before.
-/
namespace Vibescript

open Cursor

namespace Token

/-- A token of a source text, or one of the halves of a symbol. -/
def Stems (source : List Char) (token : Token String) : Prop :=
  token ∈ Piece.tokens (Piece.list source) ∨
    ∃ name span, ⟨.symbol name, span⟩ ∈ Piece.tokens (Piece.list source) ∧
      (token = colonOf span ∨ token = wordOf name span)

/-- The halves of a symbol stem from the text when the symbol does. -/
theorem Stems.halves {source : List Char} {name : String} {span : Span}
    (stems : Stems source ⟨.symbol name, span⟩) :
    (colonOf span).Stems source ∧ (wordOf name span).Stems source := by
  rcases stems with member | ⟨other, whole, _, same | same⟩
  · exact ⟨.inr ⟨name, span, member, .inl rfl⟩, .inr ⟨name, span, member, .inr rfl⟩⟩
  · simp [colonOf] at same
  · exact (Consumes.tag_wordOf_ne other whole (congrArg Token.tag same).symm).elim

end Token

/-- Where no parameter starts, no token stands that starts one. -/
theorem Lookahead.contains_of_parameter? {cursor : Cursor}
    (answers : (Lookahead.parameter? cursor).1 = none) :
    TagSet.parameterStart.contains cursor.current.tag = false := by
  have first : (Lookahead.tag 0 cursor).1 = cursor.current.tag := rfl
  rw [Lookahead.parameter?, Lookahead.run_bind, first] at answers
  rw [TagSet.parameterStart, TagSet.contains_ofList, decide_eq_false_iff_not]
  intro member
  simp only [List.mem_cons, List.not_mem_nil, or_false] at member
  rcases member with same | same <;> rw [same] at answers
  · simp only [Lookahead.run_bind] at answers
    cases second : (Lookahead.tag 1 (Lookahead.tag 0 cursor).2).1 <;> rw [second] at answers <;>
      contradiction
  · contradiction

/-- An error rests on what was read: on the token that was found, and, for an unclosed block, on an
opener among some tokens. -/
structure ParseError.Justified (source : List Char) (tokens : List (Token String))
    (error : ParseError) : Prop where
  /-- What was found was not acceptable, but for an identifier where a class member should start:
  of the identifiers only the words of accessor declarations are acceptable there. -/
  found : ∀ tag ∈ error.found, error.expected.contains tag = true →
    error.code = .invalidMember ∧ tag = .identifier ∧
      ∃ name, Token.Stems source ⟨.identifier name, error.span⟩ ∧
        ∀ kind : AccessorKind, name ≠ kind.keyword
  /-- A block that was not closed was opened. -/
  opener : error.code = .unclosedBlock → ∃ token ∈ tokens, token.tag.opensBlock = true ∧
    token.span.stop ≤ error.span.start ∧ error.fault = .unclosed token.tag ∧
      error.related = some ⟨token.span, s!"{token.tag.description} opened here"⟩

namespace ParseError.Justified

variable {source : List Char} {tokens others : List (Token String)} {error : ParseError}

/-- More tokens justify as much. -/
theorem mono (justified : error.Justified source tokens) (more : tokens ⊆ others) :
    error.Justified source others := by
  refine ⟨justified.found, fun unclosed => ?_⟩
  obtain ⟨token, member, rest⟩ := justified.opener unclosed
  exact ⟨token, more member, rest⟩

/-- An error about a token that was not acceptable needs no opener, unless it says that a block is
left open. -/
theorem of_fresh (fresh : ∀ tag ∈ error.found, error.expected.contains tag = false)
    (closed : error.code ≠ .unclosedBlock) : error.Justified source tokens := by
  refine ⟨fun tag isFound contains => ?_, fun unclosed => absurd unclosed closed⟩
  rw [fresh tag isFound] at contains
  contradiction

end ParseError.Justified

/-- The error of finding a token that was not acceptable is justified, however it is worded. -/
theorem ParseError.Justified.of_dressed {source : List Char} {tokens : List (Token String)}
    {code : ErrorCode} {expected : TagSet} {tag : Tag} {span : Span}
    {dress : ParseError → ParseError}
    (keeps : ∀ error, (dress error).code = error.code ∧ (dress error).expected = error.expected ∧
      (dress error).found = error.found)
    (closed : code ≠ .unclosedBlock) (fresh : expected.contains tag = false) :
    (dress (.unexpected code expected tag span)).Justified source tokens := by
  obtain ⟨sameCode, sameExpected, sameFound⟩ := keeps (.unexpected code expected tag span)
  refine .of_fresh (fun other isFound => ?_) (sameCode ▸ closed)
  rw [sameFound] at isFound
  obtain rfl := Option.mem_some.mp isFound
  rw [sameExpected]
  exact fresh

/-- An error node lies over a span. -/
def Arena.Excuses (arena : Arena) (span : Span) : Prop :=
  ∃ id node, arena.node? id = some node ∧ node.kind = .error ∧ span.Inside node.span

/-- What an error node lies over stays below it while the arena grows. -/
theorem Arena.Excuses.mono {before after : Arena} {span : Span} (excuses : before.Excuses span)
    (grows : before.Grows after) : after.Excuses span := by
  obtain ⟨id, node, found, isError, inside⟩ := excuses
  exact ⟨id, node, grows.node? found, isError, inside⟩

namespace Parser

/-- A parser passes over tokens, and the errors that it reports rest on them. What is said to be
left open lies below an error node. -/
structure Proceeds (before : Parser) (tokens taken rest : List (Token String)) (after : Parser) :
    Prop where
  /-- The tokens are passed over. -/
  passes : before.Passes tokens taken rest after
  /-- The new errors are justified. -/
  errors : ∀ error ∈ after.errors.toList, error ∈ before.errors.toList ∨
    error.Justified before.cursor.source taken ∧
      (error.code = .unclosedBlock → ∀ place ∈ error.related, after.arena.Excuses place.span)

/-- A parser can read on in tokens of its source text, after some others. -/
structure Prepared (soft : SoftNames) (rounds : Nat) (context : List (Token String))
    (parser : Parser) (tokens : List (Token String)) : Prop where
  /-- It can read on. -/
  ready : parser.Ready soft rounds tokens
  /-- The tokens are those of the text. -/
  stems : ∀ token ∈ tokens, token.Stems parser.cursor.source
  /-- The others end before the current token. -/
  passed : ∀ token ∈ context, token.span.stop ≤ parser.cursor.current.span.start

variable {soft : SoftNames} {rounds : Nat} {context others : List (Token String)}
  {first second third start now : Parser} {tokens taken middle more rest : List (Token String)}

/-- A report adds its error at most. -/
theorem mem_errors_reported {recovery : RecoveryMode} {error other : ParseError}
    (member : other ∈ (now.reported recovery error).errors.toList) :
    other ∈ now.errors.toList ∨ other = error := by
  unfold reported at member
  split at member
  · exact .inl member
  · simpa using member

/-- Nothing is passed over. -/
theorem Proceeds.refl (pending : now.cursor.Pending tokens) : now.Proceeds tokens [] tokens now :=
  ⟨.refl pending, fun _ member => .inl member⟩

/-- A step of the cursor passes over tokens. -/
theorem Proceeds.of_moves {cursor : Cursor} (moves : now.cursor.Moves tokens taken rest cursor) :
    now.Proceeds tokens taken rest (now.withCursor cursor) :=
  ⟨.of_moves moves, fun _ member => .inl member⟩

/-- Tokens are passed over twice. -/
theorem Proceeds.trans (left : first.Proceeds tokens taken middle second)
    (right : second.Proceeds middle more rest third) :
    first.Proceeds tokens (taken ++ more) rest third := by
  refine ⟨left.passes.trans right.passes, fun error member => ?_⟩
  rcases right.errors error member with early | ⟨justified, excused⟩
  · refine (left.errors error early).imp_right fun ⟨justified, excused⟩ => ?_
    exact ⟨justified.mono (List.subset_append_left _ _), fun unclosed place isPlace =>
      (excused unclosed place isPlace).mono right.passes.arena⟩
  · rw [left.passes.moves.source] at justified
    exact .inr ⟨justified.mono (List.subset_append_right _ _), excused⟩

/-- A step that moves the cursor onward and reports nothing passes over tokens. -/
theorem Proceeds.of_quiet (quiet : now.Quiet second) (grows : now.arena.Grows second.arena)
    (pending : now.cursor.Pending tokens) : ∃ taken rest, now.Proceeds tokens taken rest second := by
  obtain ⟨taken, rest, moves⟩ := quiet.onward tokens pending
  refine ⟨taken, rest, ⟨moves, grows, ?_, fun halted => .inl (quiet.halted ▸ halted)⟩, ?_⟩
  · exact quiet.errors ▸ List.prefix_rfl
  · exact fun _ member => .inl (quiet.errors ▸ member)

/-- The tokens that were taken end before the current one. -/
theorem Prepared.proceeds (prepared : start.Prepared soft rounds context tokens)
    (proceeds : start.Proceeds tokens taken rest now) :
    now.Prepared soft rounds (context ++ taken) rest := by
  have moves := proceeds.passes.moves
  refine ⟨proceeds.passes.ready prepared.ready, ?_, fun token member => ?_⟩
  · rw [moves.source]
    exact moves.consumes.forall_left (Token.Stems _) (fun _ _ => Token.Stems.halves) prepared.stems
  · rcases List.mem_append.mp member with early | late
    · exact Nat.le_trans (prepared.passed token early) (moves.start_le prepared.ready.pending)
    · exact moves.stop_le prepared.ready.pending token late

/-- Fewer tokens are known to have been taken. -/
theorem Prepared.mono (prepared : start.Prepared soft rounds context tokens) (fewer : others ⊆ context) :
    start.Prepared soft rounds others tokens :=
  ⟨prepared.ready, prepared.stems, fun token member => prepared.passed token (fewer member)⟩

/-- An error is reported that is justified and leaves no block open. -/
theorem Proceeds.report {error : ParseError} (ready : now.Ready soft rounds tokens)
    (grammar : Grammar) (justified : error.Justified now.cursor.source [])
    (closed : error.code ≠ .unclosedBlock) :
    Build.Outcome (grammar.report error) now fun _ after =>
      now.Proceeds tokens [] tokens after ∧ after.cursor = now.cursor := by
  have step : (grammar.report error now).2 = now.reported grammar.options.recovery error := rfl
  obtain ⟨passes, _, cursor, _⟩ := Passes.report grammar error ready
  refine ⟨⟨passes, fun other member => ?_⟩, cursor⟩
  rw [step] at member
  refine (mem_errors_reported member).imp_right ?_
  rintro rfl
  exact ⟨justified, fun unclosed => absurd unclosed closed⟩

end Parser

/-- From a parser, a reading reports justified errors only, and fails with such. Its error may rest
on tokens that were taken before as well. -/
def Parse.Accounts {α : Type} (reading : Parse α) (start : Parser)
    (tokens context : List (Token String)) (after : α → Token Name → Prop) : Prop :=
  reading.Outcome start
    (fun answer now => ∃ taken rest, start.Proceeds tokens taken rest now ∧
      after answer now.cursor.current)
    fun error now => ∃ taken rest, start.Proceeds tokens taken rest now ∧
      error.Justified start.cursor.source (context ++ taken)

/-- What is read later is accounted for from before. -/
theorem Parser.Proceeds.andThen {α : Type} {reading : Parse α} {start now : Parser}
    {tokens taken rest context others : List (Token String)} {after : α → Token Name → Prop}
    (proceeds : start.Proceeds tokens taken rest now) (known : others ⊆ context ++ taken)
    (accounts : reading.Accounts now rest others after) :
    reading.Outcome now
      (fun answer final => ∃ taken rest, start.Proceeds tokens taken rest final ∧
        after answer final.cursor.current)
      fun error final => ∃ taken rest, start.Proceeds tokens taken rest final ∧
        error.Justified start.cursor.source (context ++ taken) := by
  refine Parse.Outcome.mono accounts ?_ ?_
  · rintro answer final ⟨more, left, further, ends⟩
    exact ⟨taken ++ more, left, proceeds.trans further, ends⟩
  · rintro error final ⟨more, left, further, justified⟩
    rw [proceeds.passes.moves.source] at justified
    refine ⟨taken ++ more, left, proceeds.trans further, justified.mono ?_⟩
    rw [← List.append_assoc]
    exact List.append_subset.mpr
      ⟨List.subset_append_of_subset_left more known, List.subset_append_right _ _⟩

namespace Grammar

open Build Parse

/-- Wherever it can begin after some tokens and at a current token with a property, a reading reports
justified errors only, and fails with such. -/
def Justifies {α : Type} (grammar : Grammar) (context : List (Token String))
    (before : Token Name → Prop) (after : α → Token Name → Prop) (reading : Parse α) : Prop :=
  ∀ (start : Parser) (tokens : List (Token String)),
    start.Prepared grammar.soft grammar.rounds context tokens → before start.cursor.current →
      reading.Accounts start tokens context after

/-- The same wherever it begins and ends. -/
abbrev JustifiesAny {α : Type} (grammar : Grammar) (context : List (Token String))
    (reading : Parse α) : Prop :=
  grammar.Justifies context (fun _ => True) (fun _ _ => True) reading

/-- What a round of a loop leads to: the next round, or the end of the loop. -/
def Rolls {α : Type} (holds after : α → Token Name → Prop) : ForInStep α → Token Name → Prop
  | .yield state => holds state
  | .done state => after state

namespace Justifies

variable {α β : Type} {grammar : Grammar} {context others : List (Token String)}
  {before stronger : Token Name → Prop} {after weaker : α → Token Name → Prop}
  {last : β → Token Name → Prop}

/-- Less is known. -/
theorem imp {reading : Parse α} (reads : grammar.Justifies context stronger after reading)
    (enough : ∀ token, before token → stronger token)
    (weakens : ∀ answer token, after answer token → weaker answer token) :
    grammar.Justifies context before weaker reading := by
  intro start tokens prepared holds
  refine Parse.Outcome.imp (reads start tokens prepared (enough _ holds)) ?_
  rintro answer now ⟨taken, rest, proceeds, ends⟩
  exact ⟨taken, rest, proceeds, weakens _ _ ends⟩

/-- Nothing need be known before, and nothing is known afterwards. -/
theorem anywhere {reading : Parse α} (reads : grammar.JustifiesAny context reading) :
    grammar.Justifies context before (fun _ _ => True) reading :=
  reads.imp (fun _ _ => trivial) fun _ _ _ => trivial

/-- What holds after fewer tokens holds after more. -/
theorem within {reading : Parse α} (reads : grammar.Justifies others before after reading)
    (fewer : others ⊆ context) : grammar.Justifies context before after reading := by
  intro start tokens prepared holds
  refine (Parser.Proceeds.refl prepared.ready.pending).andThen ?_
    (reads start tokens (prepared.mono fewer) holds)
  exact List.subset_append_of_subset_left [] fewer

/-- An answer. -/
theorem pure (answer : α) (holds : ∀ token, before token → after answer token) :
    grammar.Justifies context before after (Pure.pure answer) :=
  fun _ tokens prepared known =>
    .pure ⟨[], tokens, .refl prepared.ready.pending, holds _ known⟩

/-- An answer of which nothing need be known. -/
theorem answer (answer : α) :
    grammar.Justifies context before (fun _ _ => True) (Pure.pure answer) :=
  .pure answer fun _ _ => trivial

/-- One reading after another. -/
theorem bind {reading : Parse α} {next : α → Parse β}
    (first : grammar.Justifies context before after reading)
    (second : ∀ answer, grammar.Justifies context (after answer) last (next answer)) :
    grammar.Justifies context before last (reading >>= next) := by
  intro start tokens prepared holds
  refine .bind ((first start tokens prepared holds).imp ?_)
  rintro answer now ⟨taken, rest, proceeds, known⟩
  have later := (prepared.proceeds proceeds).mono (List.subset_append_left context taken)
  exact proceeds.andThen (List.subset_append_left _ _) (second answer now rest later known)

/-- The answer is changed. -/
theorem map {reading : Parse α} {change : α → β}
    (reads : grammar.Justifies context before (fun _ _ => True) reading) :
    grammar.Justifies context before (fun _ _ => True) (change <$> reading) := by
  rw [map_eq_pure_bind]
  exact .bind reads fun _ => .answer _

/-- A quiet step. -/
theorem step {step : Build α} (quiet : ∀ parser : Parser, parser.Quiet (step parser).2)
    (grows : ∀ parser : Parser, parser.arena.Grows (step parser).2.arena)
    (holds : ∀ (parser : Parser) (tokens : List (Token String)), parser.cursor.Pending tokens →
      before parser.cursor.current → after (step parser).1 (step parser).2.cursor.current) :
    grammar.Justifies context before after (liftM step) := by
  intro start tokens prepared known
  obtain ⟨taken, rest, proceeds⟩ :=
    Parser.Proceeds.of_quiet (quiet start) (grows start) prepared.ready.pending
  exact .lift ⟨taken, rest, proceeds, holds start tokens prepared.ready.pending known⟩

/-- A step of the cursor. -/
theorem moves {step : Cursor → α × Cursor} (onward : ∀ cursor : Cursor, cursor.Onward (step cursor).2)
    (holds : ∀ (cursor : Cursor) (tokens : List (Token String)), cursor.Pending tokens →
      before cursor.current → after (step cursor).1 (step cursor).2.current) :
    grammar.Justifies context before after (liftM (onCursor step)) :=
  .step (isQuiet_onCursor onward) (fun _ => .refl _) fun parser => holds parser.cursor

/-- A step of the cursor of which nothing need be known. -/
theorem quiet {step : Cursor → α × Cursor} (onward : ∀ cursor : Cursor, cursor.Onward (step cursor).2) :
    grammar.Justifies context before (fun _ _ => True) (liftM (onCursor step)) :=
  .moves onward fun _ _ _ _ => trivial

/-- A step that leaves the cursor alone and builds at most. -/
theorem still {step : Build α} (still : ∀ parser : Parser, (step parser).2.cursor = parser.cursor ∧
      (step parser).2.errors = parser.errors ∧ (step parser).2.isHalted = parser.isHalted)
    (grows : ∀ parser : Parser, parser.arena.Grows (step parser).2.arena)
    (holds : ∀ parser : Parser, before parser.cursor.current →
      after (step parser).1 parser.cursor.current) :
    grammar.Justifies context before after (liftM step) := by
  refine .step (isQuiet_still still) grows fun parser tokens _ known => ?_
  rw [(still parser).1]
  exact holds parser known

/-- A question about the parser. -/
theorem question {step : Build α} (same : ∀ parser : Parser, (step parser).2 = parser)
    (holds : ∀ parser : Parser, before parser.cursor.current →
      after (step parser).1 parser.cursor.current) :
    grammar.Justifies context before after (liftM step) :=
  .still (fun parser => by rw [same]; exact ⟨rfl, rfl, rfl⟩)
    (fun parser => by rw [same]; exact .refl _) holds

/-- Adding a node. -/
theorem addNode (kind : NodeKind) (span : Span) :
    grammar.Justifies context before (fun _ _ => True) (liftM (Build.addNode kind span)) :=
  .still (fun _ => ⟨rfl, rfl, rfl⟩) (fun parser => parser.arena.grows_add kind span) fun _ _ => trivial

/-- Adding a list of children. -/
theorem addList (ids : Array NodeId) :
    grammar.Justifies context before (fun _ _ => True) (liftM (Build.addList ids)) :=
  .still (fun _ => ⟨rfl, rfl, rfl⟩) (fun parser => parser.arena.grows_addList ids.toList)
    fun _ _ => trivial

/-- Adding a list of names. -/
theorem addNames (names : Array Name) :
    grammar.Justifies context before (fun _ _ => True) (liftM (Build.addNames names)) :=
  .still (fun _ => ⟨rfl, rfl, rfl⟩) (fun parser => parser.arena.grows_addNames names.toList)
    fun _ _ => trivial

/-- Closing a node. -/
theorem close (kind : NodeKind) (start : Span) :
    grammar.Justifies context before (fun _ _ => True) (liftM (Build.close kind start)) :=
  .still (fun _ => ⟨rfl, rfl, rfl⟩) (fun parser => parser.arena.grows_add kind _) fun _ _ => trivial

/-- Asking for the span of a node. -/
theorem nodeSpan (id : NodeId) :
    grammar.Justifies context before (fun _ => before) (liftM (Build.nodeSpan id)) :=
  .question (fun _ => rfl) fun _ known => known

/-- Asking for the cursor. -/
theorem cursor :
    grammar.Justifies context before (fun cursor token => before token ∧ token = cursor.current)
      (liftM Build.cursor) :=
  .question (fun _ => rfl) fun _ known => ⟨known, rfl⟩

/-- Asking for the current token. -/
theorem current :
    grammar.Justifies context before (fun answer token => before token ∧ token = answer)
      (liftM Build.current) :=
  .question (fun _ => rfl) fun _ known => ⟨known, rfl⟩

/-- Asking for the tag of the current token. -/
theorem currentTag :
    grammar.Justifies context before (fun tag token => before token ∧ token.tag = tag)
      (liftM Build.currentTag) :=
  .question (fun _ => rfl) fun _ known => ⟨known, rfl⟩

/-- Asking whether the current token has a tag. -/
theorem check (tag : Tag) :
    grammar.Justifies context before (fun found token => before token ∧ (token.tag == tag) = found)
      (liftM (Build.check tag)) :=
  .question (fun _ => rfl) fun _ known => ⟨known, rfl⟩

/-- Asking a question about the tokens ahead. -/
theorem ask {question : Lookahead α} (asks : question.Peeks) :
    grammar.Justifies context before (fun _ => before) (liftM (onCursor question)) := by
  refine .moves asks.onward fun cursor tokens pending known => ?_
  rwa [(asks cursor tokens pending).current]

/-- Asking for the parameter that starts at the current token. -/
theorem askParameter? :
    grammar.Justifies context before
      (fun found token => before token ∧ (∀ shape ∈ found, token.tag = shape.firstTag) ∧
        (found = none → TagSet.parameterStart.contains token.tag = false))
      (liftM Build.askParameter?) := by
  refine .moves Lookahead.Peeks.parameter?.onward fun cursor tokens pending known => ?_
  rw [(Lookahead.Peeks.parameter? cursor tokens pending).current]
  exact ⟨known, fun _ => Lookahead.firstTag_parameter?, Lookahead.contains_of_parameter?⟩

/-- Interning a text. -/
theorem intern (text : String) :
    grammar.Justifies context before (fun _ _ => True) (liftM (Build.intern text)) :=
  .quiet fun cursor => cursor.onward_intern text

/-- A step over a token. -/
theorem advance :
    grammar.Justifies context before (fun answer _ => before answer) (liftM Build.advance) := by
  refine .moves onward_advance fun cursor _ _ known => ?_
  rwa [cursor.advance_fst]

/-- A step over a token with a tag, or none. -/
theorem eat (tag : Tag) :
    grammar.Justifies context before
      (fun eaten token => eaten = false → before token ∧ token.tag ≠ tag) (liftM (Build.eat tag)) := by
  refine .moves (fun cursor => cursor.onward_eat tag) fun cursor tokens _ known => ?_
  rw [Cursor.eat]
  by_cases found : cursor.check tag = true
  · rw [if_pos found]
    exact fun none => Bool.noConfusion none
  · rw [if_neg found]
    exact fun _ => ⟨known, fun same => found (beq_iff_eq.mpr same)⟩

/-- Splitting a symbol. -/
theorem splitSymbol :
    grammar.Justifies context before (fun _ _ => True) (liftM Build.splitSymbol) :=
  .quiet onward_splitSymbol

/-- The error of finding the current token, which was not acceptable. -/
theorem fail {code : ErrorCode} {expected : TagSet} {dress : ParseError → ParseError}
    (keeps : ∀ error, (dress error).code = error.code ∧ (dress error).expected = error.expected ∧
      (dress error).found = error.found)
    (closed : code ≠ .unclosedBlock)
    (fresh : ∀ token, before token → expected.contains token.tag = false) :
    grammar.Justifies context before after
      (liftM (unexpected code expected) >>= fun error => throw (dress error)) := by
  intro start tokens prepared known
  refine Parse.outcome_unexpected.mpr (.throw ⟨[], tokens, .refl prepared.ready.pending, ?_⟩)
  exact .of_dressed keeps closed (fresh _ known)

/-- The error of finding the current token, before other steps. -/
theorem failFirst {code : ErrorCode} {expected : TagSet} {dress : ParseError → ParseError}
    {next : β → Parse α}
    (keeps : ∀ error, (dress error).code = error.code ∧ (dress error).expected = error.expected ∧
      (dress error).found = error.found)
    (closed : code ≠ .unclosedBlock)
    (fresh : ∀ token, before token → expected.contains token.tag = false) :
    grammar.Justifies context before after
      (liftM (unexpected code expected) >>= fun error => throw (dress error) >>= next) :=
  .fail keeps closed fresh

/-- An error that is reported before other steps. -/
theorem reportFirst {code : ErrorCode} {expected : TagSet} {dress : ParseError → ParseError}
    {next : Parse α}
    (keeps : ∀ error, (dress error).code = error.code ∧ (dress error).expected = error.expected ∧
      (dress error).found = error.found)
    (closed : code ≠ .unclosedBlock)
    (fresh : ∀ token, before token → expected.contains token.tag = false)
    (goes : grammar.Justifies context (fun _ => True) after next) :
    grammar.Justifies context before after
      (liftM (unexpected code expected) >>= fun error =>
        liftM (grammar.report (dress error)) >>= fun _ => next) := by
  intro start tokens prepared known
  refine Parse.outcome_unexpected.mpr (.bind (.lift ?_))
  have same := (keeps (.unexpected code expected start.cursor.current.tag
    start.cursor.current.span)).1
  refine (Parser.Proceeds.report prepared.ready grammar
    (.of_dressed keeps closed (fresh _ known)) (same ▸ closed)).mono ?_
  rintro _ now ⟨proceeds, _⟩
  have later := (prepared.proceeds proceeds).mono (List.subset_append_left context [])
  exact proceeds.andThen (List.subset_append_left _ _) (goes now tokens later trivial)

/-- A choice by an answer. -/
theorem choose {found : Bool} {reading other : Parse α}
    (yes : grammar.Justifies context before after reading)
    (no : grammar.Justifies context before after other) :
    grammar.Justifies context before after (if found = true then reading else other) := by
  cases found with
  | true => exact yes
  | false => exact no

/-- A choice by the tag of the current token. -/
theorem branch {found : Bool} {tag : Tag} {reading other : Parse α}
    (yes : grammar.Justifies context (fun token => token.tag = tag) after reading)
    (no : grammar.Justifies context (fun token => before token ∧ token.tag ≠ tag) after other) :
    grammar.Justifies context (fun token => before token ∧ (token.tag == tag) = found) after
      (if found = true then reading else other) := by
  cases found with
  | true => exact yes.imp (fun _ same => beq_iff_eq.mp same.2) fun _ _ ends => ends
  | false => exact no.imp (fun _ same => ⟨same.1, beq_eq_false_iff_ne.mp same.2⟩) fun _ _ ends => ends

/-- A reading that is made if an answer says so, before others. -/
theorem chosen {found : Bool} {reading : Parse α} {next : Option α → Parse β}
    (reads : grammar.JustifiesAny context reading)
    (goes : ∀ answer, grammar.Justifies context (fun _ => True) last (next answer)) :
    grammar.Justifies context before last
      (if found = true then some <$> reading >>= next else Pure.pure none >>= next) :=
  choose (.bind (.map reads.anywhere) goes) (.bind (.answer none) goes)

/-- A token with a tag, or a failure. -/
theorem expectWith (tag : Tag) {code : ErrorCode} (closed : code ≠ .unclosedBlock)
    (construct : Construct) :
    grammar.Justifies context before (fun _ _ => True) (Parse.expectWith code tag construct) := by
  refine .bind (.check tag) fun found => .branch (.imp .advance (fun _ known => known)
    fun _ _ _ => trivial) (.fail (fun _ => ⟨rfl, rfl, rfl⟩) closed fun token other => ?_)
  simpa using other.2.symm

/-- A token with a tag, or a failure. -/
theorem expect (tag : Tag) (construct : Construct) :
    grammar.Justifies context before (fun _ _ => True) (Parse.expect tag construct) :=
  expectWith tag (by decide) construct

/-- An identifier, or a failure. -/
theorem expectIdentifier (construct : Construct) :
    grammar.Justifies context before (fun _ _ => True) (Parse.expectIdentifier construct) := by
  refine .bind .current fun token => ?_
  split
  · exact .bind .advance fun _ => .answer _
  · next other =>
    refine .fail (fun _ => ⟨rfl, rfl, rfl⟩) (by decide) fun current known => ?_
    rw [known.2, TagSet.contains_singleton, decide_eq_false_iff_not]
    intro same
    obtain ⟨name, isName⟩ := TokenKind.eq_identifier same.symm
    exact other name isName

/-- A constant, or a failure. -/
theorem expectConstant (construct : Construct) :
    grammar.Justifies context before (fun _ _ => True) (Parse.expectConstant construct) := by
  refine .bind .current fun token => ?_
  split
  · exact .bind .advance fun _ => .answer _
  · next other =>
    refine .fail (fun _ => ⟨rfl, rfl, rfl⟩) (by decide) fun current known => ?_
    rw [known.2, TagSet.contains_singleton, decide_eq_false_iff_not]
    intro same
    obtain ⟨name, isName⟩ := TokenKind.eq_constant same.symm
    exact other name isName

/-- The `end` of a block, or a failure that names the opener. -/
theorem expectEnd {opener : Tag} {spelled : opener.spelling?.isSome = true} {span : Span}
    (opens : opener.opensBlock = true) (member : ⟨.fixed opener spelled, span⟩ ∈ context)
    (construct : Construct) :
    grammar.Justifies context before (fun _ _ => True) (Parse.expectEnd opener span construct) := by
  refine .bind (.check .kwEnd) fun found => .branch (.bind .advance fun _ => .answer _) ?_
  intro start tokens prepared known
  refine Parse.outcome_unexpected.mpr (.throw ⟨[], tokens, .refl prepared.ready.pending, ?_, ?_⟩)
  · intro tag isFound contains
    obtain rfl := Option.mem_some.mp isFound
    have closes : TagSet.blockEnd.contains start.cursor.current.tag = true := contains
    exact absurd (by simpa [TagSet.blockEnd] using closes) known.2.symm
  · refine fun _ => ⟨_, List.mem_append_left _ member, opens, ?_, rfl, rfl⟩
    exact prepared.passed _ member

/-- The opener of a block, before what is read in it. -/
theorem opening {tag : Tag} (opens : tag.opensBlock = true) (spelled : tag.spelling?.isSome = true)
    {next : Token Name → Parse β}
    (goes : ∀ token, grammar.Justifies (⟨.fixed tag spelled, token.span⟩ :: context) (fun _ => True)
      last (next token)) :
    grammar.Justifies context (fun token => token.tag = tag) last
      (liftM Build.advance >>= next) := by
  intro start tokens prepared same
  have notEnd : start.cursor.isAtEnd = false := Parser.notAtEnd same (by rintro rfl; contradiction)
  obtain ⟨marks, rest, rfl, directives, plain, _⟩ := prepared.ready.pending.ahead notEnd
  have moves := moves_advance prepared.ready.pending directives notEnd
  have kind : start.cursor.current.kind = .fixed tag spelled := TokenKind.eq_fixed same spelled
  have isOpener : start.cursor.current.written start.cursor.lexer.names =
      ⟨.fixed tag spelled, start.cursor.current.span⟩ := by
    rw [Token.written, kind]
    rfl
  have proceeds := Parser.Proceeds.of_moves moves
  have later := prepared.proceeds proceeds
  rw [isOpener] at proceeds later
  have known : (⟨.fixed tag spelled, start.cursor.current.span⟩ : Token String) :: context ⊆
      context ++ [⟨.fixed tag spelled, start.cursor.current.span⟩] := by
    simp
  refine .bind (.lift (Parser.outcome_onCursor.mpr ?_))
  rw [start.cursor.advance_fst, isOpener]
  exact proceeds.andThen known (goes _ _ rest (later.mono known) trivial)

/-- The opener of a block or a failure, before what is read in it. -/
theorem expectOpening {tag : Tag} (opens : tag.opensBlock = true)
    (spelled : tag.spelling?.isSome = true) (construct : Construct) {next : Token Name → Parse β}
    (goes : ∀ token, grammar.Justifies (⟨.fixed tag spelled, token.span⟩ :: context) (fun _ => True)
      last (next token)) :
    grammar.Justifies context before last (Parse.expect tag construct >>= next) := by
  rw [Parse.expect, Parse.expectWith, bind_assoc]
  refine .bind (.check tag) fun found => ?_
  cases found with
  | true =>
    exact (opening opens spelled goes).imp (fun _ same => beq_iff_eq.mp same.2) fun _ _ ends => ends
  | false =>
    rw [if_neg Bool.false_ne_true, bind_assoc]
    refine failFirst (fun _ => ⟨rfl, rfl, rfl⟩) ?_ fun token other => ?_
    · exact ErrorCode.noConfusion
    · rw [TagSet.contains_singleton, decide_eq_false_iff_not]
      exact fun same => beq_eq_false_iff_ne.mp other.2 same.symm

/-- A loop whose rounds are justified: of the first round more is known than of the later ones. -/
theorem loop {start : α} {round : α → Parse (ForInStep α)} {holds : α → Token Name → Prop}
    (first : grammar.Justifies context before (Rolls holds after) (round start))
    (later : ∀ state, grammar.Justifies context (holds state) (Rolls holds after) (round state))
    (ends : ∀ state token, holds state token → after state token) :
    grammar.Justifies context before after (grammar.loop start round) := by
  have rounds (count : Nat) (state : α) :
      grammar.Justifies context (holds state) after (repeatWithin round count state) := by
    induction count generalizing state with
    | zero => exact .pure state (ends state)
    | succ count ih =>
      refine .bind (later state) fun result => ?_
      cases result with
      | yield state => exact ih state
      | done state => exact .pure state fun _ known => known
  intro parser tokens prepared known
  obtain ⟨count, isCount⟩ := Nat.exists_eq_add_of_lt prepared.ready.rounds
  rw [Grammar.loop, isCount]
  refine Justifies.bind first (fun result => ?_) parser tokens prepared known
  cases result with
  | yield state => exact rounds _ state
  | done state => exact .pure state fun _ known => known

/-- A loop of which nothing need be known. -/
theorem loopAny {start : α} {round : α → Parse (ForInStep α)}
    (rounds : ∀ state, grammar.JustifiesAny context (round state)) :
    grammar.Justifies context before (fun _ _ => True) (grammar.loop start round) := by
  have rolls (state : α) : grammar.Justifies context (fun _ => True)
      (Rolls (fun _ _ => True) fun _ _ => True) (round state) := by
    refine (rounds state).imp (fun _ known => known) fun result _ _ => ?_
    cases result <;> trivial
  exact .loop ((rolls start).imp (fun _ _ => trivial) fun _ _ ends => ends) rolls fun _ _ _ => trivial

end Justifies

end Grammar

end Vibescript
