import Vibescript.Proofs.Parser.SoleStatement
import Vibescript.Proofs.Parser.Standing

/-!
# Readings on their way to a body

What a parser faces leaves open where directives wait. A body claims them, so on the way to a body it
matters which tokens are pending. `Parse.Arrives` describes readings on such a way: they cannot fail,
and afterwards exactly some of the tokens are pending.
-/
namespace Vibescript

open Build Parse Grammar

namespace Consumes

variable {whole taken rest : List (Token String)}

/-- Where the last of some tokens is no directive, directives are never all that is left of them. -/
theorem eq_nil (consumes : Consumes whole taken rest)
    (closes : ∀ token ∈ whole.getLast?, token.kind.isDirective = false)
    (none : Token.ordinary rest = []) : rest = [] := by
  have tail {token : Token String} {tokens : List (Token String)}
      (closes : ∀ last ∈ (token :: tokens).getLast?, last.kind.isDirective = false) :
      ∀ last ∈ tokens.getLast?, last.kind.isDirective = false := by
    intro last isLast
    refine closes last ?_
    rw [List.getLast?_cons, isLast]
    rfl
  induction consumes with
  | done tokens =>
    cases isLast : tokens.getLast? with
    | none => exact List.getLast?_eq_none_iff.mp isLast
    | some token =>
      have member : token ∈ Token.ordinary tokens :=
        List.mem_filter.mpr ⟨List.mem_of_getLast? isLast, by rw [closes token isLast]; rfl⟩
      rw [none] at member
      contradiction
  | take _ ih => exact ih (tail closes) none
  | demote _ _ ih => exact ih (tail closes) none
  | @split name span before rest _ _ _ _ ih =>
    refine ih (fun token isLast => ?_) none
    rw [List.getLast?_append, List.getLast?_cons, List.getLast?_cons] at isLast
    rw [List.getLast?_append, List.getLast?_cons] at closes
    cases more : rest.getLast? with
    | none =>
      rw [more] at isLast
      obtain rfl := Option.some.inj isLast
      exact TokenKind.isDirective_ofWord _
    | some last =>
      rw [more] at isLast closes
      exact closes token isLast

end Consumes

namespace Lookahead

variable {source : List Char} {tokens : List (Token String)} {known : List (Name × String)}

/-- Whether a tag stands at a place where it stands. -/
theorem tells_hasTag_of_tagAt {places : Nat} {expected : Tag}
    (stands : TokenKind.tagAt (Token.kinds tokens) places = expected) :
    (hasTag places expected).Tells source tokens known fun answer => answer = true :=
  (tells_hasTag places expected).mono fun _ same => same.trans (beq_iff_eq.mpr stands)

/-- Two questions are answered with yes when both are. -/
theorem tells_andThen_yes {first second : Lookahead Bool}
    (asks : first.Tells source tokens known fun answer => answer = true)
    (more : second.Tells source tokens known fun answer => answer = true) :
    (andThen first second).Tells source tokens known fun answer => answer = true :=
  .bind (asks.mono fun answer yes => by rw [yes]; exact more)

/-- A constant in parentheses names the errors to rescue. -/
theorem tells_isRescueFilter_yes
    (opens : TokenKind.tagAt (Token.kinds tokens) 0 = .leftParen)
    (names : TokenKind.tagAt (Token.kinds tokens) 1 = .constant)
    (closes : TokenKind.tagAt (Token.kinds tokens) 2 = .rightParen) :
    isRescueFilter.Tells source tokens known fun answer => answer = true :=
  tells_andThen_yes (tells_hasTag_of_tagAt opens)
    (tells_andThen_yes (tells_hasTag_of_tagAt names) (tells_hasTag_of_tagAt closes))

/-- Without an assignment after the first token, no import starts. -/
theorem tells_noImport {importName asKey : Name}
    (other : TokenKind.tagAt (Token.kinds tokens) 1 ≠ .assign) :
    (startsImport importName asKey).Tells source tokens known fun answer => answer = false := by
  have tells : (startsImport importName asKey).Tells source tokens known fun answer =>
      answer = true → TokenKind.tagAt (Token.kinds tokens) 0 = .identifier ∧
        TokenKind.tagAt (Token.kinds tokens) 1 = .assign ∧ False :=
    tells_andThen (tells_hasTag_yes 0 .identifier) fun _ =>
      tells_andThen (tells_hasTag_yes 1 .assign) fun assigns => absurd assigns other
  exact tells.mono fun answer holds => Bool.eq_false_iff.mpr fun yes => other (holds yes).2.1

end Lookahead

/-- A list of nodes is shown by some texts. -/
def Forest.DisplaysAll (forest : Forest) (range : NodeRange) (texts : List String) : Prop :=
  forest.arena.Contains range ∧
    List.Forall₂ forest.Displays (forest.arena.list range) texts

/-- It still is while the forest grows. -/
theorem Forest.DisplaysAll.mono {before after : Forest} {range : NodeRange} {texts : List String}
    (displays : before.DisplaysAll range texts) (grows : before.Grows after) :
    after.DisplaysAll range texts := by
  refine ⟨grows.arena.contains displays.1, ?_⟩
  rw [grows.arena.list displays.1]
  exact displays.2.imp fun _ _ shows => shows.mono grows

namespace Parser

/-- Without errors, a parser stands in a text before tokens that it can read. -/
structure Stands (text : List Char) (soft : SoftNames) (rounds : Nat)
    (tokens : List (Token String)) (parser : Parser) : Prop where
  /-- The tokens can be read. -/
  ready : parser.Ready soft rounds tokens
  /-- No error was reported. -/
  clean : parser.errors = #[]
  /-- The cursor stands in the text. -/
  text : parser.cursor.source = text

end Parser

/-- A reading cannot fail; afterwards exactly some tokens are pending, and its answer has a
property. -/
def Parse.Arrives {α : Type} (text : List Char) (soft : SoftNames) (rounds : Nat)
    (reading : Parse α) (start : Parser) (rest : List (Token String)) (holds : α → Forest → Prop) :
    Prop :=
  reading.Outcome start
    (fun answer after => start.Goes after ∧ after.Stands text soft rounds rest ∧
      holds answer after.forest)
    fun _ _ => False

namespace Parse.Arrives

variable {α β : Type} {text : List Char} {soft : SoftNames} {rounds : Nat} {reading : Parse α}
  {next : α → Parse β} {start : Parser} {rest middle : List (Token String)}
  {kinds : List (TokenKind String)} {holds weaker : α → Forest → Prop} {last : β → Forest → Prop}

/-- A weaker property holds as well. -/
theorem imp (arrives : reading.Arrives text soft rounds start rest holds)
    (implies : ∀ answer forest, holds answer forest → weaker answer forest) :
    reading.Arrives text soft rounds start rest weaker :=
  Outcome.imp arrives fun _ _ ⟨goes, stands, known⟩ => ⟨goes, stands, implies _ _ known⟩

/-- One reading after another. -/
theorem bind (first : reading.Arrives text soft rounds start middle holds)
    (second : ∀ answer now, start.Goes now → now.Stands text soft rounds middle →
      holds answer now.forest → (next answer).Arrives text soft rounds now rest last) :
    Arrives text soft rounds (reading >>= next) start rest last := by
  refine Outcome.bind (Outcome.imp first fun answer now ⟨goes, stands, known⟩ => ?_)
  exact Outcome.imp (second answer now goes stands known) fun _ _ ⟨more, known⟩ =>
    ⟨goes.trans more, known⟩

/-- A reading that cannot fail comes after it. -/
theorem along (first : reading.Arrives text soft rounds start middle holds)
    (second : ∀ answer now, start.Goes now → now.Stands text soft rounds middle →
      holds answer now.forest → (next answer).Succeeds soft rounds now kinds last) :
    Succeeds soft rounds (reading >>= next) start kinds last := by
  refine Outcome.bind (Outcome.imp first fun answer now ⟨goes, stands, known⟩ => ?_)
  exact Outcome.imp (second answer now goes stands known) fun _ _ ⟨more, known⟩ =>
    ⟨goes.trans more, known⟩

/-- A reading that only answers. -/
theorem pure {answer : α} (stands : start.Stands text soft rounds rest)
    (known : holds answer start.forest) :
    Arrives text soft rounds (Pure.pure answer) start rest holds :=
  Outcome.pure ⟨.refl start, stands, known⟩

end Parse.Arrives

namespace Parser

variable {text : List Char} {soft : SoftNames} {rounds : Nat} {now after : Parser}
  {token : Token String} {tokens taken rest : List (Token String)}

namespace Stands

/-- Without errors, a parser before tokens is not halted. -/
theorem goesOn (stands : now.Stands text soft rounds tokens) : now.isHalted = false :=
  Bool.eq_false_iff.mpr fun halted => stands.ready.halted halted stands.clean

/-- It stands there poised. -/
theorem poised (stands : now.Stands text soft rounds tokens) : now.Poised soft tokens :=
  ⟨stands.ready.pending, stands.ready.soft, stands.clean, stands.goesOn⟩

/-- It faces the kinds of the tokens. -/
theorem faces (stands : now.Stands text soft rounds tokens) :
    now.Faces soft rounds (Token.kinds tokens) := ⟨tokens, stands.ready, rfl⟩

/-- The current token is the first ordinary one. -/
theorem tag (stands : now.Stands text soft rounds tokens) :
    now.cursor.current.tag = Token.opening tokens := stands.ready.pending.tag

/-- Whether a token is current. -/
theorem check (stands : now.Stands text soft rounds tokens) (tag : Tag) :
    now.cursor.check tag = (Token.opening tokens == tag) := by
  rw [Cursor.check, stands.tag]

/-- After a step that passes over tokens, the others can be read. -/
theorem pass (stands : now.Stands text soft rounds tokens)
    (passes : now.Passes tokens taken rest after) (errors : after.errors = now.errors) :
    after.Stands text soft rounds rest :=
  ⟨passes.ready stands.ready, errors.trans stands.clean, passes.moves.source.trans stands.text⟩

/-- The first token is current, and stepping over it leads to the others. -/
theorem step (stands : now.Stands text soft rounds (token :: rest))
    (plain : token.kind.isDirective = false) :
    now.cursor.current.written now.cursor.lexer.names = token ∧
      now.cursor.current.kind.Known now.forest.names ∧
      now.Goes (now.withCursor now.cursor.advance.2) ∧
      (now.withCursor now.cursor.advance.2).Stands text soft rounds rest := by
  have ordinary := Token.ordinary_cons plain rest
  have notEnd : now.cursor.isAtEnd = false := by
    cases atEnd : now.cursor.isAtEnd with
    | false => rfl
    | true =>
      rw [(stands.ready.pending.atEnd atEnd).2.2] at ordinary
      contradiction
  obtain ⟨before, left, whole, directive, _, known⟩ := stands.ready.pending.ahead notEnd
  have none : before = [] := by
    cases before with
    | nil => rfl
    | cons mark before =>
      rw [(List.cons.inj whole).1, directive mark List.mem_cons_self] at plain
      contradiction
  subst none
  obtain ⟨isFirst, rfl⟩ := List.cons.inj whole
  have pending := stands.ready.pending
  rw [isFirst] at pending
  have moves : now.cursor.Moves ([] ++ now.cursor.current.written now.cursor.lexer.names :: rest) _
      rest now.cursor.advance.2 :=
    Cursor.moves_advance pending (List.forall_mem_nil _) notEnd
  rw [List.nil_append, ← isFirst] at moves
  have passes := Passes.of_moves moves
  exact ⟨isFirst.symm, known, ⟨passes.forest, rfl, rfl⟩, stands.pass passes rfl⟩

/-- An arena that grows leaves what is pending. -/
theorem withArena {arena : Arena} (stands : now.Stands text soft rounds tokens)
    (grows : now.arena.Grows arena) :
    now.Goes (now.withArena arena) ∧ (now.withArena arena).Stands text soft rounds tokens := by
  have passes := Passes.of_grows stands.ready.pending grows
  exact ⟨⟨passes.forest, rfl, rfl⟩, stands.pass passes rfl⟩

end Stands

section

variable {α : Type} {holds : α → Forest → Prop}

/-- Asking for the current token. -/
theorem arrives_current {next : Token Name → Parse α} :
    Arrives text soft rounds (liftM Build.current >>= next) now rest holds ↔
      (next now.cursor.current).Arrives text soft rounds now rest holds := Iff.rfl

/-- Asking whether the current token has a tag. -/
theorem arrives_check {tag : Tag} {next : Bool → Parse α} :
    Arrives text soft rounds (liftM (Build.check tag) >>= next) now rest holds ↔
      (next (now.cursor.check tag)).Arrives text soft rounds now rest holds := Iff.rfl

end

/-- Asking for the tag of the current token where it is known. -/
theorem succeeds_atTag {α : Type} {tag : Tag} {next : Tag → Parse α} {holds : α → Forest → Prop}
    {kinds : List (TokenKind String)} (isTag : now.cursor.current.tag = tag)
    (succeeds : (next tag).Succeeds soft rounds now kinds holds) :
    Succeeds soft rounds (liftM Build.currentTag >>= next) now kinds holds :=
  Parse.outcome_currentTag.mpr (isTag ▸ succeeds)

section

variable (plain : token.kind.isDirective = false)
  (stands : now.Stands text soft rounds (token :: rest))

include plain stands

/-- The first token is stepped over. -/
theorem arrives_advance :
    Arrives text soft rounds (liftM Build.advance) now rest fun found _ =>
      found = now.cursor.current := by
  obtain ⟨_, _, goes, more⟩ := stands.step plain
  exact .lift (outcome_onCursor.mpr ⟨goes, more, now.cursor.advance_fst⟩)

/-- The first token is checked for its tag. -/
theorem check_self : now.cursor.check token.tag = true := by
  rw [stands.check, Token.opening, Token.kinds, Token.ordinary_cons plain]
  exact beq_self_eq_true token.tag

/-- The first token is eaten. -/
theorem arrives_eat :
    Arrives text soft rounds (liftM (Build.eat token.tag)) now rest fun eaten _ =>
      eaten = true := by
  obtain ⟨_, _, goes, more⟩ := stands.step plain
  refine .lift (outcome_onCursor.mpr ?_)
  rw [Cursor.eat, if_pos (check_self plain stands)]
  exact ⟨goes, more, rfl⟩

/-- The first token is expected. -/
theorem arrives_expect (construct : Construct) :
    (Parse.expect token.tag construct).Arrives text soft rounds now rest fun found _ =>
      found = now.cursor.current := by
  refine arrives_check.mpr ?_
  rw [if_pos (check_self plain stands)]
  exact arrives_advance plain stands

/-- A closing token is expected. -/
theorem arrives_expectCloser (code : ErrorCode) (construct : Construct) :
    (expectCloser code token.tag construct).Arrives text soft rounds now rest fun _ _ => True := by
  refine .bind (arrives_eat plain stands) fun eaten later _ stands isEaten => ?_
  rw [isEaten]
  exact .pure stands trivial

/-- Where a list closes at once, it has no items. -/
theorem arrives_noItems {grammar : Grammar} {item : Parse NodeId}
    (sameRounds : grammar.rounds = rounds) :
    (grammar.itemsUntil token.tag item).Arrives text soft rounds now (token :: rest)
      fun ids _ => ids = #[] := by
  obtain ⟨count, enough⟩ : ∃ count, grammar.rounds = count + 1 :=
    ⟨rounds - 1, by have := stands.ready.rounds; omega⟩
  have round : (itemStep token.tag item #[]).Arrives text soft rounds now (token :: rest)
      fun result _ => result = .done #[] := by
    refine arrives_check.mpr ?_
    rw [if_pos (check_self plain stands)]
    exact .pure stands rfl
  rw [itemsUntil_eq, enough, repeatWithin]
  refine .bind round fun result later _ stands isDone => ?_
  rw [isDone]
  exact .pure stands rfl

end

/-- An identifier that comes first is expected. -/
theorem arrives_expectIdentifier {name : String} {span : Span}
    (stands : now.Stands text soft rounds (⟨.identifier name, span⟩ :: rest))
    (construct : Construct) :
    (Parse.expectIdentifier construct).Arrives text soft rounds now rest fun found forest =>
      forest.names.Spells found.1 name := by
  obtain ⟨isFirst, known, _⟩ := stands.step rfl
  obtain ⟨word, isWord⟩ := TokenKind.eq_identifier (stands.faces.tag)
  have reads := congrArg Token.kind isFirst
  rw [Token.written, isWord] at reads
  rw [isWord] at known
  refine arrives_current.mpr ?_
  rw [isWord]
  refine .bind (arrives_advance rfl stands) fun _ later goes stands _ => .pure stands ?_
  exact NameTable.Spells.mono goes.forest.names ⟨known word rfl, TokenKind.identifier.inj reads⟩

/-- A constant that comes first is expected. -/
theorem arrives_expectConstant {name : String} {span : Span}
    (stands : now.Stands text soft rounds (⟨.constant name, span⟩ :: rest))
    (construct : Construct) :
    (Parse.expectConstant construct).Arrives text soft rounds now rest fun found forest =>
      forest.names.Spells found name := by
  obtain ⟨isFirst, known, _⟩ := stands.step rfl
  obtain ⟨word, isWord⟩ := TokenKind.eq_constant (stands.faces.tag)
  have reads := congrArg Token.kind isFirst
  rw [Token.written, isWord] at reads
  rw [isWord] at known
  refine arrives_current.mpr ?_
  rw [isWord]
  refine .bind (arrives_advance rfl stands) fun _ later goes stands _ => .pure stands ?_
  exact NameTable.Spells.mono goes.forest.names ⟨known word rfl, TokenKind.constant.inj reads⟩

section

variable (stands : now.Stands text soft rounds tokens)

include stands

/-- A token that does not come first is not eaten. -/
theorem arrives_eat_none {tag : Tag} (other : Token.opening tokens ≠ tag) :
    Arrives text soft rounds (liftM (Build.eat tag)) now tokens fun eaten _ => eaten = false := by
  refine .lift (outcome_onCursor.mpr ?_)
  rw [Cursor.eat, stands.check, if_neg (by rwa [beq_iff_eq])]
  exact ⟨.refl now, stands, rfl⟩

/-- A question is answered. -/
theorem arrives_ask {question : Lookahead Bool} {property : Bool → Prop}
    (tells : question.Tells text tokens soft.spelling property) :
    Arrives text soft rounds (liftM (Build.ask question)) now tokens fun answer _ =>
      property answer := by
  obtain ⟨looks, known⟩ := tells now.cursor stands.text stands.ready.pending stands.ready.soft
  have passes := Passes.of_moves looks.moves
  exact .lift (outcome_onCursor.mpr ⟨⟨passes.forest, rfl, rfl⟩, stands.pass passes rfl, known⟩)

/-- A node is added. -/
theorem arrives_addNode (node : NodeKind) (span : Span) :
    Arrives text soft rounds (liftM (Build.addNode node span)) now tokens fun id forest =>
      forest.arena.Has id node := by
  obtain ⟨goes, more⟩ := stands.withArena (now.arena.grows_add node span)
  exact .lift (outcome_onArena.mpr ⟨goes, more, span, now.arena.node?_add node span⟩)

/-- A list of children is added. -/
theorem arrives_addList (ids : Array NodeId) :
    Arrives text soft rounds (liftM (Build.addList ids)) now tokens fun range forest =>
      forest.arena.Contains range ∧ forest.arena.list range = ids.toList := by
  obtain ⟨goes, more⟩ := stands.withArena (now.arena.grows_addList ids.toList)
  exact .lift (outcome_onArena.mpr ⟨goes, more, now.arena.contains_addList ids.toList,
    now.arena.list_addList ids.toList⟩)

/-- A list of names is added. -/
theorem arrives_addNames (names : Array Name) :
    Arrives text soft rounds (liftM (Build.addNames names)) now tokens fun _ _ => True := by
  obtain ⟨goes, more⟩ := stands.withArena (now.arena.grows_addNames names.toList)
  exact .lift (outcome_onArena.mpr ⟨goes, more, trivial⟩)

end

/-- Before a token that is no directive, none waits, and the token is current. -/
theorem Poised.unclaimed (poised : now.Poised soft (token :: rest))
    (plain : token.kind.isDirective = false) :
    now.cursor.takeDirective = (none, now.cursor) ∧ now.cursor.current.tag = token.tag := by
  constructor
  · rcases poised.pending.takeDirective with ⟨none, _⟩ | ⟨mark, _, _, same, directive, _⟩
    · exact none
    · rw [(List.cons.inj same).1, Token.isDirective_written, directive] at plain
      contradiction
  · rw [poised.pending.tag, Token.kinds, Token.ordinary_cons plain]
    rfl

/-- A body stops at a terminator. -/
theorem Poised.bodyStep_terminator {grammar : Grammar} {terminators : TagSet}
    (recovers : grammar.options.recovery = .recover)
    (poised : now.Poised soft (token :: rest)) (plain : token.kind.isDirective = false)
    (terminates : terminators.contains token.tag = true) (ids : Array NodeId) :
    grammar.bodyStep terminators ids now = (.done ids, now) := by
  obtain ⟨unclaimed, tag⟩ := poised.unclaimed plain
  rw [bodyStep_statement (shouldHalt_eq recovers poised.goesOn) unclaimed,
    if_pos (by rw [tag, terminates, Bool.or_true])]

/-- A body whose statements were collected lists them. -/
theorem arrives_collected {grammar : Grammar} {terminators : TagSet} {ids : Array NodeId}
    (ran : grammar.loop #[] (grammar.bodyStep terminators) now = (ids, after))
    (goes : now.Goes after) (stands : after.Stands text soft rounds tokens) :
    Arrives text soft rounds (liftM (grammar.body terminators)) now tokens fun range forest =>
      after.forest.Grows forest ∧ forest.arena.Contains range ∧
        forest.arena.list range = ids.toList := by
  refine .lift ?_
  rw [Build.Outcome, Grammar.body, run_bind, ran]
  obtain ⟨more, stands, known⟩ := arrives_addList stands ids
  exact ⟨goes.trans more, stands, more.forest, known⟩

/-- A body that stops at once is empty. -/
theorem arrives_emptyBody {grammar : Grammar} {terminators : TagSet}
    (sameRounds : grammar.rounds = rounds) (recovers : grammar.options.recovery = .recover)
    (stands : now.Stands text soft rounds (token :: rest)) (plain : token.kind.isDirective = false)
    (terminates : terminators.contains token.tag = true) :
    Arrives text soft rounds (liftM (grammar.body terminators)) now (token :: rest)
      fun _ _ => True := by
  obtain ⟨count, enough⟩ : ∃ count, grammar.rounds = count + 1 :=
    ⟨rounds - 1, by have := stands.ready.rounds; omega⟩
  have ran : grammar.loop #[] (grammar.bodyStep terminators) now = (#[], now) := by
    rw [loop, enough,
      Build.run_done (stands.poised.bodyStep_terminator recovers plain terminates #[])]
  exact (arrives_collected ran (.refl now) stands).imp fun _ _ _ => trivial

/-- However many rounds over its statements are taken, a body passes over tokens of its text. -/
theorem Ready.passes_of_run {grammar : Grammar} {terminators : TagSet} {ids : Array NodeId}
    {count : Nat} (ready : now.Ready soft rounds tokens) (deepens : grammar.Deepens soft rounds)
    (ran : repeatWithin (grammar.bodyStep terminators) count #[] now = (ids, after)) :
    ∃ taken rest, now.Passes tokens taken rest after := by
  have moved := (Run.refl ready).statementRounds deepens terminators count
  rw [Build.Outcome, ran] at moved
  obtain ⟨_, taken, rest, run⟩ := moved
  exact ⟨taken, rest, run.passes⟩

/-- A body reads the statements of a text whose tokens stand before a terminator, and they are shown
as they are in the program of that text. -/
theorem Stands.arrives_body {options others : ParseOptions} {source : String}
    {before earlier levels : Nat} {terminators : TagSet}
    (follow : Token.Follow source.toList text before earlier (sourceTokens source) tokens)
    (detached : Token.Detached (sourceTokens source) (token :: rest))
    (stands : now.Stands text soft rounds (tokens ++ token :: rest))
    (clean : (parseWith options source).errors = []) (enough : Parser.rounds source < rounds)
    (recovers : options.recovery = .recover ∧ others.recovery = .recover)
    (le : options.maxDepth ≤ levels) (plain : token.kind.isDirective = false)
    (terminates : terminators.contains token.tag = true)
    (closes : ∀ tag : Tag, terminators.contains tag = true → tag.startsStatement = false) :
    Arrives text soft rounds (liftM ((level others soft rounds levels).body terminators)) now
      (token :: rest) fun range forest =>
        forest.DisplaysAll range (parseWith options source).sexps := by
  rw [← stands.text] at follow
  obtain ⟨used, usedLe, ids, later, runs, poised, grows, displays⟩ := stands.poised.inside follow
    detached clean (Nat.le_of_lt enough) recovers le closes
  obtain ⟨more, isRounds⟩ : ∃ more, rounds = used + (more + 1) := ⟨rounds - used - 1, by omega⟩
  have ran := runs (more + 1)
  rw [← isRounds, Build.run_done (poised.bodyStep_terminator recovers.2 plain terminates ids)] at ran
  have deepens : (level others soft rounds levels).Deepens soft rounds :=
    deepens_descend others soft rounds levels
  obtain ⟨_, _, passes⟩ := stands.ready.passes_of_run deepens ran
  have goes : now.Goes later :=
    ⟨grows, poised.clean.trans stands.clean.symm, poised.goesOn.trans stands.goesOn.symm⟩
  have bound := stands.ready.rounds
  rw [Consumes.weight_append] at bound
  have ready : later.Ready soft rounds (token :: rest) :=
    ⟨poised.pending, by omega, poised.knows, by rw [poised.goesOn]; nofun⟩
  have standsLater : later.Stands text soft rounds (token :: rest) :=
    ⟨ready, poised.clean, passes.moves.source.trans stands.text⟩
  refine Parse.Outcome.imp (arrives_collected ran goes standsLater)
    fun range last ⟨whole, stands, further, inside, listed⟩ => ⟨whole, stands, inside, ?_⟩
  rw [listed]
  exact displays.imp fun _ _ shows => shows.mono further

end Parser

end Vibescript
