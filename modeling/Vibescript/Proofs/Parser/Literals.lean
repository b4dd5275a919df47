import Vibescript.Proofs.Parser.Termination
import Vibescript.Proofs.Source.Literals

/-!
# Text inside string literals is no code

Every production that begins outside string literals ends outside of them, also when it fails, and
skipping stops outside as well. Therefore nothing is ever read deeper inside a literal:
`Grammar.watched` replaces a reading that begins or ends there, and a parse whose levels are watched
is the same whatever the replacement is.
-/
namespace Vibescript

open Cursor

namespace Cursor

variable {cursor : Cursor} {tokens : List (Token String)}

/-- In a string literal that is closed, the current token is the next of its pieces. -/
theorem Pending.inLiteral (pending : cursor.Pending tokens) (closes : Token.Closes true tokens) :
    cursor.isAtEnd = false ∧ cursor.current.tag.isQuoted = true ∧
      ∃ rest, cursor.Moves tokens [cursor.current.written cursor.lexer.names] rest
        cursor.advance.2 ∧ Token.Closes cursor.current.tag.quotes rest := by
  cases tokens with
  | nil => contradiction
  | cons token others =>
    obtain ⟨quoted, more⟩ := closes
    have plain : token.kind.isDirective = false := by
      by_contra directive
      rw [Token.isQuoted_of_isDirective (Bool.not_eq_false _ ▸ directive)] at quoted
      contradiction
    have notEnd : cursor.isAtEnd = false := by
      by_contra atEnd
      have none := (pending.atEnd (Bool.not_eq_false _ ▸ atEnd)).2.2
      rw [Token.ordinary_cons plain] at none
      contradiction
    obtain ⟨before, rest, whole, directive, _⟩ := pending.ahead notEnd
    cases before with
    | nil =>
      obtain ⟨rfl, rfl⟩ := List.cons.inj whole
      rw [Token.tag_written] at quoted more
      rw [← List.nil_append (_ :: others)] at pending
      exact ⟨notEnd, quoted, others, moves_advance pending nofun notEnd, more⟩
    | cons mark before =>
      obtain ⟨rfl, _⟩ := List.cons.inj whole
      rw [directive token List.mem_cons_self] at plain
      contradiction

end Cursor

/-- A steady reading leads to a calm parser, whether it succeeds or fails. -/
theorem Parse.Steady.leads {α : Type} {rounds : Nat} {tags : Tag → Prop} {moves : α → Prop}
    {left right : Parse α} (steady : Steady rounds tags moves left right) {parser : Parser}
    (calm : parser.Calm rounds) (stands : tags parser.cursor.current.tag) :
    parser.Leads rounds (left.run parser).2 := by
  obtain ⟨_, outcome⟩ := steady parser calm stands
  rw [Outcome, Build.Outcome] at outcome
  generalize left.run parser = ran at outcome ⊢
  obtain ⟨result, final⟩ := ran
  cases result with
  | ok answer => exact outcome.1
  | error error => exact outcome

namespace Grammar

open Build Parse

variable {rounds : Nat} {first second grammar : Grammar}

/-- The pieces of a string literal are read to its end. -/
theorem outcome_pieces {parser : Parser} {tokens : List (Token String)}
    (pending : parser.cursor.Pending tokens) (closes : Token.Closes true tokens)
    (enough : Consumes.weight tokens < grammar.rounds) :
    (grammar.loop "" pieceStep).Outcome parser (fun _ _ => True) fun _ _ => False := by
  refine .repeatWithin (fun count _ now => ∃ left : List (Token String),
    now.cursor.Pending left ∧ Token.Closes true left ∧ Consumes.weight left = count) ?_ enough
    ⟨tokens, pending, closes, rfl⟩
  rintro count text now ⟨left, shows, inside, rfl⟩
  obtain ⟨notEnd, quoted, rest, moves, more⟩ := shows.inLiteral inside
  have fewer : Consumes.weight rest < Consumes.weight left := by
    have taken := moves.consumes.weight_le
    rw [List.length_singleton] at taken
    omega
  refine Parse.outcome_cursor.mpr ?_
  have tag : now.cursor.current.tag = now.cursor.current.kind.tag := rfl
  rw [tag] at quoted more
  cases same : now.cursor.current.kind with
  | stringContent run =>
    rw [same] at more
    exact .bind (.lift (Parser.outcome_onCursor.mpr
      (.pure ⟨_, fewer, rest, moves.pending, more, rfl⟩)))
  | stringEscape char =>
    rw [same] at more
    exact .bind (.lift (Parser.outcome_onCursor.mpr
      (.pure ⟨_, fewer, rest, moves.pending, more, rfl⟩)))
  | stringClose => exact .bind (.lift (Parser.outcome_onCursor.mpr (.pure trivial)))
  | _ =>
    have outside : now.cursor.current.tag.isQuoted = false :=
      isQuoted_eq_false (by rw [same]; nofun) (by rw [same]; nofun) (by rw [same]; nofun)
    rw [tag, quoted] at outside
    cases outside

/-- A string literal that begins is read. -/
theorem outcome_opened {parser : Parser} {tokens : List (Token String)} {inside : Bool}
    (pending : parser.cursor.Pending tokens) (closes : Token.Closes inside tokens)
    (enough : Consumes.weight tokens < grammar.rounds) (opens : parser.cursor.current.tag = .stringOpen) :
    grammar.stringLiteral.Outcome parser (fun _ _ => True) fun _ _ => False := by
  have notEnd := Parser.notAtEnd opens Tag.noConfusion
  obtain ⟨before, rest, rfl, directive, _⟩ := pending.ahead notEnd
  obtain ⟨_, _, more⟩ := (Token.Closes.append_iff directive).mp closes
  rw [Token.tag_written, opens] at more
  have moves := moves_advance pending directive notEnd
  rw [stringLiteral_eq]
  refine .bind (Parse.outcome_check.mpr ?_)
  rw [if_pos (show parser.cursor.check .stringOpen = true from beq_iff_eq.mpr opens)]
  refine .lift (Parser.outcome_onCursor.mpr (.bind ((outcome_pieces moves.pending more ?_).imp ?_)))
  · have taken := moves.consumes.weight_le
    rw [List.length_singleton] at taken
    omega
  · intro text final _
    exact .bind (.lift trivial)

/-- A reading that neither begins nor ends inside a string literal: where it would, another takes its
place. -/
def watched (other reading : Parse NodeId) : Parse NodeId := do
  if (← currentTag).isQuoted then other
  else
    let result ← (liftM reading.run : Parse (Except ParseError NodeId))
    if (← currentTag).isQuoted then other
    else
      match result with
      | .ok id => return id
      | .error error => throw error

/-- The levels of the grammar in which every reading is watched. -/
def descendWatched (other : Request → Parse NodeId) (options : ParseOptions) (soft : SoftNames)
    (rounds : Nat) : Nat → Request → Parse NodeId
  | 0, request => watched (other request) (refuse options.maxDepth)
  | levels + 1, request => watched (other request)
      (reading ⟨options, soft, rounds, descendWatched other options soft rounds levels⟩ request)

/-- A level over watched ones. -/
def watchedLevel (other : Request → Parse NodeId) (options : ParseOptions) (soft : SoftNames)
    (rounds levels : Nat) : Grammar :=
  ⟨options, soft, rounds, descendWatched other options soft rounds levels⟩

/-- A reading that begins and ends outside string literals is the same when it is watched. -/
theorem run_watched (other reading : Parse NodeId) {parser : Parser}
    (begins : parser.cursor.current.tag.isQuoted = false)
    (ends : (reading.run parser).2.cursor.current.tag.isQuoted = false) :
    (watched other reading).run parser = reading.run parser := by
  have tag (now : Parser) : (liftM currentTag : Parse Tag).run now =
      (.ok now.cursor.current.tag, now) := rfl
  have result : (liftM reading.run : Parse (Except ParseError NodeId)).run parser =
      (.ok (reading.run parser).1, (reading.run parser).2) := rfl
  rw [watched, run_bind_ok (tag parser), begins, if_neg Bool.false_ne_true, run_bind_ok result,
    run_bind_ok (tag _), ends, if_neg Bool.false_ne_true]
  rcases reading.run parser with ⟨answer, final⟩
  cases answer <;> rfl

/-- Watching changes nothing about a steady reading. -/
theorem steady_watched {moves : NodeId → Prop} {left right : Parse NodeId} (other : Parse NodeId)
    (steady : Steady rounds (fun _ => True) moves left right) :
    Steady rounds (fun _ => True) moves left (watched other right) := by
  intro parser calm stands
  obtain ⟨same, outcome⟩ := steady parser calm stands
  have ends := (steady.leads calm stands).calm.stands.tag
  rw [same] at ends
  exact ⟨same.trans (run_watched other right calm.stands.tag ends).symm, outcome⟩

variable (other : Request → Parse NodeId) (options : ParseOptions) (soft : SoftNames)

/-- A level and the watched one are twins if what is one level deeper is steady. -/
theorem twins_of_watched (levels : Nat) (deeper : ∀ request : Request, Steady rounds
      (fun _ => True) (fun _ => True) (descend options soft rounds levels request)
      (descendWatched other options soft rounds levels request)) :
    Twins (level options soft rounds levels) (watchedLevel other options soft rounds levels)
      rounds := by
  refine ⟨rfl, rfl, Nat.le_refl _, Nat.le_refl _, deeper, fun parser calm opens => ?_⟩
  have faces : parser.cursor.Faces rounds 0 .stringOpen :=
    calm.stands.mono (Nat.le_refl _) fun _ => opens
  exact Parser.beyond_statement faces

/-- At every level, watched readings are the same. -/
theorem steady_descendWatched (levels : Nat) (request : Request) :
    Steady rounds (fun _ => True) (fun _ => True) (descend options soft rounds levels request)
      (descendWatched other options soft rounds levels request) := by
  induction levels generalizing request with
  | zero =>
    exact steady_watched _ (.current fun token _ =>
      .anywhere (.bind steady_skipToEnd fun _ => .throw))
  | succ levels ih =>
    have twins := twins_of_watched other options soft levels ih
    rw [descend_succ, descendWatched]
    refine steady_watched _ ?_
    cases request with
    | statement => exact twins.statement
    | expression least => exact twins.expressionFrom least
    | operand => exact twins.operand

end Grammar

namespace Parser

open Build Parse Grammar

variable {rounds : Nat} {first second now : Parser}

/-- A construct that starts outside string literals stops outside of them. If it fails, skipping
starts and stops outside as well, and so does the step that is forced when nothing was consumed. -/
def StaysOutside (start : Parser) (reading : Parse NodeId) (skip : Cursor → Cursor) : Prop :=
  reading.Outcome start (fun _ final => final.cursor.current.tag.isQuoted = false)
    fun _ failed => failed.cursor.current.tag.isQuoted = false ∧
      (skip failed.cursor).current.tag.isQuoted = false ∧
      (abandon start.checkpoint
        (failed.withCursor (skip failed.cursor))).2.cursor.current.tag.isQuoted = false

/-- One round of a loop leads to the next. -/
def NextRound {α : Type} (step : α → Build (ForInStep α)) (before after : α × Parser) : Prop :=
  step before.1 before.2 = (.yield after.1, after.2)

/-- Rounds that lead from calm parsers to calm parsers. -/
theorem Leads.nextRounds {α : Type} {step : α → Build (ForInStep α)} {moves : ForInStep α → Prop}
    {before after : α × Parser} (leads : first.Leads rounds before.2)
    (steady : ∀ state, Steady rounds (fun _ => True) moves (liftM (step state)) (liftM (step state)))
    (goesOn : Relation.ReflTransGen (NextRound step) before after) : first.Leads rounds after.2 := by
  induction goesOn with
  | refl => exact leads
  | @tail middle last _ round ih =>
    have further := (steady middle.1).leads ih.calm trivial
    rw [run_lift] at further
    change middle.2.Leads rounds (step middle.1 middle.2).2 at further
    rw [show step middle.1 middle.2 = _ from round] at further
    exact ih.trans further

variable (options : ParseOptions) (soft : SoftNames) (levels : Nat)

/-- Every level is its own twin. -/
theorem twins_level : Twins (level options soft rounds levels) (level options soft rounds levels)
    rounds :=
  twins_of_steady options soft (Nat.le_refl _) (Nat.le_refl _) levels
    (steady_descend options soft (Nat.le_refl _) (Nat.le_refl _) levels)

/-- A statement that starts outside string literals, and its recovery. -/
theorem staysOutside_statement (calm : now.Calm rounds) :
    now.StaysOutside ((level options soft rounds levels).deeper .statement)
      fun cursor => (cursor.synchronize .statementBoundary).2 := by
  have twins := @twins_level rounds options soft levels
  have opened : ((level options soft rounds levels).deeper .statement).Outcome now
      (fun _ _ => True) fun _ failed => now.cursor.current.tag = .stringOpen →
        failed.cursor.isAtEnd = true ∨ now.cursor.position < failed.cursor.position := by
    by_cases opens : now.cursor.current.tag = .stringOpen
    · exact (twins.opens now calm opens).mono (fun _ _ _ => trivial) fun _ _ holds _ => holds
    · exact ((twins.deeper .statement) now calm trivial).2.mono (fun _ _ _ => trivial)
        fun _ _ _ same => absurd same opens
  obtain ⟨_, outcome⟩ := twins.deeper .statement now calm trivial
  refine (outcome.and opened).mono ?_ ?_
  · exact fun _ _ ⟨⟨leads, _⟩, _⟩ => leads.calm.stands.tag
  · intro error failed ⟨leads, passed⟩
    obtain ⟨tokens, pending, strung, _⟩ := calm.stands.pending
    obtain ⟨taken, rest, moves⟩ := leads.onward tokens pending
    rw [cursor_abandon]
    exact ⟨leads.calm.stands.tag, outside_synchronize moves pending strung calm.stands.tag,
      outside_stepFrom calm.stands.reaches leads.onward calm.stands.tag passed⟩

/-- A member of a class that starts outside string literals, and its recovery. -/
theorem staysOutside_member (calm : now.Calm rounds) :
    now.StaysOutside (level options soft rounds levels).classMember
      fun cursor => cursor.skipUntil fun cursor =>
        (level options soft rounds levels).startsMember cursor.current := by
  have twins := @twins_level rounds options soft levels
  have member : Steady rounds (fun _ => True) (fun _ => True) _ _ := twins.classMember
  refine (member now calm trivial).2.mono ?_ ?_
  · exact fun _ _ ⟨leads, _⟩ => leads.calm.stands.tag
  · intro error failed leads
    obtain ⟨skips, steps⟩ := outside_skipMember (level options soft rounds levels) now
      leads.calm.stands.reaches
    rw [cursor_abandon]
    exact ⟨leads.calm.stands.tag, skips, steps⟩

/-- Text inside string literals is no code in the parse of a source text. -/
structure SparesLiterals (options : ParseOptions) (source : String) : Prop where
  /-- Every string literal that is opened is closed before any other token, and its pieces stand
  nowhere else. -/
  tokens : Tag.Literals ((lex source).tokens.map Token.tag)
  /-- The parse begins outside string literals. -/
  start : (Parser.start source).2.Calm (Parser.rounds source)
  /-- Nothing that is one level deeper begins or ends inside a string literal: whatever was done there
  instead, the parse would be the same. -/
  deeper : ∀ other : Request → Parse NodeId,
    (watchedLevel other options (Parser.start source).1 (Parser.rounds source)
      options.maxDepth).program (Parser.start source).2 = Parser.run options source
  /-- A string literal that begins is read to its end. -/
  literal : ∀ (levels : Nat) (now : Parser),
    (Parser.start source).2.Leads (Parser.rounds source) now →
    now.cursor.current.tag = .stringOpen →
    (level options (Parser.start source).1 (Parser.rounds source) levels).stringLiteral.Outcome now
      (fun _ final => (Parser.start source).2.Leads (Parser.rounds source) final) fun _ _ => False
  /-- A statement and its recovery start and stop outside string literals. -/
  statement : ∀ (levels : Nat) (now : Parser),
    (Parser.start source).2.Leads (Parser.rounds source) now →
    now.StaysOutside
      ((level options (Parser.start source).1 (Parser.rounds source) levels).deeper .statement)
      fun cursor => (cursor.synchronize .statementBoundary).2
  /-- Every round of a class body starts outside string literals. -/
  members : ∀ (levels : Nat) (now opened later : Parser) (name : Name) (ids : Array NodeId),
    (Parser.start source).2.Leads (Parser.rounds source) now → now.cursor.current.tag = .kwClass →
    (liftM Build.advance >>= fun _ => expectConstant .classBody : Parse Name).run now =
      (.ok name, opened) →
    Relation.ReflTransGen (NextRound (level options (Parser.start source).1 (Parser.rounds source)
      levels).memberStep) (#[], opened) (ids, later) →
    (Parser.start source).2.Leads (Parser.rounds source) later
  /-- A member of a class and its recovery start and stop outside string literals. -/
  member : ∀ (levels : Nat) (now : Parser),
    (Parser.start source).2.Leads (Parser.rounds source) now →
    now.StaysOutside
      (level options (Parser.start source).1 (Parser.rounds source) levels).classMember
      fun cursor => cursor.skipUntil fun cursor =>
        (level options (Parser.start source).1 (Parser.rounds source) levels).startsMember
          cursor.current

end Parser

/-- Text inside string literals is never parsed as code, whatever errors the source text has. -/
theorem sparesLiterals_parseWith (options : ParseOptions) (source : String) :
    Parser.SparesLiterals options source := by
  have begins := Parser.begins_start source
  have calm := begins.calm
  constructor
  case tokens => exact Token.literals_lex source
  case start => exact calm
  case deeper =>
    intro other
    rw [Parser.run_eq]
    exact ((Grammar.twins_of_watched other options _ options.maxDepth
      (Grammar.steady_descendWatched other options _ options.maxDepth)).program calm).1.symm
  case literal =>
    intro levels now leads opens
    obtain ⟨taken, rest, moves⟩ := leads.onward _ begins.ready.pending
    obtain ⟨inside, closes⟩ := Token.Closes.consumes moves.consumes
      (Token.Closes.of_source source.toList)
    have enough : Consumes.weight rest < Parser.rounds source := by
      have taken := moves.consumes.weight_le
      have bound := begins.ready.rounds
      omega
    have bounded : Consumes.weight rest <
        (Grammar.level options (Parser.start source).1 (Parser.rounds source) levels).rounds := enough
    have read := Grammar.outcome_opened moves.pending closes bounded opens
    have literal : Parse.Steady (Parser.rounds source) (fun _ => True) (fun _ => True) _ _ :=
      (Parser.twins_level options (Parser.start source).1 levels).stringLiteral
    exact ((literal now leads.calm trivial).2.and read).mono
      (fun _ _ ⟨⟨further, _⟩, _⟩ => leads.trans further) fun _ _ => And.right
  case statement =>
    exact fun levels now leads => Parser.staysOutside_statement options _ levels leads.calm
  case members =>
    intro levels now opened later name ids leads isClass heading goesOn
    have opens : Parse.Steady (Parser.rounds source) (fun tag => tag = .kwClass) (fun _ => True)
        (liftM Build.advance >>= fun _ => Parse.expectConstant .classBody)
        (liftM Build.advance >>= fun _ => Parse.expectConstant .classBody) :=
      .andThen (.advance fun _ same => same ▸ rfl) fun _ => Parse.Steady.expectConstant.still
    have first := opens.leads leads.calm isClass
    rw [heading] at first
    have started : (Parser.start source).2.Leads (Parser.rounds source) opened := leads.trans first
    have twins := @Parser.twins_level (Parser.rounds source) options (Parser.start source).1 levels
    exact @Parser.Leads.nextRounds _ _ _ _ _ (#[], opened) (ids, later) started twins.memberStep goesOn
  case member =>
    exact fun levels now leads => Parser.staysOutside_member options _ levels leads.calm

end Vibescript
