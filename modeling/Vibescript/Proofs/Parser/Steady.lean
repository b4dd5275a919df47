import Vibescript.Proofs.Parser.Parting
import Vibescript.Proofs.Parser.Progress

/-!
# Readings that more rounds do not change

Two grammars that differ in the number of rounds of their loops read the same from a parser that
stands in a text outside string literals, as long as no loop runs out of rounds. `Parse.Steady` is
this relation, with what is needed to go on: whether a reading succeeds or fails, the cursor ends
outside string literals, and the error nodes so far start in the text. A loop is steady when its
rounds are, and when every round that goes on consumes a token or a directive.
-/
namespace Vibescript

open Cursor

namespace Arena

/-- A node is the one that was added, or it was there before. -/
theorem node?_of_add {arena : Arena} {kind : NodeKind} {span : Span} {id : NodeId} {node : Node}
    (found : (arena.add kind span).2.node? id = some node) :
    node = ⟨kind, span⟩ ∨ arena.node? id = some node := by
  simp only [add, node?, Array.getElem?_push] at found ⊢
  split at found
  · exact .inl (Option.some.inj found).symm
  · exact .inr found

/-- A list of children adds no node. -/
theorem node?_addList (arena : Arena) (ids : List NodeId) (id : NodeId) :
    (arena.addList ids).2.node? id = arena.node? id := by
  unfold addList
  split <;> rfl

/-- A list of names adds no node. -/
theorem node?_addNames (arena : Arena) (names : List Name) (id : NodeId) :
    (arena.addNames names).2.node? id = arena.node? id := by
  unfold addNames
  split <;> rfl

/-- Taking nodes back adds none. -/
theorem node?_of_truncate {arena : Arena} {mark : ArenaMark} {id : NodeId} {node : Node}
    (found : (arena.truncate mark).node? id = some node) : arena.node? id = some node := by
  simp only [truncate, node?, Array.take, Array.getElem?_extract] at found ⊢
  split at found
  · simpa using found
  · contradiction

end Arena

/-- Every error node of an arena starts before an offset. -/
def Arena.ErrorsBefore (arena : Arena) (offset : Nat) : Prop :=
  ∀ (id : NodeId) (span : Span), arena.node? id = some ⟨.error, span⟩ → span.start < offset

/-- The length of the text stays. -/
theorem Cursor.At.length_eq {first second : Cursor} {rounds floor : Nat} {tags : Tag → Prop}
    (stands : first.At rounds floor tags) (onward : first.Onward second) :
    second.lexer.length = first.lexer.length := by
  obtain ⟨tokens, pending, _⟩ := stands.pending
  obtain ⟨taken, rest, moves⟩ := onward tokens pending
  exact congrArg Text.byteLength moves.source

/-- A parser stands in a text outside string literals, and its error nodes start in the text. -/
structure Parser.Calm (rounds : Nat) (parser : Parser) : Prop where
  /-- The cursor stands outside string literals. -/
  stands : parser.cursor.At rounds 0 fun tag => tag.isQuoted = false
  /-- The error nodes start in the text. -/
  errors : parser.arena.ErrorsBefore parser.cursor.lexer.length

/-- A parser went on and is calm. -/
structure Parser.Leads (rounds : Nat) (before after : Parser) : Prop where
  /-- It is calm. -/
  calm : after.Calm rounds
  /-- It went on. -/
  onward : before.cursor.Onward after.cursor

/-- From one parser, two readings do the same, and it is known what they do. -/
def Parse.Same {α : Type} (left right : Parse α) (parser : Parser) (success : α → Parser → Prop)
    (failure : ParseError → Parser → Prop) : Prop :=
  left.run parser = right.run parser ∧ left.Outcome parser success failure

/-- From a calm parser at one of some tags, two readings do the same and lead to a calm parser; with
some answers, a token or a directive was consumed. -/
def Parse.Steady {α : Type} (rounds : Nat) (tags : Tag → Prop) (moves : α → Prop)
    (left right : Parse α) : Prop :=
  ∀ parser : Parser, parser.Calm rounds → tags parser.cursor.current.tag →
    left.Same right parser
      (fun answer final => parser.Leads rounds final ∧
        (moves answer → parser.cursor.position < final.cursor.position))
      fun _ final => parser.Leads rounds final

namespace Parser

variable {rounds : Nat} {first second third : Parser}

/-- A calm parser that stays. -/
theorem Calm.leads (calm : first.Calm rounds) : first.Leads rounds first := ⟨calm, .refl _⟩

/-- Going on twice. -/
theorem Leads.trans (left : first.Leads rounds second) (right : second.Leads rounds third) :
    first.Leads rounds third :=
  ⟨right.calm, left.onward.trans right.onward⟩

/-- Reporting an error leaves the nodes. -/
theorem arena_reported (recovery : RecoveryMode) (error : ParseError) (parser : Parser) :
    (parser.reported recovery error).arena = parser.arena := by
  unfold reported
  split <;> rfl

/-- An error that is reported moves nothing. -/
theorem Leads.reported (leads : first.Leads rounds second) (recovery : RecoveryMode)
    (error : ParseError) : first.Leads rounds (second.reported recovery error) := by
  refine ⟨⟨?_, ?_⟩, ?_⟩
  · rw [cursor_reported]
    exact leads.calm.stands
  · rw [cursor_reported, arena_reported]
    exact leads.calm.errors
  · rw [cursor_reported]
    exact leads.onward

/-- A parser that went on outside string literals is calm when it has no more error nodes. -/
theorem Calm.go (calm : first.Calm rounds) (onward : first.cursor.Onward second.cursor)
    (outside : second.cursor.current.tag.isQuoted = false)
    (errors : ∀ id span, second.arena.node? id = some ⟨.error, span⟩ →
      first.arena.node? id = some ⟨.error, span⟩) :
    first.Leads rounds second := by
  have reached := calm.stands.onward onward
  refine ⟨⟨⟨reached.pending, reached.floor, outside⟩, ?_⟩, onward⟩
  intro id span found
  rw [calm.stands.length_eq onward]
  exact calm.errors id span (errors id span found)

/-- A calm parser whose cursor went on outside string literals. -/
theorem Calm.withCursor (calm : first.Calm rounds) {cursor : Cursor}
    (onward : first.cursor.Onward cursor) (outside : cursor.current.tag.isQuoted = false) :
    first.Leads rounds (first.withCursor cursor) :=
  calm.go onward outside fun _ _ found => found

/-- A step over a token outside string literals consumes it. -/
theorem Calm.past (calm : first.Calm rounds) (whole : first.cursor.current.tag.isWhole = true) :
    first.Leads rounds (first.withCursor first.cursor.advance.2) ∧
      first.cursor.position < first.cursor.advance.2.position := by
  have faces : first.cursor.Faces rounds 0 first.cursor.current.tag :=
    calm.stands.mono (Nat.le_refl _) fun _ => rfl
  have notEnd : first.cursor.isAtEnd = false := notAtEnd rfl fun atEnd => by
    rw [atEnd] at whole
    contradiction
  exact ⟨calm.withCursor (onward_advance _) (faces.past whole).tag,
    (beyond_advance calm.stands.reaches notEnd).2⟩

/-- Outside string literals, a token that is not the end starts before the end of the text. -/
theorem Calm.start_lt (calm : first.Calm rounds) (notEnd : first.cursor.isAtEnd = false) :
    first.cursor.current.span.start < first.cursor.lexer.length := by
  have faces : first.cursor.Faces rounds first.cursor.current.span.start first.cursor.current.tag :=
    calm.stands.here.mono (Nat.le_refl _) fun _ => rfl
  have notClosing : first.cursor.current.tag ≠ .stringClose := by
    intro closes
    have outside := calm.stands.tag
    rw [closes] at outside
    contradiction
  have further := faces.advance (beq_eq_false_iff_ne.mp notEnd) notClosing
  obtain ⟨tokens, pending, _⟩ := further.pending
  have inside := pending.start_le_length
  rw [calm.stands.length_eq (onward_advance _)] at inside
  exact Nat.lt_of_lt_of_le further.floor inside

/-- An abandoned construct gives way to an error node, which begins where the construct began. -/
theorem added_abandon (start now : Parser) :
    Build.Outcome (Grammar.abandon start.checkpoint) now fun id final => ∃ stop,
      (id, final.arena) = (now.arena.truncate start.checkpoint.mark).add .error
        ⟨start.cursor.current.span.start, stop⟩ := by
  have built (parser : Parser) : Build.Outcome (do
      Build.onArena fun arena => ((), arena.truncate start.checkpoint.mark)
      let span ← if (← Build.cursor).position == start.checkpoint.position then
          pure (Span.point start.checkpoint.start.start)
        else Build.spanFrom start.checkpoint.start
      Build.addNode .error span) parser fun id final => ∃ stop,
        (id, final.arena) = (parser.arena.truncate start.checkpoint.mark).add .error
          ⟨start.cursor.current.span.start, stop⟩ := by
    refine .bind (outcome_onArena.mpr (Build.outcome_cursor.mpr ?_))
    split
    · exact .bind ⟨_, rfl⟩
    · exact .bind ⟨_, rfl⟩
  refine Build.outcome_cursor.mpr ?_
  dsimp only
  split
  · exact .bind (built _)
  · exact built now

/-- Where an abandoned construct began, its error node begins; the other nodes were there. -/
theorem arena_abandon (start now : Parser) : ∃ stop,
    (Grammar.abandon start.checkpoint now).2.arena =
      ((now.arena.truncate start.checkpoint.mark).add .error
        ⟨start.cursor.current.span.start, stop⟩).2 := by
  obtain ⟨stop, same⟩ := added_abandon start now
  exact ⟨stop, congrArg Prod.snd same⟩

/-- Where a parser steps on to depends on cursors only. -/
theorem cursor_stepFrom (start now : Parser) : (start.stepFrom now).cursor =
    if now.cursor.position == start.cursor.position && !now.cursor.isAtEnd then now.cursor.advance.2
    else now.cursor := by
  rw [stepFrom]
  split <;> rfl

/-- A construct that failed is abandoned: at least one token is consumed, and its error node starts
in the text. -/
theorem Calm.abandoned (calm : first.Calm rounds) (notEnd : first.cursor.isAtEnd = false)
    (now : Parser) (onward : first.cursor.Onward now.cursor)
    (errors : now.arena.ErrorsBefore first.cursor.lexer.length)
    (outside : (first.stepFrom now).cursor.current.tag.isQuoted = false) :
    first.Leads rounds (Grammar.abandon first.checkpoint now).2 ∧
      first.cursor.position < (Grammar.abandon first.checkpoint now).2.cursor.position := by
  have steps : first.cursor.Onward (Grammar.abandon first.checkpoint now).2.cursor :=
    onward.trans (Build.isQuiet_abandon first.checkpoint now).onward
  have moved := position_lt_stepFrom calm.stands.reaches onward notEnd
  have reached := calm.stands.onward steps
  rw [← cursor_abandon] at moved outside
  refine ⟨⟨⟨⟨reached.pending, reached.floor, outside⟩, ?_⟩, steps⟩, moved⟩
  rw [calm.stands.length_eq steps]
  intro id span found
  obtain ⟨stop, same⟩ := arena_abandon first now
  rw [same] at found
  rcases Arena.node?_of_add found with added | before
  · obtain rfl : span = ⟨first.cursor.current.span.start, stop⟩ := congrArg Node.span added
    exact calm.start_lt notEnd
  · exact errors id span (Arena.node?_of_truncate before)

/-- A step over the first of two tokens whose tags are known. -/
theorem Calm.pastFirst {tokens : List (Token String)} {tag next : Tag} (calm : first.Calm rounds)
    (pending : first.cursor.Pending tokens) (here : TokenKind.tagAt (Token.kinds tokens) 0 = tag)
    (whole : tag.isWhole = true) (there : TokenKind.tagAt (Token.kinds tokens) 1 = next) :
    first.Leads rounds (first.withCursor first.cursor.advance.2) ∧
      first.cursor.position < first.cursor.advance.2.position ∧
      first.cursor.advance.2.current.tag = next := by
  have current : first.cursor.current.tag = tag := pending.tag.trans here
  have notEnd : first.cursor.isAtEnd = false := notAtEnd current fun atEnd => by
    rw [atEnd] at whole
    contradiction
  obtain ⟨leads, moved⟩ := calm.past (current ▸ whole)
  exact ⟨leads, moved, (pending.tag_advance notEnd).trans there⟩

/-- A question about the tokens ahead, and what its answer tells of them. -/
theorem Calm.asks {α : Type} {question : Lookahead α} {property : List (Token String) → α → Prop}
    (calm : first.Calm rounds)
    (tells : ∀ source tokens, question.Tells source tokens [] (property tokens)) :
    first.Leads rounds (first.withCursor (question first.cursor).2) ∧
      (question first.cursor).2.current = first.cursor.current ∧
      ∃ tokens, (question first.cursor).2.Pending tokens ∧
        property tokens (question first.cursor).1 := by
  have looks (tokens : List (Token String)) (pending : first.cursor.Pending tokens) :=
    tells first.cursor.source tokens first.cursor rfl pending nofun
  have onward := Looks.onward fun tokens pending => (looks tokens pending).1
  obtain ⟨tokens, pending, _⟩ := calm.stands.pending
  obtain ⟨looked, holds⟩ := looks tokens pending
  have same := looked.current
  refine ⟨calm.withCursor onward ?_, same, tokens, looked.pending, holds⟩
  rw [same]
  exact calm.stands.tag

end Parser

/-- When a token or a directive is consumed, one round less is needed. -/
theorem Cursor.At.fewer_of_lt {first second : Cursor} {count floor : Nat} {tags : Tag → Prop}
    (stands : first.At (count + 1) floor tags) (onward : first.Onward second)
    (moved : first.position < second.position) : second.Reaches count floor := by
  have reached := (stands.onward onward).floor
  obtain ⟨tokens, pending, strung, bound⟩ := stands.pending
  obtain ⟨taken, rest, moves⟩ := onward tokens pending
  have counted := moves.position
  have fewer := moves.consumes.weight_le
  exact ⟨⟨rest, moves.pending, moves.strung pending strung, by omega⟩, reached, trivial⟩

namespace Parse.Same

variable {α β : Type} {left right : Parse α} {leftNext rightNext : α → Parse β}
  {parser middle : Parser} {success between : α → Parser → Prop} {last : β → Parser → Prop}
  {failure worse : ParseError → Parser → Prop}

/-- Less is known. -/
theorem mono (same : left.Same right parser between worse)
    (succeeds : ∀ answer final, between answer final → success answer final)
    (fails : ∀ error final, worse error final → failure error final) :
    left.Same right parser success failure :=
  ⟨same.1, same.2.mono succeeds fails⟩

/-- One reading after another. -/
theorem bind (first : left.Same right parser between failure)
    (second : ∀ answer middle, between answer middle →
      (leftNext answer).Same (rightNext answer) middle last failure) :
    Parse.Same (left >>= leftNext) (right >>= rightNext) parser last failure := by
  obtain ⟨same, outcome⟩ := first
  rcases ran : left.run parser with ⟨result, middle⟩
  rw [Parse.Outcome, Build.Outcome, ran] at outcome
  rw [ran] at same
  cases result with
  | ok answer =>
    obtain ⟨sameNext, later⟩ := second answer middle outcome
    constructor
    · rw [run_bind_ok ran, run_bind_ok same.symm, sameNext]
    · rw [Parse.Outcome, Build.Outcome, run_bind_ok ran]
      exact later
  | error error =>
    constructor
    · rw [run_bind_error ran, run_bind_error same.symm]
    · rw [Parse.Outcome, Build.Outcome, run_bind_error ran]
      exact outcome

/-- The same step before two readings. -/
theorem step {step : Build α}
    (next : (leftNext (step parser).1).Same (rightNext (step parser).1) (step parser).2 last
      failure) :
    Parse.Same (liftM step >>= leftNext) (liftM step >>= rightNext) parser last failure :=
  @bind _ _ _ _ _ _ _ (fun answer middle => answer = (step parser).1 ∧ middle = (step parser).2) _
    _ ⟨rfl, .lift ⟨rfl, rfl⟩⟩ fun _ _ ⟨answer, middle⟩ => answer ▸ middle ▸ next

end Parse.Same

namespace Parse.Steady

open Build

variable {α β : Type} {rounds : Nat} {tags others : Tag → Prop} {moves : α → Prop}
  {last : β → Prop} {left right : Parse α} {leftNext rightNext : α → Parse β}

/-- Less is known. -/
theorem imp {weaker : α → Prop} (steady : Steady rounds others moves left right)
    (enough : ∀ tag, tags tag → others tag) (implies : ∀ answer, weaker answer → moves answer) :
    Steady rounds tags weaker left right := by
  intro parser calm stands
  obtain ⟨same, outcome⟩ := steady parser calm (enough _ stands)
  exact ⟨same, outcome.imp fun answer final ⟨leads, moved⟩ =>
    ⟨leads, fun holds => moved (implies answer holds)⟩⟩

/-- Nothing is known of where a reading begins. -/
theorem anywhere (steady : Steady rounds (fun _ => True) moves left right) :
    Steady rounds tags moves left right :=
  steady.imp (fun _ _ => trivial) fun _ holds => holds

/-- It is not asked whether a token was consumed. -/
theorem still (steady : Steady rounds tags moves left right) :
    Steady rounds tags (fun _ => False) left right :=
  steady.imp (fun _ holds => holds) nofun

/-- An answer. -/
theorem pure (answer : α) :
    Steady rounds tags (fun _ => False) (Pure.pure answer : Parse α) (Pure.pure answer) :=
  fun _ calm _ => ⟨rfl, .pure ⟨calm.leads, nofun⟩⟩

/-- The shape of one reading after another. -/
theorem bindWith {stepped : β → Prop} {lasts : α → β → Prop}
    (first : Steady rounds tags moves left right)
    (second : ∀ answer, Steady rounds (fun _ => True) (lasts answer) (leftNext answer)
      (rightNext answer))
    (either : ∀ answer result, stepped result → moves answer ∨ lasts answer result) :
    Steady rounds tags stepped (left >>= leftNext) (right >>= rightNext) := by
  intro parser calm stands
  refine (first parser calm stands).bind fun answer middle ⟨leads, moved⟩ => ?_
  refine (second answer middle leads.calm trivial).mono ?_ fun _ _ further => leads.trans further
  intro result final ⟨further, steps⟩
  refine ⟨leads.trans further, fun holds => ?_⟩
  have first := calm.stands.position_le leads.onward
  have second := leads.calm.stands.position_le further.onward
  rcases either answer result holds with early | late
  · have step := moved early
    omega
  · have step := steps late
    omega

/-- The end of a loop. -/
theorem done (answer : α) :
    Steady rounds tags goesOn (Pure.pure (.done answer) : Parse (ForInStep α))
      (Pure.pure (.done answer)) :=
  fun _ calm _ => ⟨rfl, .pure ⟨calm.leads, nofun⟩⟩

/-- A reading that begins after others. -/
theorem later {start now : Parser} (steady : Steady rounds tags moves left right)
    (calm : start.Calm rounds) (leads : start.Leads rounds now)
    (stands : tags now.cursor.current.tag) :
    left.Same right now
      (fun answer final => start.Leads rounds final ∧
        (moves answer → start.cursor.position < final.cursor.position))
      fun _ final => start.Leads rounds final := by
  refine (steady now leads.calm stands).mono ?_ fun _ _ further => leads.trans further
  intro answer final ⟨further, moved⟩
  refine ⟨leads.trans further, fun holds => ?_⟩
  have le := calm.stands.position_le leads.onward
  have step := moved holds
  omega

/-- One reading after another. -/
theorem bind (first : Steady rounds tags moves left right)
    (second : ∀ answer, Steady rounds (fun _ => True) last (leftNext answer) (rightNext answer)) :
    Steady rounds tags last (left >>= leftNext) (right >>= rightNext) :=
  bindWith first second fun _ _ => .inr

/-- A reading after one that consumes a token. -/
theorem andThen {stepped : β → Prop} (first : Steady rounds tags (fun _ => True) left right)
    (second : ∀ answer, Steady rounds (fun _ => True) (fun _ => False) (leftNext answer)
      (rightNext answer)) :
    Steady rounds tags stepped (left >>= leftNext) (right >>= rightNext) :=
  bindWith first second fun _ _ _ => .inl trivial

/-- The answer is changed. -/
theorem map {change : α → β} (steady : Steady rounds tags moves left right) :
    Steady rounds tags (fun _ => False) (change <$> left) (change <$> right) := by
  rw [map_eq_pure_bind, map_eq_pure_bind]
  exact steady.bind fun _ => .pure _

/-- A step before other readings, with what is known of the current token after it. -/
theorem step {step : Build α} {after : α → Tag → Prop}
    (leads : ∀ parser : Parser, parser.Calm rounds → tags parser.cursor.current.tag →
      parser.Leads rounds (step parser).2 ∧
        after (step parser).1 (step parser).2.cursor.current.tag)
    (next : ∀ answer, Steady rounds (after answer) last (leftNext answer) (rightNext answer)) :
    Steady rounds tags last (liftM step >>= leftNext) (liftM step >>= rightNext) := by
  intro parser calm stands
  obtain ⟨goes, known⟩ := leads parser calm stands
  exact .step ((next _).later calm goes known)

/-- A step by itself. -/
theorem lift {step : Build α}
    (leads : ∀ parser : Parser, parser.Calm rounds → tags parser.cursor.current.tag →
      parser.Leads rounds (step parser).2 ∧
        (moves (step parser).1 → parser.cursor.position < (step parser).2.cursor.position)) :
    Steady rounds tags moves (liftM step) (liftM step) :=
  fun parser calm stands => ⟨rfl, .lift (leads parser calm stands)⟩

/-- A step that builds no error node and leaves the cursor. -/
theorem builds {step : Build α} (still : ∀ parser : Parser,
      (step parser).2.cursor = parser.cursor ∧
        ∀ id span, (step parser).2.arena.node? id = some ⟨.error, span⟩ →
          parser.arena.node? id = some ⟨.error, span⟩)
    (next : ∀ answer, Steady rounds tags last (leftNext answer) (rightNext answer)) :
    Steady rounds tags last (liftM step >>= leftNext) (liftM step >>= rightNext) := by
  refine @Parse.Steady.step _ _ _ tags _ _ _ _ (fun _ => tags) (fun parser calm stands => ?_) next
  obtain ⟨cursor, errors⟩ := still parser
  refine ⟨calm.go (cursor ▸ .refl _) (cursor ▸ calm.stands.tag) errors, ?_⟩
  rw [cursor]
  exact stands

/-- A failure at the current token. -/
theorem fail {code : ErrorCode} {expected : TagSet} {dress : ParseError → ParseError} :
    Steady rounds tags moves
      (liftM (unexpected code expected) >>= fun error => (throw (dress error) : Parse α))
      (liftM (unexpected code expected) >>= fun error => throw (dress error)) :=
  fun _ calm _ => ⟨rfl, Parse.outcome_unexpected.mpr (.throw calm.leads)⟩

/-- A failure with an error that was made before. -/
theorem throw {error : ParseError} :
    Steady rounds tags moves (MonadExcept.throw error : Parse α) (MonadExcept.throw error) :=
  fun _ calm _ => ⟨rfl, .throw calm.leads⟩

/-- A choice by an answer. -/
theorem choose {found : Bool} {leftElse rightElse : Parse α}
    (yes : Steady rounds tags moves left right)
    (no : Steady rounds tags moves leftElse rightElse) :
    Steady rounds tags moves (if found = true then left else leftElse)
      (if found = true then right else rightElse) := by
  cases found with
  | true => exact yes
  | false => exact no

/-- Asking for the current token. -/
theorem current {leftNext rightNext : Token Name → Parse β}
    (next : ∀ token : Token Name, tags token.tag →
      Steady rounds (fun tag => tag = token.tag) last (leftNext token) (rightNext token)) :
    Steady rounds tags last (liftM Build.current >>= leftNext)
      (liftM Build.current >>= rightNext) :=
  fun parser calm stands => next parser.cursor.current stands parser calm rfl

/-- Asking for the tag of the current token. -/
theorem currentTag {leftNext rightNext : Tag → Parse β}
    (next : ∀ tag, tags tag →
      Steady rounds (fun current => current = tag) last (leftNext tag) (rightNext tag)) :
    Steady rounds tags last (liftM Build.currentTag >>= leftNext)
      (liftM Build.currentTag >>= rightNext) :=
  fun parser calm stands => next parser.cursor.current.tag stands parser calm rfl

/-- Asking whether the current token has a tag. -/
theorem check {tag : Tag} {leftNext rightNext : Bool → Parse β}
    (yes : Steady rounds (fun current => current = tag) last (leftNext true) (rightNext true))
    (no : Steady rounds tags last (leftNext false) (rightNext false)) :
    Steady rounds tags last (liftM (Build.check tag) >>= leftNext)
      (liftM (Build.check tag) >>= rightNext) := by
  intro parser calm stands
  refine .step ?_
  show (leftNext (parser.cursor.check tag)).Same (rightNext (parser.cursor.check tag)) parser _ _
  cases found : parser.cursor.check tag with
  | true => exact yes parser calm (beq_iff_eq.mp found)
  | false => exact no parser calm stands

/-- Asking for the cursor. -/
theorem cursor {leftNext rightNext : Cursor → Parse β}
    (next : ∀ cursor : Cursor, Steady rounds tags last (leftNext cursor) (rightNext cursor)) :
    Steady rounds tags last (liftM Build.cursor >>= leftNext) (liftM Build.cursor >>= rightNext) :=
  fun parser calm stands => next parser.cursor parser calm stands

/-- Asking for the span of a node. -/
theorem nodeSpan {id : NodeId} {leftNext rightNext : Span → Parse β}
    (next : ∀ span : Span, Steady rounds tags last (leftNext span) (rightNext span)) :
    Steady rounds tags last (liftM (Build.nodeSpan id) >>= leftNext)
      (liftM (Build.nodeSpan id) >>= rightNext) :=
  fun parser calm stands => next (parser.arena.span id) parser calm stands

/-- Asking a question about the tokens ahead. -/
theorem ask {question : Lookahead α} (asks : question.Peeks)
    (next : ∀ answer, Steady rounds tags last (leftNext answer) (rightNext answer)) :
    Steady rounds tags last (liftM (onCursor question) >>= leftNext)
      (liftM (onCursor question) >>= rightNext) := by
  refine @Parse.Steady.step _ _ _ tags _ _ _ _ (fun _ => tags) (fun parser calm stands => ?_) next
  have looked := calm.stands.looks (asks parser.cursor)
  obtain ⟨tokens, pending, _⟩ := calm.stands.pending
  have same : (question parser.cursor).2.current = parser.cursor.current :=
    (asks parser.cursor tokens pending).current
  refine ⟨calm.withCursor (asks.onward parser.cursor) looked.tag, ?_⟩
  show tags (question parser.cursor).2.current.tag
  rw [same]
  exact stands

/-- Interning a text. -/
theorem intern {text : String} {leftNext rightNext : Name → Parse β}
    (next : ∀ name, Steady rounds tags last (leftNext name) (rightNext name)) :
    Steady rounds tags last (liftM (Build.intern text) >>= leftNext)
      (liftM (Build.intern text) >>= rightNext) :=
  @ask _ _ _ _ _ _ _ (fun cursor => cursor.intern text)
    (fun _ _ pending => Cursor.looks_intern pending text) next

/-- A node that is no error. -/
theorem addNode {kind : NodeKind} (plain : kind ≠ .error) (span : Span) :
    Steady rounds tags (fun _ => False) (liftM (Build.addNode kind span))
      (liftM (Build.addNode kind span)) := by
  refine .lift fun parser calm _ => ⟨calm.go (.refl _) calm.stands.tag ?_, nofun⟩
  intro id found error
  rcases Arena.node?_of_add error with same | before
  · exact absurd (congrArg Node.kind same).symm plain
  · exact before

/-- A list of children. -/
theorem addList (ids : Array NodeId) :
    Steady rounds tags (fun _ => False) (liftM (Build.addList ids)) (liftM (Build.addList ids)) := by
  refine .lift fun parser calm _ => ⟨calm.go (.refl _) calm.stands.tag fun id span error => ?_, nofun⟩
  have same : (parser.arena.addList ids.toList).2.node? id = some ⟨.error, span⟩ := error
  rwa [Arena.node?_addList] at same

/-- A list of names. -/
theorem addNames (names : Array Name) :
    Steady rounds tags (fun _ => False) (liftM (Build.addNames names))
      (liftM (Build.addNames names)) := by
  refine .lift fun parser calm _ => ⟨calm.go (.refl _) calm.stands.tag fun id span error => ?_, nofun⟩
  have same : (parser.arena.addNames names.toList).2.node? id = some ⟨.error, span⟩ := error
  rwa [Arena.node?_addNames] at same

/-- A node that is closed and is no error. -/
theorem close {kind : NodeKind} (plain : kind ≠ .error) (start : Span) :
    Steady rounds tags (fun _ => False) (liftM (Build.close kind start))
      (liftM (Build.close kind start)) :=
  fun parser calm stands =>
    addNode plain ⟨start.start, max parser.cursor.previous.stop start.start⟩ parser calm stands

/-- A step over a token outside string literals. -/
theorem advance (whole : ∀ tag, tags tag → tag.isWhole = true) :
    Steady rounds tags (fun _ => True) (liftM Build.advance) (liftM Build.advance) := by
  refine .lift fun parser calm stands => ?_
  obtain ⟨leads, moved⟩ := calm.past (whole _ stands)
  exact ⟨leads, fun _ => moved⟩

/-- A step over a token with a tag, or none. -/
theorem eat {tag : Tag} (whole : tag.isWhole = true) :
    Steady rounds tags (fun found => found = true) (liftM (Build.eat tag))
      (liftM (Build.eat tag)) := by
  refine .lift fun parser calm _ => ?_
  show parser.Leads rounds (parser.withCursor (parser.cursor.eat tag).2) ∧
    ((parser.cursor.eat tag).1 = true → parser.cursor.position < (parser.cursor.eat tag).2.position)
  unfold Cursor.eat
  by_cases found : parser.cursor.check tag = true
  · rw [if_pos found]
    have same : parser.cursor.current.tag = tag := beq_iff_eq.mp found
    obtain ⟨leads, moved⟩ := calm.past (same ▸ whole)
    exact ⟨leads, fun _ => moved⟩
  · rw [if_neg found]
    exact ⟨calm.leads, nofun⟩

/-- Splitting a symbol. -/
theorem splitSymbol :
    Steady rounds tags (fun _ => False) (liftM Build.splitSymbol) (liftM Build.splitSymbol) :=
  .lift fun parser calm _ =>
    ⟨calm.withCursor parser.cursor.onward_splitSymbol (isQuoted_splitSymbol calm.stands.tag), nofun⟩

/-- A token with a tag, or a failure. -/
theorem expectWith {code : ErrorCode} {tag : Tag} (whole : tag.isWhole = true)
    {construct : Construct} :
    Steady rounds tags (fun _ => True) (Parse.expectWith code tag construct)
      (Parse.expectWith code tag construct) :=
  .check (.advance fun _ same => same ▸ whole) .fail

/-- A token with a tag, or a failure. -/
theorem expect {tag : Tag} (whole : tag.isWhole = true) {construct : Construct} :
    Steady rounds tags (fun _ => True) (Parse.expect tag construct) (Parse.expect tag construct) :=
  expectWith whole

/-- An identifier, or a failure. -/
theorem expectIdentifier {construct : Construct} :
    Steady rounds tags (fun _ => True) (Parse.expectIdentifier construct)
      (Parse.expectIdentifier construct) := by
  refine .current fun token _ => ?_
  split
  · next name same =>
    have tag : token.tag = .identifier := congrArg TokenKind.tag same
    rw [tag]
    exact .andThen (.advance fun _ same => same ▸ rfl) fun _ => .pure _
  · exact .fail

/-- A constant, or a failure. -/
theorem expectConstant {construct : Construct} :
    Steady rounds tags (fun _ => True) (Parse.expectConstant construct)
      (Parse.expectConstant construct) := by
  refine .current fun token _ => ?_
  split
  · next name same =>
    have tag : token.tag = .constant := congrArg TokenKind.tag same
    rw [tag]
    exact .andThen (.advance fun _ same => same ▸ rfl) fun _ => .pure _
  · exact .fail

/-- The `end` of a block, or a failure. -/
theorem expectEnd {opener : Tag} {span : Span} {construct : Construct} :
    Steady rounds tags (fun _ => True) (Parse.expectEnd opener span construct)
      (Parse.expectEnd opener span construct) :=
  .check (.andThen (.advance fun _ same => same ▸ rfl) fun _ => .pure _) .fail

/-- The closing bracket of a list, or a failure. -/
theorem expectCloser {code : ErrorCode} {closer : Tag} (whole : closer.isWhole = true)
    {construct : Construct} :
    Steady rounds tags (fun _ => False) (Grammar.expectCloser code closer construct)
      (Grammar.expectCloser code closer construct) := by
  refine .bind (eat whole) fun found => ?_
  cases found with
  | true => exact .pure _
  | false => exact .fail

end Parse.Steady

/-- Loops whose rounds do the same do the same, however many rounds more than needed they have:
every round that goes on consumes a token or a directive. -/
theorem Parse.Same.repeatWithin {σ : Type} {left right : σ → Parse (ForInStep σ)}
    {holds : Parser → Prop} {ends : σ → Parser → Prop} {fails : Parser → Prop}
    (round : ∀ state parser, holds parser → (left state).Same (right state) parser
      (fun result final => parser.cursor.Onward final.cursor ∧
        match result with
        | .yield _ => holds final ∧ parser.cursor.position < final.cursor.position
        | .done state => ends state final)
      fun _ final => parser.cursor.Onward final.cursor ∧ fails final)
    {count more fewer : Nat} (enough : count ≤ more) (enoughToo : count ≤ fewer) (state : σ)
    (parser : Parser) (start : holds parser) (bound : parser.cursor.Reaches count 0) :
    (Grammar.repeatWithin left more state).Same (Grammar.repeatWithin right fewer state) parser
      (fun state final => parser.cursor.Onward final.cursor ∧ ends state final)
      fun _ final => parser.cursor.Onward final.cursor ∧ fails final := by
  induction count generalizing more fewer state parser with
  | zero =>
    obtain ⟨_, _, _, none⟩ := bound.pending
    exact absurd none (Nat.not_lt_zero _)
  | succ count ih =>
    obtain ⟨more, rfl⟩ : ∃ left, more = left + 1 := ⟨more - 1, by omega⟩
    obtain ⟨fewer, rfl⟩ : ∃ left, fewer = left + 1 := ⟨fewer - 1, by omega⟩
    rw [Grammar.repeatWithin, Grammar.repeatWithin]
    refine (round state parser start).bind fun result middle went => ?_
    obtain ⟨onward, kept⟩ := went
    cases result with
    | done state => exact ⟨rfl, .pure ⟨onward, kept⟩⟩
    | yield state =>
      obtain ⟨kept, moved⟩ := kept
      have reached := bound.fewer_of_lt onward moved
      have later := ih (Nat.le_of_succ_le_succ enough) (Nat.le_of_succ_le_succ enoughToo) state
        middle kept reached
      exact later.mono (fun _ _ => And.imp_left onward.trans) fun _ _ => And.imp_left onward.trans

/-- A loop whose rounds are steady and consume something is steady. -/
theorem Parse.Steady.loop {σ : Type} {rounds more fewer : Nat} {tags : Tag → Prop}
    {left right : σ → Parse (ForInStep σ)} {state : σ} (enough : rounds ≤ more)
    (enoughToo : rounds ≤ fewer)
    (round : ∀ state, Steady rounds (fun _ => True) goesOn (left state) (right state)) :
    Steady rounds tags (fun _ => False) (Grammar.repeatWithin left more state)
      (Grammar.repeatWithin right fewer state) := by
  intro parser calm _
  have same := @Parse.Same.repeatWithin _ left right (Parser.Calm rounds)
    (fun _ => Parser.Calm rounds) (Parser.Calm rounds) ?_ _ _ _ enough enoughToo state parser calm
    calm.stands.reaches
  · exact same.mono (fun _ _ ⟨onward, calm⟩ => ⟨⟨calm, onward⟩, nofun⟩)
      fun _ _ ⟨onward, calm⟩ => ⟨calm, onward⟩
  · intro state parser calm
    refine (round state parser calm trivial).mono ?_ fun _ _ leads => ⟨leads.onward, leads.calm⟩
    intro result final ⟨leads, moved⟩
    cases result with
    | yield state => exact ⟨leads.onward, leads.calm, moved trivial⟩
    | done state => exact ⟨leads.onward, leads.calm⟩

end Vibescript
