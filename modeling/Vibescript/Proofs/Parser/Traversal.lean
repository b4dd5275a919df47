import Vibescript.Proofs.Parser.Completeness
import Vibescript.Proofs.Parser.Tracking

/-!
# Readings over tokens whose tags are known

An unspoilt parser that stands before tokens with known tags reads an import, or a call of the import
function by another name, token by token. What is left to it afterwards are the tokens that come
next. A reading may be allowed to fail, as every expression is at the nesting limit; nothing is
reported then.
-/
namespace Vibescript

open Build Parse Grammar

namespace Build

/-- A node that stands for no error. -/
theorem isStill_addNode {kind : NodeKind} (plain : kind ≠ .error) (span : Span) :
    IsStill (addNode kind span) :=
  isStill_onArena fun arena => arena.gains_add plain span

/-- A node over everything from a place to what was consumed last. -/
theorem isStill_close {kind : NodeKind} (plain : kind ≠ .error) (start : Span) :
    IsStill (close kind start) :=
  .bind (fun parser => ⟨_, parser.arena, .refl, .refl _, rfl⟩) fun span =>
    isStill_addNode plain span

/-- A list of children. -/
theorem isStill_addList (ids : Array NodeId) : IsStill (addList ids) :=
  isStill_onArena fun arena => arena.gains_addList _

end Build

/-- The tag of the first of some tokens, before another. -/
def Tag.firstOf (tags : List Tag) (next : Tag) : Tag := tags.head?.getD next

/-- Whatever unspoilt parser stands before tokens with these tags and one with the next tag, a reading
takes the first ones and has an answer with a property, or it fails where it is allowed to, and
nothing was reported. -/
def Parse.Traverses {α : Type} (source : String) (soft : SoftNames) (rounds : Nat) (refuses : Prop)
    (reading : Parse α) (tags : List Tag) (next : Tag) (holds : α → Prop) : Prop :=
  ∀ (parser : Parser) (read rest : List (Token String)), read.map Token.tag = tags →
    TokenKind.tagAt (rest.map Token.kind) 0 = next →
    parser.Unspoilt source soft rounds (read ++ rest) →
    reading.Outcome parser
      (fun answer after => holds answer ∧ after.Unspoilt source soft rounds rest)
      fun _ final => refuses ∧ final.errors = #[] ∧ final.isHalted = false

/-- Every token counts. -/
theorem Consumes.length_le_weight (tokens : List (Token String)) :
    tokens.length ≤ weight tokens := by
  induction tokens with
  | nil => exact Nat.zero_le _
  | cons token tokens ih =>
    rw [List.length_cons, weight_cons]
    split <;> omega

/-- Fewer tokens are left than any loop has rounds. -/
theorem Parser.Unspoilt.length_lt {source : String} {soft : SoftNames} {rounds : Nat}
    {parser : Parser} {left : List (Token String)}
    (unspoilt : parser.Unspoilt source soft rounds left) : left.length < rounds := by
  obtain ⟨tokens, pending, _, bound⟩ := unspoilt.reaches.pending
  have same := unspoilt.sees.unique ⟨tokens, pending, rfl⟩
  have fewer : (Token.ordinary tokens).length ≤ tokens.length := List.length_filter_le _ _
  have weight := Consumes.length_le_weight tokens
  rw [same]
  omega

namespace Parse.Traverses

variable {α β : Type} {source : String} {soft : SoftNames} {rounds count : Nat} {refuses : Prop}
  {reading : Parse α} {tags others : List Tag} {tag next : Tag} {holds : α → Prop}
  {last : β → Prop}

/-- The tag of the first token that is left. -/
theorem tagAt_append {read rest : List (Token String)} (isRead : read.map Token.tag = tags)
    (follows : TokenKind.tagAt (rest.map Token.kind) 0 = next) :
    TokenKind.tagAt ((read ++ rest).map Token.kind) 0 = Tag.firstOf tags next := by
  subst isRead follows
  cases read <;> rfl

/-- The current token has the first tag. -/
theorem tag_eq {parser : Parser} {read rest : List (Token String)}
    (unspoilt : parser.Unspoilt source soft rounds (read ++ rest))
    (isRead : read.map Token.tag = tags)
    (follows : TokenKind.tagAt (rest.map Token.kind) 0 = next) :
    parser.cursor.current.tag = Tag.firstOf tags next :=
  unspoilt.sees.tag.trans (tagAt_append isRead follows)

/-- A reading that may not fail has an answer. -/
theorem run (traverses : Traverses source soft rounds False reading tags next holds)
    {parser : Parser} {read rest : List (Token String)} (isRead : read.map Token.tag = tags)
    (follows : TokenKind.tagAt (rest.map Token.kind) 0 = next)
    (unspoilt : parser.Unspoilt source soft rounds (read ++ rest)) :
    ∃ answer after, reading.run parser = (.ok answer, after) ∧ holds answer ∧
      after.Unspoilt source soft rounds rest := by
  have outcome := traverses parser read rest isRead follows unspoilt
  rw [Parse.Outcome, Build.Outcome] at outcome
  generalize reading.run parser = ran at outcome
  obtain ⟨result, after⟩ := ran
  cases result with
  | ok answer => exact ⟨answer, after, rfl, outcome⟩
  | error error => exact outcome.1.elim

/-- An answer. -/
theorem pure {answer : α} (known : holds answer) :
    Traverses source soft rounds refuses (Pure.pure answer) [] next holds := by
  intro parser read rest isRead _ unspoilt
  obtain rfl := List.map_eq_nil_iff.mp isRead
  exact .pure ⟨known, unspoilt⟩

/-- One reading after another. -/
theorem bind {more : α → Parse β}
    (first : Traverses source soft rounds refuses reading tags (Tag.firstOf others next) holds)
    (second : ∀ answer, holds answer →
      Traverses source soft rounds refuses (more answer) others next last) :
    Traverses source soft rounds refuses (reading >>= more) (tags ++ others) next last := by
  intro parser read rest isRead follows unspoilt
  obtain ⟨before, after, rfl, isBefore, isAfter⟩ := List.map_eq_append_iff.mp isRead
  rw [List.append_assoc] at unspoilt
  refine .bind ((first parser before _ isBefore (tagAt_append isAfter follows) unspoilt).imp ?_)
  exact fun answer middle ⟨known, left⟩ => second answer known middle after rest isAfter follows left

/-- A reading of one token, and another. -/
theorem take {more : α → Parse β}
    (first : Traverses source soft rounds refuses reading [tag] (Tag.firstOf others next) holds)
    (second : ∀ answer, holds answer →
      Traverses source soft rounds refuses (more answer) others next last) :
    Traverses source soft rounds refuses (reading >>= more) (tag :: others) next last :=
  bind first second

/-- A reading of no token, and another. -/
theorem rest {more : α → Parse β}
    (first : Traverses source soft rounds refuses reading [] (Tag.firstOf tags next) holds)
    (second : ∀ answer, holds answer →
      Traverses source soft rounds refuses (more answer) tags next last) :
    Traverses source soft rounds refuses (reading >>= more) tags next last :=
  bind first second

/-- A step that interns names and builds nodes. -/
theorem still {step : Build α} (isStill : step.IsStill) :
    Traverses source soft rounds refuses (liftM step) [] next fun _ => True := by
  intro parser read rest isRead _ unspoilt
  obtain rfl := List.map_eq_nil_iff.mp isRead
  exact Build.Outcome.lift ⟨trivial, unspoilt.still isStill⟩

/-- A step to the next token. -/
theorem advance :
    Traverses source soft rounds refuses (liftM Build.advance) [tag] next fun _ => True := by
  intro parser read rest isRead _ unspoilt
  obtain ⟨token, isToken, _⟩ := List.map_eq_singleton_iff.mp isRead
  subst isToken
  exact Build.Outcome.lift ⟨trivial, unspoilt.advance⟩

/-- A question about the current token. -/
theorem current {more : Token Name → Parse β}
    (traverses : ∀ token : Token Name, token.tag = Tag.firstOf tags next →
      Traverses source soft rounds refuses (more token) tags next last) :
    Traverses source soft rounds refuses (liftM Build.current >>= more) tags next last :=
  fun parser read rest isRead follows unspoilt => Parse.outcome_current.mpr
    (traverses _ (tag_eq unspoilt isRead follows) parser read rest isRead follows unspoilt)

/-- A question about the cursor. -/
theorem cursor {more : Cursor → Parse β}
    (traverses : ∀ cursor : Cursor, cursor.current.tag = Tag.firstOf tags next →
      Traverses source soft rounds refuses (more cursor) tags next last) :
    Traverses source soft rounds refuses (liftM Build.cursor >>= more) tags next last :=
  fun parser read rest isRead follows unspoilt => Parse.outcome_cursor.mpr
    (traverses _ (tag_eq unspoilt isRead follows) parser read rest isRead follows unspoilt)

/-- A question about the tag of the current token. -/
theorem currentTag {more : Tag → Parse β}
    (traverses : Traverses source soft rounds refuses (more (Tag.firstOf tags next)) tags next last) :
    Traverses source soft rounds refuses (liftM Build.currentTag >>= more) tags next last := by
  intro parser read rest isRead follows unspoilt
  refine Parse.outcome_currentTag.mpr ?_
  rw [tag_eq unspoilt isRead follows]
  exact traverses parser read rest isRead follows unspoilt

/-- The current token has the tag that is asked for. -/
theorem check {more : Bool → Parse β}
    (traverses : Traverses source soft rounds refuses (more true) (tag :: tags) next last) :
    Traverses source soft rounds refuses (liftM (Build.check tag) >>= more) (tag :: tags) next
      last := by
  intro parser read rest isRead follows unspoilt
  have same : parser.cursor.current.tag = tag := tag_eq unspoilt isRead follows
  refine Parse.outcome_check.mpr ?_
  rw [Cursor.check, same, beq_self_eq_true]
  exact traverses parser read rest isRead follows unspoilt

/-- The current token does not have the tag that is asked for. -/
theorem check_other {more : Bool → Parse β} (other : Tag.firstOf tags next ≠ tag)
    (traverses : Traverses source soft rounds refuses (more false) tags next last) :
    Traverses source soft rounds refuses (liftM (Build.check tag) >>= more) tags next last := by
  intro parser read rest isRead follows unspoilt
  refine Parse.outcome_check.mpr ?_
  rw [Cursor.check, tag_eq unspoilt isRead follows, beq_false_of_ne other]
  exact traverses parser read rest isRead follows unspoilt

/-- A question about the span of a node. -/
theorem nodeSpan {id : NodeId} {more : Span → Parse β}
    (traverses : ∀ span, Traverses source soft rounds refuses (more span) tags next last) :
    Traverses source soft rounds refuses (liftM (Build.nodeSpan id) >>= more) tags next last :=
  fun parser read rest isRead follows unspoilt => Parse.outcome_nodeSpan.mpr
    (traverses _ parser read rest isRead follows unspoilt)

/-- A token that is no symbol is not split. -/
theorem unsplit {more : Bool → Parse β} (other : Tag.firstOf tags next ≠ .symbol)
    (traverses : Traverses source soft rounds refuses (more false) tags next last) :
    Traverses source soft rounds refuses (liftM Build.splitSymbol >>= more) tags next last := by
  intro parser read rest isRead follows unspoilt
  have same := parser.cursor.splitSymbol_of_ne (tag_eq unspoilt isRead follows ▸ other)
  refine .bind (Build.Outcome.lift (Parser.outcome_onCursor.mpr ?_))
  rw [same]
  exact traverses parser read rest isRead follows unspoilt

/-- A question whether a key of an argument starts here, which its second tag answers. -/
theorem isKeyword {first second : Tag} {more : Bool → Parse β}
    (traverses : Traverses source soft rounds refuses (more (second == .colon || second == .symbol))
      (first :: second :: tags) next last) :
    Traverses source soft rounds refuses (liftM (Build.ask Lookahead.isKeyword) >>= more)
      (first :: second :: tags) next last := by
  intro parser read rest isRead follows unspoilt
  obtain ⟨tokens, pending, isLeft⟩ := unspoilt.sees
  obtain ⟨looked, answer⟩ := @Lookahead.tells_isKeyword parser.cursor.source tokens []
    parser.cursor rfl pending nofun
  obtain ⟨one, more, rfl, isFirst, isMore⟩ := List.map_eq_cons_iff.mp isRead
  obtain ⟨two, others, rfl, isSecond, _⟩ := List.map_eq_cons_iff.mp isMore
  have isAnswer : (Lookahead.isKeyword parser.cursor).1 =
      (second == .colon || second == .symbol) := by
    rw [answer, Token.kinds, isLeft, ← isSecond]
    rfl
  have looks := unspoilt.looks (Lookahead.Peeks.isKeyword parser.cursor)
  refine .bind (Build.Outcome.lift (Parser.outcome_onCursor.mpr ?_))
  rw [isAnswer]
  exact traverses _ _ rest isRead follows looks

/-- A step over a token with a tag. -/
theorem expect {construct : Construct} :
    Traverses source soft rounds refuses (Parse.expect tag construct) [tag] next fun _ => True :=
  .check .advance

/-- A step over an identifier. -/
theorem expectIdentifier {construct : Construct} :
    Traverses source soft rounds refuses (Parse.expectIdentifier construct) [.identifier] next
      fun _ => True := by
  refine .current fun token isName => ?_
  obtain ⟨name, isKind⟩ := TokenKind.eq_identifier (show token.kind.tag = .identifier from isName)
  rw [isKind]
  exact .take .advance fun _ _ => .pure trivial

/-- A step over a token that has a tag. -/
theorem eat :
    Traverses source soft rounds refuses (liftM (Build.eat tag)) [tag] next (· = true) := by
  rw [eat_eq, liftM_bind]
  refine .check ?_
  rw [if_pos rfl, liftM_bind]
  exact .take .advance fun _ _ => .pure rfl

/-- A token that does not have a tag stays. -/
theorem eat_none (other : next ≠ tag) :
    Traverses source soft rounds refuses (liftM (Build.eat tag)) [] next (· = false) := by
  rw [eat_eq, liftM_bind]
  exact .check_other other (.pure rfl)

/-- The closing bracket of a list. -/
theorem expectCloser {code : ErrorCode} {construct : Construct} :
    Traverses source soft rounds refuses (Grammar.expectCloser code tag construct) [tag] next
      fun _ => True := by
  refine .take .eat fun eaten isEaten => ?_
  rw [isEaten]
  exact .pure trivial

/-- A round that ends a loop. -/
theorem done {step : α → Parse (ForInStep α)} {state : α}
    (round : Traverses source soft rounds refuses (step state) tags next
      fun result => ∃ answer, result = .done answer ∧ holds answer) :
    Traverses source soft rounds refuses (repeatWithin step (count + 1) state) tags next holds := by
  rw [← List.append_nil tags, repeatWithin]
  refine .bind round fun result ends => ?_
  obtain ⟨answer, isDone, known⟩ := ends
  rw [isDone]
  exact .pure known

/-- A round and those after it. -/
theorem yield {step : α → Parse (ForInStep α)} {state : α} {known : α → Prop}
    (round : Traverses source soft rounds refuses (step state) tags (Tag.firstOf others next)
      fun result => ∃ later, result = .yield later ∧ known later)
    (more : ∀ later, known later →
      Traverses source soft rounds refuses (repeatWithin step count later) others next holds) :
    Traverses source soft rounds refuses (repeatWithin step (count + 1) state) (tags ++ others) next
      holds := by
  rw [repeatWithin]
  refine .bind round fun result goes => ?_
  obtain ⟨later, goesOn, known⟩ := goes
  rw [goesOn]
  exact more later known

/-- A loop has more rounds than there are tokens. -/
theorem loop {grammar : Grammar} (sameRounds : grammar.rounds = rounds)
    {step : α → Parse (ForInStep α)} {state : α}
    (traverses : ∀ count, tags.length ≤ count →
      Traverses source soft rounds refuses (repeatWithin step (count + 1) state) tags next holds) :
    Traverses source soft rounds refuses (grammar.loop state step) tags next holds := by
  intro parser read rest isRead follows unspoilt
  have bound := unspoilt.length_lt
  have length := congrArg List.length isRead
  rw [List.length_map] at length
  rw [List.length_append] at bound
  rw [Grammar.loop, sameRounds]
  obtain ⟨count, rfl⟩ : ∃ count, rounds = count + 1 := ⟨rounds - 1, by omega⟩
  exact traverses count (by omega) parser read rest isRead follows unspoilt

end Parse.Traverses

end Vibescript
