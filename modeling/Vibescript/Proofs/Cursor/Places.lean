import Vibescript.Proofs.Cursor.Lookahead
import Vibescript.Proofs.Source.Quotation

/-!
# Where a cursor stands

`Cursor.Onward` says that a cursor came from another by taking tokens, and `Cursor.At` that it
has reached an offset of the text and stands on a tag. Every step of a cursor goes onward, and a
step over a token that is not empty goes past it.
-/
namespace Vibescript

/-- What is left of tokens starts no earlier. -/
theorem Consumes.le_start {whole taken rest : List (Token String)}
    (consumes : Consumes whole taken rest) {floor : Nat}
    (bound : ∀ token ∈ Token.ordinary whole, floor ≤ token.span.start) :
    ∀ token ∈ Token.ordinary rest, floor ≤ token.span.start := by
  induction consumes with
  | done => exact bound
  | @take token rest _ _ _ ih =>
    exact ih fun other member =>
      bound other (((List.sublist_cons_self token rest).filter _).subset member)
  | @demote token rest _ _ _ _ ih =>
    exact ih fun other member =>
      bound other (((List.sublist_cons_self token rest).filter _).subset member)
  | @split name span before rest _ _ directives _ ih =>
    have plain : (⟨.symbol name, span⟩ : Token String).kind.isDirective = false := rfl
    rw [Token.ordinary_append, Token.ordinary_cons plain] at bound
    have symbol := bound ⟨.symbol name, span⟩ (by simp)
    refine ih fun other member => ?_
    rw [Token.ordinary_append, Token.ordinary_cons (by rfl),
      Token.ordinary_cons (TokenKind.isDirective_ofWord name)] at member
    simp only [List.mem_append, List.mem_cons] at member
    rcases member with early | rfl | rfl | late
    · exact bound other (by simp [early])
    · exact symbol
    · exact Nat.le_succ_of_le symbol
    · exact bound other (by simp [late])

namespace Cursor

variable {first second third cursor : Cursor} {tokens taken rest : List (Token String)}
  {rounds floor least : Nat} {tags others : Tag → Prop} {tag : Tag}

/-- One cursor came from another: of the tokens that were pending, some were taken. -/
def Onward (before after : Cursor) : Prop :=
  ∀ tokens, before.Pending tokens → ∃ taken rest, before.Moves tokens taken rest after

/-- A cursor that stays. -/
theorem Onward.refl (cursor : Cursor) : cursor.Onward cursor :=
  fun tokens pending => ⟨[], tokens, .refl pending⟩

/-- Going onward twice. -/
theorem Onward.trans (left : first.Onward second) (right : second.Onward third) :
    first.Onward third := by
  intro tokens pending
  obtain ⟨taken, middle, moves⟩ := left tokens pending
  obtain ⟨more, rest, further⟩ := right middle moves.pending
  exact ⟨taken ++ more, rest, moves.trans further⟩

/-- Looking ahead stays. -/
theorem Looks.onward (looks : ∀ tokens, first.Pending tokens → first.Looks tokens second) :
    first.Onward second :=
  fun tokens pending => ⟨[], tokens, (looks tokens pending).moves⟩

/-- A cursor has reached an offset and stands on one of some tags, and no loop over the tokens
that are left has more than so many rounds. -/
structure At (rounds floor : Nat) (tags : Tag → Prop) (cursor : Cursor) : Prop where
  /-- Tokens of a text are pending, fewer than any loop has rounds. -/
  pending : ∃ tokens, cursor.Pending tokens ∧ Token.Strung cursor.source tokens ∧
    Consumes.weight tokens < rounds
  /-- The current token does not start before the offset. -/
  floor : floor ≤ cursor.current.span.start
  /-- The current token has one of the tags. -/
  tag : tags cursor.current.tag

/-- A cursor has reached an offset. -/
abbrev Reaches (rounds floor : Nat) : Cursor → Prop := At rounds floor fun _ => True

/-- A cursor has passed an offset and stands outside string literals. -/
abbrev Past (rounds floor : Nat) : Cursor → Prop :=
  At rounds (floor + 1) fun tag => tag.isQuoted = false

/-- A cursor has reached an offset and stands on a tag. -/
abbrev Faces (rounds floor : Nat) (tag : Tag) : Cursor → Prop :=
  At rounds floor fun current => current = tag

/-- Less is known of a cursor. -/
theorem At.mono (stands : cursor.At rounds floor tags) (le : least ≤ floor)
    (implies : tags cursor.current.tag → others cursor.current.tag) : cursor.At rounds least others :=
  ⟨stands.pending, Nat.le_trans le stands.floor, implies stands.tag⟩

/-- The tag does not matter. -/
theorem At.reaches (stands : cursor.At rounds floor tags) : cursor.Reaches rounds floor :=
  stands.mono (Nat.le_refl _) fun _ => trivial

/-- A cursor has reached the offset that it stands at. -/
theorem At.here (stands : cursor.At rounds floor tags) :
    cursor.Reaches rounds cursor.current.span.start :=
  ⟨stands.pending, Nat.le_refl _, trivial⟩

/-- A cursor that has passed an offset has reached it. -/
theorem At.lower (stands : cursor.At rounds (floor + 1) tags) : cursor.At rounds floor tags :=
  stands.mono (Nat.le_succ _) id

/-- The tokens that are pending do not start before the current one. -/
theorem Pending.le_start (pending : cursor.Pending tokens) :
    ∀ token ∈ Token.ordinary tokens, cursor.current.span.start ≤ token.span.start := by
  intro token member
  by_cases atEnd : cursor.isAtEnd = true
  · rw [(pending.atEnd atEnd).2.2] at member
    contradiction
  · obtain ⟨before, rest, rfl, directive, plain, _⟩ :=
      pending.ahead (Bool.not_eq_true _ ▸ atEnd)
    rw [Token.ordinary_append, Token.ordinary_eq_nil directive, List.nil_append,
      Token.ordinary_cons (by rwa [Token.isDirective_written])] at member
    obtain ⟨_, line, _⟩ := Token.InLine.append_iff.mp pending.line
    rcases List.mem_cons.mp member with rfl | later
    · exact Nat.le_refl _
    · obtain ⟨apart, _, _⟩ := Token.InLine.cons_iff.mp line
      exact Nat.le_of_lt (apart token (List.mem_filter.mp later).1).2

/-- The current token lies in the text. -/
theorem Pending.start_le_length (pending : cursor.Pending tokens) :
    cursor.current.span.start ≤ cursor.lexer.length := by
  by_cases atEnd : cursor.isAtEnd = true
  · rw [(pending.atEnd atEnd).1]
    exact Nat.le_refl _
  · obtain ⟨before, rest, rfl, _, _, _⟩ := pending.ahead (Bool.not_eq_true _ ▸ atEnd)
    have stands := pending.line.stands (cursor.current.written cursor.lexer.names) (by simp)
    exact Nat.le_trans stands.ordered stands.inside

/-- A cursor stands at or after an offset when what is pending does and the text reaches it. -/
theorem Pending.floor_le (pending : cursor.Pending tokens)
    (bound : ∀ token ∈ Token.ordinary tokens, floor ≤ token.span.start)
    (inside : floor ≤ cursor.lexer.length) : floor ≤ cursor.current.span.start := by
  by_cases atEnd : cursor.isAtEnd = true
  · rw [(pending.atEnd atEnd).1]
    exact inside
  · obtain ⟨others, ordinary⟩ := pending.ordinary (Bool.not_eq_true _ ▸ atEnd)
    rw [ordinary] at bound
    exact bound _ List.mem_cons_self

/-- Taking tokens leads no cursor back. -/
theorem Moves.start_le (moves : first.Moves tokens taken rest second)
    (pending : first.Pending tokens) :
    first.current.span.start ≤ second.current.span.start := by
  refine moves.pending.floor_le (moves.consumes.le_start pending.le_start) ?_
  have same : second.lexer.length = first.lexer.length := congrArg Text.byteLength moves.source
  rw [same]
  exact pending.start_le_length

/-- The tokens that were taken end before the current one. -/
theorem Moves.stop_le (moves : first.Moves tokens taken rest second)
    (pending : first.Pending tokens) :
    ∀ token ∈ taken, token.span.stop ≤ second.current.span.start := by
  intro token member
  have line := (moves.consumes.inLine pending.line).1
  obtain ⟨early, _, apart⟩ := Token.InLine.append_iff.mp line
  by_cases atEnd : second.isAtEnd = true
  · have inside := (early.stands token member).inside
    rw [← moves.source] at inside
    rw [(moves.pending.atEnd atEnd).1]
    exact inside
  · obtain ⟨before, later, rfl, _, _, _⟩ := moves.pending.ahead (Bool.not_eq_true _ ▸ atEnd)
    exact (apart token member (second.current.written second.lexer.names) (by simp)).1

/-- An ordinary token that was taken lies between where the cursor stood and where it last stepped
over a token. -/
theorem Moves.within (moves : first.Moves tokens taken rest second)
    (pending : first.Pending tokens) {token : Token String} (member : token ∈ taken)
    (plain : token.kind.isDirective = false) :
    first.current.span.start ≤ token.span.start ∧ token.span.stop ≤ second.previous.stop := by
  constructor
  · refine moves.consumes.forall_taken
      (fun token => token.kind.isDirective = false → first.current.span.start ≤ token.span.start)
      (fun name span holds => ⟨fun _ => holds rfl, fun _ => Nat.le_succ_of_le (holds rfl)⟩)
      (fun other inside ordinary => ?_) token member plain
    exact pending.le_start other (List.mem_filter.mpr ⟨inside, by simpa using ordinary⟩)
  · obtain ⟨last, isLast⟩ : ∃ last, last ∈ taken.getLast? :=
      ⟨_, List.getLast?_eq_some_getLast (List.ne_nil_of_mem member)⟩
    have line := (Token.InLine.append_iff.mp (moves.consumes.inLine pending.line).1).1
    have previous := moves.previous
    rw [isLast] at previous
    rw [previous]
    exact line.stop_le isLast member

/-- What is left stands as before. -/
theorem Moves.strung (moves : first.Moves tokens taken rest second)
    (pending : first.Pending tokens) (strung : Token.Strung first.source tokens) :
    Token.Strung second.source rest := by
  rw [moves.source]
  exact strung.consumes moves.consumes pending.line

/-- A cursor that goes onward does not go back. -/
theorem At.start_le (stands : first.At rounds floor tags) (onward : first.Onward second) :
    first.current.span.start ≤ second.current.span.start := by
  obtain ⟨tokens, pending, _, _⟩ := stands.pending
  obtain ⟨taken, rest, moves⟩ := onward tokens pending
  exact moves.start_le pending

/-- A cursor that goes onward keeps what it has reached. -/
theorem At.onward (stands : first.At rounds floor tags) (onward : first.Onward second) :
    second.Reaches rounds floor := by
  have le := stands.start_le onward
  obtain ⟨tokens, pending, strung, bound⟩ := stands.pending
  obtain ⟨taken, rest, moves⟩ := onward tokens pending
  have fewer := moves.consumes.weight_le
  exact ⟨⟨rest, moves.pending, moves.strung pending strung, by omega⟩,
    Nat.le_trans stands.floor le, trivial⟩

/-- A cursor at the end stays there. -/
theorem At.atEnd (stands : first.At rounds floor tags) (onward : first.Onward second)
    (atEnd : first.isAtEnd = true) : second.isAtEnd = true := by
  obtain ⟨tokens, pending, _, _⟩ := stands.pending
  obtain ⟨taken, rest, moves⟩ := onward tokens pending
  by_cases ended : second.isAtEnd = true
  · exact ended
  · obtain ⟨others, ordinary⟩ := moves.pending.ordinary (Bool.not_eq_true _ ▸ ended)
    have none := (pending.atEnd atEnd).2.2
    -- Without an ordinary token, any offset bounds the tokens that are left.
    have bound : second.current.span.start + 1 ≤ second.current.span.start :=
      moves.consumes.le_start (by simp [none]) (second.current.written second.lexer.names)
        (by simp [ordinary])
    exact absurd bound (Nat.not_succ_le_self _)

/-- A step over a token that is not empty goes past it. -/
theorem At.advance (stands : cursor.Faces rounds floor tag) (notEnd : tag ≠ .endOfInput)
    (notClosing : tag ≠ .stringClose) : cursor.advance.2.Reaches rounds (floor + 1) := by
  obtain ⟨tokens, pending, strung, bound⟩ := stands.pending
  have tagged := stands.tag
  have goesOn : cursor.isAtEnd = false := by
    rw [isAtEnd, tagged]
    exact beq_false_of_ne notEnd
  obtain ⟨before, rest, rfl, directive, plain, _⟩ := pending.ahead goesOn
  have moves := moves_advance pending directive goesOn
  obtain ⟨_, line, _⟩ := Token.InLine.append_iff.mp pending.line
  obtain ⟨apart, inside, _⟩ := Token.InLine.cons_iff.mp line
  have solid := strung.solid (cursor.current.written cursor.lexer.names) (by simp) fun same => by
    have closes := Token.tag_written cursor.lexer.names cursor.current
    rw [Token.tag, same] at closes
    exact notClosing (tagged.symm.trans closes.symm)
  have reached := stands.floor
  have stop := inside.inside
  rw [Token.span_written] at solid stop
  have fewer := moves.consumes.weight_le
  refine ⟨⟨rest, moves.pending, moves.strung pending strung, by omega⟩, ?_,
    trivial⟩
  refine moves.pending.floor_le (fun token member => ?_) ?_
  · have later := (apart token (List.mem_filter.mp member).1).2
    rw [Token.span_written] at later
    omega
  · have same : cursor.advance.2.lexer.length = cursor.lexer.length :=
      congrArg Text.byteLength moves.source
    rw [same]
    show floor + 1 ≤ Text.byteLength cursor.source
    omega

/-- After a token that no string literal goes on after, a cursor stands outside literals. -/
theorem At.outside_advance (stands : cursor.At rounds floor tags) (notEnd : cursor.isAtEnd = false)
    (ends : cursor.current.tag.quotes = false) :
    cursor.advance.2.current.tag.isQuoted = false := by
  obtain ⟨tokens, pending, strung, bound⟩ := stands.pending
  obtain ⟨before, rest, rfl, directive, plain, _⟩ := pending.ahead notEnd
  have moves := moves_advance pending directive notEnd
  by_cases ended : cursor.advance.2.isAtEnd = true
  · rw [beq_iff_eq.mp ended]
    rfl
  · obtain ⟨marks, others, rfl, between, _⟩ := moves.pending.ahead (Bool.not_eq_true _ ▸ ended)
    have outside := strung.of_append.outside between (by rwa [Token.tag_written])
    rwa [Token.tag_written] at outside

/-- A step over a token outside string literals goes past it and stays outside. -/
theorem At.past (stands : cursor.Faces rounds floor tag) (whole : tag.isWhole = true) :
    cursor.advance.2.Past rounds floor := by
  rw [Tag.isWhole, Bool.not_eq_true', Bool.or_eq_false_iff, Bool.or_eq_false_iff] at whole
  obtain ⟨⟨outside, ends⟩, goesOn⟩ := whole
  have further := stands.advance (beq_eq_false_iff_ne.mp goesOn) fun closes => by
    rw [closes] at outside
    contradiction
  refine ⟨further.pending, further.floor, stands.outside_advance ?_ ?_⟩
  · rwa [isAtEnd, stands.tag]
  · rwa [stands.tag]

/-- The first token that is pending is the current one. -/
theorem Pending.opens_iff (pending : cursor.Pending tokens) (ended : tags .endOfInput) :
    Token.Opens tags tokens ↔ tags cursor.current.tag := by
  by_cases atEnd : cursor.isAtEnd = true
  · rw [Token.Opens, (pending.atEnd atEnd).2.2, beq_iff_eq.mp atEnd]
    exact ⟨fun _ => ended, fun _ _ none => absurd none (Option.not_mem_none _)⟩
  · obtain ⟨others, ordinary⟩ := pending.ordinary (Bool.not_eq_true _ ▸ atEnd)
    rw [Token.Opens, ordinary, ← Token.tag_written cursor.lexer.names]
    exact ⟨fun opens => opens _ rfl, fun outside _ isToken => Option.some.inj isToken ▸ outside⟩

/-- When nothing is taken, the current token stays or is the colon of a symbol. -/
theorem Moves.still (moves : first.Moves tokens [] rest second) (pending : first.Pending tokens)
    (ended : tags .endOfInput) (colon : tags .colon) (current : tags first.current.tag) :
    tags second.current.tag :=
  (moves.pending.opens_iff ended).mp
    ((((pending.opens_iff ended).mpr current).consumes colon moves.consumes).1 rfl)

/-- Inside a string literal, the token before the current one belongs to the literal and no line
breaks between them. -/
theorem Moves.inside (moves : first.Moves tokens taken rest second)
    (pending : first.Pending tokens) (strung : Token.Strung first.source tokens)
    (outside : first.current.tag.isQuoted = false) (inside : second.current.tag.isQuoted = true) :
    second.isAtLineStart = false ∧ ∃ last ∈ taken.getLast?, last.tag.quotes = true := by
  have goesOn : second.isAtEnd = false := by
    cases atEnd : second.isAtEnd with
    | false => rfl
    | true =>
      rw [beq_iff_eq.mp atEnd] at inside
      contradiction
  obtain ⟨marks, later, rfl, directive, _, _⟩ := moves.pending.ahead goesOn
  rcases List.eq_nil_or_concat taken with rfl | ⟨before, last, rfl⟩
  · have still := @Moves.still first second tokens _ (fun tag => tag.isQuoted = false) moves
      pending rfl rfl outside
    rw [still] at inside
    contradiction
  · have whole := @Token.Strung.append_consumes _ _ _ _ [] moves.consumes pending.line strung
    rw [List.nil_append, List.concat_eq_append, List.append_assoc] at whole
    have joined : Token.Strung first.source (last :: (marks ++ second.current.written
      second.lexer.names :: later)) := whole.of_append
    rw [← Token.tag_written second.lexer.names] at inside
    have previous := moves.previous
    rw [List.concat_eq_append, List.getLast?_concat] at previous
    have unbroken := joined.unbroken directive inside
    refine ⟨?_, last, by simp, ?_⟩
    · rw [isAtLineStart, lineBreakBetween, text, moves.source, previous]
      simpa using unbroken
    · by_contra ends
      have quiet := joined.outside directive (Bool.not_eq_true _ ▸ ends)
      rw [quiet] at inside
      contradiction

/-! Every step of a cursor goes onward. -/

/-- A step to the next token. -/
theorem onward_advance (cursor : Cursor) : cursor.Onward cursor.advance.2 := by
  intro tokens pending
  by_cases atEnd : cursor.isAtEnd = true
  · rw [advance_atEnd atEnd]
    exact ⟨[], tokens, .refl pending⟩
  · obtain ⟨rest, moves⟩ := moves_advance_of_pending pending (Bool.not_eq_true _ ▸ atEnd)
    exact ⟨_, rest, moves⟩

/-- A step over a token with a tag. -/
theorem onward_eat (cursor : Cursor) (tag : Tag) : cursor.Onward (cursor.eat tag).2 := by
  unfold eat
  split
  · exact onward_advance cursor
  · exact .refl cursor

/-- Splitting a symbol. -/
theorem onward_splitSymbol (cursor : Cursor) : cursor.Onward cursor.splitSymbol.2 := by
  intro tokens pending
  obtain ⟨rest, moves, _⟩ := moves_splitSymbol_of_pending pending
  exact ⟨[], rest, moves⟩

/-- Claiming a directive. -/
theorem onward_takeDirective (cursor : Cursor) : cursor.Onward cursor.takeDirective.2 := by
  intro tokens pending
  obtain ⟨none, _⟩ | ⟨mark, rest, _, _, moves⟩ := moves_takeDirective pending
  · rw [none]
    exact ⟨[], tokens, .refl pending⟩
  · exact ⟨_, rest, moves⟩

/-- Claiming a directive leaves the current token. -/
theorem current_takeDirective (cursor : Cursor) :
    cursor.takeDirective.2.current = cursor.current := by
  unfold takeDirective
  split
  · rfl
  · split <;> rfl

/-- Splitting a symbol leads into no string literal. -/
theorem isQuoted_splitSymbol (outside : cursor.current.tag.isQuoted = false) :
    cursor.splitSymbol.2.current.tag.isQuoted = false := by
  unfold splitSymbol
  split
  · rfl
  · exact outside

/-- Skipping tokens. -/
theorem onward_skipUntil (cursor : Cursor) (stop : Cursor → Bool) :
    cursor.Onward (cursor.skipUntil stop) := by
  intro tokens pending
  obtain ⟨taken, rest, moves, _⟩ := moves_skipWithin stop cursor.tokensLeft pending
  exact ⟨taken, rest, moves⟩

/-- Skipping up to the next statement. -/
theorem onward_synchronize (cursor : Cursor) (boundary : TagSet) :
    cursor.Onward (cursor.synchronize boundary).2 :=
  onward_skipUntil cursor fun cursor =>
    boundary.contains cursor.current.tag || cursor.isAtLineStart

/-- Interning a text. -/
theorem onward_intern (cursor : Cursor) (text : String) :
    cursor.Onward (cursor.intern text).2 :=
  Looks.onward fun _ pending => looks_intern pending text

/-- Looking ahead leaves what is known of a cursor. -/
theorem At.looks (stands : first.At rounds floor tags)
    (looks : ∀ tokens, first.Pending tokens → first.Looks tokens second) :
    second.At rounds floor tags := by
  obtain ⟨tokens, pending, strung, bound⟩ := stands.pending
  have same := (looks tokens pending).current
  rw [← (looks tokens pending).source] at strung
  refine ⟨⟨tokens, (looks tokens pending).pending, strung, bound⟩, ?_, ?_⟩
  · rw [same]
    exact stands.floor
  · rw [same]
    exact stands.tag

/-- Pulling a token uses up a piece of the text, or it gives the end. -/
theorem pieces_pullIn (lexer : Lexer) (pieces : List Piece) :
    (pullIn lexer pieces).2.2.pieces.length < pieces.length ∨
      (pullIn lexer pieces).1.tag = .endOfInput := by
  induction pieces generalizing lexer with
  | nil => exact .inr rfl
  | cons piece rest ih =>
    cases isKind : piece.kind? with
    | none =>
      rw [pullIn_none lexer rest isKind]
      exact (ih _).imp_left Nat.lt_succ_of_lt
    | some kind =>
      rw [pullIn_some lexer rest isKind]
      split
      · exact (ih _).imp_left Nat.lt_succ_of_lt
      · exact .inl (Nat.lt_succ_self _)

/-- A step leaves fewer tokens, or it leads to the end. -/
theorem tokensLeft_advance (notEnd : cursor.isAtEnd = false) :
    cursor.advance.2.tokensLeft < cursor.tokensLeft ∨ cursor.advance.2.isAtEnd = true := by
  unfold advance
  simp only [notEnd, Bool.false_eq_true, if_false]
  cases ahead : cursor.ahead with
  | cons next others =>
    left
    simp only [demoteBefore, ahead, tokensLeft, List.length_cons]
    omega
  | nil =>
    simp only [demoteBefore, ahead, tokensLeft, List.length_nil, isAtEnd]
    exact (pieces_pullIn cursor.lexer cursor.lexer.pieces).imp
      (fun fewer => Nat.succ_lt_succ (Nat.add_lt_add_left fewer 0)) beq_iff_eq.mpr

/-- Skipping over as many tokens as are left stops where it should, or at the end. -/
theorem stops_skipWithin (stop : Cursor → Bool) (count : Nat) (enough : cursor.tokensLeft ≤ count) :
    (skipWithin stop count cursor).isAtEnd = true ∨
      stop (skipWithin stop count cursor) = true := by
  induction count generalizing cursor with
  | zero => exact absurd enough (Nat.not_succ_le_zero _)
  | succ count ih =>
    rw [skipWithin]
    split
    · next stops => exact Bool.or_eq_true _ _ ▸ stops
    · next goesOn =>
      rw [Bool.or_eq_true, not_or] at goesOn
      obtain fewer | ended := tokensLeft_advance (Bool.not_eq_true _ ▸ goesOn.1)
      · exact ih (by omega)
      · cases count with
        | zero => exact .inl ended
        | succ count =>
          rw [skipWithin, if_pos (by rw [ended]; rfl)]
          exact .inl ended

/-- Skipping tokens stops where it should, or at the end. -/
theorem stops_skipUntil (cursor : Cursor) (stop : Cursor → Bool) :
    (cursor.skipUntil stop).isAtEnd = true ∨ stop (cursor.skipUntil stop) = true :=
  stops_skipWithin stop _ (Nat.le_refl _)

/-- At the end of the text nothing is skipped. -/
theorem skipUntil_atEnd (atEnd : cursor.isAtEnd = true) (stop : Cursor → Bool) :
    cursor.skipUntil stop = cursor := by
  rw [skipUntil, tokensLeft, skipWithin, atEnd]
  rfl

/-- Skipping all tokens leads to the end. -/
theorem isAtEnd_skipToEnd (cursor : Cursor) : cursor.skipToEnd.isAtEnd = true :=
  (cursor.stops_skipUntil fun _ => false).resolve_right Bool.false_ne_true

end Cursor

namespace Lookahead

variable {α β : Type} {question first second : Lookahead α}

/-- One question after another. -/
theorem run_bind (question : Lookahead α) (next : α → Lookahead β) (cursor : Cursor) :
    (question >>= next) cursor = next (question cursor).1 (question cursor).2 := rfl

/-- The tag of the first token of a parameter. -/
def ParameterShape.firstTag : ParameterShape → Tag
  | .simple | .typed => .identifier
  | .instanceVariable => .instanceVariable

/-- A parameter of a shape starts with that tag. -/
theorem firstTag_parameter? {cursor : Cursor} {shape : ParameterShape}
    (answers : (Lookahead.parameter? cursor).1 = some shape) :
    cursor.current.tag = shape.firstTag := by
  have first : (Lookahead.tag 0 cursor).1 = cursor.current.tag := rfl
  rw [Lookahead.parameter?, run_bind, first] at answers
  cases same : cursor.current.tag with
  | identifier =>
    rw [same] at answers
    simp only [run_bind] at answers
    cases second : (Lookahead.tag 1 (Lookahead.tag 0 cursor).2).1 <;> rw [second] at answers <;>
      cases answers <;> rfl
  | instanceVariable =>
    rw [same] at answers
    cases answers
    rfl
  | _ =>
    rw [same] at answers
    contradiction

/-- A question only looks at tokens. -/
def Peeks (question : Lookahead α) : Prop :=
  ∀ (cursor : Cursor) (tokens : List (Token String)), cursor.Pending tokens →
    cursor.Looks tokens (question cursor).2

namespace Peeks

/-- An answer without looking. -/
theorem pure (answer : α) : Peeks (Pure.pure answer) := fun _ _ pending => .refl pending

/-- Asking for the cursor. -/
theorem get : Peeks (MonadState.get : Lookahead Cursor) := fun _ _ pending => .refl pending

/-- One question after another. -/
theorem bind {next : α → Lookahead β} (asks : question.Peeks) (more : ∀ answer, (next answer).Peeks) :
    Peeks (question >>= next) := fun cursor tokens pending =>
  (asks cursor tokens pending).trans (more _ _ tokens (asks cursor tokens pending).pending)

/-- The token at a place. -/
theorem token (places : Nat) : Peeks (Lookahead.token places) :=
  fun _ _ pending => (Cursor.looks_peek pending places).1

/-- The tag at a place. -/
theorem tag (places : Nat) : Peeks (Lookahead.tag places) := .bind (.token places) fun _ => .pure _

/-- Whether a tag stands at a place. -/
theorem hasTag (places : Nat) (expected : Tag) : Peeks (Lookahead.hasTag places expected) :=
  .bind (.tag places) fun _ => .pure _

/-- Whether a name stands at a place. -/
theorem hasName (places : Nat) (name : Name) : Peeks (Lookahead.hasName places name) :=
  .bind (.token places) fun _ => .pure _

/-- A second question after the first. -/
theorem andThen {first second : Lookahead Bool} (asks : first.Peeks) (more : second.Peeks) :
    Peeks (Lookahead.andThen first second) := by
  refine .bind asks fun answer => ?_
  split
  · exact more
  · exact .pure _

/-- The place past a string literal. -/
theorem stringRest (count places : Nat) : Peeks (Lookahead.stringRest count places) := by
  induction count generalizing places with
  | zero => exact .pure _
  | succ count ih =>
    refine .bind (.tag places) fun tag => ?_
    split
    · exact ih _
    · exact ih _
    · exact .pure _
    · exact .pure _

/-- The place past a string literal that starts at a place. -/
theorem stringEnd (places : Nat) : Peeks (Lookahead.stringEnd places) := by
  refine .bind (.hasTag places _) fun answer => ?_
  split
  · exact .bind .get fun cursor => .stringRest _ _
  · exact .pure _

/-- Whether an import ends at a place. -/
theorem closesImport (places : Nat) : Peeks (Lookahead.closesImport places) := by
  refine .bind (.hasTag places _) fun answer => ?_
  split
  · exact .bind (.token _) fun _ => .bind (.token _) fun _ => .bind .get fun _ => .pure _
  · exact .pure _

/-- Whether an import starts at the current token. -/
theorem startsImport (importName asKey : Name) :
    Peeks (Lookahead.startsImport importName asKey) := by
  refine .andThen (.hasTag _ _) (.andThen (.hasTag _ _) (.andThen (.hasName _ _)
    (.andThen (.hasTag _ _) (.bind (.stringEnd _) fun found => ?_))))
  split
  · exact .pure _
  · refine .bind (.hasTag _ _) fun answer => ?_
    split
    · refine .andThen (.hasName _ _) (.andThen (.hasTag _ _) (.bind (.stringEnd _) fun found => ?_))
      split
      · exact .pure _
      · exact .closesImport _
    · exact .closesImport _

/-- The shape of a parameter. -/
theorem parameter? : Peeks Lookahead.parameter? := by
  refine .bind (.tag 0) fun tag => ?_
  split
  · refine .bind (.tag 1) fun tag => ?_
    split <;> exact .pure _
  · exact .pure _
  · exact .pure _

/-- Whether a constant is filtered for. -/
theorem isRescueFilter : Peeks Lookahead.isRescueFilter :=
  .andThen (.hasTag _ _) (.andThen (.hasTag _ _) (.hasTag _ _))

/-- Whether a key starts an argument. -/
theorem isKeyword : Peeks Lookahead.isKeyword := by
  refine .bind (.tag 1) fun tag => ?_
  split <;> exact .pure _

/-- Whether a method belongs to the class itself. -/
theorem isSelfQualifier : Peeks Lookahead.isSelfQualifier := .andThen (.hasTag _ _) (.hasTag _ _)

/-- Whatever is asked, the cursor goes onward. -/
theorem onward (asks : question.Peeks) (cursor : Cursor) : cursor.Onward (question cursor).2 :=
  Cursor.Looks.onward (asks cursor)

end Peeks

end Lookahead

end Vibescript
