import Vibescript.Proofs.Cursor.Places
import Vibescript.Proofs.Source.Layout

/-!
# Cursors of texts with the same layout

Two cursors are aligned when they stand at the same token of two texts with the same layout, having
looked at the same tokens and interned the same names. Every step of a cursor and every question
keeps them aligned, and the questions have the same answers: the offsets of tokens serve to find line
breaks and to tell which directives come first, which the layout tells as well.
-/
namespace Vibescript

namespace Text

/-- No line break stands in an empty text. -/
theorem breaks_self (source : List Char) (offset : Nat) : breaks source offset offset = false := by
  have empty : slice source ⟨offset, offset⟩ = [] := by
    rw [slice, slice?, if_pos (Nat.le_refl _), Nat.sub_self]
    cases dropBytes? offset source <;> simp [takeBytes?]
  rw [breaks, empty]
  rfl

end Text

namespace Token

variable {source other : List Char} {before earlier : Nat}
  {marks others lefts rights tokens : List (Token String)} {left right : Token String}

/-- A token that is no directive declares no names. -/
theorem uses_eq_nil {token : Token String} (plain : token.kind.isDirective = false) :
    token.uses source = [] := by
  unfold uses
  split
  · next same =>
    rw [same] at plain
    contradiction
  · rfl

/-- A property of the first ordinary tokens, after the directives that are passed over. -/
theorem Follow.passing
    (follow : Follow source other before earlier (marks ++ left :: lefts) (others ++ right :: rights))
    (directives : ∀ mark ∈ marks, mark.kind.isDirective = true)
    (directivesOther : ∀ mark ∈ others, mark.kind.isDirective = true)
    (plain : left.kind.isDirective = false) (plainOther : right.kind.isDirective = false) :
    Follow source other before earlier (left :: lefts) (right :: rights) := by
  induction marks generalizing others with
  | nil =>
    cases others with
    | nil => exact follow
    | cons mark others =>
      cases follow with
      | cons alike =>
        have directive := directivesOther mark List.mem_cons_self
        rw [← alike.kind, plain] at directive
        contradiction
  | cons mark marks ih =>
    have directive := directives mark List.mem_cons_self
    cases others with
    | nil =>
      cases follow with
      | cons alike =>
        rw [alike.kind, plainOther] at directive
        contradiction
    | cons mark' others =>
      cases follow with
      | cons alike breaks pass take =>
        exact ih (pass directive)
          (fun token member => directives token (List.mem_cons_of_mem _ member))
          fun token member => directivesOther token (List.mem_cons_of_mem _ member)

/-- The halves of a symbol follow alike. -/
theorem Follow.split {name : String} {span place : Span}
    (follow : Follow source other before earlier
      (marks ++ ⟨.symbol name, span⟩ :: lefts) (others ++ ⟨.symbol name, place⟩ :: rights))
    (directives : ∀ mark ∈ marks, mark.kind.isDirective = true)
    (directivesOther : ∀ mark ∈ others, mark.kind.isDirective = true) :
    Follow source other before earlier (marks ++ colonOf span :: wordOf name span :: lefts)
      (others ++ colonOf place :: wordOf name place :: rights) := by
  induction marks generalizing before earlier others with
  | nil =>
    cases others with
    | nil =>
      cases follow with
      | cons alike breaks pass take =>
        have word : Alike source other (wordOf name span) (wordOf name place) := by
          refine ⟨rfl, ?_⟩
          rw [uses_eq_nil (TokenKind.isDirective_ofWord name),
            uses_eq_nil (TokenKind.isDirective_ofWord name)]
        refine .cons ⟨rfl, rfl⟩ breaks nofun (.cons word ?_ (fun directive => ?_) take)
        · exact (Text.breaks_self _ _).trans (Text.breaks_self _ _).symm
        · have plain := TokenKind.isDirective_ofWord name
          rw [show (wordOf name span).kind.isDirective = _ from plain] at directive
          contradiction
    | cons mark others =>
      cases follow with
      | cons alike =>
        have directive := directivesOther mark List.mem_cons_self
        rw [← alike.kind] at directive
        contradiction
  | cons mark marks ih =>
    have directive := directives mark List.mem_cons_self
    cases others with
    | nil =>
      cases follow with
      | cons alike =>
        rw [alike.kind] at directive
        contradiction
    | cons mark' others =>
      cases follow with
      | cons alike breaks pass take =>
        have directivesRest := fun token member =>
          directives token (List.mem_cons_of_mem _ member)
        have directivesMore := fun token member =>
          directivesOther token (List.mem_cons_of_mem _ member)
        exact .cons alike breaks (fun isMark => ih (pass isMark) directivesRest directivesMore)
          (ih take directivesRest directivesMore)

/-- Line breaks stand alike before the first ordinary tokens. -/
theorem Follow.breaks_first (follow : Follow source other before earlier tokens others)
    (first : (ordinary tokens).head? = some left) (firstOther : (ordinary others).head? = some right) :
    Text.breaks source before left.span.start = Text.breaks other earlier right.span.start := by
  induction follow with
  | nil => contradiction
  | @cons _ _ token _ _ _ alike breaks _ _ ih _ =>
    cases directive : token.kind.isDirective with
    | true =>
      rw [ordinary_cons_directive directive] at first
      rw [ordinary_cons_directive (alike.kind ▸ directive)] at firstOther
      exact ih directive first firstOther
    | false =>
      rw [ordinary_cons directive] at first
      rw [ordinary_cons (alike.kind ▸ directive)] at firstOther
      obtain rfl := Option.some.inj first
      obtain rfl := Option.some.inj firstOther
      exact breaks

/-- Line breaks stand alike between two ordinary tokens that follow each other. -/
theorem Follow.breaks_between (follow : Follow source other before earlier tokens others)
    {place : Nat} {next after : Token String} (found : (ordinary tokens)[place]? = some left)
    (foundNext : (ordinary tokens)[place + 1]? = some next)
    (foundOther : (ordinary others)[place]? = some right)
    (foundAfter : (ordinary others)[place + 1]? = some after) :
    Text.breaks source left.span.stop next.span.start =
      Text.breaks other right.span.stop after.span.start := by
  induction follow generalizing place with
  | nil => contradiction
  | @cons _ _ token _ _ _ alike breaks _ take _ ih =>
    cases directive : token.kind.isDirective with
    | true =>
      rw [ordinary_cons_directive directive] at found foundNext
      rw [ordinary_cons_directive (alike.kind ▸ directive)] at foundOther foundAfter
      exact ih found foundNext foundOther foundAfter
    | false =>
      rw [ordinary_cons directive] at found foundNext
      rw [ordinary_cons (alike.kind ▸ directive)] at foundOther foundAfter
      rw [List.getElem?_cons_succ] at foundNext foundAfter
      cases place with
      | zero =>
        obtain rfl := Option.some.inj found
        obtain rfl := Option.some.inj foundOther
        rw [← List.head?_eq_getElem?] at foundNext foundAfter
        exact take.breaks_first foundNext foundAfter
      | succ place => exact ih found foundNext foundOther foundAfter

end Token

/-- Directives carry no name, so they are told by how they are written. -/
theorem TokenKind.eq_of_isDirective {left right : TokenKind Name} {read write : Name → String}
    (directive : left.isDirective = true) (directiveOther : right.isDirective = true)
    (same : left.map read = right.map write) : left = right := by
  cases left with
  | versionDirective major minor =>
    cases right <;> first
      | contradiction
      | exact congr (congrArg _ (versionDirective.inj same).1) (versionDirective.inj same).2
  | usesDirective => cases right <;> first | contradiction | rfl
  | _ => contradiction

/-- What a lexer hands out next when these kinds of token are still to be read: the kind of the
first ordinary token, the names after it was interned, and the kinds after it. -/
def Lexer.handOut (names : NameTable) (kinds : List (TokenKind String)) :
    TokenKind Name × NameTable × List (TokenKind String) :=
  match kinds.dropWhile TokenKind.isDirective with
  | [] => (.endOfInput, names, [])
  | kind :: rest => ((kind.intern names).1, (kind.intern names).2, rest)

namespace Cursor

/-- Pulling a token depends on the kinds that are still to be read. -/
theorem handOut_pullIn (lexer : Lexer) (pieces : List Piece) :
    ((pullIn lexer pieces).1.kind, (pullIn lexer pieces).2.2.names,
        (Piece.tokens (pullIn lexer pieces).2.2.pieces).map Token.kind) =
      Lexer.handOut lexer.names ((Piece.tokens pieces).map Token.kind) := by
  induction pieces generalizing lexer with
  | nil => rfl
  | cons piece rest ih =>
    cases isKind : piece.kind? with
    | none =>
      rw [pullIn_none lexer rest isKind, Piece.tokens_skip isKind]
      exact ih (lexer.pass piece rest)
    | some kind =>
      rw [pullIn_some lexer rest isKind, Piece.tokens_cons isKind, List.map_cons, Lexer.handOut,
        TokenKind.isDirective_intern]
      cases directive : kind.isDirective with
      | true =>
        have nameless : (kind.intern lexer.names).2 = lexer.names := by
          cases kind <;> first | rfl | contradiction
        rw [List.dropWhile_cons_of_pos directive, if_pos rfl, nameless]
        exact ih { lexer.pass piece rest with names := lexer.names }
      | false =>
        rw [List.dropWhile_cons_of_neg (by simp [directive]), if_neg Bool.false_ne_true]
        rfl

/-- A step to a token that was looked at. -/
theorem advance_of_cons {cursor : Cursor} {next : Token Name} {ahead : List (Token Name)}
    (notEnd : cursor.isAtEnd = false) (looked : cursor.ahead = next :: ahead) :
    cursor.advance.2.current = next ∧ cursor.advance.2.ahead = ahead ∧
      cursor.advance.2.lexer = cursor.lexer := by
  unfold advance
  simp [notEnd, demoteBefore, looked]

/-- A step to a token that is still to be read. -/
theorem advance_of_nil {cursor : Cursor} (notEnd : cursor.isAtEnd = false)
    (looked : cursor.ahead = []) :
    cursor.advance.2.current = (pull cursor.lexer).1 ∧ cursor.advance.2.ahead = [] ∧
      cursor.advance.2.lexer = (pull cursor.lexer).2.2 := by
  unfold advance
  simp [notEnd, demoteBefore, looked]

/-- At the end of the text no step is made. -/
theorem skipWithin_atEnd {cursor : Cursor} (atEnd : cursor.isAtEnd = true) (stop : Cursor → Bool)
    (count : Nat) : skipWithin stop count cursor = cursor := by
  cases count with
  | zero => rfl
  | succ count => rw [skipWithin, atEnd, Bool.true_or, if_pos rfl]

/-- A directive that is the next of the tokens waits, before the current token. -/
theorem Pending.waits {cursor : Cursor} {mark : Token String} {rest : List (Token String)}
    (pending : cursor.Pending (mark :: rest)) (directive : mark.kind.isDirective = true) :
    ∃ waiting directives, cursor.directives = waiting :: directives ∧
      waiting.span.start < cursor.current.span.start := by
  have shows := pending
  obtain ⟨front, plain, ends, holds, same⟩ := shows
  cases front with
  | nil =>
    -- Nothing was read of the text, although the current token was.
    exfalso
    have none : plain = [] := List.map_eq_nil_iff.mp holds.ordinary.symm
    have some : ends ≠ 0 := by
      rintro rfl
      have empty := holds.buffer
      rw [none] at empty
      contradiction
    rw [holds.spent some] at same
    contradiction
  | cons first front =>
    obtain ⟨rfl, _⟩ := List.cons.inj same
    have marked := holds.directives
    rw [Token.directives, List.filter_cons, if_pos directive] at marked
    obtain ⟨waiting, directives, isQueue, written, _⟩ := List.map_eq_cons_iff.mp marked.symm
    have member : waiting ∈ cursor.directives := isQueue ▸ List.mem_cons_self
    refine ⟨waiting, directives, isQueue, ?_⟩
    cases atEnd : cursor.isAtEnd with
    | true => exact pending.directive_lt atEnd member
    | false =>
      obtain ⟨before, after, whole, _, isPlain, _⟩ := pending.ahead atEnd
      have later : cursor.current.written cursor.lexer.names ∈ rest := by
        have inside : cursor.current.written cursor.lexer.names ∈ mark :: rest := by simp [whole]
        rcases List.mem_cons.mp inside with isFirst | later
        · rw [← Token.isDirective_written, isFirst, directive] at isPlain
          contradiction
        · exact later
      have apart := ((Token.InLine.cons_iff.mp pending.line).1 _ later).2
      rw [← written] at apart
      exact apart

/-- A directive is claimed if it is the next of the tokens. -/
theorem Pending.takeDirective {cursor : Cursor} {tokens : List (Token String)}
    (pending : cursor.Pending tokens) :
    (cursor.takeDirective = (none, cursor) ∧
      ∀ mark ∈ tokens.head?, mark.kind.isDirective = false) ∨
    ∃ mark directives rest, tokens = mark.written cursor.lexer.names :: rest ∧
      mark.kind.isDirective = true ∧
      cursor.takeDirective = (some mark, { cursor with
        directives, previous := mark.span, position := cursor.position + 1 }) ∧
      cursor.takeDirective.2.Pending rest := by
  by_cases first : ∀ mark ∈ tokens.head?, mark.kind.isDirective = false
  · left
    refine ⟨?_, first⟩
    unfold Cursor.takeDirective
    cases isQueue : cursor.directives with
    | nil => rfl
    | cons waiting directives =>
      refine if_neg fun early => ?_
      have shows := pending
      rw [Pending, isQueue] at shows
      obtain ⟨rest, rfl, _⟩ := shows.claim early
      have plain := first _ rfl
      rw [Token.isDirective_written,
        Lexer.Shows.isDirective pending waiting (isQueue ▸ List.mem_cons_self)] at plain
      contradiction
  · right
    push Not at first
    obtain ⟨mark, isFirst, directive⟩ := first
    obtain ⟨rest, rfl⟩ := List.head?_eq_some_iff.mp isFirst
    obtain ⟨waiting, directives, isQueue, early⟩ := pending.waits (by simpa using directive)
    have shows := pending
    rw [Pending, isQueue] at shows
    obtain ⟨others, same, remains⟩ := shows.claim early
    have claims : cursor.takeDirective = (some waiting, { cursor with
        directives, previous := waiting.span, position := cursor.position + 1 }) := by
      unfold Cursor.takeDirective
      rw [isQueue]
      exact if_pos early
    refine ⟨waiting, directives, others, same,
      Lexer.Shows.isDirective pending waiting (isQueue ▸ List.mem_cons_self), claims, ?_⟩
    rw [claims]
    exact remains

/-- Two cursors stand at the same token of two texts with the same layout. -/
structure Aligned (left right : Cursor) : Prop where
  /-- The tokens before them follow alike. -/
  follow : ∃ tokens others, left.Pending tokens ∧ right.Pending others ∧
    Token.Follow left.source right.source left.previous.stop right.previous.stop tokens others
  /-- They stand at the same kind of token. -/
  current : left.current.kind = right.current.kind
  /-- They looked at the same kinds of token. -/
  ahead : left.ahead.map Token.kind = right.ahead.map Token.kind
  /-- The same kinds of token are still to be read. -/
  unread : (Piece.tokens left.lexer.pieces).map Token.kind =
    (Piece.tokens right.lexer.pieces).map Token.kind
  /-- They interned the same names. -/
  names : left.lexer.names = right.lexer.names
  /-- They consumed as many tokens. -/
  position : left.position = right.position

namespace Aligned

variable {left right : Cursor}

/-- Pulling a token from aligned cursors gives the same. -/
theorem pull (aligned : left.Aligned right) :
    (pull left.lexer).1.kind = (Cursor.pull right.lexer).1.kind ∧
      (Cursor.pull left.lexer).2.2.names = (Cursor.pull right.lexer).2.2.names ∧
      (Piece.tokens (Cursor.pull left.lexer).2.2.pieces).map Token.kind =
        (Piece.tokens (Cursor.pull right.lexer).2.2.pieces).map Token.kind := by
  have same := (handOut_pullIn left.lexer left.lexer.pieces).trans (Eq.trans
    (by rw [aligned.names, aligned.unread])
    (handOut_pullIn right.lexer right.lexer.pieces).symm)
  simp only [Prod.mk.injEq] at same
  exact same

/-- Whether the text ends. -/
theorem isAtEnd (aligned : left.Aligned right) : left.isAtEnd = right.isAtEnd := by
  rw [Cursor.isAtEnd, Cursor.isAtEnd, Token.tag, Token.tag, aligned.current]

/-- Looking further keeps cursors aligned. -/
theorem lookFurther (aligned : left.Aligned right) (count : Nat) :
    (lookFurther count left).Aligned (Cursor.lookFurther count right) := by
  induction count generalizing left right with
  | zero => exact aligned
  | succ count ih =>
    obtain ⟨kind, names, unread⟩ := aligned.pull
    obtain ⟨tokens, others, pending, pendingOther, follow⟩ := aligned.follow
    have pulls := pending.pulls
    have pullsOther := pendingOther.pulls
    refine ih ⟨⟨tokens, others, Lexer.Shows.pull pending pulls,
      Lexer.Shows.pull pendingOther pullsOther, ?_⟩, aligned.current, ?_, unread, names,
      aligned.position⟩
    · show Token.Follow (Cursor.pull left.lexer).2.2.source (Cursor.pull right.lexer).2.2.source
        left.previous.stop right.previous.stop tokens others
      rw [pulls.source, pullsOther.source]
      exact follow
    · show (left.ahead ++ [(Cursor.pull left.lexer).1]).map Token.kind =
        (right.ahead ++ [(Cursor.pull right.lexer).1]).map Token.kind
      simp only [List.map_append, List.map_cons, List.map_nil, aligned.ahead, kind]

/-- Aligned cursors looked at as many tokens. -/
theorem length_ahead (aligned : left.Aligned right) : left.ahead.length = right.ahead.length := by
  have same := congrArg List.length aligned.ahead
  rwa [List.length_map, List.length_map] at same

/-- Peeking shows the same kind of token. -/
theorem peek (aligned : left.Aligned right) (places : Nat) :
    (left.peek places).1.kind = (right.peek places).1.kind ∧
      (left.peek places).2.Aligned (right.peek places).2 := by
  cases places with
  | zero => exact ⟨aligned.current, aligned⟩
  | succ place =>
    have further := aligned.lookFurther (place + 1 - left.ahead.length)
    have same := congrArg (fun kinds => (kinds[place]?).getD .endOfInput) further.ahead
    simp only [List.getElem?_map] at same
    unfold Cursor.peek
    rw [← aligned.length_ahead]
    refine ⟨?_, further⟩
    dsimp only
    cases found : (Cursor.lookFurther (place + 1 - left.ahead.length) left).ahead[place]? <;>
      cases foundOther :
        (Cursor.lookFurther (place + 1 - left.ahead.length) right).ahead[place]? <;>
      rw [found, foundOther] at same <;> exact same

/-- A step takes the same kind of token and keeps cursors aligned. -/
theorem advance (aligned : left.Aligned right) :
    left.advance.1.kind = right.advance.1.kind ∧ left.advance.2.Aligned right.advance.2 := by
  rw [advance_fst, advance_fst]
  refine ⟨aligned.current, ?_⟩
  cases notEnd : left.isAtEnd with
  | true =>
    rw [advance_atEnd notEnd, advance_atEnd (aligned.isAtEnd ▸ notEnd)]
    exact aligned
  | false =>
    have notEndOther : right.isAtEnd = false := aligned.isAtEnd ▸ notEnd
    obtain ⟨tokens, others, pending, pendingOther, follow⟩ := aligned.follow
    obtain ⟨marks, rest, rfl, directives, plain, _⟩ := pending.ahead notEnd
    obtain ⟨marksOther, restOther, rfl, directivesOther, plainOther, _⟩ :=
      pendingOther.ahead notEndOther
    have moves := moves_advance pending directives notEnd
    have movesOther := moves_advance pendingOther directivesOther notEndOther
    rw [← Token.isDirective_written] at plain plainOther
    have taken : Token.Follow left.advance.2.source right.advance.2.source
        left.advance.2.previous.stop right.advance.2.previous.stop rest restOther := by
      rw [moves.source, movesOther.source, advance_previous notEnd, advance_previous notEndOther]
      cases follow.passing directives directivesOther plain plainOther with
      | cons _ _ _ take => exact take
    have position : left.advance.2.position = right.advance.2.position := by
      rw [moves.position, movesOther.position, aligned.position]
      rfl
    have ahead := aligned.ahead
    cases looked : left.ahead with
    | nil =>
      have lookedOther : right.ahead = [] := by
        rw [looked, List.map_nil] at ahead
        exact List.map_eq_nil_iff.mp ahead.symm
      obtain ⟨current, none, lexer⟩ := advance_of_nil notEnd looked
      obtain ⟨currentOther, noneOther, lexerOther⟩ := advance_of_nil notEndOther lookedOther
      obtain ⟨kind, names, unread⟩ := aligned.pull
      refine ⟨⟨rest, restOther, moves.pending, movesOther.pending, taken⟩, ?_, ?_, ?_, ?_, position⟩
      · rw [current, currentOther, kind]
      · rw [none, noneOther]
      · rw [lexer, lexerOther, unread]
      · rw [lexer, lexerOther, names]
    | cons next lefts =>
      obtain ⟨other, rights, lookedOther⟩ : ∃ other rights, right.ahead = other :: rights := by
        cases lookedOther : right.ahead with
        | nil =>
          rw [looked, lookedOther] at ahead
          contradiction
        | cons other rights => exact ⟨other, rights, rfl⟩
      rw [looked, lookedOther, List.map_cons, List.map_cons, List.cons.injEq] at ahead
      obtain ⟨current, remains, lexer⟩ := advance_of_cons notEnd looked
      obtain ⟨currentOther, remainsOther, lexerOther⟩ := advance_of_cons notEndOther lookedOther
      refine ⟨⟨rest, restOther, moves.pending, movesOther.pending, taken⟩, ?_, ?_, ?_, ?_, position⟩
      · rw [current, currentOther, ahead.1]
      · rw [remains, remainsOther, ahead.2]
      · rw [lexer, lexerOther, aligned.unread]
      · rw [lexer, lexerOther, aligned.names]

/-- Both cursors claim a directive that declares the same, or none claims one. -/
theorem takeDirective (aligned : left.Aligned right) :
    (left.takeDirective = (none, left) ∧ right.takeDirective = (none, right)) ∨
    ∃ mark other, left.takeDirective.1 = some mark ∧ right.takeDirective.1 = some other ∧
      mark.kind = other.kind ∧ mark.kind.isDirective = true ∧
      (mark.kind = .usesDirective → Directive.usesNames (left.takeDirective.2.text mark.span) =
        Directive.usesNames (right.takeDirective.2.text other.span)) ∧
      left.takeDirective.2.Aligned right.takeDirective.2 := by
  obtain ⟨tokens, others, pending, pendingOther, follow⟩ := aligned.follow
  rcases pending.takeDirective with ⟨none, plain⟩ | claimed
  · refine .inl ⟨none, ?_⟩
    rcases pendingOther.takeDirective with ⟨noneOther, _⟩ | ⟨other, _, rest, rfl, directive, _⟩
    · exact noneOther
    · exfalso
      cases follow with
      | cons alike =>
        have plainOther := plain _ rfl
        rw [alike.kind, Token.isDirective_written, directive] at plainOther
        contradiction
  · obtain ⟨mark, _, rest, rfl, directive, claims, remains⟩ := claimed
    right
    rcases pendingOther.takeDirective with ⟨_, plain⟩ | claimedOther
    · exfalso
      cases follow with
      | cons alike =>
        have plainOther := plain _ rfl
        rw [← alike.kind, Token.isDirective_written, directive] at plainOther
        contradiction
    · obtain ⟨other, _, restOther, rfl, directiveOther, claimsOther, remainsOther⟩ := claimedOther
      cases follow with
      | cons alike _ _ take =>
        have kind : mark.kind = other.kind :=
          TokenKind.eq_of_isDirective directive directiveOther alike.kind
        rw [claims] at remains ⊢
        rw [claimsOther] at remainsOther ⊢
        refine ⟨mark, other, rfl, rfl, kind, directive, fun uses => ?_,
          ⟨rest, restOther, remains, remainsOther,
          take⟩, aligned.current, aligned.ahead, aligned.unread, aligned.names,
          congrArg (· + 1) aligned.position⟩
        have declared := alike.uses
        simp only [Token.uses, Token.written, uses, ← kind, TokenKind.map] at declared
        exact declared

/-- Splitting a symbol keeps cursors aligned. -/
theorem splitSymbol (aligned : left.Aligned right) :
    left.splitSymbol.1 = right.splitSymbol.1 ∧ left.splitSymbol.2.Aligned right.splitSymbol.2 := by
  by_cases symbol : left.current.tag = .symbol
  · obtain ⟨name, same, notEnd⟩ := current_symbol symbol
    have kindOther : right.current.kind = .symbol name := by rw [← aligned.current, same]
    have sameOther : right.current = ⟨.symbol name, right.current.span⟩ := by rw [← kindOther]
    obtain ⟨tokens, others, pending, pendingOther, follow⟩ := aligned.follow
    obtain ⟨marks, rest, rfl, directives, _⟩ := pending.ahead notEnd
    obtain ⟨marksOther, restOther, rfl, directivesOther, _⟩ :=
      pendingOther.ahead (aligned.isAtEnd ▸ notEnd)
    have moves := (moves_splitSymbol pending directives same).1
    have movesOther := (moves_splitSymbol pendingOther directivesOther sameOther).1
    have text : right.nameText name = left.nameText name := by
      rw [nameText, nameText, aligned.names]
    have halves : Token.Follow left.splitSymbol.2.source right.splitSymbol.2.source
        left.splitSymbol.2.previous.stop right.splitSymbol.2.previous.stop
        (marks ++ .colonOf left.current.span :: .wordOf (left.nameText name) left.current.span ::
          rest)
        (marksOther ++ .colonOf right.current.span ::
          .wordOf (right.nameText name) right.current.span :: restOther) := by
      rw [moves.source, movesOther.source, moves.previous, movesOther.previous, text]
      refine Token.Follow.split ?_ directives directivesOther
      have written := written_symbol same
      have writtenOther : right.current.written right.lexer.names =
          ⟨.symbol (left.nameText name), right.current.span⟩ := by
        rw [← text, sameOther]
        rfl
      rw [written, writtenOther] at follow
      exact follow
    have splits := splitSymbol_of_pending pending same
    have splitsOther := splitSymbol_of_pending pendingOther sameOther
    have remains := moves.pending
    have remainsOther := movesOther.pending
    rw [splits] at halves remains ⊢
    rw [splitsOther] at halves remainsOther ⊢
    refine ⟨rfl, ⟨_, _, remains, remainsOther, halves⟩, rfl, ?_, aligned.unread, ?_,
      aligned.position⟩
    · show _ :: left.ahead.map Token.kind = _ :: right.ahead.map Token.kind
      rw [aligned.ahead, text, aligned.names]
    · show (TokenKind.intern _ left.lexer.names).2 = (TokenKind.intern _ right.lexer.names).2
      rw [text, aligned.names]
  · have symbolOther : right.current.tag ≠ .symbol := by
      rwa [Token.tag, ← aligned.current]
    rw [splitSymbol_of_ne left symbol, splitSymbol_of_ne right symbolOther]
    exact ⟨rfl, aligned⟩

/-- Cursors that intern the same further names stay aligned. -/
theorem intern (aligned : left.Aligned right) {names : NameTable}
    (interns : left.lexer.names.Interns names) :
    Aligned { left with lexer := { left.lexer with names } }
      { right with lexer := { right.lexer with names } } := by
  obtain ⟨tokens, others, pending, pendingOther, follow⟩ := aligned.follow
  have internsOther := aligned.names ▸ interns
  exact ⟨⟨tokens, others, Lexer.Shows.grow pending interns.grows (interns.sound pending.sound),
    Lexer.Shows.grow pendingOther internsOther.grows (internsOther.sound pendingOther.sound),
    follow⟩, aligned.current, aligned.ahead, aligned.unread, rfl, aligned.position⟩

/-- A line break stands before both cursors, or before none. -/
theorem isAtLineStart (aligned : left.Aligned right) (notEnd : left.isAtEnd = false) :
    left.isAtLineStart = right.isAtLineStart := by
  obtain ⟨tokens, others, pending, pendingOther, follow⟩ := aligned.follow
  obtain ⟨rest, first⟩ := pending.ordinary notEnd
  obtain ⟨restOther, firstOther⟩ := pendingOther.ordinary (aligned.isAtEnd ▸ notEnd)
  exact follow.breaks_first (by rw [first]; rfl) (by rw [firstOther]; rfl)

/-- Skipping keeps cursors aligned, where they stop alike. -/
theorem skipWithin {stop halt : Cursor → Bool} (count more : Nat)
    (alike : ∀ here there : Cursor, here.Aligned there → here.isAtEnd = false →
      stop here = halt there)
    (enough : left.isAtEnd = true ∨ left.tokensLeft ≤ count)
    (enoughOther : right.isAtEnd = true ∨ right.tokensLeft ≤ more) (aligned : left.Aligned right) :
    (skipWithin stop count left).Aligned (Cursor.skipWithin halt more right) := by
  have ended (atEnd : left.isAtEnd = true) (count more : Nat) :
      (Cursor.skipWithin stop count left).Aligned (Cursor.skipWithin halt more right) := by
    rw [skipWithin_atEnd atEnd, skipWithin_atEnd (aligned.isAtEnd ▸ atEnd)]
    exact aligned
  induction count generalizing left right more with
  | zero => exact ended (enough.resolve_right (Nat.not_succ_le_zero _)) 0 more
  | succ count ih =>
    cases atEnd : left.isAtEnd with
    | true => exact ended atEnd _ more
    | false =>
      have atEndOther : right.isAtEnd = false := aligned.isAtEnd ▸ atEnd
      rw [atEnd] at enough
      rw [atEndOther] at enoughOther
      have fewer := enough.resolve_left Bool.false_ne_true
      have fewerOther := enoughOther.resolve_left Bool.false_ne_true
      cases more with
      | zero => exact absurd fewerOther (Nat.not_succ_le_zero _)
      | succ more =>
        rw [Cursor.skipWithin, Cursor.skipWithin, atEnd, atEndOther, alike left right aligned atEnd,
          Bool.false_or]
        cases halt right with
        | true => exact aligned
        | false =>
          have next := aligned.advance.2
          refine ih more ?_ ?_ next fun atEnd count more => ?_
          · exact (tokensLeft_advance atEnd).symm.imp_right fun less => by omega
          · exact (tokensLeft_advance atEndOther).symm.imp_right fun less => by omega
          · rw [skipWithin_atEnd atEnd, skipWithin_atEnd (next.isAtEnd ▸ atEnd)]
            exact next

/-- Skipping keeps cursors aligned, where they stop alike. -/
theorem skipUntil {stop halt : Cursor → Bool} (aligned : left.Aligned right)
    (alike : ∀ here there : Cursor, here.Aligned there → here.isAtEnd = false →
      stop here = halt there) :
    (left.skipUntil stop).Aligned (right.skipUntil halt) :=
  skipWithin _ _ alike (.inr (Nat.le_refl _)) (.inr (Nat.le_refl _)) aligned

/-- Skipping to the next statement keeps cursors aligned. -/
theorem synchronize (aligned : left.Aligned right) (boundary : TagSet) :
    (left.synchronize boundary).2.Aligned (right.synchronize boundary).2 := by
  unfold Cursor.synchronize
  dsimp only
  refine aligned.skipUntil fun here there same notEnd => ?_
  rw [Token.tag, Token.tag, same.current, same.isAtLineStart notEnd]

end Aligned

/-- There are at most as many tokens left as the cursor counts. -/
theorem Pending.length_ordinary_le {cursor : Cursor} {tokens : List (Token String)}
    (pending : cursor.Pending tokens) : (Token.ordinary tokens).length ≤ cursor.tokensLeft := by
  obtain ⟨front, plain, ends, holds, rfl⟩ := pending
  have buffer := congrArg List.length holds.buffer
  have unread := List.length_filter_le (fun token => !token.kind.isDirective)
    (Piece.tokens cursor.lexer.pieces)
  have pieces := List.length_filterMap_le Piece.token? cursor.lexer.pieces
  rw [Token.ordinary_append, List.length_append, holds.ordinary, List.length_map]
  simp only [List.length_cons, List.length_append, List.length_replicate] at buffer
  simp only [Token.ordinary, Piece.tokens, tokensLeft] at unread ⊢
  omega

end Cursor

namespace Lookahead

variable {α β : Type} {related : Cursor → Cursor → Prop}

/-- At two cursors, two questions have the same answer and lead to related cursors. -/
def AgreeAt (related : Cursor → Cursor → Prop) (first second : Cursor)
    (question other : Lookahead α) : Prop :=
  (question first).1 = (other second).1 ∧ related (question first).2 (other second).2

/-- From related cursors, a question has the same answer and leads to related cursors. -/
def Agrees (related : Cursor → Cursor → Prop) (question : Lookahead α) : Prop :=
  ∀ first second, related first second → AgreeAt related first second question question

/-- One question after another. -/
theorem AgreeAt.bind {first second : Cursor} {question other : Lookahead α}
    {next after : α → Lookahead β} (asks : AgreeAt related first second question other)
    (more : AgreeAt related (question first).2 (other second).2 (next (question first).1)
      (after (question first).1)) :
    AgreeAt related first second (question >>= next) (other >>= after) := by
  rw [AgreeAt, run_bind, run_bind, ← asks.1]
  exact more

namespace Agrees

variable {question first second : Lookahead α} {next : α → Lookahead β}

/-- An answer without looking. -/
theorem pure (answer : α) : Agrees related (Pure.pure answer) := fun _ _ stands => ⟨rfl, stands⟩

/-- One question after another. -/
theorem bind (asks : question.Agrees related) (more : ∀ answer, (next answer).Agrees related) :
    Agrees related (question >>= next) := by
  intro left right stands
  have asked := asks left right stands
  exact asked.bind (more _ _ _ asked.2)

/-- A second question after the first. -/
theorem andThen {first second : Lookahead Bool} (asks : first.Agrees related)
    (more : second.Agrees related) : Agrees related (Lookahead.andThen first second) := by
  refine .bind asks fun answer => ?_
  split
  · exact more
  · exact .pure _

end Agrees

/-- A question whose answer depends on the tags of the tokens ahead only. -/
def ByTags (question : Lookahead α) : Prop :=
  ∀ related : Cursor → Cursor → Prop, (∀ places, (tag places).Agrees related) →
    question.Agrees related

/-- Whether a tag stands at a place. -/
theorem byTags_hasTag (places : Nat) (expected : Tag) : ByTags (hasTag places expected) :=
  fun _ tags => .bind (tags places) fun _ => .pure _

/-- Whether a key starts an argument. -/
theorem byTags_isKeyword : ByTags isKeyword := by
  refine fun _ tags => .bind (tags 1) fun tag => ?_
  split <;> exact .pure _

/-- Whether a method belongs to the class itself. -/
theorem byTags_isSelfQualifier : ByTags isSelfQualifier :=
  fun related tags => .andThen (byTags_hasTag _ _ related tags) (byTags_hasTag _ _ related tags)

/-- Whether a constant is filtered for. -/
theorem byTags_isRescueFilter : ByTags isRescueFilter :=
  fun related tags => .andThen (byTags_hasTag _ _ related tags)
    (.andThen (byTags_hasTag _ _ related tags) (byTags_hasTag _ _ related tags))

/-- The shape of a parameter. -/
theorem byTags_parameter? : ByTags parameter? := by
  refine fun _ tags => .bind (tags 0) fun tag => ?_
  split
  · refine .bind (tags 1) fun tag => ?_
    split <;> exact .pure _
  · exact .pure _
  · exact .pure _

end Lookahead

namespace Lookahead

open Cursor

variable {left right : Cursor} {tokens others : List (Token String)}

/-- The tag at a place. -/
theorem agrees_tag (places : Nat) : (tag places).Agrees Aligned := by
  intro left right aligned
  obtain ⟨kind, further⟩ := aligned.peek places
  exact ⟨congrArg TokenKind.tag kind, further⟩

/-- Whether a tag stands at a place. -/
theorem agrees_hasTag (places : Nat) (expected : Tag) : (hasTag places expected).Agrees Aligned :=
  byTags_hasTag places expected Aligned agrees_tag

/-- Whether a name stands at a place. -/
theorem agrees_hasName (places : Nat) (name : Name) : (hasName places name).Agrees Aligned := by
  intro left right aligned
  obtain ⟨kind, further⟩ := aligned.peek places
  exact ⟨congrArg (· == TokenKind.identifier name) kind, further⟩

/-- A tag that is not the end stands at the place of a token. -/
theorem lt_of_tag {places : Nat} (pending : left.Pending tokens)
    (real : (tag places left).1 ≠ .endOfInput) : places < (Token.ordinary tokens).length := by
  have stays := (looks_peek pending places).2
  by_contra past
  rw [List.getElem?_eq_none (by omega)] at stays
  exact real stays

/-- The place past a string literal, however many tokens there may be at most. -/
theorem agrees_stringRest (count more places : Nat) (aligned : left.Aligned right)
    (pending : left.Pending tokens) (pendingOther : right.Pending others)
    (inside : places ≤ (Token.ordinary tokens).length)
    (insideOther : places ≤ (Token.ordinary others).length)
    (enough : (Token.ordinary tokens).length < places + count)
    (enoughOther : (Token.ordinary others).length < places + more) :
    AgreeAt Aligned left right (stringRest count places) (stringRest more places) := by
  induction count generalizing more places left right with
  | zero => omega
  | succ count ih =>
    cases more with
    | zero => omega
    | succ more =>
      have tags := agrees_tag places left right aligned
      have again (real : (tag places left).1 ≠ .endOfInput) :
          AgreeAt Aligned (tag places left).2 (tag places right).2 (stringRest count (places + 1))
            (stringRest more (places + 1)) := by
        have next := lt_of_tag pending real
        have nextOther := lt_of_tag pendingOther (tags.1 ▸ real)
        exact ih more (places + 1) tags.2 (looks_peek pending places).1.pending
          (looks_peek pendingOther places).1.pending next nextOther (by omega) (by omega)
      refine tags.bind ?_
      split
      · next isContent => exact again (by rw [isContent]; exact Tag.noConfusion)
      · next isEscape => exact again (by rw [isEscape]; exact Tag.noConfusion)
      · exact ⟨rfl, tags.2⟩
      · exact ⟨rfl, tags.2⟩

/-- The place past a string literal that starts at a place. -/
theorem agrees_stringEnd (places : Nat) : (stringEnd places).Agrees Aligned := by
  intro left right aligned
  have asked := agrees_hasTag places .stringOpen left right aligned
  refine asked.bind ?_
  split
  · next opens =>
    obtain ⟨tokens, others, pending, pendingOther, _⟩ := aligned.follow
    have looks : (hasTag places .stringOpen left).2.Pending tokens :=
      (looks_peek pending places).1.pending
    have looksOther : (hasTag places .stringOpen right).2.Pending others :=
      (looks_peek pendingOther places).1.pending
    have isOpen (cursor : Cursor) (answer : (hasTag places .stringOpen cursor).1 = true) :
        (tag places cursor).1 ≠ .endOfInput := by
      have same : (tag places cursor).1 = .stringOpen := beq_iff_eq.mp answer
      rw [same]
      exact Tag.noConfusion
    have next := lt_of_tag pending (isOpen left opens)
    have nextOther := lt_of_tag pendingOther (isOpen right (asked.1 ▸ opens))
    have bound := Pending.length_ordinary_le looks
    have boundOther := Pending.length_ordinary_le looksOther
    exact agrees_stringRest _ _ _ asked.2 looks looksOther next nextOther (by omega) (by omega)
  · exact ⟨rfl, asked.2⟩

/-- A line break between two tokens that follow each other is one of the text. -/
theorem lineBreak_eq (places : Nat) (pending : left.Pending tokens)
    (real : ((left.peek places).2.peek (places + 1)).1.tag ≠ .endOfInput) :
    ∃ close next, (Token.ordinary tokens)[places]? = some close ∧
      (Token.ordinary tokens)[places + 1]? = some next ∧
      ((left.peek places).2.peek (places + 1)).2.lineBreakBetween (left.peek places).1.span
          ((left.peek places).2.peek (places + 1)).1.span =
        Text.breaks left.source close.span.stop next.span.start := by
  obtain ⟨first, isClose⟩ := looks_peek pending places
  obtain ⟨second, isNext⟩ := looks_peek first.pending (places + 1)
  obtain ⟨next, foundNext, spanNext⟩ := isNext.span (isNext.tag ▸ real)
  obtain ⟨bound, _⟩ := List.getElem?_eq_some_iff.mp foundNext
  have found := List.getElem?_eq_getElem (show places < (Token.ordinary tokens).length by omega)
  have span : (left.peek places).1.span = (Token.ordinary tokens)[places].span := by
    rw [found] at isClose
    exact congrArg Token.span isClose.2.2
  refine ⟨_, next, found, foundNext, ?_⟩
  rw [lineBreakBetween, Cursor.text, second.source, first.source, span, ← spanNext]
  rfl

/-- Whether an import ends at a place. -/
theorem agrees_closesImport (places : Nat) : (closesImport places).Agrees Aligned := by
  intro left right aligned
  have asked := agrees_hasTag places .rightParen left right aligned
  have further := asked.2
  refine asked.bind ?_
  generalize (hasTag places .rightParen left).2 = here at further ⊢
  generalize (hasTag places .rightParen right).2 = there at further ⊢
  split
  · have first := further.peek places
    have second := first.2.peek (places + 1)
    have sameTag : ((here.peek places).2.peek (places + 1)).1.tag =
        ((there.peek places).2.peek (places + 1)).1.tag := congrArg TokenKind.tag second.1
    refine ⟨?_, second.2⟩
    show (_ || !continuesExpression ((here.peek places).2.peek (places + 1)).1.tag) =
      (_ || !continuesExpression ((there.peek places).2.peek (places + 1)).1.tag)
    rw [← sameTag]
    cases continues : continuesExpression ((here.peek places).2.peek (places + 1)).1.tag with
    | false => simp only [Bool.not_false, Bool.or_true]
    | true =>
      have real : ((here.peek places).2.peek (places + 1)).1.tag ≠ .endOfInput := by
        intro atEnd
        rw [atEnd] at continues
        contradiction
      obtain ⟨tokens, others, pending, pendingOther, follow⟩ := further.follow
      obtain ⟨close, next, found, foundNext, isBreak⟩ := lineBreak_eq places pending real
      obtain ⟨other, after, foundOther, foundAfter, isBreakOther⟩ :=
        lineBreak_eq places pendingOther (sameTag ▸ real)
      have breaks := follow.breaks_between found foundNext foundOther foundAfter
      rw [← isBreak, ← isBreakOther] at breaks
      exact congrArg (· || !true) breaks
  · exact ⟨rfl, further⟩

/-- What comes after a string literal. -/
theorem agrees_afterString {next : Nat → Lookahead Bool} (places : Nat)
    (more : ∀ past, (next past).Agrees Aligned) :
    Agrees Aligned (do
      match ← stringEnd places with
      | none => return false
      | some past => next past) := by
  refine .bind (agrees_stringEnd places) fun found => ?_
  cases found with
  | none => exact .pure _
  | some past => exact more past

/-- Whether an import starts at the current token. -/
theorem agrees_startsImport (importName asKey : Name) :
    (startsImport importName asKey).Agrees Aligned := by
  have ends (places : Nat) : Agrees Aligned (do
      if ← hasTag places .comma then
        andThen (hasName (places + 1) asKey) <| andThen (hasTag (places + 2) .colon) do
          match ← stringEnd (places + 3) with
          | none => return false
          | some places => closesImport places
      else closesImport places) := by
    refine .bind (agrees_hasTag _ _) fun found => ?_
    cases found with
    | true =>
      exact .andThen (agrees_hasName _ _) (.andThen (agrees_hasTag _ _)
        (agrees_afterString _ agrees_closesImport))
    | false => exact agrees_closesImport places
  exact .andThen (agrees_hasTag _ _) (.andThen (agrees_hasTag _ _) (.andThen (agrees_hasName _ _)
    (.andThen (agrees_hasTag _ _) (agrees_afterString 4 ends))))

end Lookahead

end Vibescript
