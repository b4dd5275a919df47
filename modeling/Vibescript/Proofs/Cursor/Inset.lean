import Vibescript.Parser.Sets
import Vibescript.Proofs.Cursor.Alignment
import Vibescript.Proofs.Tree.Endings

/-!
# A text inside another one

A text stands in another one when its tokens are followed there by the tokens of a tail. A cursor of
the text and one of the other stand beside each other as long as tokens of the text are left; then the
first is at its end, and the second at the tail. `Token.Detached` says when the tail does not go on
with what the text ends with, and so when the questions of a parse have the same answers.
-/
namespace Vibescript

namespace Tag

/-- Whether a token goes on with what stands before it. -/
def attaches (tag : Tag) : Bool :=
  Lookahead.continuesExpression tag || [leftParen, rightParen, comma, colon, stringContent,
    stringEscape, stringClose].contains tag

end Tag

namespace Token

variable {source other : List Char} {before earlier : Nat}
  {tokens others tail marks rest : List (Token String)} {token : Token String}

/-- The tag of the first ordinary token, or of the end of the text. -/
def opening (tokens : List (Token String)) : Tag := TokenKind.tagAt (kinds tokens) 0

/-- A tail does not go on with what tokens end with. -/
structure Detached (tokens tail : List (Token String)) : Prop where
  /-- It does not start with a token that goes on with others. -/
  opens : (opening tail).attaches = false
  /-- The last token does not expect another. -/
  ends : Rests tokens
  /-- It is no value that could be returned. -/
  returns : ∀ last ∈ (ordinary tokens).getLast?, last.tag = .kwReturn →
    TagSet.expressionStart.contains (opening tail) = false

/-- The last token stays while others are taken. -/
theorem Detached.of_suffix (detached : Detached tokens tail)
    (later : ordinary rest <:+ ordinary tokens) : Detached rest tail := by
  have last : ∀ last ∈ (ordinary rest).getLast?, last ∈ (ordinary tokens).getLast? := by
    intro last isLast
    obtain ⟨early, whole⟩ := later
    rw [← whole, List.getLast?_append, isLast]
    rfl
  exact ⟨detached.opens, fun _ isLast => detached.ends _ (last _ isLast),
    fun _ isLast => detached.returns _ (last _ isLast)⟩

/-- The halves of a symbol end with what follows it, or with the word `end`. -/
theorem Detached.halves (detached : Detached rest tail)
    (directives : ∀ mark ∈ marks, mark.kind.isDirective = true) {name : String} {span : Span}
    (closed : ordinary rest ≠ [] ∨ name = "end") :
    Detached (marks ++ .colonOf span :: .wordOf name span :: rest) tail := by
  have whole := ordinary_halves directives name span rest
  cases isRest : ordinary rest with
  | nil =>
    obtain rfl := closed.resolve_left (absurd isRest)
    have tag : (wordOf "end" span).tag = .kwEnd := by
      show (TokenKind.ofWord "end").tag = .kwEnd
      decide
    have only : ∀ last ∈ (ordinary (marks ++ .colonOf span :: .wordOf "end" span :: rest)).getLast?,
        last.tag = .kwEnd := by
      intro last isLast
      rw [whole, isRest] at isLast
      exact Option.some.inj isLast ▸ tag
    refine ⟨detached.opens, fun last isLast => ?_, fun last isLast => ?_⟩ <;> rw [only last isLast]
    · rfl
    · exact Tag.noConfusion
  | cons token others =>
    refine ⟨detached.opens, fun last isLast => detached.ends last ?_,
      fun last isLast => detached.returns last ?_⟩ <;>
      rw [whole, isRest, List.getLast?_cons_cons, List.getLast?_cons_cons] at isLast <;>
      rw [isRest] <;> exact isLast

/-- Tokens that follow alike have the same kinds among the ordinary ones. -/
theorem Follow.kinds_ordinary (follow : Follow source other before earlier tokens others) :
    Token.kinds tokens = Token.kinds others := by
  have all (tokens : List (Token String)) :
      Token.kinds tokens = (tokens.map Token.kind).filter fun kind => !kind.isDirective := by
    rw [Token.kinds, ordinary, List.filter_map]
    rfl
  rw [all, all, follow.kinds]

/-- Where the first ordinary token stands, an ordinary token of the same kind stands on the other
side. -/
theorem Follow.exposes (follow : Follow source other before earlier (marks ++ token :: rest) others)
    (directives : ∀ mark ∈ marks, mark.kind.isDirective = true)
    (plain : token.kind.isDirective = false) :
    ∃ marks' token' rest', others = marks' ++ token' :: rest' ∧
      (∀ mark ∈ marks', mark.kind.isDirective = true) ∧ token.kind = token'.kind ∧
      Follow source other token.span.stop token'.span.stop rest rest' := by
  have same := follow.kinds_ordinary
  rw [kinds_append_cons directives plain] at same
  obtain ⟨token', rest', found, kind, _⟩ := List.map_eq_cons_iff.mp same.symm
  obtain ⟨marks', rest', rfl, directives', plain', _⟩ := ordinary_eq_cons found
  refine ⟨marks', token', rest', rfl, directives', kind.symm, ?_⟩
  cases follow.passing directives directives' plain plain' with
  | cons _ _ _ take => exact take

end Token

namespace Cursor

/-- A cursor where no directive waits stays. -/
theorem takeDirective_of_none {cursor : Cursor} (unclaimed : cursor.takeDirective.1 = none) :
    cursor.takeDirective = (none, cursor) := by
  unfold takeDirective at unclaimed ⊢
  split
  · rfl
  · next waits =>
    rw [waits] at unclaimed
    split
    · next early =>
      simp only [if_pos early] at unclaimed
      contradiction
    · rfl

/-- Tokens or directives are left. -/
def Busy (cursor : Cursor) : Prop := cursor.isAtEnd = false ∨ cursor.takeDirective.1 ≠ none

/-- Where some are left, some are pending. -/
theorem Busy.ne_nil {cursor : Cursor} {tokens : List (Token String)} (busy : cursor.Busy)
    (pending : cursor.Pending tokens) : tokens ≠ [] := by
  rcases busy with notEnd | waits
  · obtain ⟨_, _, rfl, _⟩ := pending.ahead notEnd
    simp
  · rcases pending.takeDirective with ⟨none, _⟩ | ⟨_, _, _, rfl, _⟩
    · rw [none] at waits
      exact absurd rfl waits
    · simp

/-- Where none are left, none are pending. -/
theorem Pending.eq_nil_of_not_busy {cursor : Cursor} {tokens : List (Token String)}
    (pending : cursor.Pending tokens) (done : ¬cursor.Busy) : tokens = [] := by
  rw [Busy, not_or, not_not, Bool.not_eq_false] at done
  rcases moves_takeDirective pending with ⟨_, ends⟩ | ⟨mark, _, claimed, _⟩
  · exact ends done.1
  · rw [done.2] at claimed
    contradiction

/-- The tokens of a text are pending, and in another text they are pending before a tail. -/
structure Inset (tail tokens others : List (Token String)) (left right : Cursor) : Prop where
  /-- The tokens are pending. -/
  pending : left.Pending tokens
  /-- Others are pending before the tail. -/
  pendingOther : right.Pending (others ++ tail)
  /-- They follow alike. -/
  follow : ∃ before earlier, Token.Follow left.source right.source before earlier tokens others
  /-- The tail does not go on with them. -/
  detached : Token.Detached tokens tail

/-- What is known of cursors beside each other while tokens of the text are left. -/
structure Inset.Ahead (tail tokens others : List (Token String)) (left right : Cursor)
    (marks rest marksOther restOther : List (Token String)) : Prop where
  /-- The current token is the first after some directives. -/
  tokens : tokens = marks ++ left.current.written left.lexer.names :: rest
  /-- So it is in the other text. -/
  others : others = marksOther ++ right.current.written right.lexer.names :: restOther
  /-- Directives stand before it. -/
  marks : ∀ mark ∈ marks, mark.kind.isDirective = true
  /-- Directives stand before it in the other text. -/
  marksOther : ∀ mark ∈ marksOther, mark.kind.isDirective = true
  /-- It is no directive. -/
  plain : (left.current.written left.lexer.names).kind.isDirective = false
  /-- The other text goes on. -/
  notEnd : right.isAtEnd = false
  /-- The current tokens are of one kind. -/
  kind : (left.current.written left.lexer.names).kind =
    (right.current.written right.lexer.names).kind
  /-- The tables hold their names. -/
  known : left.current.kind.Known left.lexer.names ∧ right.current.kind.Known right.lexer.names
  /-- What comes after follows alike. -/
  follow : ∃ before earlier, Token.Follow left.source right.source before earlier rest restOther

namespace Inset

variable {tail tokens others : List (Token String)} {left right here there : Cursor}

/-- Cursors stay beside each other while both look at tokens. -/
theorem looks (inset : Inset tail tokens others left right) (looks : left.Looks tokens here)
    (looksOther : right.Looks (others ++ tail) there) : Inset tail tokens others here there := by
  obtain ⟨before, earlier, follow⟩ := inset.follow
  refine ⟨looks.pending, looksOther.pending, ⟨before, earlier, ?_⟩, inset.detached⟩
  rw [looks.source, looksOther.source]
  exact follow

/-- While tokens of the text are left, both cursors stand at one kind of token. -/
theorem ahead (inset : Inset tail tokens others left right) (notEnd : left.isAtEnd = false) :
    ∃ marks rest marksOther restOther,
      Ahead tail tokens others left right marks rest marksOther restOther := by
  obtain ⟨marks, rest, rfl, directives, plain, known⟩ := inset.pending.ahead notEnd
  rw [← Token.isDirective_written left.lexer.names] at plain
  obtain ⟨_, _, follow⟩ := inset.follow
  obtain ⟨marksOther, token, restOther, rfl, directivesOther, kind, later⟩ :=
    follow.exposes directives plain
  have isFirst : Token.ordinary (marksOther ++ token :: restOther ++ tail) =
      token :: Token.ordinary (restOther ++ tail) := by
    rw [List.append_assoc, List.cons_append, Token.ordinary_append,
      Token.ordinary_eq_nil directivesOther, List.nil_append, Token.ordinary_cons (kind ▸ plain)]
  have notEndOther : right.isAtEnd = false := by
    cases atEnd : right.isAtEnd with
    | false => rfl
    | true =>
      obtain ⟨_, _, none⟩ := inset.pendingOther.atEnd atEnd
      rw [isFirst] at none
      contradiction
  obtain ⟨_, first⟩ := inset.pendingOther.ordinary notEndOther
  obtain ⟨_, _, _, _, _, knownOther⟩ := inset.pendingOther.ahead notEndOther
  rw [isFirst] at first
  obtain rfl := (List.cons.inj first).1
  exact ⟨marks, rest, marksOther, restOther, rfl, rfl, directives, directivesOther, plain,
    notEndOther, kind, ⟨known, knownOther⟩, _, _, later⟩

/-- At the end of the text the other cursor stands at the tail. -/
theorem tag_atEnd (inset : Inset tail tokens others left right) (atEnd : left.isAtEnd = true) :
    right.current.tag = Token.opening tail := by
  obtain ⟨_, _, none⟩ := inset.pending.atEnd atEnd
  obtain ⟨_, _, follow⟩ := inset.follow
  have noneOther : Token.kinds others = [] := by
    rw [← follow.kinds_ordinary, Token.kinds, none]
    rfl
  rw [inset.pendingOther.tag, Token.kinds, Token.ordinary_append, List.map_append]
  show TokenKind.tagAt (Token.kinds others ++ Token.kinds tail) 0 = _
  rw [noneOther]
  rfl

variable {marks rest marksOther restOther : List (Token String)}

/-- The tokens that are left after a step. -/
theorem Ahead.detached (inset : Inset tail tokens others left right)
    (ahead : Ahead tail tokens others left right marks rest marksOther restOther) :
    Token.Detached rest tail := by
  refine inset.detached.of_suffix ?_
  rw [ahead.tokens, Token.ordinary_append, Token.ordinary_eq_nil ahead.marks, List.nil_append,
    Token.ordinary_cons ahead.plain]
  exact List.suffix_cons _ _

/-- A step keeps cursors beside each other. -/
theorem Ahead.advance (inset : Inset tail tokens others left right)
    (ahead : Ahead tail tokens others left right marks rest marksOther restOther)
    (notEnd : left.isAtEnd = false) :
    Inset tail rest restOther left.advance.2 right.advance.2 := by
  have detached := ahead.detached inset
  have pending := inset.pending
  have pendingOther := inset.pendingOther
  rw [ahead.tokens] at pending
  rw [ahead.others, List.append_assoc, List.cons_append] at pendingOther
  have moves := moves_advance pending ahead.marks notEnd
  have movesOther := moves_advance pendingOther ahead.marksOther ahead.notEnd
  obtain ⟨before, earlier, follow⟩ := ahead.follow
  refine ⟨moves.pending, movesOther.pending, ⟨before, earlier, ?_⟩, detached⟩
  rw [moves.source, movesOther.source]
  exact follow

/-- A symbol is split on both sides. -/
theorem Ahead.splitSymbol (inset : Inset tail tokens others left right)
    (ahead : Ahead tail tokens others left right marks rest marksOther restOther)
    (symbol : left.current.tag = .symbol)
    (closed : Token.ordinary rest ≠ [] ∨
      (left.current.written left.lexer.names).kind = .symbol "end") :
    left.splitSymbol.1 = true ∧ right.splitSymbol.1 = true ∧
      ∃ tokens others, Inset tail tokens others left.splitSymbol.2 right.splitSymbol.2 := by
  obtain ⟨name, isSymbol, _⟩ := Cursor.current_symbol symbol
  have written := Cursor.written_symbol isSymbol
  have symbolOther : right.current.tag = .symbol := by
    have same := congrArg TokenKind.tag ahead.kind
    rw [written] at same
    rw [← Token.tag_written right.lexer.names]
    exact same.symm
  obtain ⟨nameOther, isSymbolOther, _⟩ := Cursor.current_symbol symbolOther
  have writtenOther := Cursor.written_symbol isSymbolOther
  have text : right.nameText nameOther = left.nameText name := by
    have same := ahead.kind
    rw [written, writtenOther] at same
    exact (TokenKind.symbol.inj same).symm
  have pending := inset.pending
  have pendingOther := inset.pendingOther
  rw [ahead.tokens] at pending
  rw [ahead.others, List.append_assoc, List.cons_append] at pendingOther
  obtain ⟨moves, splits, _⟩ := moves_splitSymbol pending ahead.marks isSymbol
  obtain ⟨movesOther, splitsOther, _⟩ :=
    moves_splitSymbol pendingOther ahead.marksOther isSymbolOther
  obtain ⟨before, earlier, follow⟩ := inset.follow
  rw [ahead.tokens, ahead.others, written, writtenOther, text] at follow
  have halves := follow.split ahead.marks ahead.marksOther
  rw [written] at closed
  refine ⟨splits, splitsOther, _, marksOther ++ .colonOf right.current.span ::
    .wordOf (right.nameText nameOther) right.current.span :: restOther, moves.pending, ?_,
    ⟨before, earlier, ?_⟩,
    (ahead.detached inset).halves ahead.marks (closed.imp_right TokenKind.symbol.inj)⟩
  · simpa using movesOther.pending
  · rw [moves.source, movesOther.source, text]
    exact halves

/-- A current token that is no symbol is split on neither side. -/
theorem Ahead.splitSymbol_of_ne
    (ahead : Ahead tail tokens others left right marks rest marksOther restOther)
    (other : left.current.tag ≠ .symbol) :
    left.splitSymbol = (false, left) ∧ right.splitSymbol = (false, right) := by
  have same := congrArg TokenKind.tag ahead.kind
  have tag : left.current.tag = right.current.tag := by
    rw [← Token.tag_written left.lexer.names, ← Token.tag_written right.lexer.names]
    exact same
  exact ⟨Cursor.splitSymbol_of_ne left other, Cursor.splitSymbol_of_ne right (tag ▸ other)⟩

/-- Both cursors claim a directive that declares the same, or none claims one. -/
theorem takeDirective (inset : Inset tail tokens others left right) (some : tokens ≠ []) :
    (left.takeDirective = (none, left) ∧ right.takeDirective = (none, right)) ∨
    ∃ mark other rest more, left.takeDirective.1 = Option.some mark ∧
      right.takeDirective.1 = Option.some other ∧
      mark.kind = other.kind ∧ mark.kind.isDirective = true ∧
      (mark.kind = .usesDirective → Directive.usesNames (left.takeDirective.2.text mark.span) =
        Directive.usesNames (right.takeDirective.2.text other.span)) ∧
      Inset tail rest more left.takeDirective.2 right.takeDirective.2 := by
  obtain ⟨before, earlier, follow⟩ := inset.follow
  have detached := inset.detached
  cases follow with
  | nil => exact absurd rfl some
  | @cons _ _ first second firsts seconds alike _ _ take =>
    rcases inset.pending.takeDirective with ⟨none, plain⟩ | claimed
    · refine .inl ⟨none, ?_⟩
      rcases inset.pendingOther.takeDirective with ⟨noneOther, _⟩ | ⟨_, _, _, same, directive, _⟩
      · exact noneOther
      · have plainOther := plain _ rfl
        rw [alike.kind, (List.cons.inj same).1, Token.isDirective_written, directive] at plainOther
        contradiction
    · obtain ⟨mark, _, rest, same, directive, claims, remains⟩ := claimed
      obtain ⟨rfl, rfl⟩ := List.cons.inj same
      right
      rcases inset.pendingOther.takeDirective with ⟨_, plain⟩ | claimedOther
      · have plainOther := plain _ rfl
        rw [← alike.kind, Token.isDirective_written, directive] at plainOther
        contradiction
      · obtain ⟨other, _, restOther, same, directiveOther, claimsOther, remainsOther⟩ := claimedOther
        obtain ⟨rfl, rfl⟩ := List.cons.inj same
        have kind : mark.kind = other.kind :=
          TokenKind.eq_of_isDirective directive directiveOther alike.kind
        have isMark : (mark.written left.lexer.names).kind.isDirective = true := by
          rwa [Token.isDirective_written]
        have kept : Token.Detached firsts tail := by
          have same := Token.ordinary_cons_directive isMark firsts
          exact detached.of_suffix (same ▸ List.suffix_rfl)
        rw [claims] at remains ⊢
        rw [claimsOther] at remainsOther ⊢
        refine ⟨mark, other, firsts, seconds, rfl, rfl, kind, directive, fun uses => ?_,
          remains, remainsOther, ⟨_, _, take⟩, kept⟩
        have declared := alike.uses
        simp only [Token.uses, Token.written, uses, ← kind, TokenKind.map] at declared
        exact declared

end Inset

end Cursor

end Vibescript
