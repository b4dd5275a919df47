import Vibescript.Proofs.Cursor.Pending

/-!
# What a cursor does

`Cursor.Moves` says what every step of a cursor has in common: it takes some of the tokens that
are pending and leaves the others, and it keeps count. `Cursor.Looks` is a step that takes
nothing and stays on the current token.
-/
namespace Vibescript

namespace Cursor

/-- The tokens before a cursor, in the order of the text. -/
def Pending (cursor : Cursor) (tokens : List (Token String)) : Prop :=
  cursor.lexer.Shows (cursor.current :: cursor.ahead) cursor.directives tokens

/-- A cursor takes tokens and leaves others. -/
structure Moves (before : Cursor) (tokens taken rest : List (Token String)) (after : Cursor) :
    Prop where
  /-- The others are left. -/
  pending : after.Pending rest
  /-- The tokens are taken in their order. -/
  consumes : Consumes tokens taken rest
  /-- The cursor knows the last that was taken. -/
  previous : after.previous = (taken.getLast?.map Token.span).getD before.previous
  /-- The cursor counts those that were taken. -/
  position : after.position = before.position + taken.length
  /-- The text stays. -/
  source : after.source = before.source
  /-- Names are added. -/
  names : before.lexer.names.Grows after.lexer.names
  /-- Errors are added. -/
  errors : before.lexer.errors.toList <+: after.lexer.errors.toList
  /-- The errors of the text stay. -/
  faults : after.lexer.faults = before.lexer.faults

/-- A cursor takes nothing and stays on the current token. -/
structure Looks (before : Cursor) (tokens : List (Token String)) (after : Cursor) : Prop where
  /-- The same tokens are pending. -/
  pending : after.Pending tokens
  /-- The current token stays. -/
  current : after.current = before.current
  /-- The token before it stays. -/
  previous : after.previous = before.previous
  /-- The count stays. -/
  position : after.position = before.position
  /-- The text stays. -/
  source : after.source = before.source
  /-- Names are added. -/
  names : before.lexer.names.Grows after.lexer.names
  /-- Errors are added. -/
  errors : before.lexer.errors.toList <+: after.lexer.errors.toList
  /-- The errors of the text stay. -/
  faults : after.lexer.faults = before.lexer.faults

section

variable {first second third cursor : Cursor}
  {tokens taken more middle rest before : List (Token String)}

/-- Taking nothing. -/
theorem Moves.refl (pending : cursor.Pending tokens) : cursor.Moves tokens [] tokens cursor :=
  ⟨pending, .done _, rfl, rfl, rfl, .refl _, List.prefix_rfl, rfl⟩

/-- Taking tokens twice. -/
theorem Moves.trans (left : first.Moves tokens taken middle second)
    (right : second.Moves middle more rest third) :
    first.Moves tokens (taken ++ more) rest third := by
  refine ⟨right.pending, left.consumes.trans right.consumes, ?_, ?_,
    right.source.trans left.source, left.names.trans right.names,
    left.errors.trans right.errors, right.faults.trans left.faults⟩
  · rw [right.previous, left.previous, List.getLast?_append]
    cases more.getLast? <;> rfl
  · rw [right.position, left.position, List.length_append]
    omega

/-- Looking at nothing. -/
theorem Looks.refl (pending : cursor.Pending tokens) : cursor.Looks tokens cursor :=
  ⟨pending, rfl, rfl, rfl, rfl, .refl _, List.prefix_rfl, rfl⟩

/-- Looking twice. -/
theorem Looks.trans (left : first.Looks tokens second) (right : second.Looks tokens third) :
    first.Looks tokens third :=
  ⟨right.pending, right.current.trans left.current, right.previous.trans left.previous,
    right.position.trans left.position, right.source.trans left.source,
    left.names.trans right.names, left.errors.trans right.errors,
    right.faults.trans left.faults⟩

/-- Looking takes nothing. -/
theorem Looks.moves (looks : first.Looks tokens second) : first.Moves tokens [] tokens second :=
  ⟨looks.pending, .done _, looks.previous, looks.position, looks.source, looks.names,
    looks.errors, looks.faults⟩

/-- The tokens of the text stand in a line. -/
theorem Pending.line (pending : cursor.Pending tokens) : Token.InLine cursor.source tokens :=
  Lexer.Shows.line pending

/-- The names are sound. -/
theorem Pending.sound (pending : cursor.Pending tokens) : cursor.lexer.names.Sound :=
  Lexer.Shows.sound pending

/-- A cursor that is not at the end stands on the first ordinary token that is pending. -/
theorem Pending.ahead (pending : cursor.Pending tokens) (notEnd : cursor.isAtEnd = false) :
    ∃ before rest, tokens = before ++ cursor.current.written cursor.lexer.names :: rest ∧
      (∀ mark ∈ before, mark.kind.isDirective = true) ∧
      cursor.current.kind.isDirective = false ∧
      cursor.current.kind.Known cursor.lexer.names := by
  rcases pending.first with ⟨atEnd, _⟩ | ⟨_, known, before, rest, whole, directive, plain⟩
  · rw [isAtEnd, atEnd] at notEnd
    exact Bool.noConfusion notEnd
  · exact ⟨before, rest, whole, directive, plain, known⟩

/-- At the end only directives are pending, and the text was read. -/
theorem Pending.atEnd (pending : cursor.Pending tokens) (atEnd : cursor.isAtEnd = true) :
    cursor.current = cursor.lexer.endToken ∧ cursor.lexer.pieces = [] ∧
      Token.ordinary tokens = [] := by
  rcases pending.first with ended | ⟨notEnd, _⟩
  · exact ended
  · exact absurd (beq_iff_eq.mp atEnd) notEnd

/-- The ordinary tokens begin with the current one. -/
theorem Pending.ordinary (pending : cursor.Pending tokens) (notEnd : cursor.isAtEnd = false) :
    ∃ rest, Token.ordinary tokens = cursor.current.written cursor.lexer.names :: rest := by
  obtain ⟨before, rest, rfl, directive, plain, _⟩ := pending.ahead notEnd
  refine ⟨Token.ordinary rest, ?_⟩
  rw [Token.ordinary_append, Token.ordinary_eq_nil directive, List.nil_append,
    Token.ordinary_cons (by rwa [Token.isDirective_written])]

/-- Tokens of the text that are still to be read are no ends. -/
theorem Pending.pulls (pending : cursor.Pending tokens) :
    cursor.lexer.Pulls cursor.lexer.pieces (pull cursor.lexer).1
      (pull cursor.lexer).2.1 (pull cursor.lexer).2.2 := by
  refine pulls_pullIn cursor.lexer cursor.lexer.pieces pending.sound fun token member => ?_
  obtain ⟨front, plain, ends, holds, rfl⟩ := pending
  exact (holds.line.stands token (List.mem_append_right _ member)).notEnd

/-- Looking further keeps what is pending. -/
theorem looks_lookFurther (count : Nat) (pending : cursor.Pending tokens) :
    cursor.Looks tokens (lookFurther count cursor) ∧
      (lookFurther count cursor).ahead.length = cursor.ahead.length + count := by
  induction count generalizing cursor with
  | zero => exact ⟨.refl pending, rfl⟩
  | succ count ih =>
    have pulls := pending.pulls
    have shows := Lexer.Shows.pull pending pulls
    have once : cursor.Looks tokens
        { cursor with
          lexer := (pull cursor.lexer).2.2
          ahead := cursor.ahead ++ [(pull cursor.lexer).1]
          directives := cursor.directives ++ (pull cursor.lexer).2.1 } :=
      ⟨shows, rfl, rfl, rfl, pulls.source, pulls.names, pulls.errors, pulls.faults⟩
    obtain ⟨looks, length⟩ := ih once.pending
    refine ⟨once.trans looks, length.trans ?_⟩
    rw [List.length_append, List.length_singleton]
    omega

end

end Cursor

/-- A token is the one that stands at a place of some tokens, or the end where none stands. -/
def Token.Stays (names : NameTable) (token : Token Name) : Option (Token String) → Prop
  | some expected => token.tag ≠ .endOfInput ∧ token.kind.Known names ∧
      token.written names = expected
  | none => token.tag = .endOfInput

namespace Cursor

variable {cursor : Cursor} {tokens rest before : List (Token String)}

/-- Peeking fills the buffer as far as the token that it shows. -/
theorem looks_peek_buffer (pending : cursor.Pending tokens) (places : Nat) :
    cursor.Looks tokens (cursor.peek places).2 ∧
      ((cursor.peek places).2.current :: (cursor.peek places).2.ahead)[places]? =
        some (cursor.peek places).1 := by
  cases places with
  | zero => exact ⟨.refl pending, rfl⟩
  | succ place =>
    obtain ⟨looks, length⟩ := looks_lookFurther (place + 1 - cursor.ahead.length) pending
    refine ⟨looks, ?_⟩
    have inside : place < (lookFurther (place + 1 - cursor.ahead.length) cursor).ahead.length := by
      omega
    rw [List.getElem?_cons_succ, peek, List.getElem?_eq_getElem inside]
    rfl

/-- Peeking shows the ordinary token at a place. -/
theorem looks_peek (pending : cursor.Pending tokens) (places : Nat) :
    cursor.Looks tokens (cursor.peek places).2 ∧
      (cursor.peek places).1.Stays (cursor.peek places).2.lexer.names
        (Token.ordinary tokens)[places]? := by
  obtain ⟨looks, found⟩ := looks_peek_buffer pending places
  refine ⟨looks, ?_⟩
  rcases Lexer.Shows.getElem? looks.pending found with ⟨ended, none⟩ | ⟨notEnd, known, same⟩
  · rw [none, ended]
    rfl
  · rw [same]
    exact ⟨notEnd, known, rfl⟩

/-- Peeking past the last ordinary token shows the end of the text. -/
theorem peek_of_none (pending : cursor.Pending tokens) {places : Nat}
    (none : (Token.ordinary tokens)[places]? = none) :
    (cursor.peek places).1 = (cursor.peek places).2.lexer.endToken := by
  obtain ⟨looks, found⟩ := looks_peek_buffer pending places
  rcases Lexer.Shows.getElem? looks.pending found with ⟨ended, _⟩ | ⟨_, _, same⟩
  · exact ended
  · exact absurd (none.symm.trans same) (Option.some_ne_none _).symm

/-- Stepping to the next token takes the current one. -/
theorem moves_advance
    (pending : cursor.Pending (before ++ cursor.current.written cursor.lexer.names :: rest))
    (directive : ∀ mark ∈ before, mark.kind.isDirective = true)
    (notEnd : cursor.isAtEnd = false) :
    cursor.Moves (before ++ cursor.current.written cursor.lexer.names :: rest)
      [cursor.current.written cursor.lexer.names] rest cursor.advance.2 := by
  have notTag : cursor.current.tag ≠ .endOfInput := by
    simpa [isAtEnd] using notEnd
  have tail := Lexer.Shows.tail pending directive notTag
  have consumes : Consumes (before ++ cursor.current.written cursor.lexer.names :: rest)
      [cursor.current.written cursor.lexer.names] rest :=
    .demote_all directive (.take (.done _))
  unfold advance
  simp only [notEnd, Bool.false_eq_true, if_false]
  cases ahead : cursor.ahead with
  | cons next others =>
    rw [ahead] at tail
    simp only [demoteBefore, ahead]
    exact ⟨tail, consumes, rfl, rfl, rfl, .refl _, List.prefix_rfl, rfl⟩
  | nil =>
    rw [ahead] at tail
    have pulls := pending.pulls
    have shows := tail.pull pulls
    simp only [demoteBefore, ahead]
    exact ⟨shows, consumes, rfl, rfl, pulls.source, pulls.names, pulls.errors, pulls.faults⟩

/-- At the end of the text a step takes nothing. -/
theorem advance_atEnd (atEnd : cursor.isAtEnd = true) :
    cursor.advance = (cursor.current, cursor) := by
  rw [advance, if_pos atEnd]

/-- A step gives back the token that it takes. -/
theorem advance_fst (cursor : Cursor) : cursor.advance.1 = cursor.current := by
  unfold advance
  split <;> rfl

/-- After a step the cursor knows the token that it took. -/
theorem advance_previous (notEnd : cursor.isAtEnd = false) :
    cursor.advance.2.previous = cursor.current.span := by
  simp [advance, notEnd]

/-- The waiting directives are pending. -/
theorem Pending.mem_of_mem_directives (pending : cursor.Pending tokens) {mark : Token Name}
    (member : mark ∈ cursor.directives) : mark.written cursor.lexer.names ∈ tokens := by
  obtain ⟨front, plain, ends, holds, rfl⟩ := pending
  have inside : mark.written cursor.lexer.names ∈ Token.directives front := by
    rw [holds.directives]
    exact List.mem_map_of_mem member
  exact List.mem_append_left _ (List.mem_filter.mp inside).1

/-- At the end of the text nothing is pending unless a directive waits. -/
theorem Pending.eq_nil (pending : cursor.Pending tokens) (atEnd : cursor.isAtEnd = true)
    (none : cursor.directives = []) : tokens = [] := by
  obtain ⟨_, empty, noToken⟩ := pending.atEnd atEnd
  obtain ⟨front, plain, ends, holds, rfl⟩ := pending
  have noMark := holds.directives
  rw [none, List.map_nil] at noMark
  rw [empty, Piece.tokens, List.filterMap_nil, List.append_nil] at noToken ⊢
  cases front with
  | nil => rfl
  | cons token front =>
    cases directive : token.kind.isDirective with
    | true => simp [Token.directives, directive] at noMark
    | false => simp [Token.ordinary, directive] at noToken

/-- At the end of the text every waiting directive can be claimed. -/
theorem Pending.directive_lt (pending : cursor.Pending tokens) (atEnd : cursor.isAtEnd = true)
    {mark : Token Name} (member : mark ∈ cursor.directives) :
    mark.span.start < cursor.current.span.start := by
  obtain ⟨ended, _, _⟩ := pending.atEnd atEnd
  have stands := pending.line.stands _ (pending.mem_of_mem_directives member)
  have filled := stands.directive (by
    rw [Token.isDirective_written]
    exact Lexer.Shows.isDirective pending mark member)
  have inside := stands.inside
  rw [Token.span_written] at filled inside
  rw [ended]
  exact Nat.lt_of_lt_of_le filled inside

/-- A claimed directive is taken. At the end of the text there is none to claim only when
nothing is pending. -/
theorem moves_takeDirective (pending : cursor.Pending tokens) :
    (cursor.takeDirective = (none, cursor) ∧ (cursor.isAtEnd = true → tokens = [])) ∨
    ∃ mark rest, cursor.takeDirective.1 = some mark ∧ mark.kind.isDirective = true ∧
      cursor.Moves tokens [mark.written cursor.lexer.names] rest cursor.takeDirective.2 := by
  unfold takeDirective
  cases waiting : cursor.directives with
  | nil => exact .inl ⟨rfl, fun atEnd => pending.eq_nil atEnd waiting⟩
  | cons mark marks =>
    have member : mark ∈ cursor.directives := waiting ▸ List.mem_cons_self
    by_cases early : mark.span.start < cursor.current.span.start
    · right
      have shows := pending
      rw [Pending, waiting] at shows
      obtain ⟨rest, rfl, remains⟩ := shows.claim early
      simp only [if_pos early]
      exact ⟨mark, rest, rfl, Lexer.Shows.isDirective pending mark member, remains,
        .take (.done _), rfl, rfl, rfl, .refl _, List.prefix_rfl, rfl⟩
    · refine .inl ⟨?_, fun atEnd => absurd (pending.directive_lt atEnd member) early⟩
      dsimp only
      rw [if_neg early]

/-- A symbol that is current has a name, and the text does not end there. -/
theorem current_symbol (symbol : cursor.current.tag = .symbol) :
    ∃ name, cursor.current = ⟨.symbol name, cursor.current.span⟩ ∧ cursor.isAtEnd = false := by
  obtain ⟨name, kind⟩ := TokenKind.eq_symbol symbol
  refine ⟨name, by rw [← kind], ?_⟩
  rw [isAtEnd, symbol]
  rfl

/-- A symbol that is current has the text of its name. -/
theorem written_symbol {name : Name} {span : Span} (symbol : cursor.current = ⟨.symbol name, span⟩) :
    cursor.current.written cursor.lexer.names = ⟨.symbol (cursor.nameText name), span⟩ := by
  rw [symbol]
  rfl

/-- A token that is no symbol is not split. -/
theorem splitSymbol_of_ne (cursor : Cursor) (other : cursor.current.tag ≠ .symbol) :
    cursor.splitSymbol = (false, cursor) := by
  unfold splitSymbol
  split
  · next name same =>
    rw [Token.tag, same] at other
    exact absurd rfl other
  · rfl

/-- The cursor after a symbol with a span was split. -/
def splitAt (cursor : Cursor) (text : String) (span : Span) : Cursor :=
  let word := (TokenKind.ofWord text).intern cursor.lexer.names
  { cursor with
    lexer := { cursor.lexer with names := word.2 }
    current := ⟨.fixed .colon, ⟨span.start, span.start + 1⟩⟩
    ahead := ⟨word.1, ⟨span.start + 1, span.stop⟩⟩ :: cursor.ahead }

/-- A symbol is split into its colon and the word after it in the text. -/
theorem splitSymbol_eq {name : Name} {span : Span} (symbol : cursor.current = ⟨.symbol name, span⟩) :
    cursor.splitSymbol =
      (true, cursor.splitAt (String.ofList (cursor.text ⟨span.start + 1, span.stop⟩)) span) := by
  rw [splitSymbol]
  simp only [symbol]
  rfl

/-- The name of a symbol is read again from the text. -/
theorem splitSymbol_of_pending {name : Name} {span : Span}
    (pending : cursor.Pending (before ++ cursor.current.written cursor.lexer.names :: rest))
    (symbol : cursor.current = ⟨.symbol name, span⟩) :
    cursor.splitSymbol = (true, cursor.splitAt (cursor.nameText name) span) := by
  have line := pending.line
  rw [written_symbol symbol] at line
  have text := ((line.stands _ (List.mem_append_right _ List.mem_cons_self)).symbol _ rfl).2
  have word := congrArg String.ofList text
  rw [String.ofList_toList] at word
  rw [splitSymbol_eq symbol, Cursor.text, word]

/-- A split symbol is pending as a colon and a name. -/
theorem moves_splitSymbol {name : Name} {span : Span}
    (pending : cursor.Pending (before ++ cursor.current.written cursor.lexer.names :: rest))
    (directive : ∀ mark ∈ before, mark.kind.isDirective = true)
    (symbol : cursor.current = ⟨.symbol name, span⟩) :
    cursor.Moves (before ++ cursor.current.written cursor.lexer.names :: rest) []
        (before ++ .colonOf span :: .wordOf (cursor.nameText name) span :: rest)
        cursor.splitSymbol.2 ∧
      cursor.splitSymbol.1 = true ∧
      cursor.splitSymbol.2.current = ⟨.fixed .colon, ⟨span.start, span.start + 1⟩⟩ := by
  have written := written_symbol symbol
  have line := pending.line
  rw [written] at line
  rw [splitSymbol_of_pending pending symbol]
  have halves := line.split_symbol_after
  have consumes : Consumes (before ++ cursor.current.written cursor.lexer.names :: rest) []
      (before ++ .colonOf span :: .wordOf (cursor.nameText name) span :: rest) := by
    rw [written]
    exact .split directive (.done _)
  have notEnd : cursor.current.tag ≠ .endOfInput := by
    rw [symbol]
    exact Tag.noConfusion
  have known : cursor.current.kind.Known cursor.lexer.names := by
    rcases pending.first with ⟨atEnd, _⟩ | ⟨_, known, _⟩
    · rw [atEnd] at notEnd
      exact absurd rfl notEnd
    · exact known
  have sound := pending.sound
  have grows := (TokenKind.ofWord (cursor.nameText name)).grows_intern cursor.lexer.names
  have soundAfter := (TokenKind.ofWord (cursor.nameText name)).sound_intern sound
  have knownAfter := (TokenKind.ofWord (cursor.nameText name)).known_intern sound
  have right := Token.written_intern sound (.ofWord (cursor.nameText name))
    ⟨span.start + 1, span.stop⟩
  have grown := Lexer.Shows.grow pending grows soundAfter
  rw [← Token.written_grows grows known] at grown
  have shows := grown.exchange ⟨.fixed .colon, ⟨span.start, span.start + 1⟩⟩
    ⟨((TokenKind.ofWord (cursor.nameText name)).intern cursor.lexer.names).1,
      ⟨span.start + 1, span.stop⟩⟩ directive notEnd ?_ ?_ ?_ ?_
  · rw [right] at shows
    exact ⟨⟨shows, consumes, rfl, rfl, rfl, grows, List.prefix_rfl, rfl⟩, rfl, rfl⟩
  · intro token member
    simp only [List.mem_cons, List.not_mem_nil, or_false] at member
    rcases member with rfl | rfl
    · exact Tag.noConfusion
    · rw [Token.tag, TokenKind.tag_intern]
      exact TokenKind.tag_ofWord_ne _ rfl Tag.noConfusion Tag.noConfusion
  · intro token member
    simp only [List.mem_cons, List.not_mem_nil, or_false] at member
    rcases member with rfl | rfl
    · exact TokenKind.known_of_name?_eq_none rfl _
    · exact knownAfter
  · intro token member
    simp only [List.mem_cons, List.not_mem_nil, or_false] at member
    rcases member with rfl | rfl
    · rfl
    · have same := congrArg (fun token => token.kind.isDirective) right
      simp only [Token.isDirective_written] at same
      rw [same, TokenKind.isDirective_ofWord]
  · rw [right]
    exact halves

/-- Interning keeps everything but the names. -/
theorem looks_intern (pending : cursor.Pending tokens) (text : String) :
    cursor.Looks tokens (cursor.intern text).2 := by
  have grows := cursor.lexer.names.grows_intern text
  have sound := NameTable.sound_intern pending.sound text
  exact ⟨Lexer.Shows.grow pending grows sound, rfl, rfl, rfl, rfl, grows, List.prefix_rfl, rfl⟩

/-- Stepping to the next token takes the current one, if there is one. -/
theorem moves_advance_of_pending (pending : cursor.Pending tokens)
    (notEnd : cursor.isAtEnd = false) :
    ∃ rest, cursor.Moves tokens [cursor.current.written cursor.lexer.names] rest
      cursor.advance.2 := by
  obtain ⟨before, rest, rfl, directive, _⟩ := pending.ahead notEnd
  exact ⟨rest, moves_advance pending directive notEnd⟩

/-- Splitting the current symbol takes nothing; afterwards no symbol is current. -/
theorem moves_splitSymbol_of_pending (pending : cursor.Pending tokens) :
    ∃ rest, cursor.Moves tokens [] rest cursor.splitSymbol.2 ∧
      cursor.splitSymbol.2.current.tag ≠ .symbol := by
  by_cases symbol : cursor.current.tag = .symbol
  · obtain ⟨name, same, notEnd⟩ := current_symbol symbol
    obtain ⟨before, rest, rfl, directive, _⟩ := pending.ahead notEnd
    obtain ⟨moves, _, current⟩ := moves_splitSymbol pending directive same
    refine ⟨_, moves, ?_⟩
    rw [current]
    exact Tag.noConfusion
  · rw [splitSymbol_of_ne cursor symbol]
    exact ⟨tokens, .refl pending, symbol⟩

/-- A colon or the colon of a symbol is current after a split. -/
theorem tag_splitSymbol (pending : cursor.Pending tokens)
    (colon : cursor.current.tag = .colon ∨ cursor.current.tag = .symbol) :
    cursor.splitSymbol.2.current.tag = .colon := by
  rcases colon with colon | symbol
  · rw [splitSymbol_of_ne cursor (by rw [colon]; exact Tag.noConfusion)]
    exact colon
  · obtain ⟨name, same, notEnd⟩ := current_symbol symbol
    obtain ⟨before, rest, rfl, directive, _⟩ := pending.ahead notEnd
    rw [(moves_splitSymbol pending directive same).2.2]
    rfl

/-- Skipping takes some tokens. -/
theorem moves_skipWithin (stop : Cursor → Bool) (count : Nat) (pending : cursor.Pending tokens) :
    ∃ taken rest, cursor.Moves tokens taken rest (skipWithin stop count cursor) ∧
      ∀ token ∈ taken, token.kind.isDirective = false := by
  induction count generalizing cursor tokens with
  | zero => exact ⟨[], tokens, .refl pending, by simp⟩
  | succ count ih =>
    rw [skipWithin]
    by_cases stops : (cursor.isAtEnd || stop cursor) = true
    · rw [if_pos stops]
      exact ⟨[], tokens, .refl pending, by simp⟩
    · rw [if_neg stops]
      have notEnd : cursor.isAtEnd = false := by
        simp only [Bool.or_eq_true, not_or, Bool.not_eq_true] at stops
        exact stops.1
      obtain ⟨before, rest, rfl, directive, plain, _⟩ := pending.ahead notEnd
      have moves := moves_advance pending directive notEnd
      obtain ⟨taken, left, more, ordinary⟩ := ih moves.pending
      refine ⟨_, left, moves.trans more, ?_⟩
      intro token member
      rcases List.mem_append.mp member with first | later
      · rw [List.mem_singleton.mp first, Token.isDirective_written, plain]
      · exact ordinary token later

/-- The cursor at the start of a source text stands in that text, has all its tokens pending, and
counts the errors of the text. -/
theorem start_ofSource (source : String) :
    (ofSource source).Pending (Piece.tokens (Piece.list source.toList)) ∧
      (ofSource source).source = source.toList ∧
      (ofSource source).lexer.faults = (Lexer.ofSource source).faults := by
  have sound : (Lexer.ofSource source).names.Sound := NameTable.sound_initial
  have line := Token.InLine.of_source source.toList
  have shows := Lexer.Shows.start (Lexer.ofSource source) sound line
  have pulls := pulls_pullIn (Lexer.ofSource source) (Lexer.ofSource source).pieces sound
    fun token member => (line.stands token member).notEnd
  exact ⟨shows.pull pulls, pulls.source, pulls.faults⟩

end Cursor

end Vibescript
