import Vibescript.Proofs.Cursor.Alignment

/-!
# Reading without looking ahead

A `Reader` holds the tokens of a source text that are left, with their texts, and nothing else of
what a cursor holds: no buffer, no queue and no table of names. `Cursor.ReadBy` says that a cursor
and a reader stand at the same place. Whatever a cursor is asked, a reader of the same place gives
the same answer, and both stand at the same place afterwards. Looking ahead leaves the reader as it
was, which is why nobody can tell whether a cursor has looked ahead.
-/
namespace Vibescript

/-- A place in a source text, with what is left of its tokens. -/
structure Reader where
  /-- The source text. -/
  source : List Char
  /-- The tokens that are left, directives included. -/
  tokens : List (Token String)
  /-- The span of the last token or directive that was taken. -/
  previous : Span
  /-- Number of tokens and directives that were taken. -/
  position : Nat

namespace Reader

/-- The reader at the start of a source text. -/
def ofSource (source : String) : Reader :=
  { source := source.toList
    tokens := Piece.tokens (Piece.list source.toList)
    previous := .point 0
    position := 0 }

/-- The end of the source text as a token. -/
def ending (reader : Reader) : Token String :=
  ⟨.endOfInput, .point (Text.byteLength reader.source)⟩

/-- The ordinary token so many places further. -/
def look (reader : Reader) (places : Nat) : Token String :=
  (Token.ordinary reader.tokens)[places]?.getD reader.ending

/-- The first ordinary token that is left. -/
def current (reader : Reader) : Token String := reader.look 0

/-- Whether no ordinary token is left. -/
def isAtEnd (reader : Reader) : Bool := reader.current.tag == .endOfInput

/-- Whether a line break stands before the current token. -/
def isAtLineStart (reader : Reader) : Bool :=
  (Text.slice reader.source ⟨reader.previous.stop, reader.current.span.start⟩).contains '\n'

/-- The tokens after the first ordinary one. -/
def afterFirst (reader : Reader) : List (Token String) :=
  (reader.tokens.dropWhile fun token => token.kind.isDirective).tail

/-- The token that a step takes, if one is left. -/
def taking (reader : Reader) : List (Token String) :=
  if reader.isAtEnd then [] else [reader.current]

/-- Take the first ordinary token. -/
def advance (reader : Reader) : Reader :=
  if reader.isAtEnd then reader
  else
    { reader with
      tokens := reader.afterFirst
      previous := reader.current.span
      position := reader.position + 1 }

/-- Take a directive that is the next of the tokens. -/
def takeDirective (reader : Reader) : Option (Token String) × Reader :=
  match reader.tokens with
  | [] => (none, reader)
  | token :: rest =>
    if token.kind.isDirective then
      (some token,
        { reader with tokens := rest, previous := token.span, position := reader.position + 1 })
    else (none, reader)

/-- Put a colon and a name in the place of a symbol that is the first ordinary token. -/
def splitSymbol (reader : Reader) : Bool × Reader :=
  match reader.current.kind with
  | .symbol name =>
    (true,
      { reader with
        tokens := (reader.tokens.takeWhile fun token => token.kind.isDirective) ++
          .colonOf reader.current.span :: .wordOf name reader.current.span :: reader.afterFirst })
  | _ => (false, reader)

/-- What is no symbol is not split. -/
theorem splitSymbol_of_ne {reader : Reader} (plain : reader.current.tag ≠ .symbol) :
    reader.splitSymbol = (false, reader) := by
  rw [splitSymbol]
  split
  · next name same => exact absurd (congrArg TokenKind.tag same) plain
  · rfl

/-- Take so many ordinary tokens at most, until a condition holds. -/
def skipWithin (stop : Reader → Bool) : Nat → Reader → List (Token String) × Reader
  | 0, reader => ([], reader)
  | count + 1, reader =>
    if reader.isAtEnd || stop reader then ([], reader)
    else
      let (taken, after) := skipWithin stop count reader.advance
      (reader.current :: taken, after)

/-- Nothing is taken where the condition holds. -/
theorem skipWithin_of_halts {stop : Reader → Bool} {reader : Reader} (count : Nat)
    (halts : (reader.isAtEnd || stop reader) = true) :
    skipWithin stop count reader = ([], reader) := by
  cases count with
  | zero => rfl
  | succ count => rw [skipWithin, if_pos halts]

/-- Take ordinary tokens until a condition holds or none is left. -/
def skipUntil (reader : Reader) (stop : Reader → Bool) : List (Token String) × Reader :=
  skipWithin stop (Token.ordinary reader.tokens).length reader

end Reader

/-- The first ordinary token splits off the directives before it. -/
theorem Token.dropWhile_directive {before rest : List (Token String)} {token : Token String}
    (directive : ∀ mark ∈ before, mark.kind.isDirective = true)
    (plain : token.kind.isDirective = false) :
    ((before ++ token :: rest).dropWhile fun token => token.kind.isDirective) = token :: rest ∧
      ((before ++ token :: rest).takeWhile fun token => token.kind.isDirective) = before := by
  rw [List.dropWhile_append_of_pos directive, List.takeWhile_append_of_pos directive]
  simp [plain]

namespace Cursor

/-- The current token, unless the source text ends there. -/
def taking (cursor : Cursor) : List (Token String) :=
  if cursor.isAtEnd then [] else [cursor.current.written cursor.lexer.names]

/-- The tokens that are stepped over until a condition holds. -/
def passed (stop : Cursor → Bool) : Nat → Cursor → List (Token String)
  | 0, _ => []
  | count + 1, cursor =>
    if cursor.isAtEnd || stop cursor then []
    else cursor.current.written cursor.lexer.names :: passed stop count cursor.advance.2

/-- A cursor and a reader stand at the same place of a source text. -/
structure ReadBy (cursor : Cursor) (reader : Reader) : Prop where
  /-- The same tokens are left. -/
  pending : cursor.Pending reader.tokens
  /-- The same was taken last. -/
  previous : cursor.previous = reader.previous
  /-- As much was taken. -/
  position : cursor.position = reader.position
  /-- The text is the same. -/
  source : cursor.source = reader.source

namespace ReadBy

variable {cursor after : Cursor} {reader : Reader} {taken rest : List (Token String)}

/-- At the start of a source text. -/
theorem start (source : String) : (Cursor.ofSource source).ReadBy (.ofSource source) := by
  obtain ⟨pending, isSource, _⟩ := start_ofSource source
  exact ⟨pending, rfl, rfl, isSource⟩

/-- The end of the text is the same token. -/
theorem written_endToken (readBy : cursor.ReadBy reader) (names : NameTable) :
    cursor.lexer.endToken.written names = reader.ending := by
  rw [Reader.ending, ← readBy.source]
  rfl

/-- A cursor that takes nothing stays where the reader is. -/
theorem looks (readBy : cursor.ReadBy reader) (looks : cursor.Looks reader.tokens after) :
    after.ReadBy reader :=
  ⟨looks.pending, looks.previous.trans readBy.previous, looks.position.trans readBy.position,
    looks.source.trans readBy.source⟩

/-- Both have the same current token. -/
theorem current (readBy : cursor.ReadBy reader) :
    cursor.current.written cursor.lexer.names = reader.current := by
  cases atEnd : cursor.isAtEnd with
  | true =>
    obtain ⟨ended, _, none⟩ := readBy.pending.atEnd atEnd
    rw [ended, readBy.written_endToken, Reader.current, Reader.look, none]
    rfl
  | false =>
    obtain ⟨rest, ordinary⟩ := readBy.pending.ordinary atEnd
    rw [Reader.current, Reader.look, ordinary]
    rfl

/-- The current token has the same tag. -/
theorem tag (readBy : cursor.ReadBy reader) : cursor.current.tag = reader.current.tag := by
  rw [← readBy.current, Token.tag_written]

/-- The current token has the same span. -/
theorem span (readBy : cursor.ReadBy reader) : cursor.current.span = reader.current.span := by
  rw [← readBy.current, Token.span_written]

/-- Both are at the end or neither is. -/
theorem isAtEnd (readBy : cursor.ReadBy reader) : cursor.isAtEnd = reader.isAtEnd := by
  rw [Cursor.isAtEnd, Reader.isAtEnd, readBy.tag]

/-- A step takes the same. -/
theorem taking (readBy : cursor.ReadBy reader) : cursor.taking = reader.taking := by
  rw [Cursor.taking, Reader.taking, readBy.isAtEnd, readBy.current]

/-- Both are at the start of a line or neither is. -/
theorem isAtLineStart (readBy : cursor.ReadBy reader) :
    cursor.isAtLineStart = reader.isAtLineStart := by
  rw [Cursor.isAtLineStart, lineBreakBetween, Cursor.text, readBy.source, readBy.previous,
    readBy.span]
  rfl

/-- Looking ahead shows what comes next, and the reader stays. -/
theorem peek (readBy : cursor.ReadBy reader) (places : Nat) :
    (cursor.peek places).1.written (cursor.peek places).2.lexer.names = reader.look places ∧
      (cursor.peek places).2.ReadBy reader := by
  obtain ⟨looks, stays⟩ := looks_peek readBy.pending places
  have kept := readBy.looks looks
  refine ⟨?_, kept⟩
  rw [Reader.look]
  cases found : (Token.ordinary reader.tokens)[places]? with
  | some token =>
    rw [found] at stays
    exact stays.2.2
  | none =>
    rw [peek_of_none readBy.pending found]
    exact kept.written_endToken _

/-- A step leads to the same place. -/
theorem advance (readBy : cursor.ReadBy reader) : cursor.advance.2.ReadBy reader.advance := by
  cases atEnd : cursor.isAtEnd with
  | true => rwa [advance_atEnd atEnd, Reader.advance, ← readBy.isAtEnd, if_pos atEnd]
  | false =>
    rw [Reader.advance, ← readBy.isAtEnd, if_neg (ne_true_of_eq_false atEnd)]
    obtain ⟨before, rest, whole, directive, plain, _⟩ := readBy.pending.ahead atEnd
    have pending := readBy.pending
    rw [whole] at pending
    have moves := moves_advance pending directive atEnd
    have left : reader.afterFirst = rest := by
      rw [Reader.afterFirst, whole,
        (Token.dropWhile_directive directive (by rwa [Token.isDirective_written])).1]
      rfl
    refine ⟨left ▸ moves.pending, ?_, ?_, moves.source.trans readBy.source⟩
    · rw [advance_previous atEnd, readBy.span]
    · rw [moves.position, readBy.position]
      rfl

/-- A claim takes the same directive. -/
theorem takeDirective (readBy : cursor.ReadBy reader) :
    cursor.takeDirective.1.map (·.written cursor.takeDirective.2.lexer.names) =
        reader.takeDirective.1 ∧
      cursor.takeDirective.2.ReadBy reader.takeDirective.2 := by
  rcases readBy.pending.takeDirective with ⟨none, plain⟩ |
    ⟨mark, directives, rest, whole, directive, claims, remains⟩
  · have stays : reader.takeDirective = (Option.none, reader) := by
      rw [Reader.takeDirective]
      cases tokens : reader.tokens with
      | nil => rfl
      | cons token rest =>
        exact if_neg (ne_true_of_eq_false (plain token (by rw [tokens]; rfl)))
    rw [none, stays]
    exact ⟨rfl, readBy⟩
  · have takes : reader.takeDirective = (some (mark.written cursor.lexer.names),
        { reader with tokens := rest, previous := mark.span, position := reader.position + 1 }) := by
      rw [Reader.takeDirective, whole]
      exact if_pos (by rwa [Token.isDirective_written])
    rw [claims] at remains
    rw [claims, takes]
    exact ⟨rfl, remains, rfl, congrArg Nat.succ readBy.position, readBy.source⟩

/-- A symbol is split alike. -/
theorem splitSymbol (readBy : cursor.ReadBy reader) :
    cursor.splitSymbol.1 = reader.splitSymbol.1 ∧
      cursor.splitSymbol.2.ReadBy reader.splitSymbol.2 := by
  by_cases symbol : cursor.current.tag = .symbol
  · obtain ⟨name, same, notEnd⟩ := Cursor.current_symbol symbol
    obtain ⟨before, rest, whole, directive, plain, _⟩ := readBy.pending.ahead notEnd
    have pending := readBy.pending
    rw [whole] at pending
    obtain ⟨moves, splits, _⟩ := moves_splitSymbol pending directive same
    have first : reader.current.kind = .symbol (cursor.nameText name) := by
      rw [← readBy.current, same]
      rfl
    have halves : reader.splitSymbol = (true, { reader with
        tokens := before ++ .colonOf cursor.current.span ::
          .wordOf (cursor.nameText name) cursor.current.span :: rest }) := by
      have isPlain : (cursor.current.written cursor.lexer.names).kind.isDirective = false := by
        rwa [Token.isDirective_written]
      obtain ⟨dropped, marks⟩ := Token.dropWhile_directive directive isPlain
      rw [Reader.splitSymbol, first, Reader.afterFirst, whole, dropped, marks, readBy.span]
      rfl
    rw [halves, splits]
    exact ⟨rfl, moves.pending, moves.previous.trans readBy.previous,
      moves.position.trans readBy.position, moves.source.trans readBy.source⟩
  · rw [splitSymbol_of_ne cursor symbol, Reader.splitSymbol_of_ne (readBy.tag ▸ symbol)]
    exact ⟨rfl, readBy⟩

/-- Interning a text gives that text back, and the reader stays. -/
theorem intern (readBy : cursor.ReadBy reader) (text : String) :
    (cursor.intern text).2.nameText (cursor.intern text).1 = text ∧
      (cursor.intern text).2.ReadBy reader :=
  ⟨NameTable.text_intern readBy.pending.sound text,
    readBy.looks (looks_intern readBy.pending text)⟩

/-- A step that is made leaves one ordinary token fewer. -/
theorem length_advance (readBy : cursor.ReadBy reader) (notEnd : cursor.isAtEnd = false) :
    (Token.ordinary reader.tokens).length =
      (Token.ordinary reader.advance.tokens).length + 1 := by
  obtain ⟨before, rest, whole, directive, plain, _⟩ := readBy.pending.ahead notEnd
  have isPlain : (cursor.current.written cursor.lexer.names).kind.isDirective = false := by
    rwa [Token.isDirective_written]
  rw [Reader.advance, ← readBy.isAtEnd, if_neg (ne_true_of_eq_false notEnd), Reader.afterFirst,
    whole, (Token.dropWhile_directive directive isPlain).1, Token.ordinary_append,
    Token.ordinary_eq_nil directive, List.nil_append, Token.ordinary_cons isPlain]
  rfl

/-- Skipping takes the same tokens, as long as either may skip all that are left. -/
theorem skipWithin {stop : Cursor → Bool} {halt : Reader → Bool}
    (stops : ∀ (here : Cursor) (there : Reader), here.ReadBy there → stop here = halt there)
    (count more : Nat) (readBy : cursor.ReadBy reader)
    (enough : (Token.ordinary reader.tokens).length ≤ count)
    (enoughToo : (Token.ordinary reader.tokens).length ≤ more) :
    passed stop count cursor = (reader.skipWithin halt more).1 ∧
      (Cursor.skipWithin stop count cursor).ReadBy (reader.skipWithin halt more).2 := by
  induction count generalizing cursor reader more with
  | zero =>
    have noneLeft : reader.isAtEnd = true := by
      rw [← readBy.isAtEnd]
      by_contra notEnd
      have shorter := readBy.length_advance (eq_false_of_ne_true notEnd)
      omega
    rw [Reader.skipWithin_of_halts more (by rw [noneLeft, Bool.true_or])]
    exact ⟨rfl, readBy⟩
  | succ count ih =>
    rw [passed, Cursor.skipWithin]
    have same : (cursor.isAtEnd || stop cursor) = (reader.isAtEnd || halt reader) := by
      rw [readBy.isAtEnd, stops cursor reader readBy]
    cases halts : reader.isAtEnd || halt reader with
    | true =>
      rw [Reader.skipWithin_of_halts more halts, same, halts]
      exact ⟨rfl, readBy⟩
    | false =>
      have shorter := readBy.length_advance (by
        rw [readBy.isAtEnd]
        exact (Bool.or_eq_false_iff.mp halts).1)
      cases more with
      | zero => omega
      | succ more =>
        obtain ⟨taken, stand⟩ := ih more readBy.advance (by omega) (by omega)
        rw [Reader.skipWithin, same, halts]
        exact ⟨congrArg₂ List.cons readBy.current taken, stand⟩

end ReadBy

end Cursor

end Vibescript
