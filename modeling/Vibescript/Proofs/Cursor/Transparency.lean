import Vibescript.Proofs.Cursor.Reader
import Vibescript.Proofs.Source.Stream

/-!
# Looking ahead is transparent

A cursor fills its buffer when it is asked what comes next, it keeps directives in a queue, and it
can put two tokens in the place of a symbol. None of that shows. Whatever a cursor is asked, and in
whatever order, it hands out the tokens of the source text one after the other, with every symbol
that was split as its two halves, and no answer depends on where it looked ahead before.
-/
namespace Vibescript

namespace Cursor

/-- What a cursor can be asked to do. -/
inductive Operation where
  /-- Step to the next token. -/
  | advance
  /-- Step over the current token if it has a tag. -/
  | eat (tag : Tag)
  /-- Tell whether the current token has a tag. -/
  | check (tag : Tag)
  /-- Show the token so many places further. -/
  | peek (places : Nat)
  /-- Claim a directive before the current token. -/
  | takeDirective
  /-- Step over all tokens that are left. -/
  | skipToEnd
  /-- Step over tokens until one of a set, or the first on a new line. -/
  | synchronize (boundary : TagSet)
  /-- Intern a text. -/
  | intern (text : String)
  /-- Split a current symbol. -/
  | splitSymbol

/-- Whether an operation only looks ahead. -/
def Operation.isPeek : Operation → Bool
  | .peek _ => true
  | _ => false

/-- What an operation gives back, with names written out. -/
inductive Answer where
  /-- A token. -/
  | token (token : Token String)
  /-- A directive, if one was claimed. -/
  | claim (directive : Option (Token String))
  /-- Yes or no. -/
  | flag (flag : Bool)
  /-- The text of a name. -/
  | text (text : String)
  /-- Nothing. -/
  | done

/-- What an operation does, as its caller sees it. -/
structure Effect where
  /-- What it gives back. -/
  answer : Answer
  /-- The tokens that it takes. -/
  taken : List (Token String) := []
  /-- The spans of the symbols that it splits. -/
  halved : List Span := []

/-- Where a cursor stands, as its caller sees it. -/
structure View where
  /-- The current token. -/
  current : Token String
  /-- The span of the last token or directive that was taken. -/
  previous : Span
  /-- Number of tokens and directives that were taken. -/
  position : Nat
  /-- Whether a line break stands before the current token. -/
  isAtLineStart : Bool

/-- Where a cursor stands. -/
def view (cursor : Cursor) : View :=
  { current := cursor.current.written cursor.lexer.names
    previous := cursor.previous
    position := cursor.position
    isAtLineStart := cursor.isAtLineStart }

/-- Let a cursor do an operation. -/
def perform (cursor : Cursor) : Operation → Effect × Cursor
  | .advance =>
    let (token, after) := cursor.advance
    ({ answer := .token (token.written after.lexer.names), taken := cursor.taking }, after)
  | .eat tag =>
    let (eaten, after) := cursor.eat tag
    ({ answer := .flag eaten, taken := if eaten then cursor.taking else [] }, after)
  | .check tag => ({ answer := .flag (cursor.check tag) }, cursor)
  | .peek places =>
    let (token, after) := cursor.peek places
    ({ answer := .token (token.written after.lexer.names) }, after)
  | .takeDirective =>
    let (directive, after) := cursor.takeDirective
    ({ answer := .claim (directive.map (·.written after.lexer.names)) }, after)
  | .skipToEnd =>
    ({ answer := .done, taken := cursor.passed (fun _ => false) cursor.tokensLeft },
      cursor.skipToEnd)
  | .synchronize boundary =>
    let (found, after) := cursor.synchronize boundary
    ({ answer := .flag found
       taken := cursor.passed (fun here => boundary.contains here.current.tag || here.isAtLineStart)
         cursor.tokensLeft },
      after)
  | .intern text =>
    let (name, after) := cursor.intern text
    ({ answer := .text (after.nameText name) }, after)
  | .splitSymbol =>
    let (split, after) := cursor.splitSymbol
    ({ answer := .flag split, halved := if split then [cursor.current.span] else [] }, after)

/-- Do operations one after the other. -/
def Operation.all {State : Type} (step : State → Operation → Effect × State) :
    List Operation → State → List Effect × State
  | [], state => ([], state)
  | operation :: operations, state =>
    let (effect, after) := step state operation
    let (effects, last) := all step operations after
    (effect :: effects, last)

/-- Let a cursor do operations one after the other. -/
def performAll (operations : List Operation) (cursor : Cursor) : List Effect × Cursor :=
  Operation.all perform operations cursor

end Cursor

namespace Reader

open Cursor (Operation Effect View)

/-- Where a reader stands. -/
def view (reader : Reader) : View :=
  { current := reader.current
    previous := reader.previous
    position := reader.position
    isAtLineStart := reader.isAtLineStart }

/-- Let a reader do an operation. -/
def perform (reader : Reader) : Operation → Effect × Reader
  | .advance => ({ answer := .token reader.current, taken := reader.taking }, reader.advance)
  | .eat tag =>
    if reader.current.tag == tag then
      ({ answer := .flag true, taken := reader.taking }, reader.advance)
    else ({ answer := .flag false }, reader)
  | .check tag => ({ answer := .flag (reader.current.tag == tag) }, reader)
  | .peek places => ({ answer := .token (reader.look places) }, reader)
  | .takeDirective =>
    let (directive, after) := reader.takeDirective
    ({ answer := .claim directive }, after)
  | .skipToEnd =>
    let (taken, after) := reader.skipUntil fun _ => false
    ({ answer := .done, taken }, after)
  | .synchronize boundary =>
    let (taken, after) := reader.skipUntil fun here =>
      boundary.contains here.current.tag || here.isAtLineStart
    ({ answer := .flag (!after.isAtEnd), taken }, after)
  | .intern text => ({ answer := .text text }, reader)
  | .splitSymbol =>
    ({ answer := .flag reader.splitSymbol.1
       halved := if reader.splitSymbol.1 then [reader.current.span] else [] },
      reader.splitSymbol.2)

/-- Let a reader do operations one after the other. -/
def performAll (operations : List Operation) (reader : Reader) : List Effect × Reader :=
  Operation.all perform operations reader

/-- A reader that only looks ahead stays. -/
theorem perform_of_isPeek (reader : Reader) {operation : Operation}
    (isPeek : operation.isPeek = true) : (reader.perform operation).2 = reader := by
  cases operation with
  | peek places => rfl
  | _ => exact absurd isPeek Bool.false_ne_true

/-- A reader gets to the same place without looking ahead. -/
theorem performAll_filter (operations : List Operation) (reader : Reader) :
    (reader.performAll (operations.filter (!·.isPeek))).2 = (reader.performAll operations).2 := by
  induction operations generalizing reader with
  | nil => rfl
  | cons operation operations ih =>
    cases isPeek : operation.isPeek with
    | true =>
      rw [List.filter_cons_of_neg (by simp [isPeek]), ih]
      exact congrArg (fun here => (performAll operations here).2)
        (reader.perform_of_isPeek isPeek).symm
    | false =>
      rw [List.filter_cons_of_pos (by simp [isPeek])]
      exact ih (reader.perform operation).2

end Reader

namespace Cursor.ReadBy

variable {cursor : Cursor} {reader : Reader}

/-- A cursor stands where its reader does, for its caller. -/
theorem view (readBy : cursor.ReadBy reader) : cursor.view = reader.view := by
  rw [Cursor.view, Reader.view, readBy.current, readBy.previous, readBy.position,
    readBy.isAtLineStart]

/-- The token that a step gives back. -/
theorem written_advance (readBy : cursor.ReadBy reader) :
    cursor.advance.1.written cursor.advance.2.lexer.names = reader.current := by
  rw [advance_fst]
  cases atEnd : cursor.isAtEnd with
  | true =>
    rw [advance_atEnd atEnd]
    exact readBy.current
  | false =>
    obtain ⟨before, rest, whole, directive, _, known⟩ := readBy.pending.ahead atEnd
    have pending := readBy.pending
    rw [whole] at pending
    rw [Token.written_grows (moves_advance pending directive atEnd).names known]
    exact readBy.current

/-- Skipping as far as a condition holds. -/
theorem skipUntil {stop : Cursor → Bool} {halt : Reader → Bool} (readBy : cursor.ReadBy reader)
    (stops : ∀ (here : Cursor) (there : Reader), here.ReadBy there → stop here = halt there) :
    passed stop cursor.tokensLeft cursor = (reader.skipUntil halt).1 ∧
      (cursor.skipUntil stop).ReadBy (reader.skipUntil halt).2 :=
  readBy.skipWithin stops _ _ readBy.pending.length_ordinary_le (Nat.le_refl _)

/-- Every operation does the same to a cursor as to its reader. -/
theorem perform (readBy : cursor.ReadBy reader) (operation : Operation) :
    (cursor.perform operation).1 = (reader.perform operation).1 ∧
      (cursor.perform operation).2.ReadBy (reader.perform operation).2 := by
  cases operation with
  | advance =>
    exact ⟨congrArg₂ (fun token taken => Effect.mk (.token token) taken [])
      readBy.written_advance readBy.taking, readBy.advance⟩
  | eat tag =>
    rw [Cursor.perform, Reader.perform, Cursor.eat, Cursor.check, readBy.tag]
    cases reader.current.tag == tag with
    | true => exact ⟨congrArg (Effect.mk (.flag true) · []) readBy.taking, readBy.advance⟩
    | false => exact ⟨rfl, readBy⟩
  | check tag =>
    exact ⟨congrArg (fun current => Effect.mk (.flag (current == tag)) [] []) readBy.tag, readBy⟩
  | peek places =>
    obtain ⟨same, stands⟩ := readBy.peek places
    exact ⟨congrArg (fun token => Effect.mk (.token token) [] []) same, stands⟩
  | takeDirective =>
    obtain ⟨same, stands⟩ := readBy.takeDirective
    exact ⟨congrArg (fun claim => Effect.mk (.claim claim) [] []) same, stands⟩
  | skipToEnd =>
    obtain ⟨same, stands⟩ := readBy.skipUntil fun _ _ _ => Eq.refl false
    exact ⟨congrArg (Effect.mk .done · []) same, stands⟩
  | synchronize boundary =>
    obtain ⟨same, stands⟩ := readBy.skipUntil
      fun here there (both : here.ReadBy there) => show
        (boundary.contains here.current.tag || here.isAtLineStart) =
          (boundary.contains there.current.tag || there.isAtLineStart) by
        rw [both.tag, both.isAtLineStart]
    exact ⟨congrArg₂ (fun atEnd taken => Effect.mk (.flag (!atEnd)) taken [])
      stands.isAtEnd same, stands⟩
  | intern text =>
    obtain ⟨same, stands⟩ := readBy.intern text
    exact ⟨congrArg (fun text => Effect.mk (.text text) [] []) same, stands⟩
  | splitSymbol =>
    obtain ⟨same, stands⟩ := readBy.splitSymbol
    exact ⟨congrArg₂ (fun split span => Effect.mk (.flag split) [] (if split then [span] else []))
      same readBy.span, stands⟩

/-- Operations do the same to a cursor as to its reader. -/
theorem performAll (readBy : cursor.ReadBy reader) (operations : List Operation) :
    (cursor.performAll operations).1 = (reader.performAll operations).1 ∧
      (cursor.performAll operations).2.ReadBy (reader.performAll operations).2 := by
  induction operations generalizing cursor reader with
  | nil => exact ⟨rfl, readBy⟩
  | cons operation operations ih =>
    obtain ⟨effect, stands⟩ := readBy.perform operation
    obtain ⟨effects, last⟩ := ih stands
    exact ⟨congrArg₂ List.cons effect effects, last⟩

end Cursor.ReadBy

namespace Token

/-- A token, or the two halves of a symbol that was split. -/
def halve (spans : List Span) (token : Token String) : List (Token String) :=
  match token.kind with
  | .symbol name =>
    if token.span ∈ spans then [colonOf token.span, wordOf name token.span] else [token]
  | _ => [token]

/-- Tokens with two halves in the place of every symbol that was split. -/
def halveAll (spans : List Span) (tokens : List (Token String)) : List (Token String) :=
  tokens.flatMap (halve spans)

/-- A symbol that was split. -/
theorem halve_symbol {spans : List Span} {name : String} {span : Span} (member : span ∈ spans) :
    halve spans ⟨.symbol name, span⟩ = [colonOf span, wordOf name span] := if_pos member

/-- A token that was not split. -/
theorem halve_of_not_mem {spans : List Span} {token : Token String} (apart : token.span ∉ spans) :
    halve spans token = [token] := by
  unfold halve
  split
  · exact if_neg apart
  · rfl

/-- A token that is no symbol. -/
theorem halve_of_ne {token : Token String} (spans : List Span) (plain : token.tag ≠ .symbol) :
    halve spans token = [token] := by
  unfold halve
  split
  · next name same => exact absurd (congrArg TokenKind.tag same) plain
  · rfl

/-- The name of a symbol is no symbol. -/
theorem tag_wordOf (name : String) (span : Span) : (wordOf name span).tag ≠ .symbol :=
  TokenKind.tag_ofWord_ne name rfl Tag.noConfusion Tag.noConfusion

/-- Splitting some symbols and then others. -/
theorem halveAll_halveAll (first second : List Span) (tokens : List (Token String)) :
    halveAll second (halveAll first tokens) = halveAll (first ++ second) tokens := by
  rw [halveAll, halveAll, halveAll, List.flatMap_assoc]
  refine List.flatMap_congr fun token _ => ?_
  by_cases symbol : token.tag = .symbol
  · obtain ⟨name, kind⟩ := TokenKind.eq_symbol symbol
    obtain ⟨_, span⟩ := token
    obtain rfl : _ = TokenKind.symbol name := kind
    by_cases before : span ∈ first
    · rw [halve_symbol before, halve_symbol (List.mem_append_left _ before)]
      simp [halve_of_ne second (tag_wordOf name span),
        halve_of_ne second (show (colonOf span).tag ≠ .symbol from Tag.noConfusion)]
    · rw [halve_of_not_mem before, List.flatMap_singleton]
      by_cases after : span ∈ second
      · rw [halve_symbol after, halve_symbol (List.mem_append_right first after)]
      · rw [halve_of_not_mem after,
          halve_of_not_mem fun either => (List.mem_append.mp either).elim before after]
  · rw [halve_of_ne first symbol, halve_of_ne _ symbol, List.flatMap_singleton,
      halve_of_ne second symbol]

/-- Tokens stay where no symbol among them was split. -/
theorem halveAll_of_not_mem {spans : List Span} {tokens : List (Token String)}
    (apart : ∀ token ∈ tokens, token.span ∉ spans) : halveAll spans tokens = tokens := by
  induction tokens with
  | nil => rfl
  | cons token tokens ih =>
    rw [halveAll, List.flatMap_cons, halve_of_not_mem (apart token List.mem_cons_self)]
    exact congrArg (token :: ·) (ih fun other member => apart other (List.mem_cons_of_mem _ member))

/-- Of tokens in a line, only the symbol that was split has its span. -/
theorem InLine.halveAll_symbol {source : List Char} {before rest : List (Token String)}
    {name : String} {span : Span} (line : InLine source (before ++ ⟨.symbol name, span⟩ :: rest)) :
    halveAll [span] (before ++ ⟨.symbol name, span⟩ :: rest) =
      before ++ colonOf span :: wordOf name span :: rest := by
  obtain ⟨_, second, apart⟩ := append_iff.mp line
  obtain ⟨later, _, _⟩ := cons_iff.mp second
  have early : ∀ token ∈ before, token.span ∉ [span] := fun token member same => by
    have precedes := (apart token member _ List.mem_cons_self).2
    rw [List.mem_singleton.mp same] at precedes
    exact Nat.lt_irrefl _ precedes
  have late : ∀ token ∈ rest, token.span ∉ [span] := fun token member same => by
    have precedes := (later token member).2
    rw [List.mem_singleton.mp same] at precedes
    exact Nat.lt_irrefl _ precedes
  rw [halveAll, List.flatMap_append, List.flatMap_cons, halve_symbol (List.mem_singleton.mpr rfl)]
  exact congrArg₂ (· ++ colonOf span :: wordOf name span :: ·) (halveAll_of_not_mem early)
    (halveAll_of_not_mem late)

end Token

namespace Reader

open Cursor (Operation)

variable {reader after : Reader} {source : String} {taken more : List (Token String)}
  {halved : List Span}

/-- A reader that is not at the end stands on the first ordinary token that is left. -/
theorem ahead (reader : Reader) (notEnd : reader.isAtEnd = false) :
    ∃ before, reader.tokens = before ++ reader.current :: reader.afterFirst ∧
      (∀ mark ∈ before, mark.kind.isDirective = true) ∧
      reader.current.kind.isDirective = false := by
  cases ordinary : Token.ordinary reader.tokens with
  | nil =>
    rw [isAtEnd, current, look, ordinary] at notEnd
    exact Bool.noConfusion notEnd
  | cons token rest =>
    obtain ⟨before, others, whole, directive, plain, _⟩ := Token.ordinary_eq_cons ordinary
    have isFirst : reader.current = token := by rw [current, look, ordinary]; rfl
    refine ⟨before, ?_, directive, isFirst ▸ plain⟩
    rw [afterFirst, isFirst, whole, (Token.dropWhile_directive directive plain).1]
    rfl

/-- A step takes the first ordinary token. -/
theorem ordinary_advance (reader : Reader) :
    Token.ordinary reader.tokens = reader.taking ++ Token.ordinary reader.advance.tokens := by
  rw [taking, advance]
  cases atEnd : reader.isAtEnd with
  | true => rfl
  | false =>
    obtain ⟨before, whole, directive, plain⟩ := reader.ahead atEnd
    rw [whole, Token.ordinary_append, Token.ordinary_eq_nil directive, Token.ordinary_cons plain]
    rfl

/-- A step stays in the source text. -/
theorem source_advance (reader : Reader) : reader.advance.source = reader.source := by
  rw [advance]
  split <;> rfl

/-- A claim leaves the ordinary tokens. -/
theorem ordinary_takeDirective (reader : Reader) :
    Token.ordinary reader.takeDirective.2.tokens = Token.ordinary reader.tokens ∧
      reader.takeDirective.2.source = reader.source := by
  rw [takeDirective]
  cases tokens : reader.tokens with
  | nil => exact ⟨congrArg Token.ordinary tokens, rfl⟩
  | cons token rest =>
    cases directive : token.kind.isDirective with
    | false => simp only [directive, Bool.false_eq_true, if_false, tokens, and_self]
    | true =>
      simp only [directive, if_true, and_true]
      rw [Token.ordinary, Token.ordinary, List.filter_cons_of_neg (by simp [directive])]

/-- Skipping takes the first ordinary tokens. -/
theorem ordinary_skipWithin (stop : Reader → Bool) (count : Nat) (reader : Reader) :
    Token.ordinary reader.tokens = (reader.skipWithin stop count).1 ++
        Token.ordinary (reader.skipWithin stop count).2.tokens ∧
      (reader.skipWithin stop count).2.source = reader.source := by
  induction count generalizing reader with
  | zero => exact ⟨rfl, rfl⟩
  | succ count ih =>
    cases halts : reader.isAtEnd || stop reader with
    | true =>
      rw [skipWithin_of_halts _ halts]
      exact ⟨rfl, rfl⟩
    | false =>
      obtain ⟨rest, same⟩ := ih reader.advance
      have first := reader.ordinary_advance
      rw [taking, (Bool.or_eq_false_iff.mp halts).1, rest] at first
      rw [skipWithin, halts]
      exact ⟨first, same.trans reader.source_advance⟩

/-- A reader stands behind some tokens of a source text, after some symbols of it were split. -/
structure Behind (source : String) (taken : List (Token String)) (halved : List Span)
    (reader : Reader) : Prop where
  /-- The text is the source text. -/
  isSource : reader.source = source.toList
  /-- The tokens that were taken and those that are left stand in a line. -/
  line : Token.InLine source.toList (taken ++ Token.ordinary reader.tokens)
  /-- They are the tokens of the source text, with the symbols split. -/
  halves : Token.halveAll halved (Token.ordinary (Piece.tokens (Piece.list source.toList))) =
    taken ++ Token.ordinary reader.tokens

namespace Behind

/-- A reader starts behind nothing. -/
theorem start (source : String) : Behind source [] [] (ofSource source) :=
  ⟨rfl, ⟨(Token.InLine.of_source source.toList).ordered.filter _, fun token member =>
      (Token.InLine.of_source source.toList).stands token (List.mem_filter.mp member).1⟩,
    Token.halveAll_of_not_mem fun _ _ => List.not_mem_nil⟩

/-- Taking further tokens. -/
theorem take (behind : Behind source taken halved reader)
    (takes : Token.ordinary reader.tokens = more ++ Token.ordinary after.tokens)
    (same : after.source = reader.source) : Behind source (taken ++ more) halved after := by
  obtain ⟨isSource, line, halves⟩ := behind
  rw [takes, ← List.append_assoc] at line halves
  exact ⟨same.trans isSource, line, halves⟩

/-- Staying behind the same tokens. -/
theorem stay (behind : Behind source taken halved reader)
    (same : Token.ordinary after.tokens = Token.ordinary reader.tokens)
    (sameSource : after.source = reader.source) : Behind source taken halved after := by
  rw [← List.append_nil taken]
  exact behind.take same.symm sameSource

/-- Splitting a current symbol. -/
theorem split (behind : Behind source taken halved reader) {name : String}
    (symbol : reader.current.kind = .symbol name) :
    Behind source taken (halved ++ [reader.current.span]) reader.splitSymbol.2 := by
  have notEnd : reader.isAtEnd = false := by
    rw [isAtEnd, Token.tag, symbol]
    rfl
  obtain ⟨before, whole, directive, plain⟩ := reader.ahead notEnd
  have isFirst : reader.current = ⟨.symbol name, reader.current.span⟩ := by rw [← symbol]
  obtain ⟨isSource, line, halves⟩ := behind
  rw [whole, Token.ordinary_append, Token.ordinary_eq_nil directive, List.nil_append,
    Token.ordinary_cons plain, isFirst] at line halves
  have left : Token.ordinary reader.splitSymbol.2.tokens =
      .colonOf reader.current.span :: .wordOf name reader.current.span ::
        Token.ordinary reader.afterFirst := by
    rw [splitSymbol, symbol, whole, (Token.dropWhile_directive directive plain).2]
    dsimp only
    exact Token.ordinary_halves directive name _ _
  refine ⟨?_, ?_, ?_⟩
  · rw [splitSymbol, symbol]
    exact isSource
  · rw [left]
    exact line.split_symbol_after
  · rw [left, ← Token.halveAll_halveAll, halves, line.halveAll_symbol]

/-- An operation takes the tokens that follow, and splits the symbol that follows. -/
theorem perform (behind : Behind source taken halved reader) (operation : Operation) :
    Behind source (taken ++ (reader.perform operation).1.taken)
      (halved ++ (reader.perform operation).1.halved) (reader.perform operation).2 := by
  have stays : Behind source (taken ++ []) (halved ++ []) reader := by
    rwa [List.append_nil, List.append_nil]
  have skips (stop : Reader → Bool) : Behind source (taken ++ (reader.skipUntil stop).1)
      (halved ++ []) (reader.skipUntil stop).2 := by
    obtain ⟨takes, same⟩ := reader.ordinary_skipWithin stop (Token.ordinary reader.tokens).length
    rw [List.append_nil]
    exact behind.take takes same
  have steps : Behind source (taken ++ reader.taking) (halved ++ []) reader.advance := by
    rw [List.append_nil]
    exact behind.take reader.ordinary_advance reader.source_advance
  cases operation with
  | advance => exact steps
  | eat tag =>
    rw [Reader.perform]
    cases reader.current.tag == tag with
    | true => exact steps
    | false => exact stays
  | check tag => exact stays
  | peek places => exact stays
  | takeDirective =>
    obtain ⟨same, sameSource⟩ := reader.ordinary_takeDirective
    exact stays.stay same sameSource
  | skipToEnd => exact skips _
  | synchronize boundary => exact skips _
  | intern text => exact stays
  | splitSymbol =>
    rw [Reader.perform]
    by_cases symbol : reader.current.tag = .symbol
    · obtain ⟨name, kind⟩ := TokenKind.eq_symbol symbol
      have splits : reader.splitSymbol.1 = true := by rw [splitSymbol, kind]
      rw [splits, List.append_nil]
      exact behind.split kind
    · rw [splitSymbol_of_ne symbol]
      exact stays

/-- Operations take the tokens that follow. -/
theorem performAll (behind : Behind source taken halved reader) (operations : List Operation) :
    Behind source (taken ++ (reader.performAll operations).1.flatMap (·.taken))
      (halved ++ (reader.performAll operations).1.flatMap (·.halved))
      (reader.performAll operations).2 := by
  induction operations generalizing taken halved reader with
  | nil => simpa [Reader.performAll, Operation.all] using behind
  | cons operation operations ih =>
    have after := ih (behind.perform operation)
    rw [List.append_assoc, List.append_assoc] at after
    exact after

end Behind

end Reader

/-- Looking ahead is transparent. Whatever a cursor is asked, in whatever order, the tokens that it
takes and those that it shows next are the ordinary tokens of the source text, with every symbol
that was split as its two halves; past the last one it shows the end. Without looking ahead in
between it gets to the same place, and whatever it is asked from there on has the same effect. -/
theorem transparent_performAll (source : String) (operations : List Cursor.Operation) :
    let run := (Cursor.ofSource source).performAll operations
    let bare := (Cursor.ofSource source).performAll (operations.filter (!·.isPeek))
    let ending : Token String := ⟨.endOfInput, .point (Text.byteLength source.toList)⟩
    (∃ left,
      Token.halveAll (run.1.flatMap (·.halved)) (Token.ordinary (lex source).written) =
        run.1.flatMap (·.taken) ++ left ++ [ending] ∧
      run.2.view.current = left.head?.getD ending ∧
      ∀ places, (run.2.perform (.peek places)).1.answer =
        .token (left[places]?.getD ending)) ∧
    run.2.view = bare.2.view ∧
    ∀ later, (run.2.performAll later).1 = (bare.2.performAll later).1 := by
  have start := Cursor.ReadBy.start source
  obtain ⟨effects, stands⟩ := start.performAll operations
  obtain ⟨_, standsBare⟩ := start.performAll (operations.filter (!·.isPeek))
  rw [Reader.performAll_filter] at standsBare
  obtain ⟨isSource, _, halves⟩ := (Reader.Behind.start source).performAll operations
  generalize (Cursor.ofSource source).performAll operations = run at effects stands ⊢
  generalize (Cursor.ofSource source).performAll (operations.filter (!·.isPeek)) = bare
    at standsBare ⊢
  generalize (Reader.ofSource source).performAll operations = reading at *
  rw [List.nil_append, List.nil_append, ← effects] at halves
  have ending : reading.2.ending = ⟨.endOfInput, .point (Text.byteLength source.toList)⟩ := by
    rw [Reader.ending, isSource]
  refine ⟨⟨Token.ordinary reading.2.tokens, ?_, ?_, fun places => ?_⟩, ?_, fun later => ?_⟩
  · rw [written_lex, Token.ordinary_append, Token.halveAll, List.flatMap_append]
    exact congrArg (· ++ [_]) halves
  · rw [stands.view, List.head?_eq_getElem?, ← ending]
    rfl
  · rw [(stands.perform (.peek places)).1, ← ending]
    rfl
  · rw [stands.view, standsBare.view]
  · rw [(stands.performAll later).1, (standsBare.performAll later).1]

end Vibescript
