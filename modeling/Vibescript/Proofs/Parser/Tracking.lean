import Vibescript.Proofs.Parser.Accumulation
import Vibescript.Proofs.Parser.Program
import Vibescript.Proofs.Source.Respelling

/-!
# Two spellings of a text, side by side

A parser of a text that has met no error is unspoilt. Two unspoilt parsers, one of the respelled
text and one of the text itself, track each other while the tokens that are left to them are the
same but for the name of the import function. They go on to do so whatever steps they take together.
-/
namespace Vibescript

/-- One kind of token is another, or the other respelled. -/
def TokenKind.Respells (left right : TokenKind String) : Prop :=
  left = right.respelled ∨ left = right

namespace TokenKind.Respells

variable {left right : TokenKind String}

/-- Respelling changes names of identifiers only. -/
theorem tag (respells : left.Respells right) : left.tag = right.tag := by
  rcases respells with rfl | rfl
  · unfold respelled
    split
    · next isImport => rw [isImport]; rfl
    · rfl
  · rfl

/-- A kind that is no identifier is respelled to itself. -/
theorem eq (respells : left.Respells right) (other : right.tag ≠ .identifier) : left = right := by
  rcases respells with rfl | rfl
  · refine if_neg ?_
    rintro rfl
    exact other rfl
  · rfl

end TokenKind.Respells

namespace Token

/-- What is left of the tokens of a text: all but the first stand at its end, or those after the two
halves of a symbol do. -/
inductive Remains (whole : List (Token String)) : List (Token String) → Prop
  /-- The first may be the second half of a symbol. -/
  | tail {left : List (Token String)} (later : left.tail <:+ whole) : Remains whole left
  /-- A symbol was split. -/
  | halves {span : Span} {word : Token String} {rest : List (Token String)}
    (later : rest <:+ whole) : Remains whole (colonOf span :: word :: rest)

/-- The tokens after a symbol that comes first was split. -/
def split : List (Token String) → List (Token String)
  | ⟨.symbol name, span⟩ :: rest => colonOf span :: wordOf name span :: rest
  | tokens => tokens

namespace Remains

variable {whole left : List (Token String)}

/-- Nothing was taken yet. -/
theorem refl (whole : List (Token String)) : Remains whole whole :=
  .tail (List.tail_suffix whole)

/-- The first token is taken. -/
theorem step (remains : Remains whole left) : Remains whole left.tail := by
  cases remains with
  | tail later => exact .tail ((List.tail_suffix left.tail).trans later)
  | halves later => exact .tail later

/-- The first token is split. -/
theorem split (remains : Remains whole left) : Remains whole (split left) := by
  unfold Token.split
  split
  · next name span rest =>
    generalize same : (⟨.symbol name, span⟩ :: rest : List (Token String)) = left at remains
    cases remains with
    | tail later =>
      subst same
      exact .halves later
    | halves _ =>
      have kinds := congrArg Token.kind (List.cons.inj same).1
      contradiction
  · exact remains

/-- All but an ordinary first token stand at the end of the text. -/
theorem suffix (remains : Remains whole left) (other : TokenKind.tagAt (left.map kind) 0 ≠ .colon) :
    left.tail <:+ whole := by
  cases remains with
  | tail later => exact later
  | halves _ => exact absurd rfl other

end Remains

end Token

namespace Cursor

/-- The ordinary tokens that are pending. -/
def Sees (cursor : Cursor) (left : List (Token String)) : Prop :=
  ∃ tokens, cursor.Pending tokens ∧ Token.ordinary tokens = left

namespace Sees

variable {cursor after : Cursor} {left more : List (Token String)}

/-- Peeking shows the token at a place. -/
theorem stays (sees : cursor.Sees left) (places : Nat) :
    (cursor.peek places).1.Stays (cursor.peek places).2.lexer.names left[places]? := by
  obtain ⟨tokens, pending, rfl⟩ := sees
  exact (looks_peek pending places).2

/-- The tokens that are pending are known from the cursor. -/
theorem unique (sees : cursor.Sees left) (others : cursor.Sees more) : left = more := by
  refine List.ext_getElem? fun place => ?_
  have first := sees.stays place
  have second := others.stays place
  generalize left[place]? = expected at first
  generalize more[place]? = other at second
  cases expected <;> cases other
  case none.none => rfl
  case none.some => exact absurd first second.1
  case some.none => exact absurd second first.1
  case some.some => rw [← first.2.2, ← second.2.2]

/-- Looking ahead leaves what is pending. -/
theorem looks (sees : cursor.Sees left)
    (looks : ∀ tokens, cursor.Pending tokens → cursor.Looks tokens after) : after.Sees left := by
  obtain ⟨tokens, pending, same⟩ := sees
  exact ⟨tokens, (looks tokens pending).pending, same⟩

/-- At the end nothing is left. -/
theorem isAtEnd_iff (sees : cursor.Sees left) : cursor.isAtEnd = true ↔ left = [] := by
  obtain ⟨tokens, pending, rfl⟩ := sees
  constructor
  · exact fun atEnd => (pending.atEnd atEnd).2.2
  · intro none
    cases atEnd : cursor.isAtEnd with
    | true => rfl
    | false =>
      obtain ⟨rest, some⟩ := pending.ordinary atEnd
      rw [none] at some
      contradiction

/-- A step takes the first token. -/
theorem advance (sees : cursor.Sees left) : cursor.advance.2.Sees left.tail := by
  cases atEnd : cursor.isAtEnd with
  | true =>
    rw [advance_atEnd atEnd, sees.isAtEnd_iff.mp atEnd]
    rwa [sees.isAtEnd_iff.mp atEnd] at sees
  | false =>
    obtain ⟨tokens, pending, rfl⟩ := sees
    obtain ⟨before, rest, rfl, directive, plain, _⟩ := pending.ahead atEnd
    refine ⟨rest, (moves_advance pending directive atEnd).pending, ?_⟩
    rw [Token.ordinary_append, Token.ordinary_eq_nil directive, List.nil_append,
      Token.ordinary_cons (by rwa [Token.isDirective_written])]
    rfl

/-- The tag of the current token is the first tag that is left. -/
theorem tag (sees : cursor.Sees left) :
    cursor.current.tag = TokenKind.tagAt (left.map Token.kind) 0 := by
  obtain ⟨tokens, pending, rfl⟩ := sees
  exact pending.tag

/-- A symbol is split. -/
theorem splitSymbol (sees : cursor.Sees left) :
    cursor.splitSymbol.2.Sees (Token.split left) ∧
      cursor.splitSymbol.1 = (TokenKind.tagAt (left.map Token.kind) 0 == .symbol) := by
  rw [← sees.tag]
  by_cases symbol : cursor.current.tag = .symbol
  · obtain ⟨name, isCurrent, notEnd⟩ := current_symbol symbol
    obtain ⟨tokens, pending, rfl⟩ := sees
    obtain ⟨before, rest, rfl, directive, plain, _⟩ := pending.ahead notEnd
    obtain ⟨moves, answer, _⟩ := moves_splitSymbol pending directive isCurrent
    refine ⟨⟨_, moves.pending, ?_⟩, by rw [answer, symbol]; rfl⟩
    rw [Token.ordinary_halves directive, Token.ordinary_append, Token.ordinary_eq_nil directive,
      List.nil_append, Token.ordinary_cons (by rwa [Token.isDirective_written]), isCurrent]
    rfl
  · rw [splitSymbol_of_ne cursor symbol, beq_false_of_ne symbol]
    refine ⟨?_, rfl⟩
    have first := sees.tag
    unfold Token.split
    split
    · exact absurd first symbol
    · exact sees

/-- Claiming a directive leaves the other tokens. -/
theorem takeDirective (sees : cursor.Sees left) : cursor.takeDirective.2.Sees left := by
  unfold Cursor.takeDirective
  cases waiting : cursor.directives with
  | nil => exact sees
  | cons mark marks =>
    by_cases early : mark.span.start < cursor.current.span.start
    · simp only [if_pos early]
      obtain ⟨tokens, pending, rfl⟩ := sees
      have directive := Lexer.Shows.isDirective pending mark (waiting ▸ List.mem_cons_self)
      rw [Pending, waiting] at pending
      obtain ⟨rest, rfl, remains⟩ := Lexer.Shows.claim pending early
      rw [Token.ordinary_cons_directive (by rwa [Token.isDirective_written])]
      exact ⟨rest, remains, rfl⟩
    · simp only [if_neg early]
      exact sees

end Sees

end Cursor

namespace Parser

/-- A parser of a text has met no error, and some tokens are left to it. -/
structure Unspoilt (source : String) (soft : SoftNames) (rounds : Nat) (parser : Parser)
    (left : List (Token String)) : Prop where
  /-- The tokens that are left. -/
  sees : parser.cursor.Sees left
  /-- No loop runs out of rounds. -/
  reaches : parser.cursor.Reaches rounds 0
  /-- The soft keywords are known. -/
  knows : parser.cursor.lexer.names.Knows soft.spelling
  /-- The text. -/
  text : parser.cursor.source = source.toList
  /-- The text has no lexical errors. -/
  faults : parser.cursor.lexer.faults = []
  /-- No error was reported. -/
  errors : parser.errors = #[]
  /-- The parser goes on. -/
  goesOn : parser.isHalted = false
  /-- The tokens that are left stand at the end of the text. -/
  remains : Token.Remains (Token.ordinary (sourceTokens source)) left

namespace Unspoilt

variable {source : String} {soft : SoftNames} {rounds : Nat} {parser after : Parser}
  {left more : List (Token String)}

/-- The names are sound. -/
theorem sound (unspoilt : parser.Unspoilt source soft rounds left) :
    parser.cursor.lexer.names.Sound := by
  obtain ⟨tokens, pending, _⟩ := unspoilt.sees
  exact pending.sound

/-- Nothing stops a parser that has met no error. -/
theorem shouldHalt (unspoilt : parser.Unspoilt source soft rounds left) (grammar : Grammar) :
    grammar.shouldHalt parser = (false, parser) := by
  have none : parser.cursor.lexer.errors = #[] := by
    have faults := unspoilt.faults
    rw [Lexer.faults, List.append_eq_nil_iff] at faults
    exact Array.toList_eq_nil_iff.mp faults.1
  show (parser.isHalted || (grammar.options.recovery == .failFast &&
    parser.cursor.hasLexicalErrors), parser) = _
  rw [unspoilt.goesOn, Cursor.hasLexicalErrors, none]
  simp

/-- A parser that goes on without an error is unspoilt. -/
theorem onward (unspoilt : parser.Unspoilt source soft rounds left)
    (onward : parser.cursor.Onward after.cursor) (sees : after.cursor.Sees more)
    (errors : after.errors = parser.errors) (halted : after.isHalted = parser.isHalted)
    (remains : Token.Remains (Token.ordinary (sourceTokens source)) more) :
    after.Unspoilt source soft rounds more := by
  obtain ⟨tokens, pending, _⟩ := unspoilt.sees
  obtain ⟨taken, rest, moves⟩ := onward tokens pending
  exact ⟨sees, unspoilt.reaches.onward onward, unspoilt.knows.mono moves.names,
    moves.source.trans unspoilt.text, moves.faults.trans unspoilt.faults,
    errors.trans unspoilt.errors, halted.trans unspoilt.goesOn, remains⟩

/-- Looking ahead leaves a parser unspoilt. -/
theorem looks (unspoilt : parser.Unspoilt source soft rounds left) {cursor : Cursor}
    (looks : ∀ tokens, parser.cursor.Pending tokens → parser.cursor.Looks tokens cursor) :
    (parser.withCursor cursor).Unspoilt source soft rounds left :=
  unspoilt.onward (Cursor.Looks.onward looks) (unspoilt.sees.looks looks) rfl rfl unspoilt.remains

/-- A step to the next token. -/
theorem advance (unspoilt : parser.Unspoilt source soft rounds left) :
    (parser.withCursor parser.cursor.advance.2).Unspoilt source soft rounds left.tail :=
  unspoilt.onward parser.cursor.onward_advance unspoilt.sees.advance rfl rfl unspoilt.remains.step

/-- A split of a symbol. -/
theorem splitSymbol (unspoilt : parser.Unspoilt source soft rounds left) :
    (parser.withCursor parser.cursor.splitSymbol.2).Unspoilt source soft rounds
      (Token.split left) :=
  unspoilt.onward parser.cursor.onward_splitSymbol unspoilt.sees.splitSymbol.1 rfl rfl
    unspoilt.remains.split

/-- Claiming a directive. -/
theorem takeDirective (unspoilt : parser.Unspoilt source soft rounds left) :
    (parser.withCursor parser.cursor.takeDirective.2).Unspoilt source soft rounds left :=
  unspoilt.onward parser.cursor.onward_takeDirective unspoilt.sees.takeDirective rfl rfl
    unspoilt.remains

/-- Interning texts only looks. -/
theorem looks_interns {cursor : Cursor} {names : NameTable}
    (interns : cursor.lexer.names.Interns names) (tokens : List (Token String))
    (pending : cursor.Pending tokens) :
    cursor.Looks tokens { cursor with lexer := { cursor.lexer with names } } :=
  ⟨Lexer.Shows.grow pending interns.grows (interns.sound pending.sound), rfl, rfl, rfl, rfl,
    interns.grows, List.prefix_rfl, rfl⟩

/-- Interning texts and building nodes. -/
theorem withTables (unspoilt : parser.Unspoilt source soft rounds left) {names : NameTable}
    (interns : parser.cursor.lexer.names.Interns names) (arena : Arena) :
    (parser.withTables names arena).Unspoilt source soft rounds left :=
  unspoilt.onward (Cursor.Looks.onward (looks_interns interns))
    (unspoilt.sees.looks (looks_interns interns)) rfl rfl unspoilt.remains

/-- A step that interns texts and builds nodes. -/
theorem still (unspoilt : parser.Unspoilt source soft rounds left) {α : Type} {step : Build α}
    (still : step.IsStill) : (step parser).2.Unspoilt source soft rounds left := by
  obtain ⟨names, arena, interns, _, same⟩ := still parser
  rw [same]
  exact unspoilt.withTables interns arena

/-- The current token is the first that is left. -/
theorem stays (unspoilt : parser.Unspoilt source soft rounds left) :
    parser.cursor.current.Stays parser.cursor.lexer.names left[0]? := unspoilt.sees.stays 0

end Unspoilt

/-- A parser of the respelled text and one of the text have met no error, and what is left to them
differs in the name of the import function only. -/
def Tracks (source : String) (first second : SoftNames) (rounds : Nat) (left right : Parser) :
    Prop :=
  ∃ here there, left.Unspoilt (respell source) first rounds here ∧
    right.Unspoilt source second rounds there ∧
    List.Forall₂ (fun token other => TokenKind.Respells token.kind other.kind) here there

end Parser

/-- The soft keywords, each with its text. -/
theorem SoftNames.spelling_eq (soft : SoftNames) :
    soft.spelling = [(soft.importName, "require"), (soft.asKey, "as"), (soft.property, "property"),
      (soft.getter, "getter"), (soft.setter, "setter")] := rfl

/-- The accessor declaration that a word introduces. -/
def AccessorKind.ofWord? (word : String) : Option AccessorKind :=
  if word = "property" then some .property
  else if word = "getter" then some .getter
  else if word = "setter" then some .setter
  else none

/-- A name introduces an accessor declaration when its text does. -/
theorem SoftNames.accessor?_eq {soft : SoftNames} {table : NameTable}
    (knows : table.Knows soft.spelling) (sound : table.Sound) {name : Name}
    (holds : table.Holds name) : soft.accessor? name = AccessorKind.ofWord? (table.text name) := by
  have same (word : Name) (text : String) (member : (word, text) ∈ soft.spelling) :
      name = word ↔ table.text name = text := by
    obtain ⟨held, spelled⟩ := knows word text member
    constructor
    · rintro rfl
      exact spelled
    · exact fun same => sound.text_inj holds held (same.trans spelled.symm)
  have property := same soft.property "property" (by simp [spelling_eq])
  have getter := same soft.getter "getter" (by simp [spelling_eq])
  have setter := same soft.setter "setter" (by simp [spelling_eq])
  simp only [accessor?, AccessorKind.ofWord?, property, getter, setter]

namespace Parser.Unspoilt

variable {source : String} {soft : SoftNames} {rounds : Nat} {parser : Parser}
  {left : List (Token String)}

/-- A name introduces an accessor declaration when its text does. -/
theorem accessor?_eq (unspoilt : parser.Unspoilt source soft rounds left) {name : Name}
    (holds : parser.cursor.lexer.names.Holds name) :
    soft.accessor? name = AccessorKind.ofWord? (parser.cursor.lexer.names.text name) :=
  SoftNames.accessor?_eq unspoilt.knows unspoilt.sound holds

/-- Every kind of accessor declaration is introduced by some name, and some name introduces none. -/
theorem accessor?_surjective (unspoilt : parser.Unspoilt source soft rounds left)
    (kind : Option AccessorKind) : ∃ name, soft.accessor? name = kind := by
  have introduces (text : String) (name : Name) (member : (name, text) ∈ soft.spelling)
      (same : AccessorKind.ofWord? text = kind) : ∃ name, soft.accessor? name = kind := by
    obtain ⟨held, spelled⟩ := unspoilt.knows name text member
    exact ⟨name, by rw [unspoilt.accessor?_eq held, spelled, same]⟩
  have spelling := soft.spelling_eq
  match kind with
  | none => exact introduces "require" soft.importName (by simp [spelling]) rfl
  | some .property => exact introduces "property" soft.property (by simp [spelling]) rfl
  | some .getter => exact introduces "getter" soft.getter (by simp [spelling]) rfl
  | some .setter => exact introduces "setter" soft.setter (by simp [spelling]) rfl

end Parser.Unspoilt

namespace TokenKind

/-- Kinds that are written the same, or respelled, differ in a name only. -/
theorem Respells.renamed {kind other : TokenKind Name} {texts others : Name → String}
    (respells : Respells (kind.map texts) (other.map others)) :
    ∃ rename : Name → Name, other = kind.map rename := by
  have same := respells.tag
  by_cases named : other.tag = .identifier
  · obtain ⟨name, rfl⟩ := eq_identifier named
    rw [tag_map, tag_map] at same
    obtain ⟨word, rfl⟩ := eq_identifier same
    exact ⟨fun _ => name, rfl⟩
  · have spelled := respells.eq (by rwa [tag_map])
    cases kind <;> cases other <;> simp only [map, reduceCtorEq] at spelled
    case identifier.identifier => exact absurd rfl named
    case constant.constant name => exact ⟨fun _ => name, rfl⟩
    case stringContent.stringContent name => exact ⟨fun _ => name, rfl⟩
    case symbol.symbol name => exact ⟨fun _ => name, rfl⟩
    case instanceVariable.instanceVariable name => exact ⟨fun _ => name, rfl⟩
    case classVariable.classVariable name => exact ⟨fun _ => name, rfl⟩
    all_goals exact ⟨id, by cases spelled; rfl⟩

/-- A respelled identifier introduces the same accessor declaration. -/
theorem Respells.accessor {word other : String}
    (respells : Respells (.identifier word) (.identifier other)) :
    AccessorKind.ofWord? word = AccessorKind.ofWord? other := by
  rcases respells with same | same
  · unfold respelled at same
    split at same
    · next isImport =>
      rw [identifier.inj same, identifier.inj isImport]
      rfl
    · rw [identifier.inj same]
  · rw [identifier.inj same]

end TokenKind

namespace Parser.Tracks

variable {source : String} {first second : SoftNames} {rounds : Nat} {left right : Parser}

/-- The tokens at a place match. -/
theorem stays (tracks : Tracks source first second rounds left right) {token other : Token Name}
    {place : Nat}
    (stays : ∀ here, left.cursor.Sees here →
      token.Stays left.cursor.lexer.names here[place]?)
    (staysOther : ∀ there, right.cursor.Sees there →
      other.Stays right.cursor.lexer.names there[place]?) :
    token.kind.Matches first second False other.kind := by
  obtain ⟨here, there, unspoilt, others, respells⟩ := tracks
  have stands := stays here unspoilt.sees
  have standsOther := staysOther there others.sees
  have apart := List.forall₂_iff_get.mp respells
  cases isHere : here[place]? with
  | none =>
    have isThere : there[place]? = none := by
      rw [List.getElem?_eq_none_iff] at isHere ⊢
      rwa [← apart.1]
    rw [isHere] at stands
    rw [isThere] at standsOther
    have kind := TokenKind.eq_endOfInput (show token.kind.tag = .endOfInput from stands)
    have kindOther := TokenKind.eq_endOfInput (show other.kind.tag = .endOfInput from standsOther)
    rw [kind, kindOther]
    exact ⟨⟨id, rfl⟩, False.elim, nofun⟩
  | some expected =>
    obtain ⟨inside, isExpected⟩ := List.getElem?_eq_some_iff.mp isHere
    have isThere := List.getElem?_eq_getElem (apart.1 ▸ inside : place < there.length)
    have spelled := apart.2 place inside (apart.1 ▸ inside)
    rw [List.get_eq_getElem, List.get_eq_getElem, isExpected] at spelled
    rw [isHere] at stands
    rw [isThere] at standsOther
    obtain ⟨_, known, written⟩ := stands
    obtain ⟨_, knownOther, writtenOther⟩ := standsOther
    rw [← written, ← writtenOther] at spelled
    refine ⟨TokenKind.Respells.renamed spelled, False.elim, fun name word isName isWord => ?_⟩
    have named : token.kind.map left.cursor.lexer.names.text =
        .identifier (left.cursor.lexer.names.text name) := by rw [isName]; rfl
    have worded : other.kind.map right.cursor.lexer.names.text =
        .identifier (right.cursor.lexer.names.text word) := by rw [isWord]; rfl
    rw [isName] at known
    rw [isWord] at knownOther
    rw [unspoilt.accessor?_eq (known name rfl), others.accessor?_eq (knownOther word rfl)]
    refine TokenKind.Respells.accessor ?_
    rw [← named, ← worded]
    exact spelled

/-- The current tokens match. -/
theorem current (tracks : Tracks source first second rounds left right) :
    left.cursor.current.kind.Matches first second False right.cursor.current.kind :=
  tracks.stays (fun _ sees => sees.stays 0) fun _ sees => sees.stays 0

/-- The current tokens have the same tag. -/
theorem tag (tracks : Tracks source first second rounds left right) :
    left.cursor.current.tag = right.cursor.current.tag := tracks.current.tag

/-- Every kind of token has one that matches it. -/
theorem meets (tracks : Tracks source first second rounds left right) :
    Grammar.Meets first second False := by
  obtain ⟨here, there, unspoilt, others, _⟩ := tracks
  have plain (kind : TokenKind Name) (other : kind.tag ≠ .identifier) :
      kind.Matches first second False kind := by
    refine ⟨⟨id, by cases kind <;> rfl⟩, False.elim, fun name _ isName => ?_⟩
    rw [isName] at other
    exact absurd rfl other
  have named {name other : Name} (same : first.accessor? name = second.accessor? other) :
      TokenKind.Matches first second False (.identifier name) (.identifier other) := by
    refine ⟨⟨fun _ => other, rfl⟩, False.elim, fun word text isWord isText => ?_⟩
    rw [← TokenKind.identifier.inj isWord, ← TokenKind.identifier.inj isText, same]
  constructor
  · intro kind
    by_cases isName : kind.tag = .identifier
    · obtain ⟨name, rfl⟩ := TokenKind.eq_identifier isName
      obtain ⟨other, same⟩ := others.accessor?_surjective (first.accessor? name)
      exact ⟨.identifier other, named same.symm⟩
    · exact ⟨kind, plain kind isName⟩
  · intro other
    by_cases isName : other.tag = .identifier
    · obtain ⟨name, rfl⟩ := TokenKind.eq_identifier isName
      obtain ⟨word, same⟩ := unspoilt.accessor?_surjective (second.accessor? name)
      exact ⟨.identifier word, named same⟩
    · exact ⟨other, plain other isName⟩

/-- Both parsers step to the next token. -/
theorem advance (tracks : Tracks source first second rounds left right) :
    Tracks source first second rounds (left.withCursor left.cursor.advance.2)
      (right.withCursor right.cursor.advance.2) := by
  obtain ⟨here, there, unspoilt, others, respells⟩ := tracks
  refine ⟨_, _, unspoilt.advance, others.advance, ?_⟩
  cases respells with
  | nil => exact .nil
  | cons _ rest => exact rest

/-- Both parsers split a symbol, or none does. -/
theorem splitSymbol (tracks : Tracks source first second rounds left right) :
    left.cursor.splitSymbol.1 = right.cursor.splitSymbol.1 ∧
      Tracks source first second rounds (left.withCursor left.cursor.splitSymbol.2)
        (right.withCursor right.cursor.splitSymbol.2) := by
  have same := tracks.tag
  obtain ⟨here, there, unspoilt, others, respells⟩ := tracks
  refine ⟨?_, _, _, unspoilt.splitSymbol, others.splitSymbol, ?_⟩
  · rw [unspoilt.sees.splitSymbol.2, others.sees.splitSymbol.2, ← unspoilt.sees.tag,
      ← others.sees.tag, same]
  · cases respells with
    | nil => exact .nil
    | @cons token other here there alike rest =>
      obtain ⟨kind, span⟩ := token
      obtain ⟨kindOther, place⟩ := other
      by_cases symbol : kindOther.tag = .symbol
      · obtain rfl : kind = kindOther := alike.eq (by rw [symbol]; exact Tag.noConfusion)
        obtain ⟨name, rfl⟩ := TokenKind.eq_symbol symbol
        exact .cons (.inr rfl) (.cons (.inr rfl) rest)
      · have plain : kind.tag ≠ .symbol := alike.tag ▸ symbol
        have whole (token : Token String) (later : List (Token String))
            (other : token.kind.tag ≠ .symbol) : Token.split (token :: later) = token :: later := by
          unfold Token.split
          split
          · next same =>
            rw [(List.cons.inj same).1] at other
            exact absurd rfl other
          · rfl
        rw [whole _ _ plain, whole _ _ symbol]
        exact .cons alike rest

/-- Both parsers intern texts and build nodes. -/
theorem still (tracks : Tracks source first second rounds left right) {α β : Type}
    {step : Build α} {other : Build β} (still : step.IsStill) (stillOther : other.IsStill) :
    Tracks source first second rounds (step left).2 (other right).2 := by
  obtain ⟨here, there, unspoilt, others, respells⟩ := tracks
  exact ⟨here, there, unspoilt.still still, others.still stillOther, respells⟩

/-- Both parsers look ahead. -/
theorem looks (tracks : Tracks source first second rounds left right) {cursor other : Cursor}
    (looks : ∀ tokens, left.cursor.Pending tokens → left.cursor.Looks tokens cursor)
    (looksOther : ∀ tokens, right.cursor.Pending tokens → right.cursor.Looks tokens other) :
    Tracks source first second rounds (left.withCursor cursor) (right.withCursor other) := by
  obtain ⟨here, there, unspoilt, others, respells⟩ := tracks
  exact ⟨here, there, unspoilt.looks looks, others.looks looksOther, respells⟩

/-- A question about the tags ahead has the same answer. -/
theorem ask (tracks : Tracks source first second rounds left right) {α : Type}
    {question : Lookahead α} (byTags : question.ByTags) :
    (question left.cursor).1 = (question right.cursor).1 ∧
      Tracks source first second rounds (left.withCursor (question left.cursor).2)
        (right.withCursor (question right.cursor).2) := by
  refine byTags (fun here there => Tracks source first second rounds (left.withCursor here)
    (right.withCursor there)) (fun places here there tracks => ?_) _ _ tracks
  have after : Tracks source first second rounds (left.withCursor (here.peek places).2)
      (right.withCursor (there.peek places).2) :=
    tracks.looks (fun _ pending => (Cursor.looks_peek pending places).1)
      fun _ pending => (Cursor.looks_peek pending places).1
  refine ⟨?_, after⟩
  obtain ⟨tokens, others, unspoilt, unspoiltOther, _⟩ := tracks
  have stays := unspoilt.sees.stays places
  have staysOther := unspoiltOther.sees.stays places
  refine (@Tracks.stays source first second rounds _ _ after _ _ places ?_ ?_).tag
  · intro left sees
    rwa [sees.unique (unspoilt.sees.looks fun _ pending => (Cursor.looks_peek pending places).1)]
  · intro right sees
    rwa [sees.unique
      (unspoiltOther.sees.looks fun _ pending => (Cursor.looks_peek pending places).1)]

end Parser.Tracks

end Vibescript
