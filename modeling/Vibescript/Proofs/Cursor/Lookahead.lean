import Vibescript.Parser.Lookahead
import Vibescript.Proofs.Cursor.Moves

/-!
# What lookahead tells

A question takes nothing, and its answer is about the ordinary tokens that are pending.
`Lookahead.Tells` says so for one question; the rules follow the way in which questions are put
together.
-/
namespace Vibescript

namespace TokenKind

/-- The tag at a place; past the last it is the end of the text. -/
def tagAt (kinds : List (TokenKind String)) (place : Nat) : Tag :=
  (kinds[place]?.map TokenKind.tag).getD .endOfInput

variable {kinds : List (TokenKind String)} {place : Nat}

/-- A kind that stands at a place comes before those that stand after it. -/
theorem drop_of_getElem? {kind : TokenKind String} (stands : kinds[place]? = some kind) :
    kinds.drop place = kind :: kinds.drop (place + 1) := by
  obtain ⟨inside, rfl⟩ := List.getElem?_eq_some_iff.mp stands
  exact List.drop_eq_getElem_cons inside

/-- A tag at a place is that of a kind, unless the text ends there. -/
theorem drop_of_tagAt {tag : Tag} (stands : tagAt kinds place = tag)
    (real : tag ≠ .endOfInput) :
    ∃ kind, kind.tag = tag ∧ kinds.drop place = kind :: kinds.drop (place + 1) := by
  unfold tagAt at stands
  cases found : kinds[place]? with
  | none =>
    rw [found] at stands
    exact absurd stands.symm real
  | some kind =>
    rw [found] at stands
    exact ⟨kind, stands, drop_of_getElem? found⟩

/-- A tag with a spelling stands for one kind. -/
theorem drop_of_tagAt_fixed {tag : Tag} (stands : tagAt kinds place = tag)
    (spelled : tag.spelling?.isSome = true) :
    kinds.drop place = .fixed tag spelled :: kinds.drop (place + 1) := by
  have real : tag ≠ .endOfInput := by
    rintro rfl
    contradiction
  obtain ⟨kind, same, drop⟩ := drop_of_tagAt stands real
  rw [drop, eq_fixed same spelled]

end TokenKind

namespace Token

/-- The kinds of the ordinary tokens. -/
def kinds (tokens : List (Token String)) : List (TokenKind String) :=
  (ordinary tokens).map Token.kind

/-- Directives have no kinds to count. -/
theorem kinds_append_cons {before rest : List (Token String)} {token : Token String}
    (directive : ∀ mark ∈ before, mark.kind.isDirective = true)
    (plain : token.kind.isDirective = false) :
    kinds (before ++ token :: rest) = token.kind :: kinds rest := by
  rw [kinds, ordinary_append, ordinary_eq_nil directive, List.nil_append, ordinary_cons plain]
  rfl

/-- A token that stands at a place has its tag. -/
theorem Stays.tag {names : NameTable} {token : Token Name} {tokens : List (Token String)}
    {place : Nat} (stays : token.Stays names (ordinary tokens)[place]?) :
    token.tag = TokenKind.tagAt (kinds tokens) place := by
  unfold TokenKind.tagAt kinds
  rw [List.getElem?_map]
  cases found : (ordinary tokens)[place]? with
  | none =>
    rw [found] at stays
    exact stays
  | some expected =>
    rw [found] at stays
    obtain ⟨_, _, rfl⟩ := stays
    exact (tag_written _ _).symm

/-- A token that stands at a place has the span of the token there. -/
theorem Stays.span {names : NameTable} {token : Token Name} {tokens : List (Token String)}
    {place : Nat} (stays : token.Stays names (ordinary tokens)[place]?)
    (real : TokenKind.tagAt (kinds tokens) place ≠ .endOfInput) :
    ∃ expected, (ordinary tokens)[place]? = some expected ∧ expected.span = token.span := by
  rw [← stays.tag] at real
  cases found : (ordinary tokens)[place]? with
  | none =>
    rw [found] at stays
    exact absurd stays real
  | some expected =>
    rw [found] at stays
    obtain ⟨_, _, rfl⟩ := stays
    exact ⟨_, rfl, rfl⟩

end Token

/-- The current token has the first tag. -/
theorem Cursor.Pending.tag {cursor : Cursor} {tokens : List (Token String)}
    (pending : cursor.Pending tokens) : cursor.current.tag = TokenKind.tagAt (Token.kinds tokens) 0 :=
  (looks_peek pending 0).2.tag

/-- After a step the current token has the second tag. -/
theorem Cursor.Pending.tag_advance {cursor : Cursor} {tokens : List (Token String)}
    (pending : cursor.Pending tokens) (notEnd : cursor.isAtEnd = false) :
    cursor.advance.2.current.tag = TokenKind.tagAt (Token.kinds tokens) 1 := by
  obtain ⟨before, rest, rfl, directive, plain, _⟩ := pending.ahead notEnd
  have isPlain : (cursor.current.written cursor.lexer.names).kind.isDirective = false := by
    rwa [Token.isDirective_written]
  rw [(moves_advance pending directive notEnd).pending.tag, Token.kinds_append_cons directive
    isPlain, TokenKind.tagAt, TokenKind.tagAt, List.getElem?_cons_succ]

namespace Lookahead

variable {α β : Type} {source : List Char} {tokens : List (Token String)}

/-- In a source text, a question about pending tokens takes nothing, and its answer has a
property. -/
def Tells (question : Lookahead α) (source : List Char) (tokens : List (Token String))
    (known : List (Name × String)) (property : α → Prop) : Prop :=
  ∀ cursor : Cursor, cursor.source = source → cursor.Pending tokens →
    cursor.lexer.names.Knows known →
    cursor.Looks tokens (question cursor).2 ∧ property (question cursor).1

namespace Tells

variable {known : List (Name × String)} {question : Lookahead α} {property weaker : α → Prop}

/-- A weaker property holds as well. -/
theorem mono (tells : question.Tells source tokens known property)
    (implies : ∀ answer, property answer → weaker answer) :
    question.Tells source tokens known weaker :=
  fun cursor same pending knows => (tells cursor same pending knows).imp id (implies _)

/-- An answer without looking. -/
theorem pure {answer : α} (holds : property answer) :
    Tells (Pure.pure answer) source tokens known property :=
  fun _ _ pending _ => ⟨.refl pending, holds⟩

/-- One question after another. -/
theorem bind {next : α → Lookahead β} {last : β → Prop}
    (first : question.Tells source tokens known fun answer =>
      (next answer).Tells source tokens known last) :
    Tells (question >>= next) source tokens known last := by
  intro cursor same pending knows
  obtain ⟨looks, tells⟩ := first cursor same pending knows
  obtain ⟨more, holds⟩ :=
    tells _ (looks.source.trans same) looks.pending (knows.mono looks.names)
  exact ⟨looks.trans more, holds⟩

end Tells

variable {known : List (Name × String)}

/-- The tag at a place. -/
theorem tells_tag (places : Nat) :
    (tag places).Tells source tokens known fun answer =>
      answer = TokenKind.tagAt (Token.kinds tokens) places := by
  intro cursor _ pending _
  obtain ⟨looks, stays⟩ := Cursor.looks_peek pending places
  exact ⟨looks, stays.tag⟩

/-- Whether a tag stands at a place. -/
theorem tells_hasTag (places : Nat) (expected : Tag) :
    (hasTag places expected).Tells source tokens known fun answer =>
      answer = (TokenKind.tagAt (Token.kinds tokens) places == expected) :=
  .bind ((tells_tag places).mono fun _ same => .pure (by rw [same]))

/-- Whether a tag stands at a place, when the answer is yes. -/
theorem tells_hasTag_yes (places : Nat) (expected : Tag) :
    (hasTag places expected).Tells source tokens known fun answer => answer = true →
      TokenKind.tagAt (Token.kinds tokens) places = expected :=
  (tells_hasTag places expected).mono fun _ same yes => beq_iff_eq.mp (same ▸ yes)

/-- Whether an identifier stands at a place. -/
theorem tells_hasName (places : Nat) {name : Name} {text : String}
    (member : (name, text) ∈ known) :
    (hasName places name).Tells source tokens known fun answer => answer = true →
      (Token.kinds tokens)[places]? = some (.identifier text) := by
  intro cursor _ pending knows
  obtain ⟨looks, stays⟩ := Cursor.looks_peek pending places
  refine ⟨looks, fun same => ?_⟩
  have read := (knows.mono looks.names name text member).2
  have kind : (cursor.peek places).1.kind = .identifier name := beq_iff_eq.mp same
  rw [Token.kinds, List.getElem?_map]
  cases found : (Token.ordinary tokens)[places]? with
  | none =>
    rw [found] at stays
    have tag : (cursor.peek places).1.tag = .endOfInput := stays
    rw [Token.tag, kind] at tag
    contradiction
  | some expected =>
    rw [found] at stays
    obtain ⟨_, _, rfl⟩ := stays
    simp only [Option.map_some, Token.written, kind, TokenKind.map]
    rw [read]

/-- A second question is asked only when the first is answered with yes. -/
theorem tells_andThen {first second : Lookahead Bool} {condition result : Prop}
    (asks : first.Tells source tokens known fun answer => answer = true → condition)
    (more : condition →
      second.Tells source tokens known fun answer => answer = true → result) :
    (andThen first second).Tells source tokens known fun answer =>
      answer = true → condition ∧ result := by
  refine .bind (asks.mono fun answer holds => ?_)
  cases answer with
  | false => exact .pure nofun
  | true =>
    exact (more (holds rfl)).mono fun answer tells yes => ⟨holds rfl, tells yes⟩

/-- Whether a key of an argument starts at the current token. -/
theorem tells_isKeyword :
    isKeyword.Tells source tokens known fun answer =>
      answer = (TokenKind.tagAt (Token.kinds tokens) 1 == .colon ||
        TokenKind.tagAt (Token.kinds tokens) 1 == .symbol) := by
  refine .bind ((tells_tag 1).mono fun tag same => ?_)
  rw [← same]
  split
  · exact .pure rfl
  · exact .pure rfl
  · next notColon notSymbol =>
    refine .pure ?_
    rw [beq_false_of_ne notColon, beq_false_of_ne notSymbol]
    rfl

/-- Whether the current token qualifies a method name. -/
theorem tells_isSelfQualifier :
    isSelfQualifier.Tells source tokens known fun answer => answer = true →
      TokenKind.tagAt (Token.kinds tokens) 0 = .kwSelf ∧
        TokenKind.tagAt (Token.kinds tokens) 1 = .dot :=
  tells_andThen (tells_hasTag_yes 0 .kwSelf) fun _ => tells_hasTag_yes 1 .dot

/-- Whether the tokens just after `rescue` name the errors to rescue. -/
theorem tells_isRescueFilter :
    isRescueFilter.Tells source tokens known fun answer => answer = true →
      TokenKind.tagAt (Token.kinds tokens) 0 = .leftParen ∧
        TokenKind.tagAt (Token.kinds tokens) 1 = .constant ∧
        TokenKind.tagAt (Token.kinds tokens) 2 = .rightParen :=
  tells_andThen (tells_hasTag_yes 0 .leftParen) fun _ =>
    tells_andThen (tells_hasTag_yes 1 .constant) fun _ => tells_hasTag_yes 2 .rightParen

/-- Which shape of parameter starts at the current token. -/
theorem tells_parameter? : parameter?.Tells source tokens known fun _ => True := by
  refine .bind ((tells_tag 0).mono fun tag _ => ?_)
  split
  · refine .bind ((tells_tag 1).mono fun tag _ => ?_)
    split <;> exact .pure trivial
  · exact .pure trivial
  · exact .pure trivial

/-- Pieces of a string literal stand between two places, with a quotation mark after them. -/
def PiecesAt (kinds : List (TokenKind String)) (place past : Nat) : Prop :=
  ∃ pieces, kinds.drop place = pieces ++ .stringClose :: kinds.drop past ∧
    ∀ piece ∈ pieces, piece.pieceText?.isSome = true

/-- A string literal stands between two places. -/
def StringAt (kinds : List (TokenKind String)) (place past : Nat) : Prop :=
  kinds.drop place = .stringOpen :: kinds.drop (place + 1) ∧ PiecesAt kinds (place + 1) past

/-- A piece more stands before the others. -/
theorem PiecesAt.cons {kinds : List (TokenKind String)} {place past : Nat}
    (stands : TokenKind.tagAt kinds place = .stringContent ∨
      TokenKind.tagAt kinds place = .stringEscape)
    (later : PiecesAt kinds (place + 1) past) : PiecesAt kinds place past := by
  obtain ⟨pieces, drop, all⟩ := later
  have real : TokenKind.tagAt kinds place ≠ .endOfInput := by
    rcases stands with same | same <;> rw [same] <;> exact Tag.noConfusion
  obtain ⟨kind, tag, first⟩ := TokenKind.drop_of_tagAt rfl real
  rw [← tag] at stands
  refine ⟨kind :: pieces, by rw [first, drop]; rfl, fun piece member => ?_⟩
  rcases List.mem_cons.mp member with rfl | member
  · exact TokenKind.isSome_pieceText? stands
  · exact all piece member

/-- The place just past the pieces of a string literal. -/
theorem tells_stringRest (count places : Nat) :
    (stringRest count places).Tells source tokens known fun answer => ∀ past ∈ answer,
      PiecesAt (Token.kinds tokens) places past := by
  induction count generalizing places with
  | zero => exact .pure nofun
  | succ count ih =>
    refine .bind ((tells_tag places).mono fun tag same => ?_)
    split
    · exact (ih (places + 1)).mono fun answer tells past member =>
        (tells past member).cons (.inl same.symm)
    · exact (ih (places + 1)).mono fun answer tells past member =>
        (tells past member).cons (.inr same.symm)
    · refine .pure fun past member => ?_
      obtain rfl := Option.some.inj member
      obtain ⟨kind, tag, first⟩ := TokenKind.drop_of_tagAt same.symm Tag.noConfusion
      rw [TokenKind.eq_stringClose tag] at first
      exact ⟨[], first, by simp⟩
    · exact .pure nofun

/-- The place just past a string literal. -/
theorem tells_stringEnd (places : Nat) :
    (stringEnd places).Tells source tokens known fun answer => ∀ past ∈ answer,
      StringAt (Token.kinds tokens) places past := by
  refine .bind ((tells_hasTag_yes places .stringOpen).mono fun answer opens => ?_)
  split
  · next yes =>
    intro cursor same pending knows
    obtain ⟨looks, tells⟩ :=
      tells_stringRest (cursor.tokensLeft + 1) (places + 1) cursor same pending knows
    refine ⟨looks, fun past member => ⟨?_, tells past member⟩⟩
    obtain ⟨kind, tag, first⟩ := TokenKind.drop_of_tagAt (opens yes) Tag.noConfusion
    rw [TokenKind.eq_stringOpen tag] at first
    exact first
  · exact .pure nofun

/-- A question about what comes after a string literal. -/
theorem tells_afterString {next : Nat → Lookahead Bool} {property : Nat → Prop} (places : Nat)
    (more : ∀ past, (next past).Tells source tokens known fun answer =>
      answer = true → property past) :
    Tells
      (do
        match ← stringEnd places with
        | none => return false
        | some past => next past)
      source tokens known fun answer => answer = true →
        ∃ past, StringAt (Token.kinds tokens) places past ∧ property past := by
  refine .bind ((tells_stringEnd places).mono fun found tells => ?_)
  cases found with
  | none => exact .pure nofun
  | some past =>
    exact (more past).mono fun _ holds yes => ⟨past, tells past rfl, holds yes⟩

/-- The closing parenthesis of an import stands at a place. What follows it does not go on with
the expression, unless it stands on another line. -/
structure ClosesAt (source : List Char) (tokens : List (Token String)) (place : Nat) :
    Prop where
  /-- The parenthesis. -/
  closes : (Token.kinds tokens).drop place =
    .fixed .rightParen :: (Token.kinds tokens).drop (place + 1)
  /-- What follows. -/
  ends : continuesExpression (TokenKind.tagAt (Token.kinds tokens) (place + 1)) = true →
    ∃ close next, (Token.ordinary tokens)[place]? = some close ∧
      (Token.ordinary tokens)[place + 1]? = some next ∧
      (Text.slice source ⟨close.span.stop, next.span.start⟩).contains '\n' = true

/-- Whether the closing parenthesis of an import stands at a place. -/
theorem tells_closesImport (places : Nat) :
    (closesImport places).Tells source tokens known fun answer => answer = true →
      ClosesAt source tokens places := by
  refine .bind ((tells_hasTag_yes places .rightParen).mono fun answer closes => ?_)
  split
  · next yes =>
    intro cursor same pending _
    obtain ⟨first, isClose⟩ := Cursor.looks_peek pending places
    obtain ⟨second, isNext⟩ := Cursor.looks_peek first.pending (places + 1)
    refine ⟨first.trans second, fun holds =>
      ⟨TokenKind.drop_of_tagAt_fixed (closes yes) rfl, fun continues => ?_⟩⟩
    have real : TokenKind.tagAt (Token.kinds tokens) (places + 1) ≠ .endOfInput := by
      intro atEnd
      rw [atEnd] at continues
      contradiction
    obtain ⟨close, found, sameClose⟩ := isClose.span (by rw [closes yes]; exact Tag.noConfusion)
    obtain ⟨next, foundNext, sameNext⟩ := isNext.span real
    refine ⟨close, next, found, foundNext, ?_⟩
    rw [← isNext.tag] at continues
    have breaks : ((cursor.peek places).2.peek (places + 1)).2.lineBreakBetween
          (cursor.peek places).1.span ((cursor.peek places).2.peek (places + 1)).1.span = true ∨
        (!continuesExpression ((cursor.peek places).2.peek (places + 1)).1.tag) = true :=
      (Bool.or_eq_true _ _).mp holds
    rw [continues] at breaks
    rw [sameClose, sameNext, ← same, ← first.source, ← second.source]
    exact breaks.resolve_right Bool.false_ne_true
  · exact .pure nofun

/-- An import ends at a place, perhaps after its local name. -/
def ImportEndsAt (source : List Char) (tokens : List (Token String)) (place : Nat) : Prop :=
  ClosesAt source tokens place ∨
    (Token.kinds tokens).drop place =
        .fixed .comma :: .identifier "as" :: .fixed .colon :: (Token.kinds tokens).drop (place + 3) ∧
      ∃ past, StringAt (Token.kinds tokens) (place + 3) past ∧ ClosesAt source tokens past

/-- The shape of an import: a target, the import function and a path. -/
def IsImport (source : List Char) (tokens : List (Token String)) : Prop :=
  ∃ target past, Token.kinds tokens =
      .identifier target :: .fixed .assign :: .identifier "require" :: .fixed .leftParen ::
        (Token.kinds tokens).drop 4 ∧
    StringAt (Token.kinds tokens) 4 past ∧ ImportEndsAt source tokens past

/-- The end of an import is recognized. -/
theorem tells_importEnds {asKey : Name} (isAs : (asKey, "as") ∈ known) (places : Nat) :
    Tells
      (do
        if ← hasTag places .comma then
          andThen (hasName (places + 1) asKey) <| andThen (hasTag (places + 2) .colon) do
            match ← stringEnd (places + 3) with
            | none => return false
            | some places => closesImport places
        else closesImport places)
      source tokens known fun answer => answer = true → ImportEndsAt source tokens places := by
  refine .bind ((tells_hasTag_yes places .comma).mono fun answer comma => ?_)
  split
  · next yes =>
    refine (tells_andThen (tells_hasName _ isAs) fun _ => tells_andThen (tells_hasTag_yes _ _)
      fun _ => tells_afterString _ fun _ => tells_closesImport _).mono
        fun _ holds yes' => .inr ?_
    obtain ⟨name, colon, string⟩ := holds yes'
    refine ⟨?_, string⟩
    rw [TokenKind.drop_of_tagAt_fixed (comma yes) rfl, TokenKind.drop_of_getElem? name,
      TokenKind.drop_of_tagAt_fixed colon rfl]
  · exact (tells_closesImport _).mono fun _ closes yes => .inl (closes yes)

/-- An import is recognized by its whole shape. -/
theorem tells_startsImport {importName asKey : Name}
    (isImport : (importName, "require") ∈ known) (isAs : (asKey, "as") ∈ known) :
    (startsImport importName asKey).Tells source tokens known fun answer => answer = true →
      IsImport source tokens := by
  refine (tells_andThen (tells_hasTag_yes 0 .identifier) fun _ =>
    tells_andThen (tells_hasTag_yes 1 .assign) fun _ =>
    tells_andThen (tells_hasName 2 isImport) fun _ =>
    tells_andThen (tells_hasTag_yes 3 .leftParen) fun _ =>
    tells_afterString 4 fun _ => tells_importEnds isAs _).mono fun _ holds yes => ?_
  obtain ⟨target, assign, function, opens, past, string, ends⟩ := holds yes
  obtain ⟨kind, tag, first⟩ := TokenKind.drop_of_tagAt target Tag.noConfusion
  obtain ⟨text, rfl⟩ := TokenKind.eq_identifier tag
  refine ⟨text, past, ?_, string, ends⟩
  rw [List.drop_zero] at first
  rw [TokenKind.drop_of_tagAt_fixed assign rfl, TokenKind.drop_of_getElem? function,
    TokenKind.drop_of_tagAt_fixed opens rfl] at first
  exact first

end Lookahead

end Vibescript
