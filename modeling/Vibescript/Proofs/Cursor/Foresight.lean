import Vibescript.Proofs.Cursor.Inset

/-!
# Questions asked inside a text

A question about the tokens ahead has the same answer in a text and in another one that it stands in,
as long as it looks at tokens of the text only. That is so while a token that closes something is
still ahead, for the questions that are asked before one. Whether an import starts is asked anywhere;
there the question ends at the tail with the answer that the end of the text gives.
-/
namespace Vibescript

/-- Whether a token of this tag closes what another one opened. -/
def Tag.closes (tag : Tag) : Bool :=
  [kwEnd, rightParen, rightBracket, rightBrace, stringClose].contains tag

namespace TokenKind

/-- Whether a token closes what another one opened. A symbol may be split into one that does. -/
def closes : TokenKind String → Bool
  | symbol name => name == "end"
  | kind => kind.tag.closes

/-- Symbols apart, the tag tells. -/
theorem closes_eq {kind : TokenKind String} (other : kind.tag ≠ .symbol) :
    kind.closes = kind.tag.closes := by
  cases kind <;> first | rfl | exact absurd rfl other

/-- No directive closes anything. -/
theorem closes_of_isDirective {kind : TokenKind String} (directive : kind.isDirective = true) :
    kind.closes = false := by
  cases kind <;> first | rfl | contradiction

/-- What closes something is no directive. -/
theorem isDirective_of_closes {kind : TokenKind String} (closes : kind.closes = true) :
    kind.isDirective = false := by
  by_contra directive
  rw [closes_of_isDirective (eq_true_of_ne_false directive)] at closes
  contradiction

/-- A word closes something only if it is `end`. -/
theorem closes_ofWord {name : String} (other : name ≠ "end") : (ofWord name).closes = false := by
  unfold ofWord
  split
  · rfl
  · cases found : (keyword? name : Option (TokenKind String)) with
    | none => rfl
    | some kind =>
      obtain ⟨tag, isTag, made⟩ := Option.bind_eq_some_iff.mp found
      obtain ⟨spelled, rfl⟩ := of_ofTag? made
      have spelling := List.find?_some isTag
      simp only [Bool.and_eq_true, beq_iff_eq] at spelling
      have notEnd : tag ≠ .kwEnd := by
        rintro rfl
        exact other (Option.some.inj spelling.2).symm
      -- Of the tags that close something only that of `end` is a keyword.
      have open' : tag.isKeyword = true → tag ≠ .kwEnd → tag.closes = false := by
        cases tag <;> decide
      exact open' spelling.1 notEnd

end TokenKind

namespace Cursor

variable {first second cursor : Cursor} {tokens others tail : List (Token String)}

/-- No token that closes anything is ahead. -/
def Spent (cursor : Cursor) : Prop :=
  ∃ tokens, cursor.Pending tokens ∧ ∀ token ∈ tokens, token.kind.closes = false

/-- Once no such token is ahead, none will be. -/
theorem Spent.onward (spent : first.Spent) (onward : first.Onward second) : second.Spent := by
  obtain ⟨tokens, pending, none⟩ := spent
  obtain ⟨taken, rest, moves⟩ := onward tokens pending
  refine ⟨rest, moves.pending, moves.consumes.forall_left (·.kind.closes = false)
    (fun name span isOpen => ⟨rfl, TokenKind.closes_ofWord fun isEnd => ?_⟩) none⟩
  subst isEnd
  contradiction

/-- Otherwise such a token is ahead. -/
theorem Pending.exists_closes (pending : cursor.Pending tokens) (unspent : ¬cursor.Spent) :
    ∃ token ∈ tokens, token.kind.closes = true := by
  by_contra none
  refine unspent ⟨tokens, pending, fun token member => ?_⟩
  by_contra closes
  exact none ⟨token, member, by simpa using closes⟩

/-- At the end of the text no such token is ahead. -/
theorem Pending.spent (pending : cursor.Pending tokens) (atEnd : cursor.isAtEnd = true) :
    cursor.Spent := by
  refine ⟨tokens, pending, fun token member => TokenKind.closes_of_isDirective ?_⟩
  obtain ⟨_, _, none⟩ := pending.atEnd atEnd
  have all := List.filter_eq_nil_iff.mp none token member
  simpa using all

/-- Nor is the current token one. -/
theorem Spent.closes (spent : cursor.Spent) : cursor.current.tag.closes = false := by
  obtain ⟨tokens, pending, none⟩ := spent
  cases atEnd : cursor.isAtEnd with
  | true =>
    rw [beq_iff_eq.mp atEnd]
    rfl
  | false =>
    obtain ⟨marks, rest, rfl, _, _, _⟩ := pending.ahead atEnd
    have isOpen := none _ (List.mem_append_right _ List.mem_cons_self)
    by_cases symbol : cursor.current.tag = .symbol
    · rw [symbol]
      rfl
    · have tag : (cursor.current.written cursor.lexer.names).kind.tag = cursor.current.tag :=
        Token.tag_written _ _
      rwa [TokenKind.closes_eq (tag ▸ symbol), tag] at isOpen

end Cursor

namespace Token

variable {tokens : List (Token String)}

/-- When some token closes something, the tokens go on after others that do not. -/
theorem lt_length_of_closes (closer : ∃ token ∈ tokens, token.kind.closes = true) {places : Nat}
    (before : ∀ place < places, ∀ kind ∈ (kinds tokens)[place]?, kind.closes = false) :
    places < (kinds tokens).length := by
  obtain ⟨token, member, closes⟩ := closer
  have plain := TokenKind.isDirective_of_closes closes
  have inside : token.kind ∈ kinds tokens :=
    List.mem_map_of_mem (List.mem_filter.mpr ⟨member, by simpa using plain⟩)
  obtain ⟨place, found⟩ := List.mem_iff_getElem?.mp inside
  obtain ⟨bound, _⟩ := List.getElem?_eq_some_iff.mp found
  by_contra past
  have isOpen := before place (by omega) _ found
  rw [isOpen] at closes
  contradiction

/-- When some token closes something, the tokens go on after others whose tags do not. -/
theorem lt_length_of_tags (closer : ∃ token ∈ tokens, token.kind.closes = true) {places : Nat}
    (before : ∀ place < places, (TokenKind.tagAt (kinds tokens) place).closes = false ∧
      TokenKind.tagAt (kinds tokens) place ≠ .symbol) :
    places < (kinds tokens).length := by
  refine lt_length_of_closes closer fun place isBefore kind found => ?_
  obtain ⟨isOpen, notSymbol⟩ := before place isBefore
  have tag : TokenKind.tagAt (kinds tokens) place = kind.tag := by
    rw [TokenKind.tagAt, found]
    rfl
  rw [tag] at isOpen notSymbol
  rw [TokenKind.closes_eq notSymbol, isOpen]

/-- Something stands after a token that expects another one. -/
theorem Detached.further {tail : List (Token String)} (detached : Detached tokens tail)
    {places : Nat} {expected : Tag} (stands : TokenKind.tagAt (kinds tokens) places = expected)
    (leaves : expected.leavesOpen = true) : places + 1 < (kinds tokens).length := by
  have real : expected ≠ .endOfInput := by
    rintro rfl
    contradiction
  have inside : places < (ordinary tokens).length := by
    by_contra past
    rw [TokenKind.tagAt, List.getElem?_eq_none (by simpa [kinds] using past)] at stands
    exact real stands.symm
  rw [kinds, List.length_map]
  by_contra isLast
  have last : (ordinary tokens).getLast? = some (ordinary tokens)[places] := by
    rw [List.getLast?_eq_getElem?, show (ordinary tokens).length - 1 = places by omega]
    exact List.getElem?_eq_getElem inside
  have ends := detached.ends _ last
  have tag : (ordinary tokens)[places].tag = expected := by
    rw [← stands, TokenKind.tagAt, kinds, List.getElem?_map, List.getElem?_eq_getElem inside]
    rfl
  rw [tag, leaves] at ends
  contradiction

end Token

namespace TokenKind

variable {kinds more : List (TokenKind String)} {place : Nat}

/-- A tag among the first kinds. -/
theorem tagAt_append_of_lt (inside : place < kinds.length) :
    tagAt (kinds ++ more) place = tagAt kinds place := by
  rw [tagAt, tagAt, List.getElem?_append_left inside]

/-- The tag just after the first kinds. -/
theorem tagAt_append_length : tagAt (kinds ++ more) kinds.length = tagAt more 0 := by
  rw [tagAt, tagAt, List.getElem?_append_right (Nat.le_refl _), Nat.sub_self]

/-- The tag just after the last kind. -/
theorem tagAt_length : tagAt kinds kinds.length = .endOfInput := by
  rw [tagAt, List.getElem?_eq_none (Nat.le_refl _)]
  rfl

end TokenKind

namespace Cursor

/-- Cursors beside each other that know some words. -/
structure Asking (tail tokens others : List (Token String)) (known knownOther : List (Name × String))
    (left right : Cursor) : Prop where
  /-- They stand beside each other. -/
  inset : Inset tail tokens others left right
  /-- The first knows its words. -/
  knows : left.lexer.names.Knows known
  /-- The second knows its words. -/
  knowsOther : right.lexer.names.Knows knownOther

namespace Asking

variable {tail tokens others : List (Token String)} {known knownOther : List (Name × String)}
  {left right : Cursor}

/-- The kinds of the tokens before the second cursor are those before the first, and the tail. -/
theorem kinds (asking : Asking tail tokens others known knownOther left right) :
    Token.kinds (others ++ tail) = Token.kinds tokens ++ Token.kinds tail := by
  obtain ⟨_, _, follow⟩ := asking.inset.follow
  rw [follow.kinds_ordinary, Token.kinds, Token.ordinary_append, List.map_append]
  rfl

/-- Cursors stay beside each other while they go onward. -/
theorem onward (asking : Asking tail tokens others known knownOther left right)
    {rest restOther : List (Token String)} {here there : Cursor}
    (inset : Inset tail rest restOther here there) (onward : left.Onward here)
    (onwardOther : right.Onward there) : Asking tail rest restOther known knownOther here there := by
  obtain ⟨_, _, moves⟩ := onward tokens asking.inset.pending
  obtain ⟨_, _, movesOther⟩ := onwardOther _ asking.inset.pendingOther
  exact ⟨inset, asking.knows.mono moves.names, asking.knowsOther.mono movesOther.names⟩

/-- Both step over a token. -/
theorem advance (asking : Asking tail tokens others known knownOther left right)
    (notEnd : left.isAtEnd = false) : ∃ rest restOther,
      Asking tail rest restOther known knownOther left.advance.2 right.advance.2 := by
  obtain ⟨_, rest, _, restOther, ahead⟩ := asking.inset.ahead notEnd
  exact ⟨rest, restOther, asking.onward (ahead.advance asking.inset notEnd) left.onward_advance
    right.onward_advance⟩

/-- Where the text ends just after `return`, the tail does not start with a value. -/
theorem returns (asking : Asking tail tokens others known knownOther left right)
    (notEnd : left.isAtEnd = false) (isReturn : left.current.tag = .kwReturn)
    (atEnd : left.advance.2.isAtEnd = true) :
    TagSet.expressionStart.contains right.advance.2.current.tag = false := by
  obtain ⟨marks, rest, marksOther, restOther, ahead⟩ := asking.inset.ahead notEnd
  have inset := ahead.advance asking.inset notEnd
  obtain ⟨_, _, none⟩ := inset.pending.atEnd atEnd
  rw [inset.tag_atEnd atEnd]
  refine asking.inset.detached.returns (left.current.written left.lexer.names) ?_ ?_
  · rw [ahead.tokens, Token.ordinary_append, Token.ordinary_eq_nil ahead.marks, List.nil_append,
      Token.ordinary_cons ahead.plain, none]
    rfl
  · rw [Token.tag_written]
    exact isReturn

/-- Where a symbol is split, a token stands after it, or it is split into `end`. -/
theorem closed (asking : Asking tail tokens others known knownOther left right)
    {marks rest marksOther restOther : List (Token String)}
    (ahead : Inset.Ahead tail tokens others left right marks rest marksOther restOther)
    (unspent : ¬left.Spent) (symbol : left.current.tag = .symbol) :
    Token.ordinary rest ≠ [] ∨ (left.current.written left.lexer.names).kind = .symbol "end" := by
  obtain ⟨token, member, closes⟩ := asking.inset.pending.exists_closes unspent
  have plain := TokenKind.isDirective_of_closes closes
  rw [ahead.tokens] at member
  rcases List.mem_append.mp member with inMarks | inRest
  · rw [ahead.marks token inMarks] at plain
    contradiction
  · rcases List.mem_cons.mp inRest with rfl | inRest
    · right
      obtain ⟨name, kind⟩ := TokenKind.eq_symbol symbol
      rw [Token.written, kind] at closes ⊢
      exact congrArg TokenKind.symbol (beq_iff_eq.mp closes)
    · exact .inl (List.ne_nil_of_mem (List.mem_filter.mpr ⟨inRest, by simpa using plain⟩))

/-- A symbol is split on both sides, or none stands there. -/
theorem splitSymbol (asking : Asking tail tokens others known knownOther left right)
    (unspent : ¬left.Spent) :
    left.splitSymbol.1 = right.splitSymbol.1 ∧ ∃ tokens others,
      Asking tail tokens others known knownOther left.splitSymbol.2 right.splitSymbol.2 := by
  have notEnd : left.isAtEnd = false := by
    cases atEnd : left.isAtEnd with
    | false => rfl
    | true => exact absurd (asking.inset.pending.spent atEnd) unspent
  obtain ⟨_, _, _, _, ahead⟩ := asking.inset.ahead notEnd
  by_cases symbol : left.current.tag = .symbol
  · obtain ⟨splits, splitsOther, _, _, inset⟩ :=
      ahead.splitSymbol asking.inset symbol (asking.closed ahead unspent symbol)
    exact ⟨splits.trans splitsOther.symm, _, _,
      asking.onward inset left.onward_splitSymbol right.onward_splitSymbol⟩
  · obtain ⟨same, sameOther⟩ := ahead.splitSymbol_of_ne symbol
    rw [same, sameOther]
    exact ⟨rfl, _, _, asking⟩

/-- The same text is interned on both sides. -/
theorem intern (asking : Asking tail tokens others known knownOther left right) (text : String) :
    Asking tail tokens others known knownOther (left.intern text).2 (right.intern text).2 :=
  asking.onward (asking.inset.looks (looks_intern asking.inset.pending text)
    (looks_intern asking.inset.pendingOther text)) (left.onward_intern text)
    (right.onward_intern text)

/-- Looking keeps cursors beside each other. -/
theorem peek (asking : Asking tail tokens others known knownOther left right) (places : Nat) :
    Asking tail tokens others known knownOther (left.peek places).2 (right.peek places).2 := by
  obtain ⟨looks, _⟩ := looks_peek asking.inset.pending places
  obtain ⟨looksOther, _⟩ := looks_peek asking.inset.pendingOther places
  exact ⟨asking.inset.looks looks looksOther, asking.knows.mono looks.names,
    asking.knowsOther.mono looksOther.names⟩

/-- The tag at a place before the first cursor. -/
theorem tag_fst (asking : Asking tail tokens others known knownOther left right) (places : Nat) :
    (Lookahead.tag places left).1 = TokenKind.tagAt (Token.kinds tokens) places :=
  (looks_peek asking.inset.pending places).2.tag

/-- The tag at a place before the second cursor. -/
theorem tag_snd (asking : Asking tail tokens others known knownOther left right) (places : Nat) :
    (Lookahead.tag places right).1 =
      TokenKind.tagAt (Token.kinds tokens ++ Token.kinds tail) places := by
  rw [← asking.kinds]
  exact (looks_peek asking.inset.pendingOther places).2.tag

end Asking

end Cursor

namespace Lookahead

open Cursor

/-- A second question after the first, asked where the first is answered with yes. -/
theorem AgreeAt.andThen {related : Cursor → Cursor → Prop} {left right : Cursor}
    {first second other another : Lookahead Bool} (asks : AgreeAt related left right first other)
    (more : (first left).1 = true → AgreeAt related (first left).2 (other right).2 second another) :
    AgreeAt related left right (Lookahead.andThen first second)
      (Lookahead.andThen other another) := by
  refine asks.bind ?_
  cases answer : (first left).1 with
  | true => exact more answer
  | false => exact ⟨rfl, asks.2⟩

variable {tail tokens others : List (Token String)} {known knownOther : List (Name × String)}
  {left right : Cursor} {places : Nat}

/-- The tag of a token of the text. -/
theorem agreeAt_tag (asking : Asking tail tokens others known knownOther left right)
    (inside : places < (Token.kinds tokens).length) :
    AgreeAt (Asking tail tokens others known knownOther) left right (tag places) (tag places) := by
  refine ⟨?_, asking.peek places⟩
  rw [asking.tag_fst, asking.tag_snd, TokenKind.tagAt_append_of_lt inside]

/-- Whether a tag stands at the place of a token of the text. -/
theorem agreeAt_hasTag (asking : Asking tail tokens others known knownOther left right)
    (inside : places < (Token.kinds tokens).length) (expected : Tag) :
    AgreeAt (Asking tail tokens others known knownOther) left right (hasTag places expected)
      (hasTag places expected) := by
  have tags := agreeAt_tag asking inside
  refine ⟨?_, tags.2⟩
  show ((tag places left).1 == expected) = ((tag places right).1 == expected)
  rw [tags.1]

/-- Whether a tag that the tail does not start with stands there, or just after the text. -/
theorem agreeAt_hasTag_of_le (asking : Asking tail tokens others known knownOther left right)
    (le : places ≤ (Token.kinds tokens).length) {expected : Tag} (attaches : expected.attaches = true) :
    AgreeAt (Asking tail tokens others known knownOther) left right (hasTag places expected)
      (hasTag places expected) := by
  rcases Nat.lt_or_eq_of_le le with inside | rfl
  · exact agreeAt_hasTag asking inside expected
  · refine ⟨?_, asking.peek _⟩
    show ((tag _ left).1 == expected) = ((tag _ right).1 == expected)
    have notOpening : Token.opening tail ≠ expected := by
      rintro rfl
      rw [asking.inset.detached.opens] at attaches
      contradiction
    have notEnd : Tag.endOfInput ≠ expected := by
      rintro rfl
      contradiction
    rw [asking.tag_fst, asking.tag_snd, TokenKind.tagAt_length, TokenKind.tagAt_append_length,
      beq_false_of_ne notEnd]
    exact (beq_false_of_ne notOpening).symm

/-- A tag that was found stands among the tokens. -/
theorem tagAt_of_hasTag (asking : Asking tail tokens others known knownOther left right)
    {expected : Tag} (answer : (hasTag places expected left).1 = true) :
    TokenKind.tagAt (Token.kinds tokens) places = expected := by
  rw [← asking.tag_fst]
  exact beq_iff_eq.mp answer

/-- A tag that was found stands inside the text. -/
theorem lt_of_hasTag (asking : Asking tail tokens others known knownOther left right)
    {expected : Tag} (real : expected ≠ .endOfInput)
    (answer : (hasTag places expected left).1 = true) : places < (Token.kinds tokens).length := by
  have stands := tagAt_of_hasTag asking answer
  by_contra past
  rw [TokenKind.tagAt, List.getElem?_eq_none (by omega)] at stands
  exact real stands.symm

/-- A kind that is written as a word is that word in a sound table. -/
theorem eq_identifier_of_map {names table : NameTable} {kind other : TokenKind Name}
    {name word : Name} (same : kind.map names.text = other.map table.text)
    (isName : kind = .identifier name) (sound : table.Sound) (held : other.Known table)
    (holds : table.Holds word) (read : table.text word = names.text name) :
    other = .identifier word := by
  rw [isName] at same
  have tag : other.tag = .identifier := by
    rw [← TokenKind.tag_map table.text, ← same]
    rfl
  obtain ⟨found, rfl⟩ := TokenKind.eq_identifier tag
  refine congrArg _ (sound.text_inj (held _ rfl) holds ?_)
  rw [read]
  exact (TokenKind.identifier.inj same).symm

/-- Whether a word stands at the place of a token of the text. -/
theorem agreeAt_hasName (asking : Asking tail tokens others known knownOther left right)
    (inside : places < (Token.kinds tokens).length) {name other : Name} {text : String}
    (member : (name, text) ∈ known) (memberOther : (other, text) ∈ knownOther) :
    AgreeAt (Asking tail tokens others known knownOther) left right (hasName places name)
      (hasName places other) := by
  have further := asking.peek places
  refine ⟨?_, further⟩
  show ((left.peek places).1.kind == .identifier name) =
    ((right.peek places).1.kind == .identifier other)
  have stays := (looks_peek asking.inset.pending places).2
  have staysOther := (looks_peek asking.inset.pendingOther places).2
  have same : (Token.kinds (others ++ tail))[places]? = (Token.kinds tokens)[places]? := by
    rw [asking.kinds, List.getElem?_append_left inside]
  rw [Token.kinds, Token.kinds, List.getElem?_map, List.getElem?_map] at same
  rw [Token.kinds, List.length_map] at inside
  rw [List.getElem?_eq_getElem inside] at stays same
  obtain ⟨token, found, kind⟩ := Option.map_eq_some_iff.mp same
  rw [found] at staysOther
  obtain ⟨_, held, written⟩ := stays
  obtain ⟨_, heldOther, writtenOther⟩ := staysOther
  rw [← written, ← writtenOther] at kind
  obtain ⟨holds, read⟩ := further.knows name text member
  obtain ⟨holdsOther, readOther⟩ := further.knowsOther other text memberOther
  refine Bool.eq_iff_iff.mpr ?_
  rw [beq_iff_eq, beq_iff_eq]
  exact ⟨fun isName => eq_identifier_of_map kind.symm isName further.inset.pendingOther.sound
      heldOther holdsOther (readOther.trans read.symm),
    fun isName => eq_identifier_of_map kind isName further.inset.pending.sound held holds
      (read.trans readOther.symm)⟩

/-- Another token stands after those that do not close what is open. -/
theorem lt_of_unspent (asking : Asking tail tokens others known knownOther left right)
    (unspent : ¬left.Spent)
    (before : ∀ place < places, (TokenKind.tagAt (Token.kinds tokens) place).closes = false ∧
      TokenKind.tagAt (Token.kinds tokens) place ≠ .symbol) : places < (Token.kinds tokens).length :=
  Token.lt_length_of_tags (asking.inset.pending.exists_closes unspent) before

/-- Whether a key starts an argument, asked at a name before a token that closes the arguments. -/
theorem agreeAt_isKeyword (asking : Asking tail tokens others known knownOther left right)
    (unspent : ¬left.Spent) (isName : left.current.tag = .identifier) :
    AgreeAt (Asking tail tokens others known knownOther) left right isKeyword isKeyword := by
  have inside : 1 < (Token.kinds tokens).length := by
    refine lt_of_unspent asking unspent fun place first => ?_
    obtain rfl : place = 0 := by omega
    rw [← asking.inset.pending.tag, isName]
    decide
  refine (agreeAt_tag asking inside).bind ?_
  have kept := asking.peek 1
  split <;> exact ⟨rfl, kept⟩

/-- Whether the name of a method is qualified, asked before the end of the method. -/
theorem agreeAt_isSelfQualifier (asking : Asking tail tokens others known knownOther left right)
    (unspent : ¬left.Spent) :
    AgreeAt (Asking tail tokens others known knownOther) left right isSelfQualifier
      isSelfQualifier := by
  have some : 0 < (Token.kinds tokens).length := lt_of_unspent asking unspent nofun
  refine (agreeAt_hasTag asking some .kwSelf).andThen fun isSelf => ?_
  refine agreeAt_hasTag (asking.peek 0) (lt_of_unspent asking unspent fun place first => ?_) .dot
  obtain rfl : place = 0 := by omega
  rw [tagAt_of_hasTag asking isSelf]
  decide

/-- Whether the errors to rescue are named, asked before the end of the block. -/
theorem agreeAt_isRescueFilter (asking : Asking tail tokens others known knownOther left right)
    (unspent : ¬left.Spent) :
    AgreeAt (Asking tail tokens others known knownOther) left right isRescueFilter
      isRescueFilter := by
  have some : 0 < (Token.kinds tokens).length := lt_of_unspent asking unspent nofun
  refine (agreeAt_hasTag asking some .leftParen).andThen fun opens => ?_
  have isOpening := tagAt_of_hasTag asking opens
  have further : 1 < (Token.kinds tokens).length := by
    refine lt_of_unspent asking unspent fun place first => ?_
    obtain rfl : place = 0 := by omega
    rw [isOpening]
    decide
  refine (agreeAt_hasTag (asking.peek 0) further .constant).andThen fun names => ?_
  have isName := tagAt_of_hasTag (asking.peek 0) names
  refine agreeAt_hasTag ((asking.peek 0).peek 1) ?_ .rightParen
  refine lt_of_unspent asking unspent fun place first => ?_
  obtain rfl | rfl : place = 0 ∨ place = 1 := by omega
  · rw [isOpening]
    decide
  · rw [isName]
    decide

/-- Which shape of parameter starts here, asked before a token that closes the parameters. -/
theorem agreeAt_parameter? (asking : Asking tail tokens others known knownOther left right)
    (unspent : ¬left.Spent) :
    AgreeAt (Asking tail tokens others known knownOther) left right parameter? parameter? := by
  have some : 0 < (Token.kinds tokens).length := lt_of_unspent asking unspent nofun
  refine (agreeAt_tag asking some).bind ?_
  split
  · next isName =>
    refine (agreeAt_tag (asking.peek 0) (lt_of_unspent asking unspent fun place first => ?_)).bind ?_
    · obtain rfl : place = 0 := by omega
      rw [← asking.tag_fst, isName]
      decide
    · have kept := (asking.peek 0).peek 1
      split <;> exact ⟨rfl, kept⟩
  · exact ⟨rfl, asking.peek 0⟩
  · exact ⟨rfl, asking.peek 0⟩

/-- A piece of a string literal is passed over. -/
theorem stringRest_piece {cursor : Cursor} (count : Nat)
    (piece : (tag places cursor).1 = .stringContent ∨ (tag places cursor).1 = .stringEscape) :
    stringRest (count + 1) places cursor = stringRest count (places + 1) (tag places cursor).2 := by
  rw [stringRest, run_bind]
  rcases piece with isContent | isEscape
  · rw [isContent]
  · rw [isEscape]

/-- A string literal ends at its quotation mark. -/
theorem stringRest_close {cursor : Cursor} (count : Nat)
    (close : (tag places cursor).1 = .stringClose) :
    stringRest (count + 1) places cursor = (some (places + 1), (tag places cursor).2) := by
  rw [stringRest, run_bind, close]
  rfl

/-- Nothing else stands in a string literal. -/
theorem stringRest_none {cursor : Cursor} (count : Nat)
    (other : [Tag.stringContent, .stringEscape, .stringClose].contains (tag places cursor).1 =
      false) :
    stringRest (count + 1) places cursor = (none, (tag places cursor).2) := by
  rw [stringRest, run_bind]
  generalize (tag places cursor).1 = found at other
  cases found <;> first | rfl | contradiction

/-- The place past a string literal, which ends inside the text. -/
theorem agreeAt_stringRest (count more places : Nat)
    (asking : Asking tail tokens others known knownOther left right)
    (le : places ≤ (Token.kinds tokens).length)
    (enough : (Token.kinds tokens).length < places + count)
    (enoughOther : (Token.kinds (others ++ tail)).length < places + more) :
    AgreeAt (Asking tail tokens others known knownOther) left right (stringRest count places)
        (stringRest more places) ∧
      ∀ past ∈ (stringRest count places left).1, past ≤ (Token.kinds tokens).length := by
  induction count generalizing more places left right with
  | zero => omega
  | succ count ih =>
    cases more with
    | zero =>
      rw [asking.kinds, List.length_append] at enoughOther
      omega
    | succ more =>
      have kept := asking.peek places
      rcases Nat.lt_or_eq_of_le le with inside | rfl
      · have same := (agreeAt_tag asking inside).1
        by_cases piece : (tag places left).1 = .stringContent ∨ (tag places left).1 = .stringEscape
        · rw [AgreeAt, stringRest_piece count piece, stringRest_piece more (same ▸ piece)]
          exact ih more (places + 1) kept inside (by omega) (by omega)
        by_cases close : (tag places left).1 = .stringClose
        · rw [AgreeAt, stringRest_close count close, stringRest_close more (same ▸ close)]
          refine ⟨⟨rfl, kept⟩, fun past member => ?_⟩
          obtain rfl := Option.some.inj member
          exact inside
        · have other : [Tag.stringContent, .stringEscape, .stringClose].contains
              (tag places left).1 = false := by
            simp only [not_or] at piece
            simp [piece, close]
          rw [AgreeAt, stringRest_none count other, stringRest_none more (same ▸ other)]
          exact ⟨⟨rfl, kept⟩, fun _ none => absurd none (Option.not_mem_none _)⟩
      · -- Neither the end of the text nor the tail goes on with the literal.
        have here : (tag (Token.kinds tokens).length left).1 = .endOfInput :=
          (asking.tag_fst _).trans TokenKind.tagAt_length
        have there : (tag (Token.kinds tokens).length right).1 = Token.opening tail :=
          (asking.tag_snd _).trans TokenKind.tagAt_append_length
        have outside : ∀ tag : Tag, tag.attaches = false →
            [Tag.stringContent, .stringEscape, .stringClose].contains tag = false := by
          intro tag
          cases tag <;> decide
        rw [AgreeAt, stringRest_none count (by rw [here]; rfl),
          stringRest_none more (by rw [there]; exact outside _ asking.inset.detached.opens)]
        exact ⟨⟨rfl, kept⟩, fun _ none => absurd none (Option.not_mem_none _)⟩

/-- The place past a string literal that starts at the place of a token of the text. -/
theorem agreeAt_stringEnd (asking : Asking tail tokens others known knownOther left right)
    (inside : places < (Token.kinds tokens).length) :
    AgreeAt (Asking tail tokens others known knownOther) left right (stringEnd places)
        (stringEnd places) ∧
      ∀ past ∈ (stringEnd places left).1, past ≤ (Token.kinds tokens).length := by
  have asked := agreeAt_hasTag asking inside .stringOpen
  have kept := asked.2
  have run : stringEnd places left =
    (if (hasTag places .stringOpen left).1 = true then
      stringRest ((hasTag places .stringOpen left).2.tokensLeft + 1) (places + 1)
    else return none : Lookahead (Option Nat)) (hasTag places .stringOpen left).2 := by
    rw [stringEnd, run_bind]
    split <;> rfl
  have runOther : stringEnd places right =
    (if (hasTag places .stringOpen right).1 = true then
      stringRest ((hasTag places .stringOpen right).2.tokensLeft + 1) (places + 1)
    else return none : Lookahead (Option Nat)) (hasTag places .stringOpen right).2 := by
    rw [stringEnd, run_bind]
    split <;> rfl
  rw [AgreeAt, run, runOther, ← asked.1]
  split
  · have bound := kept.inset.pending.length_ordinary_le
    have boundOther := kept.inset.pendingOther.length_ordinary_le
    have size (tokens : List (Token String)) :
        (Token.kinds tokens).length = (Token.ordinary tokens).length := List.length_map _
    rw [← size] at bound boundOther
    exact agreeAt_stringRest _ _ _ kept inside (by omega) (by omega)
  · exact ⟨⟨rfl, kept⟩, fun _ none => absurd none (Option.not_mem_none _)⟩

/-- A tail that does not go on with the text does not go on with an expression. -/
theorem not_continues {tag : Tag} (detached : tag.attaches = false) :
    continuesExpression tag = false := by
  rw [Tag.attaches, Bool.or_eq_false_iff] at detached
  exact detached.1

/-- Whether an import ends at a place. -/
theorem agreeAt_closesImport (asking : Asking tail tokens others known knownOther left right)
    (le : places ≤ (Token.kinds tokens).length) :
    AgreeAt (Asking tail tokens others known knownOther) left right (closesImport places)
      (closesImport places) := by
  have asked := agreeAt_hasTag_of_le asking le (show Tag.attaches .rightParen = true from rfl)
  refine asked.bind ?_
  have kept := asked.2
  split
  · next closes =>
    have inside := lt_of_hasTag asking Tag.noConfusion closes
    generalize (hasTag places .rightParen left).2 = here at kept ⊢
    generalize (hasTag places .rightParen right).2 = there at kept ⊢
    have once := kept.peek places
    have twice := once.peek (places + 1)
    refine ⟨?_, twice⟩
    show (((here.peek places).2.peek (places + 1)).2.lineBreakBetween (here.peek places).1.span
          ((here.peek places).2.peek (places + 1)).1.span ||
        !continuesExpression ((here.peek places).2.peek (places + 1)).1.tag) =
      (((there.peek places).2.peek (places + 1)).2.lineBreakBetween (there.peek places).1.span
          ((there.peek places).2.peek (places + 1)).1.span ||
        !continuesExpression ((there.peek places).2.peek (places + 1)).1.tag)
    have tag : ((here.peek places).2.peek (places + 1)).1.tag =
        TokenKind.tagAt (Token.kinds tokens) (places + 1) := once.tag_fst (places + 1)
    have tagOther : ((there.peek places).2.peek (places + 1)).1.tag =
        TokenKind.tagAt (Token.kinds tokens ++ Token.kinds tail) (places + 1) :=
      once.tag_snd (places + 1)
    rcases Nat.lt_or_eq_of_le (Nat.succ_le_of_lt inside) with next | last
    · rw [TokenKind.tagAt_append_of_lt next] at tagOther
      rw [tagOther, ← tag]
      cases continues : continuesExpression ((here.peek places).2.peek (places + 1)).1.tag with
      | false => simp only [Bool.not_false, Bool.or_true]
      | true =>
        have real : ((here.peek places).2.peek (places + 1)).1.tag ≠ .endOfInput := by
          intro atEnd
          rw [atEnd] at continues
          contradiction
        obtain ⟨close, after, found, foundNext, isBreak⟩ :=
          lineBreak_eq places kept.inset.pending real
        obtain ⟨other, more, foundOther, foundMore, isBreakOther⟩ :=
          lineBreak_eq places kept.inset.pendingOther (by rw [tagOther, ← tag]; exact real)
        obtain ⟨_, _, follow⟩ := kept.inset.follow
        have size : (Token.ordinary others).length = (Token.kinds tokens).length := by
          rw [follow.kinds_ordinary, Token.kinds, List.length_map]
        rw [Token.ordinary_append, List.getElem?_append_left (by omega)] at foundOther foundMore
        have breaks := follow.breaks_between found foundNext foundOther foundMore
        rw [← isBreak, ← isBreakOther] at breaks
        rw [breaks]
    · -- Neither the end of the text nor the tail goes on with the expression.
      rw [Nat.succ_eq_add_one] at last
      rw [tag, tagOther, last, TokenKind.tagAt_length, TokenKind.tagAt_append_length]
      have opens : continuesExpression (TokenKind.tagAt (Token.kinds tail) 0) = false :=
        not_continues kept.inset.detached.opens
      have ends : continuesExpression .endOfInput = false := rfl
      rw [opens, ends]
      simp only [Bool.not_false, Bool.or_true]
  · exact ⟨rfl, kept⟩

/-- What comes after a string literal. -/
theorem agreeAt_afterString (asking : Asking tail tokens others known knownOther left right)
    (inside : places < (Token.kinds tokens).length) {next other : Nat → Lookahead Bool}
    (more : ∀ (here there : Cursor) (past : Nat),
      Asking tail tokens others known knownOther here there → past ≤ (Token.kinds tokens).length →
      AgreeAt (Asking tail tokens others known knownOther) here there (next past) (other past)) :
    AgreeAt (Asking tail tokens others known knownOther) left right
      (do
        match ← stringEnd places with
        | none => return false
        | some past => next past)
      (do
        match ← stringEnd places with
        | none => return false
        | some past => other past) := by
  obtain ⟨asked, bound⟩ := agreeAt_stringEnd asking inside
  refine asked.bind ?_
  cases found : (stringEnd places left).1 with
  | none => exact ⟨rfl, asked.2⟩
  | some past => exact more _ _ past asked.2 (bound past found)

/-- Whether an import starts at the current token. -/
theorem agreeAt_startsImport (asking : Asking tail tokens others known knownOther left right)
    (awake : 0 < (Token.kinds tokens).length) {importName asKey importOther asOther : Name}
    {importText asText : String} (imports : (importName, importText) ∈ known)
    (importsOther : (importOther, importText) ∈ knownOther) (renames : (asKey, asText) ∈ known)
    (renamesOther : (asOther, asText) ∈ knownOther) :
    AgreeAt (Asking tail tokens others known knownOther) left right
      (startsImport importName asKey) (startsImport importOther asOther) := by
  refine (agreeAt_hasTag asking awake .identifier).andThen fun first => ?_
  have kept := asking.peek 0
  have inside := lt_of_hasTag asking Tag.noConfusion first
  refine (agreeAt_hasTag_of_le kept inside rfl).andThen fun assigns => ?_
  -- A value stands after the equals sign, since the text does not end with one.
  have value := kept.inset.detached.further (tagAt_of_hasTag kept assigns) rfl
  replace kept := kept.peek 1
  refine (agreeAt_hasName kept value imports importsOther).andThen fun _ => ?_
  replace kept := kept.peek 2
  refine (agreeAt_hasTag_of_le kept value rfl).andThen fun opens => ?_
  have path := kept.inset.detached.further (tagAt_of_hasTag kept opens) rfl
  replace kept := kept.peek 3
  refine agreeAt_afterString kept path fun here there past kept le => ?_
  have comma := agreeAt_hasTag_of_le kept le (show Tag.attaches .comma = true from rfl)
  refine comma.bind ?_
  have further := comma.2
  split
  · next isComma =>
    have key := kept.inset.detached.further (tagAt_of_hasTag kept isComma) rfl
    refine (agreeAt_hasName further key renames renamesOther).andThen fun _ => ?_
    replace further := further.peek (past + 1)
    refine (agreeAt_hasTag_of_le further key rfl).andThen fun isColon => ?_
    have name := further.inset.detached.further (tagAt_of_hasTag further isColon) rfl
    replace further := further.peek (past + 2)
    exact agreeAt_afterString further name fun here there past kept le =>
      agreeAt_closesImport kept le
  · exact agreeAt_closesImport further le

end Lookahead

end Vibescript
