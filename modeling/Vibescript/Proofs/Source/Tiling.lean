import Vibescript.Proofs.Source.Recorded

/-!
# Reading tiles the text

Tokens, comments and unrecognized characters stand in a text side by side, each from one character
boundary to another. A byte under none of them is a separator outside string literals, or the
backslash that a text breaks off with inside a literal. So reading loses nothing of a text and
reads nothing twice.
-/
namespace Vibescript

/-- An offset lies between two characters of a text, or at one of its ends. -/
def Text.IsBoundary (text : List Char) (offset : Nat) : Prop :=
  ∃ before after, text = before ++ after ∧ byteLength before = offset

/-- A character stands at an offset of a text. -/
def Text.HasAt (text : List Char) (offset : Nat) (char : Char) : Prop :=
  ∃ before after, text = before ++ char :: after ∧ byteLength before = offset

/-- No byte lies under both of two spans. -/
def Span.Disjoint (left right : Span) : Prop :=
  ∀ offset, ¬ (left.contains offset = true ∧ right.contains offset = true)

/-- An offset lies in a string literal: between the mark that opens it and the next one that closes
one, these marks included. -/
def Token.InLiteral {ν : Type} (tokens : List (Token ν)) (offset : Nat) : Prop :=
  ∃ before opening pieces closing after,
    tokens = before ++ opening :: pieces ++ closing :: after ∧
    opening.tag = .stringOpen ∧ closing.tag = .stringClose ∧
    (∀ piece ∈ pieces, piece.tag ≠ .stringOpen ∧ piece.tag ≠ .stringClose) ∧
    opening.span.start ≤ offset ∧ offset < closing.span.stop

/-- Whether a fault is a character that starts no token. -/
def LexicalFault.isUnrecognized : LexicalFault → Bool
  | unrecognizedCharacter _ => true
  | _ => false

namespace LexOutput

/-- The spans of tokens, of comments and of unrecognized characters. -/
def spans (output : LexOutput) : List Span :=
  output.tokens.map (·.span) ++ output.lexer.comments.toList.map (·.span) ++
    (output.lexer.errors.toList.filter (·.fault.isUnrecognized)).map (·.span)

/-- A text was read without gaps and overlaps. -/
structure Tiles (output : LexOutput) (source : List Char) : Prop where
  /-- The end of the text is the last token and stands there only. -/
  ended : ∃ tokens, output.tokens = tokens ++ [⟨.endOfInput, .point (Text.byteLength source)⟩] ∧
    ∀ token ∈ tokens, token.tag ≠ .endOfInput
  /-- Each token starts at or after the end of those before it. -/
  ordered : output.tokens.Pairwise fun left right => left.span.stop ≤ right.span.start
  /-- No byte is read twice. -/
  disjoint : output.spans.Pairwise Span.Disjoint
  /-- What is read begins and ends between characters. -/
  bounded : ∀ span ∈ output.spans, span.start ≤ span.stop ∧
    Text.IsBoundary source span.start ∧ Text.IsBoundary source span.stop
  /-- A byte that is not read is a separator outside string literals, or a final backslash in a
  literal that has no end. -/
  unread : ∀ offset < Text.byteLength source,
    (∀ span ∈ output.spans, span.contains offset = false) →
    (∃ char ∈ [' ', '\t', '\n', '\x0c', '\r'], Text.HasAt source offset char ∧
      ¬ Token.InLiteral output.tokens offset) ∨
    (offset + 1 = Text.byteLength source ∧ Text.HasAt source offset '\\' ∧
      ∃ error ∈ output.lexer.errors.toList, error.fault = .unterminatedString ∧
        error.span.stop = Text.byteLength source)

end LexOutput

/-! How pieces are cut from a text. -/

/-- An offset lies in a span when it is not before its start and before its end. -/
theorem Span.contains_iff (span : Span) (offset : Nat) :
    span.contains offset = true ↔ span.start ≤ offset ∧ offset < span.stop := by
  rw [contains, Bool.and_eq_true, decide_eq_true_eq, decide_eq_true_eq]

namespace Content

/-- A piece that is read in code and starts with no separator is neither blank nor part of a
literal that breaks off. -/
theorem solid_inCode (before : Option Char) (first : Char) (rest : List Char)
    (solid : Text.isSeparator first = false) :
    (inCode before first rest).1 ≠ .blank ∧ (inCode before first rest).1 ≠ .finalBackslash := by
  unfold inCode
  rw [solid]
  simp only [Bool.false_eq_true, if_false]
  split
  · simp only [hash]
    split <;> simp
  split
  · simp [word]
  split
  · simp [upperWord]
  split
  · have integer : ∀ digits, (number.integer digits).1 ≠ .blank ∧
        (number.integer digits).1 ≠ .finalBackslash := fun digits => by
      simp only [number.integer]
      split <;> simp
    simp only [number]
    split
    · split
      · simp
      · exact integer _
    · exact integer _
  split
  · simp
  split
  · simp only [sigil]
    split <;> simp
  split
  · simp only [colon]
    split <;> simp
  · simp only [mark]
    split
    · simp
    · split <;> simp

/-- A piece that is read in code and starts with a separator takes all separators. -/
theorem inCode_separator (before : Option Char) {first : Char} (rest : List Char)
    (separator : Text.isSeparator first = true) :
    inCode before first rest = (.blank, (rest.takeWhile Text.isSeparator).length) := by
  rw [inCode, if_pos separator]

/-- Nothing is blank in a string literal. -/
theorem blank_ne_inString (first : Char) (rest : List Char) :
    (inString first rest).1 ≠ .blank := by
  unfold inString
  split
  · nofun
  split
  · split
    · nofun
    · split <;> nofun
  · nofun

/-- What is blank stands in code and takes separators only. -/
theorem read_blank {mode : Mode} {before : Option Char} {first : Char} {rest : List Char}
    {count : Nat} (reads : read mode before first rest = (.blank, count)) :
    mode = .code ∧ ∀ char ∈ first :: rest.take count, Text.isSeparator char = true := by
  cases mode with
  | string opening => exact absurd (congrArg Prod.fst reads) (blank_ne_inString first rest)
  | code =>
    have separator : Text.isSeparator first = true := by
      by_contra solid
      exact (solid_inCode before first rest (Bool.not_eq_true _ ▸ solid)).1 (congrArg Prod.fst reads)
    obtain rfl : _ = count :=
      congrArg Prod.snd ((inCode_separator before rest separator).symm.trans reads)
    rw [← List.prefix_iff_eq_take.mp (List.takeWhile_prefix _)]
    exact ⟨rfl, List.forall_mem_cons.mpr ⟨separator, List.all_eq_true.mp List.all_takeWhile⟩⟩

end Content

namespace Text

/-- A separator takes one byte. -/
theorem utf8Size_of_isSeparator {char : Char} (separator : isSeparator char = true) :
    char.utf8Size = 1 := by
  simp only [isSeparator, Bool.or_eq_true, decide_eq_true_eq] at separator
  rcases separator with (((same | same) | same) | same) | same <;> subst same <;> rfl

/-- The separators are space, tabulator, line feed, form feed and carriage return. -/
theorem mem_of_isSeparator {char : Char} (separator : isSeparator char = true) :
    char ∈ [' ', '\t', '\n', '\x0c', '\r'] := by
  simp only [isSeparator, Bool.or_eq_true, decide_eq_true_eq] at separator
  simp only [List.mem_cons, List.not_mem_nil, or_false]
  tauto

/-- Each byte of separators is a separator. -/
theorem hasAt_of_separators {blanks : List Char} (separators : ∀ char ∈ blanks, isSeparator char)
    {offset : Nat} (inside : offset < byteLength blanks) :
    ∃ char ∈ blanks, HasAt blanks offset char := by
  induction blanks generalizing offset with
  | nil => exact absurd inside (Nat.not_lt_zero _)
  | cons char rest ih =>
    have size := utf8Size_of_isSeparator (separators char List.mem_cons_self)
    cases offset with
    | zero => exact ⟨char, List.mem_cons_self, [], rest, rfl, rfl⟩
    | succ offset =>
      rw [byteLength_cons, size] at inside
      obtain ⟨other, member, before, after, whole, length⟩ :=
        ih (fun other member => separators other (List.mem_cons_of_mem _ member))
          (show offset < byteLength rest by omega)
      refine ⟨other, List.mem_cons_of_mem _ member, char :: before, after, ?_, ?_⟩
      · rw [whole, List.cons_append]
      · rw [byteLength_cons, size, length]
        omega

/-- A character of a part stands in the whole. -/
theorem HasAt.within {before part after : List Char} {offset : Nat} {char : Char}
    (stands : HasAt part offset char) :
    HasAt (before ++ part ++ after) (byteLength before + offset) char := by
  obtain ⟨early, late, rfl, rfl⟩ := stands
  exact ⟨before ++ early, late ++ after, by simp, by simp⟩

end Text

namespace Piece

/-- Where a piece was cut from a text: it is the end of a literal that the text breaks off in, or
it was read by the rules that applied where it starts. -/
theorem cut_listFrom (passed : Nat) (mode : Mode) (before : Option Char) (offset : Nat)
    (text : List Char) {earlier later : List Piece} {piece : Piece}
    (isList : listFrom passed mode before offset text = earlier ++ piece :: later) :
    (∃ opening, piece.content = .unterminated opening ∧ piece.text = []) ∨
    ∃ early char rest mode before,
      text = early ++ char :: rest ∧ piece.start = offset + Text.byteLength early ∧
      piece.content = (Content.read mode before char rest).1 ∧
      piece.text = char :: rest.take (Content.read mode before char rest).2 ∧
      later = listFrom (Content.read mode before char rest).2
        (piece.content.modeAfter piece.start mode) (some char)
        (piece.start + char.utf8Size) rest := by
  induction text generalizing passed mode before offset earlier with
  | nil =>
    cases mode with
    | code => simp [listFrom] at isList
    | string opening =>
      have member : piece ∈ listFrom passed (.string opening) before offset [] := by simp [isList]
      obtain rfl : piece = ⟨offset, [], .unterminated opening⟩ := by simpa [listFrom] using member
      exact .inl ⟨opening, rfl, rfl⟩
  | cons char rest ih =>
    have further : ∀ early : List Char,
        offset + char.utf8Size + Text.byteLength early = offset + Text.byteLength (char :: early) :=
      fun early => by rw [Text.byteLength_cons, Nat.add_assoc]
    cases passed with
    | succ more =>
      obtain broken | ⟨early, other, after, inner, left, whole, start, cut⟩ := ih _ _ _ _ isList
      · exact .inl broken
      · exact .inr ⟨char :: early, other, after, inner, left, congrArg _ whole,
          start.trans (further early), cut⟩
    | zero =>
      cases earlier with
      | nil =>
        obtain ⟨rfl, rfl⟩ := List.cons.inj isList
        exact .inr ⟨[], char, rest, mode, before, rfl, rfl, rfl, rfl, rfl⟩
      | cons first earlier =>
        obtain broken | ⟨early, other, after, inner, left, whole, start, cut⟩ :=
          ih _ _ _ _ (List.cons.inj isList).2
        · exact .inl broken
        · exact .inr ⟨char :: early, other, after, inner, left, congrArg _ whole,
            start.trans (further early), cut⟩

/-- Every byte of a text lies in a piece. -/
theorem exists_contains_listFrom (passed : Nat) (mode : Mode) (before : Option Char)
    (start : Nat) (text : List Char) {offset : Nat}
    (reached : start + Text.byteLength (text.take passed) ≤ offset)
    (below : offset < start + Text.byteLength text) :
    ∃ piece ∈ listFrom passed mode before start text, piece.span.contains offset = true := by
  induction text generalizing passed mode before start with
  | nil =>
    simp only [List.take_nil, Text.byteLength_nil] at reached below
    omega
  | cons char rest ih =>
    rw [Text.byteLength_cons] at below
    cases passed with
    | succ more =>
      rw [List.take_succ_cons, Text.byteLength_cons] at reached
      exact ih _ _ _ _ (by omega) (by omega)
    | zero =>
      rw [listFrom]
      dsimp only
      by_cases inside :
          offset < start + Text.byteLength (char :: rest.take (Content.read mode before char rest).2)
      · refine ⟨_, List.mem_cons_self, ?_⟩
        simp only [List.take_zero, Text.byteLength_nil, Nat.add_zero] at reached
        exact (Span.contains_iff _ _).mpr ⟨reached, inside⟩
      · rw [Text.byteLength_cons] at inside
        obtain ⟨piece, member, contains⟩ := ih (Content.read mode before char rest).2
          ((Content.read mode before char rest).1.modeAfter start mode) (some char)
          (start + char.utf8Size) (by omega) (by omega)
        exact ⟨piece, List.mem_cons_of_mem _ member, contains⟩

variable {source : List Char} {earlier later : List Piece} {piece : Piece}

/-- Separators are read outside string literals: what follows them is no token of a literal. -/
theorem blank_list (isList : list source = earlier ++ piece :: later)
    (blank : piece.content = .blank) :
    (∀ char ∈ piece.text, Text.isSeparator char = true) ∧
      ∀ token ∈ (tokens later).head?, token.tag.isQuoted = false := by
  obtain ⟨_, broken, _⟩ | ⟨early, char, rest, mode, before, whole, start, content, text, rfl⟩ :=
    cut_listFrom _ _ _ _ _ isList
  · rw [blank] at broken
    contradiction
  obtain ⟨rfl, separators⟩ := Content.read_blank (Prod.ext (content.symm.trans blank) rfl)
  constructor
  · rw [text]
    exact separators
  · rw [blank]
    have longer : source = (early ++ [char]) ++ rest := by
      rw [whole]
      simp
    refine (isChain_listFrom _ _ _ _ _ longer ?_).2.1 rfl
    rw [start, Text.byteLength_append, Nat.zero_add]
    rfl

/-- A backslash without a character after it ends the text, and its literal with it. -/
theorem finalBackslash_list (isList : list source = earlier ++ piece :: later)
    (final : piece.content = .finalBackslash) :
    piece.text = ['\\'] ∧ piece.start + 1 = Text.byteLength source ∧
      (∃ before, source = before ++ ['\\'] ∧ piece.start = Text.byteLength before) ∧
      ∃ opening, later = [⟨Text.byteLength source, [], .unterminated opening⟩] := by
  obtain ⟨_, broken, _⟩ | ⟨early, char, rest, mode, before, whole, start, content, text, rfl⟩ :=
    cut_listFrom _ _ _ _ _ isList
  · rw [final] at broken
    contradiction
  cases mode with
  | code =>
    have found := content.symm.trans final
    rw [Content.read] at found
    cases separator : Text.isSeparator char with
    | true =>
      rw [Content.inCode_separator before rest separator] at found
      contradiction
    | false => exact absurd found (Content.solid_inCode before char rest separator).2
  | string opening =>
    have skipped : piece.kind? = none := by rw [kind?, final]
    obtain ⟨rfl, rfl⟩ := finalBackslash_of_kind?_eq_none content skipped
    have ends : piece.start + 1 = Text.byteLength source := by
      rw [start, whole, Text.byteLength_append, Nat.zero_add]
      rfl
    refine ⟨by rw [text, List.take_nil], ends, ⟨early, whole, ?_⟩, opening, ?_⟩
    · rw [start, Nat.zero_add]
    · rw [final, ← ends]
      rfl

/-- No byte lies in two pieces. -/
theorem pairwise_disjoint_list (source : List Char) :
    (list source).Pairwise fun left right => left.span.Disjoint right.span := by
  refine (pairwise_listFrom 0 .code none 0 source).imp ?_
  intro left right precedes offset both
  have first := (Span.contains_iff _ _).mp both.1
  have second := (Span.contains_iff _ _).mp both.2
  have apart := precedes.1
  simp only [span] at first second apart
  omega

end Piece

namespace Token

variable {source : List Char}

/-- Up to the mark that closes a literal, after the one that opens it, tokens are pieces of the
literal. -/
theorem isQuoted_head {pieces after : List (Token String)} {closing : Token String}
    (chain : (pieces ++ closing :: after).IsChain (Adjoins source))
    (closes : closing.tag.isQuoted = true) (inner : ∀ piece ∈ pieces, piece.tag ≠ .stringOpen) :
    ∀ token ∈ (pieces ++ closing :: after).head?, token.tag.isQuoted = true := by
  induction pieces with
  | nil =>
    intro token isToken
    obtain rfl := Option.some.inj isToken
    exact closes
  | cons piece rest ih =>
    intro token isToken
    obtain rfl := Option.some.inj isToken
    obtain ⟨adjoins, later⟩ := List.isChain_cons.mp chain
    have next := ih later fun other member => inner other (List.mem_cons_of_mem _ member)
    have quotes : piece.tag.quotes = true := by
      cases following : (rest ++ closing :: after).head? with
      | none => simp at following
      | some token => exact (adjoins token following (next token following)).1
    have opens := inner piece List.mem_cons_self
    revert quotes opens
    cases piece.tag <;> simp [Tag.quotes, Tag.isQuoted]

/-- Where no token of a literal follows, no literal goes on. -/
theorem not_inLiteral {earlier later : List (Token String)} {offset : Nat}
    (chain : later.IsChain (Adjoins source))
    (code : ∀ token ∈ later.head?, token.tag.isQuoted = false)
    (before : ∀ token ∈ earlier, token.span.stop ≤ offset)
    (after : ∀ token ∈ later, offset < token.span.start) : ¬ InLiteral (earlier ++ later) offset := by
  rintro ⟨front, opening, pieces, closing, back, whole, opens, closes, inner, started, notEnded⟩
  have notLater : opening ∉ later := fun member => by
    have := after opening member
    omega
  have notEarlier : closing ∉ earlier := fun member => by
    have := before closing member
    omega
  obtain ⟨left, inPieces, isLater⟩ :
      ∃ left, (∀ piece ∈ left, piece ∈ pieces) ∧ later = left ++ closing :: back := by
    rw [List.append_assoc, List.append_eq_append_iff] at whole
    obtain ⟨passed, _, isLater⟩ | ⟨passed, isEarlier, rest⟩ := whole
    · exact absurd (by simp [isLater]) notLater
    cases passed with
    | nil => exact absurd (by simp [← show _ = later from rest]) notLater
    | cons first passed =>
      rw [List.cons_append, List.cons_append, List.cons.injEq, List.append_eq_append_iff] at rest
      obtain ⟨left, isPassed, rest⟩ | ⟨left, isPieces, isLater⟩ := rest.2
      · cases left with
        | nil => exact ⟨[], nofun, rest.symm⟩
        | cons second left =>
          obtain ⟨rfl, _⟩ := List.cons.inj rest
          exact absurd (by simp [isEarlier, isPassed]) notEarlier
      · exact ⟨left, fun piece member => by simp [isPieces, member], isLater⟩
  rw [isLater] at chain code
  have closesQuoted : closing.tag.isQuoted = true := by rw [closes]; rfl
  have quoted := isQuoted_head chain closesQuoted
    fun piece member => (inner piece (inPieces piece member)).1
  cases isHead : (left ++ closing :: back).head? with
  | none => simp at isHead
  | some token =>
    have outside := code token isHead
    rw [quoted token isHead] at outside
    contradiction

end Token

/-! The pieces under the spans. -/

namespace Piece

/-- The character that a piece is, if it starts no token. -/
def unrecognized? (piece : Piece) : Option LexicalError :=
  piece.error?.filter (·.fault.isUnrecognized)

/-- The pieces that are tokens, comments or unrecognized characters. -/
def recorded (source : List Char) : List Piece :=
  (list source).filter (·.token?.isSome) ++ (list source).filter (·.comment?.isSome) ++
    (list source).filter (·.unrecognized?.isSome)

/-- What is made from pieces and keeps their spans has the spans of these pieces. -/
theorem map_span_filterMap {α : Type} {make : Piece → Option α} {span : α → Span}
    (keeps : ∀ piece made, make piece = some made → span made = piece.span)
    (pieces : List Piece) : (pieces.filterMap make).map span =
      (pieces.filter fun piece => (make piece).isSome).map Piece.span := by
  induction pieces with
  | nil => rfl
  | cons piece rest ih =>
    cases isMade : make piece with
    | none => simpa [isMade] using ih
    | some made => simpa [isMade, keeps piece made isMade] using ih

/-- The recorded pieces are pieces of the text. -/
theorem mem_list_of_mem_recorded {source : List Char} {piece : Piece}
    (member : piece ∈ recorded source) : piece ∈ list source := by
  simp only [recorded, List.mem_append, List.mem_filter] at member
  rcases member with (⟨inside, _⟩ | ⟨inside, _⟩) | ⟨inside, _⟩ <;> exact inside

/-- A token is no comment and no unrecognized character, and a comment is none either. -/
theorem classes_exclude (piece : Piece) :
    (piece.token?.isSome = true → piece.comment? = none ∧ piece.unrecognized? = none) ∧
      (piece.comment?.isSome = true → piece.unrecognized? = none) := by
  rw [token?, kind?, comment?, unrecognized?, error?]
  cases piece.content <;> simp [Option.filter, LexicalFault.isUnrecognized]

/-- A piece that is not recorded is blank or the backslash that ends the text. -/
theorem blank_or_final {source : List Char} {piece : Piece} (member : piece ∈ list source)
    (skipped : piece ∉ recorded source) :
    piece.content = .blank ∨ piece.content = .finalBackslash := by
  have isNone : piece.token? = none ∧ piece.comment? = none ∧ piece.unrecognized? = none := by
    simpa [recorded, member] using skipped
  rw [token?, kind?, comment?, unrecognized?, error?] at isNone
  cases content : piece.content <;>
    simp [content, Option.filter, LexicalFault.isUnrecognized] at isNone ⊢

/-- No byte lies in two pieces that are recorded. -/
theorem pairwise_disjoint_recorded (source : List Char) :
    (recorded source).Pairwise fun left right => left.span.Disjoint right.span := by
  have disjoint := pairwise_disjoint_list source
  have symmetric : Std.Symm fun left right : Piece => left.span.Disjoint right.span :=
    ⟨fun left right apart offset both => apart offset both.symm⟩
  have different := fun left inLeft right inRight =>
    @List.Pairwise.forall _ _ _ symmetric disjoint left inLeft right inRight
  simp only [recorded, List.pairwise_append, List.mem_append, List.mem_filter]
  refine ⟨⟨disjoint.filter _, disjoint.filter _, ?_⟩, disjoint.filter _, ?_⟩
  · rintro left ⟨inLeft, token⟩ right ⟨inRight, comment⟩
    refine different left inLeft right inRight ?_
    rintro rfl
    simp [((classes_exclude left).1 token).1] at comment
  · rintro left (⟨inLeft, token⟩ | ⟨inLeft, comment⟩) right ⟨inRight, unrecognized⟩
    · refine different left inLeft right inRight ?_
      rintro rfl
      simp [((classes_exclude left).1 token).2] at unrecognized
    · refine different left inLeft right inRight ?_
      rintro rfl
      simp [(classes_exclude left).2 comment] at unrecognized

end Piece

/-- Writing names out moves no token. -/
theorem LexOutput.map_span_written (output : LexOutput) :
    output.written.map (·.span) = output.tokens.map (·.span) := by
  rw [written, List.map_map]
  rfl

/-- The spans of what is read are those of the recorded pieces and the end of the text. -/
theorem perm_spans_lex (source : String) :
    (lex source).spans.Perm (.point (Text.byteLength source.toList) ::
      (Piece.recorded source.toList).map Piece.span) := by
  have tokens : (lex source).tokens.map (·.span) =
      ((Piece.list source.toList).filter (·.token?.isSome)).map Piece.span ++
        [.point (Text.byteLength source.toList)] := by
    rw [← LexOutput.map_span_written, written_lex, List.map_append, Piece.tokens,
      Piece.map_span_filterMap]
    · rfl
    · intro piece token isToken
      obtain ⟨_, _, rfl⟩ := Option.map_eq_some_iff.mp isToken
      rfl
  have comments : ((Piece.list source.toList).filterMap Piece.comment?).map (·.span) =
      ((Piece.list source.toList).filter (·.comment?.isSome)).map Piece.span := by
    apply Piece.map_span_filterMap
    intro piece comment isComment
    rw [Piece.comment?] at isComment
    split at isComment
    · exact Option.some.inj isComment ▸ rfl
    · contradiction
  have unrecognized : ((Piece.faults source.toList).filter (·.fault.isUnrecognized)).map (·.span) =
      ((Piece.list source.toList).filter (·.unrecognized?.isSome)).map Piece.span := by
    rw [Piece.faults, List.filter_filterMap]
    apply Piece.map_span_filterMap
    intro piece error isError
    obtain ⟨found, isUnrecognized⟩ := Option.filter_eq_some_iff.mp isError
    rw [Piece.error?] at found
    split at found <;> simp only [Option.some.injEq, reduceCtorEq] at found <;> subst found <;>
      first | rfl | contradiction
  rw [LexOutput.spans, (recorded_lex source).1, (recorded_lex source).2, tokens, comments,
    unrecognized, Piece.recorded, List.map_append, List.map_append]
  simp only [List.append_assoc, List.singleton_append]
  exact List.perm_middle

/-- A literal among tokens is one among the tokens with their names written out. -/
theorem Token.InLiteral.map {ν μ : Type} {change : Token ν → Token μ}
    (tag : ∀ token, (change token).tag = token.tag)
    (span : ∀ token, (change token).span = token.span) {tokens : List (Token ν)} {offset : Nat}
    (inside : InLiteral tokens offset) : InLiteral (tokens.map change) offset := by
  obtain ⟨before, opening, pieces, closing, after, rfl, opens, closes, inner, bounds⟩ := inside
  refine ⟨before.map change, change opening, pieces.map change, change closing, after.map change,
    by simp, (tag _).trans opens, (tag _).trans closes, ?_, ?_⟩
  · intro piece member
    obtain ⟨original, isPiece, rfl⟩ := List.mem_map.mp member
    rw [tag]
    exact inner original isPiece
  · rw [span, span]
    exact bounds

namespace Piece

/-- A piece of a text lies between two characters. -/
theorem isBoundary_list {source : List Char} {piece : Piece} (member : piece ∈ list source) :
    piece.span.start ≤ piece.span.stop ∧ Text.IsBoundary source piece.span.start ∧
      Text.IsBoundary source piece.span.stop := by
  obtain ⟨before, after, whole, start⟩ := (lies_listFrom _ _ _ _ _ piece member).within
  rw [Nat.zero_add] at start
  refine ⟨Nat.le_add_right _ _, ⟨before, piece.text ++ after, ?_, start.symm⟩,
    ⟨before ++ piece.text, after, whole, ?_⟩⟩
  · rw [whole, List.append_assoc]
  · rw [Text.byteLength_append, span, start]

/-- A blank piece lies outside string literals. -/
theorem outside_of_blank {source : List Char} {earlier later : List Piece} {piece : Piece}
    (isList : list source = earlier ++ piece :: later) (blank : piece.content = .blank)
    {offset : Nat} (inside : piece.span.contains offset = true) :
    ¬ Token.InLiteral
      (tokens (list source) ++ [⟨.endOfInput, .point (Text.byteLength source)⟩]) offset := by
  obtain ⟨started, notEnded⟩ := (Span.contains_iff _ _).mp inside
  have ordered := pairwise_listFrom 0 .code none 0 source
  rw [← list, isList, List.pairwise_append, List.pairwise_cons] at ordered
  obtain ⟨_, ⟨follows, _⟩, precedes⟩ := ordered
  have member : piece ∈ list source := by simp [isList]
  obtain ⟨front, back, whole, start⟩ := (lies_listFrom _ _ _ _ _ piece member).within
  have isTokens : tokens (list source) = tokens earlier ++ tokens later := by
    simp [isList, tokens, token?, kind?, blank]
  have chain := (Token.Strung.of_source source).quoted
  rw [isTokens] at chain ⊢
  rw [List.append_assoc]
  have ended : List.IsChain (Token.Adjoins source) (tokens later ++
      [(⟨.endOfInput, .point (Text.byteLength source)⟩ : Token String)]) := by
    refine List.isChain_append.mpr ⟨chain.right_of_append, .singleton _, ?_⟩
    intro last _ first isFirst quoted
    obtain rfl := Option.some.inj isFirst
    contradiction
  apply Token.not_inLiteral ended
  · intro token isHead
    cases first : (tokens later).head? with
    | none =>
      rw [List.head?_eq_none_iff.mp first] at isHead
      obtain rfl := Option.some.inj isHead
      rfl
    | some other =>
      rw [List.head?_append, first] at isHead
      obtain rfl := Option.some.inj isHead
      exact (blank_list isList blank).2 other first
  · intro token isToken
    obtain ⟨other, isOther, made⟩ := List.mem_filterMap.mp isToken
    obtain ⟨_, _, rfl⟩ := Option.map_eq_some_iff.mp made
    exact (precedes other isOther piece List.mem_cons_self).1.trans started
  · intro token isToken
    rcases List.mem_append.mp isToken with inLater | isEnd
    · obtain ⟨other, isOther, made⟩ := List.mem_filterMap.mp inLater
      obtain ⟨_, _, rfl⟩ := Option.map_eq_some_iff.mp made
      exact notEnded.trans_le (follows other isOther).1
    · obtain rfl := List.mem_singleton.mp isEnd
      rw [Nat.zero_add] at start
      have length := congrArg Text.byteLength whole
      simp only [Text.byteLength_append] at length
      simp only [span] at notEnded
      simp only [Span.point]
      omega

/-- Each byte of a blank piece is a separator. -/
theorem hasAt_of_blank {source : List Char} {earlier later : List Piece} {piece : Piece}
    (isList : list source = earlier ++ piece :: later) (blank : piece.content = .blank)
    {offset : Nat} (inside : piece.span.contains offset = true) :
    ∃ char ∈ [' ', '\t', '\n', '\x0c', '\r'], Text.HasAt source offset char := by
  have member : piece ∈ list source := by simp [isList]
  obtain ⟨started, notEnded⟩ := (Span.contains_iff _ _).mp inside
  obtain ⟨front, back, whole, start⟩ := (lies_listFrom _ _ _ _ _ piece member).within
  have separators := (blank_list isList blank).1
  rw [Nat.zero_add] at start
  simp only [span] at started notEnded
  have below : offset - piece.start < Text.byteLength piece.text := by omega
  obtain ⟨char, isChar, stands⟩ := Text.hasAt_of_separators separators below
  have place : Text.byteLength front + (offset - piece.start) = offset := by omega
  have stands : Text.HasAt (front ++ piece.text ++ back)
      (Text.byteLength front + (offset - piece.start)) char := stands.within
  rw [place, ← whole] at stands
  exact ⟨char, Text.mem_of_isSeparator (separators char isChar), stands⟩

/-- The backslash that ends a text stands in a literal without an end. -/
theorem breaksOff_of_final {source : List Char} {earlier later : List Piece} {piece : Piece}
    (isList : list source = earlier ++ piece :: later) (final : piece.content = .finalBackslash)
    {offset : Nat} (inside : piece.span.contains offset = true) :
    offset + 1 = Text.byteLength source ∧ Text.HasAt source offset '\\' ∧
      ∃ error ∈ faults source, error.fault = .unterminatedString ∧
        error.span.stop = Text.byteLength source := by
  obtain ⟨text, ends, ⟨front, whole, start⟩, opening, isLater⟩ := finalBackslash_list isList final
  obtain ⟨started, notEnded⟩ := (Span.contains_iff _ _).mp inside
  have single : Text.byteLength piece.text = 1 := by
    rw [text]
    rfl
  have place : offset = piece.start := by
    simp only [span] at started notEnded
    omega
  refine ⟨by rw [place, ends], ⟨front, [], whole, by rw [place, start]⟩,
    ⟨.unterminatedString, ⟨opening, Text.byteLength source⟩⟩, ?_, rfl, rfl⟩
  have member : ⟨Text.byteLength source, [], .unterminated opening⟩ ∈ list source := by
    simp [isList, isLater]
  exact List.mem_filterMap.mpr ⟨_, member, rfl⟩

end Piece

/-- Reading a source text leaves no gap and reads nothing twice. -/
theorem tiles_lex (source : String) : (lex source).Tiles source.toList := by
  have perm := perm_spans_lex source
  have written := written_lex source
  constructor
  case ended =>
    rw [LexOutput.written, List.map_eq_append_iff] at written
    obtain ⟨tokens, last, whole, isTokens, isLast⟩ := written
    obtain ⟨token, rfl, isEnd⟩ := List.map_eq_singleton_iff.mp isLast
    have tag := congrArg Token.tag isEnd
    have span := congrArg Token.span isEnd
    rw [Token.tag_written] at tag
    refine ⟨tokens, ?_, fun other member isEnd => ?_⟩
    · rw [whole]
      obtain ⟨kind, place⟩ := token
      obtain rfl := TokenKind.eq_endOfInput tag
      obtain rfl : place = _ := span
      rfl
    · have made : other.written (lex source).lexer.names ∈
          Piece.tokens (Piece.list source.toList) := isTokens ▸ List.mem_map_of_mem member
      rw [← Token.tag_written (lex source).lexer.names] at isEnd
      exact (Piece.stands_of_mem_tokens made).notEnd (TokenKind.eq_endOfInput isEnd)
  case ordered =>
    have ordered : (lex source).written.Pairwise
        fun left right => left.span.stop ≤ right.span.start := by
      rw [written]
      refine List.pairwise_append.mpr
        ⟨(Piece.pairwise_tokens _).imp (·.1), List.pairwise_singleton _ _, ?_⟩
      intro token member last isLast
      obtain rfl := List.mem_singleton.mp isLast
      exact (Piece.stands_of_mem_tokens member).inside
    exact List.pairwise_map.mp ordered
  case disjoint =>
    have symmetric : Std.Symm Span.Disjoint :=
      ⟨fun left right apart offset both => apart offset both.symm⟩
    rw [perm.pairwise_iff (fun {left right} => symmetric.symm left right), List.pairwise_cons]
    constructor
    · intro span _ offset both
      have inside := (Span.contains_iff _ _).mp both.1
      simp only [Span.point] at inside
      omega
    · exact List.pairwise_map.mpr (Piece.pairwise_disjoint_recorded _)
  case bounded =>
    intro span member
    rcases List.mem_cons.mp (perm.mem_iff.mp member) with rfl | recorded
    · have ends : Text.IsBoundary source.toList (Text.byteLength source.toList) :=
        ⟨source.toList, [], (List.append_nil _).symm, rfl⟩
      exact ⟨Nat.le_refl _, ends, ends⟩
    · obtain ⟨piece, isRecorded, rfl⟩ := List.mem_map.mp recorded
      exact Piece.isBoundary_list (Piece.mem_list_of_mem_recorded isRecorded)
  case unread =>
    intro offset inside unread
    have below : offset < 0 + Text.byteLength source.toList := by omega
    obtain ⟨piece, member, contains⟩ :=
      Piece.exists_contains_listFrom 0 .code none 0 source.toList (Nat.zero_le _) below
    have skipped : piece ∉ Piece.recorded source.toList := by
      intro recorded
      have := unread piece.span
        (perm.mem_iff.mpr (List.mem_cons_of_mem _ (List.mem_map_of_mem recorded)))
      rw [contains] at this
      contradiction
    obtain ⟨earlier, later, isList⟩ := List.append_of_mem member
    obtain blank | final := Piece.blank_or_final member skipped
    · left
      obtain ⟨char, separator, stands⟩ := Piece.hasAt_of_blank isList blank contains
      refine ⟨char, separator, stands, fun literal => ?_⟩
      have isWritten := literal.map (Token.tag_written (lex source).lexer.names) fun _ => rfl
      rw [← LexOutput.written, written] at isWritten
      exact Piece.outside_of_blank isList blank contains isWritten
    · right
      rw [(recorded_lex source).1]
      exact Piece.breaksOff_of_final isList final contains

end Vibescript
