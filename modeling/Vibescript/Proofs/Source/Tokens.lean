import Vibescript.Lexer.Basic

/-!
# Where tokens stand

The pieces of a source text lie end to end, so its tokens follow each other without
overlapping, and each starts before the next: only the token that closes an unterminated string
is empty, and it comes last. A token stands in a source text when its span lies in the text and,
for a symbol, its name is the text after its colon.
-/
namespace Vibescript

namespace Token

/-- One token ends before another starts, and they do not start together. -/
def Precedes {ν μ : Type} (left : Token ν) (right : Token μ) : Prop :=
  left.span.stop ≤ right.span.start ∧ left.span.start < right.span.start

/-- What is known of a token by itself in its source text. -/
structure Stands (source : List Char) (token : Token String) : Prop where
  /-- The span is not reversed. -/
  ordered : token.span.start ≤ token.span.stop
  /-- The span lies in the text. -/
  inside : token.span.stop ≤ Text.byteLength source
  /-- A directive is not empty. -/
  directive : token.kind.isDirective = true → token.span.start < token.span.stop
  /-- The name of a symbol is the text after its colon. -/
  symbol : ∀ name, token.kind = .symbol name →
    token.span.start + 1 < token.span.stop ∧
      Text.slice source ⟨token.span.start + 1, token.span.stop⟩ = name.toList
  /-- No token of a text is its end. -/
  notEnd : token.kind ≠ .endOfInput

end Token

namespace TokenKind

/-- The text that a piece of a string literal stands for. -/
def pieceText? : TokenKind String → Option String
  | stringContent text => some text
  | stringEscape char => some (String.singleton char)
  | _ => none

/-- A kind with a tag that has a spelling is that tag. -/
theorem eq_fixed {ν : Type} {kind : TokenKind ν} {tag : Tag} (same : kind.tag = tag)
    (spelled : tag.spelling?.isSome = true) : kind = .fixed tag spelled := by
  subst same
  cases kind <;> first | rfl | exact Bool.noConfusion spelled

/-- A tag with a spelling is none without. -/
theorem fixed_tag_ne {ν : Type} {tag other : Tag} (spelled : tag.spelling?.isSome = true)
    (unspelled : other.spelling? = none) : (fixed tag spelled : TokenKind ν).tag ≠ other := by
  change tag ≠ other
  rintro rfl
  rw [unspelled] at spelled
  contradiction

/-- Only the end of the text has its tag. -/
theorem eq_endOfInput {ν : Type} {kind : TokenKind ν} (same : kind.tag = .endOfInput) :
    kind = .endOfInput := by
  cases kind <;> first | rfl | contradiction | exact absurd same (fixed_tag_ne _ rfl)

/-- Only the quotation mark that opens a string literal has its tag. -/
theorem eq_stringOpen {ν : Type} {kind : TokenKind ν} (same : kind.tag = .stringOpen) :
    kind = .stringOpen := by
  cases kind <;> first | rfl | contradiction | exact absurd same (fixed_tag_ne _ rfl)

/-- Only the quotation mark that closes a string literal has its tag. -/
theorem eq_stringClose {ν : Type} {kind : TokenKind ν} (same : kind.tag = .stringClose) :
    kind = .stringClose := by
  cases kind <;> first | rfl | contradiction | exact absurd same (fixed_tag_ne _ rfl)

/-- Only an identifier has its tag. -/
theorem eq_identifier {ν : Type} {kind : TokenKind ν} (same : kind.tag = .identifier) :
    ∃ name, kind = .identifier name := by
  cases kind <;> first | exact ⟨_, rfl⟩ | contradiction | exact absurd same (fixed_tag_ne _ rfl)

/-- Only a constant has its tag. -/
theorem eq_constant {ν : Type} {kind : TokenKind ν} (same : kind.tag = .constant) :
    ∃ name, kind = .constant name := by
  cases kind <;> first | exact ⟨_, rfl⟩ | contradiction | exact absurd same (fixed_tag_ne _ rfl)

/-- Only an instance variable has its tag. -/
theorem eq_instanceVariable {ν : Type} {kind : TokenKind ν} (same : kind.tag = .instanceVariable) :
    ∃ name, kind = .instanceVariable name := by
  cases kind <;> first | exact ⟨_, rfl⟩ | contradiction | exact absurd same (fixed_tag_ne _ rfl)

/-- Only a class variable has its tag. -/
theorem eq_classVariable {ν : Type} {kind : TokenKind ν} (same : kind.tag = .classVariable) :
    ∃ name, kind = .classVariable name := by
  cases kind <;> first | exact ⟨_, rfl⟩ | contradiction | exact absurd same (fixed_tag_ne _ rfl)

/-- Only a symbol has its tag. -/
theorem eq_symbol {ν : Type} {kind : TokenKind ν} (same : kind.tag = .symbol) :
    ∃ name, kind = .symbol name := by
  cases kind <;> first | exact ⟨_, rfl⟩ | contradiction | exact absurd same (fixed_tag_ne _ rfl)

/-- Only the pieces of a string literal have their tags. -/
theorem isSome_pieceText? {kind : TokenKind String}
    (same : kind.tag = .stringContent ∨ kind.tag = .stringEscape) :
    kind.pieceText?.isSome = true := by
  cases kind <;> first
    | rfl
    | rcases same with same | same <;>
        first | contradiction | exact absurd same (fixed_tag_ne _ rfl)

/-- What a tag with a spelling gives is that tag. -/
theorem of_ofTag? {ν : Type} {tag : Tag} {kind : TokenKind ν} (made : ofTag? tag = some kind) :
    ∃ spelled, kind = .fixed tag spelled := by
  unfold ofTag? at made
  split at made
  · next spelled => exact ⟨spelled, (Option.some.inj made).symm⟩
  · contradiction

/-- A word is a constant, a reserved word or an identifier. -/
theorem ofWord_cases (text : String) :
    ofWord text = .constant text ∨ ofWord text = .identifier text ∨
      ∃ tag spelled, ofWord text = .fixed tag spelled := by
  unfold ofWord
  split
  · exact .inl rfl
  · cases found : (keyword? text : Option (TokenKind String)) with
    | none => exact .inr (.inl rfl)
    | some kind =>
      obtain ⟨tag, _, made⟩ := Option.bind_eq_some_iff.mp found
      obtain ⟨spelled, rfl⟩ := of_ofTag? made
      exact .inr (.inr ⟨tag, spelled, rfl⟩)

/-- A word is no directive. -/
theorem isDirective_ofWord (text : String) : (ofWord text).isDirective = false := by
  obtain same | same | ⟨tag, spelled, same⟩ := ofWord_cases text <;> rw [same] <;> rfl

/-- A word is not a tag without a spelling, names apart. -/
theorem tag_ofWord_ne (text : String) {tag : Tag} (bare : tag.spelling? = none)
    (notConstant : tag ≠ .constant) (notIdentifier : tag ≠ .identifier) :
    (ofWord text).tag ≠ tag := by
  obtain same | same | ⟨other, spelled, same⟩ := ofWord_cases text <;> rw [same]
  · exact notConstant.symm
  · exact notIdentifier.symm
  · rintro rfl
    rw [TokenKind.tag] at bare
    rw [bare] at spelled
    contradiction

/-- A mark is a tag with a spelling. -/
theorem of_mark? {text : String} {kind : TokenKind String} (found : mark? text = some kind) :
    ∃ tag spelled, kind = .fixed tag spelled := by
  obtain ⟨tag, _, made⟩ := Option.bind_eq_some_iff.mp found
  obtain ⟨spelled, rfl⟩ := of_ofTag? made
  exact ⟨tag, spelled, rfl⟩

end TokenKind

namespace Content

/-- A mark is a token with a spelling, or a character that starts none. -/
theorem mark_cases (first : Char) (rest : List Char) :
    (∃ tag spelled, (mark first rest).1 = .token (.fixed tag spelled)) ∨
      (mark first rest).1 = .unrecognized first := by
  unfold mark
  split
  · next kind found =>
    obtain ⟨_, _, made⟩ := Option.bind_eq_some_iff.mp found
    obtain ⟨tag, spelled, rfl⟩ := TokenKind.of_mark? made
    exact .inl ⟨tag, spelled, rfl⟩
  · split
    · next kind found =>
      obtain ⟨tag, spelled, rfl⟩ := TokenKind.of_mark? found
      exact .inl ⟨tag, spelled, rfl⟩
    · exact .inr rfl

/-- Content that is neither a symbol nor the end of the text. -/
def IsOrdinary (content : Content) : Prop :=
  content ≠ .token .endOfInput ∧ ∀ name, content ≠ .token (.symbol name)

/-- What reading promises: no token is the end of the text, and a symbol is a colon with the
name that follows it. -/
structure Fits (first : Char) (rest : List Char) (result : Content × Nat) : Prop where
  /-- The content is not the end of the text. -/
  notEnd : result.1 ≠ .token .endOfInput
  /-- A symbol is read from a colon and its name. -/
  symbol : ∀ name, result.1 = .token (.symbol name) →
    first = ':' ∧ name.toList ≠ [] ∧ rest.take result.2 = name.toList

/-- Nothing is promised about the characters of ordinary content. -/
theorem IsOrdinary.fits {first : Char} {rest : List Char} {result : Content × Nat}
    (ordinary : result.1.IsOrdinary) : Fits first rest result :=
  ⟨ordinary.1, fun name same => absurd same (ordinary.2 name)⟩

/-- A character that starts a name can go on with one. -/
theorem isWordChar_of_isWordStart {char : Char} (start : isWordStart char = true) :
    isWordChar char = true := by
  simp only [isWordStart, isWordChar, Char.isAlphanum, Bool.or_eq_true] at start ⊢
  rcases start with alpha | line
  · exact .inl (.inl alpha)
  · exact .inr line

/-- A keyword, an operator or a punctuation mark is ordinary. -/
theorem isOrdinary_fixed (tag : Tag) (spelled : tag.spelling?.isSome = true) :
    IsOrdinary (.token (.fixed tag spelled)) := by
  simp [IsOrdinary]

/-- A word is ordinary. -/
theorem isOrdinary_ofWord (text : String) : IsOrdinary (.token (.ofWord text)) := by
  obtain same | same | ⟨tag, spelled, same⟩ := TokenKind.ofWord_cases text <;>
    simp [same, IsOrdinary]

/-- Digits are ordinary. -/
theorem isOrdinary_integer (digits : List Char) : (number.integer digits).1.IsOrdinary := by
  simp only [number.integer]
  split <;> simp [IsOrdinary]

/-- A number is ordinary. -/
theorem isOrdinary_number (first : Char) (rest : List Char) :
    (number first rest).1.IsOrdinary := by
  simp only [number]
  split
  · split
    · simp [IsOrdinary]
    · exact isOrdinary_integer _
  · exact isOrdinary_integer _

/-- A comment is ordinary. -/
theorem isOrdinary_hash (first : Char) (rest : List Char) : (hash first rest).1.IsOrdinary := by
  simp only [hash]
  split <;> simp [IsOrdinary]

/-- A variable is ordinary. -/
theorem isOrdinary_sigil (rest : List Char) : (sigil rest).1.IsOrdinary := by
  simp only [sigil]
  split
  · split <;> simp [IsOrdinary]
  · simp [IsOrdinary]

/-- A mark is ordinary. -/
theorem isOrdinary_mark (first : Char) (rest : List Char) : (mark first rest).1.IsOrdinary := by
  obtain ⟨tag, spelled, same⟩ | same := mark_cases first rest <;> rw [same]
  · exact isOrdinary_fixed tag spelled
  · simp [IsOrdinary]

/-- A colon is a symbol only with the name that follows it. -/
theorem fits_colon (before : Option Char) (rest : List Char) :
    Fits ':' rest (colon before rest) := by
  unfold colon
  split
  · exact (isOrdinary_fixed .colon rfl).fits
  · next named =>
    simp only [Bool.or_eq_true, not_or, Bool.not_eq_true, Bool.not_eq_false'] at named
    refine ⟨by simp, fun name same => ?_⟩
    simp only [Content.token.injEq, TokenKind.symbol.injEq] at same
    rw [← same, String.toList_ofList]
    refine ⟨rfl, ?_, (List.prefix_iff_eq_take.mp (List.takeWhile_prefix isWordChar)).symm⟩
    cases rest with
    | nil => simp at named
    | cons char rest =>
      have start : isWordStart char = true := by simpa using named.2
      simp [isWordChar_of_isWordStart start]

/-- What is read in code keeps the promise. -/
theorem fits_inCode (before : Option Char) (first : Char) (rest : List Char) :
    Fits first rest (inCode before first rest) := by
  unfold inCode
  split
  · exact IsOrdinary.fits (by simp [IsOrdinary])
  split
  · exact (isOrdinary_hash first rest).fits
  split
  · exact (isOrdinary_ofWord _).fits
  split
  · exact (isOrdinary_ofWord _).fits
  split
  · exact (isOrdinary_number first rest).fits
  split
  · exact IsOrdinary.fits (by simp [IsOrdinary])
  split
  · exact (isOrdinary_sigil rest).fits
  split
  · next isColon =>
    rw [beq_iff_eq] at isColon
    exact isColon ▸ fits_colon before rest
  · exact (isOrdinary_mark first rest).fits

/-- What is read in a string literal is ordinary. -/
theorem isOrdinary_inString (first : Char) (rest : List Char) :
    (inString first rest).1.IsOrdinary := by
  unfold inString
  split
  · simp [IsOrdinary]
  split
  · split
    · simp [IsOrdinary]
    · split <;> simp [IsOrdinary]
  · simp [IsOrdinary]

/-- What is read keeps the promise. -/
theorem fits_read (mode : Mode) (before : Option Char) (first : Char) (rest : List Char) :
    Fits first rest (read mode before first rest) := by
  cases mode with
  | code => exact fits_inCode before first rest
  | string opening => exact (isOrdinary_inString first rest).fits

end Content

namespace Piece

/-- What is known of a piece by itself in the text that it was cut from. -/
structure Lies (text : List Char) (offset : Nat) (piece : Piece) : Prop where
  /-- Its characters stand in the text at its offset. -/
  within : ∃ before after, text = before ++ piece.text ++ after ∧
    piece.start = offset + Text.byteLength before
  /-- Only the end of an unterminated string is empty. -/
  filled : piece.text = [] → ∃ opening, piece.content = .unterminated opening
  /-- It is not the end of the text. -/
  notEnd : piece.content ≠ .token .endOfInput
  /-- A symbol is a colon with a name. -/
  symbol : ∀ name, piece.content = .token (.symbol name) →
    name.toList ≠ [] ∧ piece.text = ':' :: name.toList

/-- A piece lies in a longer text as well. -/
theorem Lies.cons {char : Char} {rest : List Char} {offset : Nat} {piece : Piece}
    (lies : piece.Lies rest (offset + char.utf8Size)) : piece.Lies (char :: rest) offset := by
  obtain ⟨before, after, whole, start⟩ := lies.within
  refine ⟨⟨char :: before, after, by rw [whole]; rfl, ?_⟩, lies.filled, lies.notEnd,
    lies.symbol⟩
  rw [start, Text.byteLength_cons]
  omega

/-- What holds of everything that is read from a text, and of the end of a string literal that is
left open, holds of every piece. -/
theorem forall_listFrom (property : List Char → Content → Prop)
    (reads : ∀ (mode : Mode) (before : Option Char) (first : Char) (rest : List Char),
      property (first :: rest.take (Content.read mode before first rest).2)
        (Content.read mode before first rest).1)
    (ends : ∀ opening, property [] (.unterminated opening)) (passed : Nat) (mode : Mode)
    (before : Option Char) (offset : Nat) (text : List Char) :
    ∀ piece ∈ listFrom passed mode before offset text, property piece.text piece.content := by
  induction text generalizing passed mode before offset with
  | nil =>
    cases mode with
    | code => exact List.forall_mem_nil _
    | string opening => exact List.forall_mem_singleton.mpr (ends opening)
  | cons char rest ih =>
    cases passed with
    | succ passed => exact ih passed mode _ _
    | zero => exact List.forall_mem_cons.mpr ⟨reads mode before char rest, ih _ _ _ _⟩

/-- Every piece lies in the text that it was cut from. -/
theorem lies_listFrom (passed : Nat) (mode : Mode) (before : Option Char) (offset : Nat)
    (text : List Char) : ∀ piece ∈ listFrom passed mode before offset text,
      piece.Lies text offset := by
  induction text generalizing passed mode before offset with
  | nil =>
    intro piece member
    cases mode with
    | code => simp [listFrom] at member
    | string opening =>
      obtain rfl : piece = ⟨offset, [], .unterminated opening⟩ := by
        simpa [listFrom] using member
      exact ⟨⟨[], [], rfl, rfl⟩, fun _ => ⟨opening, rfl⟩, by simp, by simp⟩
  | cons char rest ih =>
    intro piece member
    cases passed with
    | succ more => exact (ih more _ _ _ piece member).cons
    | zero =>
      rcases List.mem_cons.mp member with rfl | later
      · have fits := Content.fits_read mode before char rest
        have whole := List.take_append_drop (Content.read mode before char rest).2 rest
        refine ⟨⟨[], _, (congrArg (char :: ·) whole).symm, rfl⟩, by simp, fits.notEnd,
          fun name same => ?_⟩
        obtain ⟨rfl, named, taken⟩ := fits.symbol name same
        exact ⟨named, congrArg _ taken⟩
      · exact (ih _ _ _ _ piece later).cons

/-- The pieces of a text start after what was passed over. -/
theorem le_start_listFrom (passed : Nat) (mode : Mode) (before : Option Char) (offset : Nat)
    (text : List Char) : ∀ piece ∈ listFrom passed mode before offset text,
      offset + Text.byteLength (text.take passed) ≤ piece.start := by
  induction text generalizing passed mode before offset with
  | nil =>
    intro piece member
    obtain ⟨before, after, whole, start⟩ := (lies_listFrom _ _ _ _ _ piece member).within
    simp [start]
  | cons char rest ih =>
    intro piece member
    cases passed with
    | succ more =>
      have later := ih more _ _ _ piece member
      rw [List.take_succ_cons, Text.byteLength_cons]
      omega
    | zero =>
      obtain ⟨before, after, whole, start⟩ := (lies_listFrom _ _ _ _ _ piece member).within
      simp [start]

/-- One piece ends before another starts, and it is not empty. -/
def Precedes (left right : Piece) : Prop := left.span.stop ≤ right.start ∧ left.text ≠ []

/-- The pieces of a text follow each other. -/
theorem pairwise_listFrom (passed : Nat) (mode : Mode) (before : Option Char) (offset : Nat)
    (text : List Char) : (listFrom passed mode before offset text).Pairwise Precedes := by
  induction text generalizing passed mode before offset with
  | nil => cases mode <;> simp [listFrom]
  | cons char rest ih =>
    cases passed with
    | succ more => exact ih more _ _ _
    | zero =>
      refine List.pairwise_cons.mpr ⟨fun piece member => ⟨?_, by simp⟩, ih _ _ _ _⟩
      have later := le_start_listFrom _ _ _ _ _ piece member
      simp only [span, Text.byteLength_cons]
      omega

/-- The token that a piece is, if it is one. -/
def token? (piece : Piece) : Option (Token String) :=
  piece.kind?.map fun kind => ⟨kind, piece.span⟩

/-- The tokens of pieces. -/
def tokens (pieces : List Piece) : List (Token String) := pieces.filterMap token?

/-- A piece that is no token leaves the tokens of those after it. -/
theorem tokens_skip {piece : Piece} (isKind : piece.kind? = none) (rest : List Piece) :
    tokens (piece :: rest) = tokens rest := by
  simp [tokens, token?, isKind]

/-- The token that a piece is read as comes before those of the pieces after it. -/
theorem tokens_cons {piece : Piece} {kind : TokenKind String} (isKind : piece.kind? = some kind)
    (rest : List Piece) : tokens (piece :: rest) = ⟨kind, piece.span⟩ :: tokens rest := by
  simp [tokens, token?, isKind]

/-- Text that is not empty has a length. -/
theorem byteLength_pos {text : List Char} (filled : text ≠ []) : 0 < Text.byteLength text := by
  cases text with
  | nil => contradiction
  | cons char rest =>
    have positive := char.utf8Size_pos
    rw [Text.byteLength_cons]
    omega

/-- The text under a span in the middle. -/
theorem slice_middle {source before middle after : List Char}
    (whole : source = before ++ middle ++ after) {start stop : Nat}
    (starts : start = Text.byteLength before) (stops : stop = start + Text.byteLength middle) :
    Text.slice source ⟨start, stop⟩ = middle := by
  subst whole starts stops
  rw [Text.slice, Text.slice?_middle]
  rfl

/-- The token of a piece stands in its text. -/
theorem stands_token {source : List Char} {piece : Piece} (lies : piece.Lies source 0)
    {token : Token String} (read : piece.token? = some token) : token.Stands source := by
  obtain ⟨kind, isKind, rfl⟩ := Option.map_eq_some_iff.mp read
  obtain ⟨before, after, whole, start⟩ := lies.within
  have length := congrArg Text.byteLength whole
  simp only [Text.byteLength_append] at length
  refine ⟨by simp [span], by simp only [span]; omega, fun isDirective => ?_, fun name same => ?_,
    fun isEnd => ?_⟩
  · have filled : piece.text ≠ [] := by
      intro empty
      obtain ⟨opening, content⟩ := lies.filled empty
      simp only [kind?, content, Option.some.injEq] at isKind
      subst isKind
      contradiction
    have := byteLength_pos filled
    simp only [span]
    omega
  · dsimp only at same
    subst same
    have content : piece.content = .token (.symbol name) := by
      unfold kind? at isKind
      split at isKind <;> simp_all
    obtain ⟨named, text⟩ := lies.symbol name content
    have positive := byteLength_pos named
    have size : Text.byteLength piece.text = 1 + Text.byteLength name.toList := by
      rw [text]
      rfl
    refine ⟨by simp only [span]; omega, ?_⟩
    have split : source = (before ++ [':']) ++ name.toList ++ after := by
      rw [whole, text]
      simp
    have colon : Text.byteLength [':'] = 1 := rfl
    apply slice_middle split
    · simp only [span, start, Text.byteLength_append]
      omega
    · simp only [span]
      omega
  · dsimp only at isEnd
    subst isEnd
    have notEnd := lies.notEnd
    unfold kind? at isKind
    split at isKind <;> simp_all

/-- The tokens of a source text stand in it. -/
theorem stands_of_mem_tokens {source : List Char} {token : Token String}
    (member : token ∈ tokens (list source)) : token.Stands source := by
  obtain ⟨piece, inside, read⟩ := List.mem_filterMap.mp member
  exact stands_token (lies_listFrom _ _ _ _ _ piece inside) read

/-- The tokens of a source text follow each other. -/
theorem pairwise_tokens (source : List Char) :
    (tokens (list source)).Pairwise Token.Precedes := by
  refine List.Pairwise.filterMap token? ?_ (pairwise_listFrom 0 .code none 0 source)
  intro left right precedes first readFirst second readSecond
  obtain ⟨_, _, rfl⟩ := Option.map_eq_some_iff.mp readFirst
  obtain ⟨_, _, rfl⟩ := Option.map_eq_some_iff.mp readSecond
  obtain ⟨apart, filled⟩ := precedes
  have positive := byteLength_pos filled
  simp only [span] at apart
  refine ⟨apart, ?_⟩
  simp only [span]
  omega

end Piece

end Vibescript
