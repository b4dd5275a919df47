import Mathlib.Data.List.Chain
import Vibescript.Proofs.Cursor.Consumption

/-!
# Tokens of string literals

The pieces of a string literal and its closing quotation mark follow directly on the tokens of
the same literal. This and the width of tokens are kept while a parse takes tokens, also when it
splits a symbol; so a parse that is outside a literal stays outside until it opens one.
-/
namespace Vibescript

namespace Tag

/-- Whether a tag stands only inside a string literal. -/
def isQuoted : Tag → Bool
  | stringContent | stringEscape | stringClose => true
  | _ => false

/-- Whether a string literal goes on after a tag. -/
def quotes : Tag → Bool
  | stringOpen | stringContent | stringEscape => true
  | _ => false

/-- Whether a tag stands outside string literals and is that of a token that is not empty. -/
def isWhole (tag : Tag) : Bool := !(tag.isQuoted || tag.quotes || tag == .endOfInput)

/-- A tag with a spelling stands outside string literals. -/
theorem isQuoted_of_spelling {tag : Tag} (spelled : tag.spelling?.isSome = true) :
    tag.isQuoted = false := by
  cases tag <;> first | rfl | contradiction

end Tag

namespace Content

/-- Content that can be read outside string literals. -/
structure IsCode (content : Content) : Prop where
  /-- A token stands outside string literals. -/
  token : ∀ kind, content = .token kind → kind.tag.isQuoted = false
  /-- It is no escape. -/
  escape : ∀ char, content ≠ .invalidEscape char
  /-- It is not the end of a literal. -/
  closing : ∀ opening, content ≠ .unterminated opening

/-- A token outside string literals. -/
theorem isCode_token {kind : TokenKind String} (outside : kind.tag.isQuoted = false) :
    IsCode (.token kind) :=
  ⟨fun _ same => Content.token.inj same ▸ outside, nofun, nofun⟩

/-- Separators stand outside string literals. -/
theorem isCode_blank : IsCode .blank := ⟨nofun, nofun, nofun⟩

/-- A comment that is no directive stands outside string literals. -/
theorem isCode_comment : IsCode .comment := ⟨nofun, nofun, nofun⟩

/-- Too large an integer stands outside string literals. -/
theorem isCode_overflow : IsCode .overflow := ⟨nofun, nofun, nofun⟩

/-- A character that starts no token stands outside string literals. -/
theorem isCode_unrecognized (char : Char) : IsCode (.unrecognized char) := ⟨nofun, nofun, nofun⟩

/-- A word stands outside string literals. -/
theorem isCode_ofWord (text : String) : IsCode (.token (.ofWord text)) := by
  obtain same | same | ⟨tag, spelled, same⟩ := TokenKind.ofWord_cases text <;> rw [same]
  · exact isCode_token rfl
  · exact isCode_token rfl
  · exact isCode_token (Tag.isQuoted_of_spelling spelled)

/-- Digits stand outside string literals. -/
theorem isCode_integer (digits : List Char) : (number.integer digits).1.IsCode := by
  simp only [number.integer]
  split
  · exact isCode_token rfl
  · exact isCode_overflow

/-- A number stands outside string literals. -/
theorem isCode_number (first : Char) (rest : List Char) : (number first rest).1.IsCode := by
  simp only [number]
  split
  · split
    · exact isCode_token rfl
    · exact isCode_integer _
  · exact isCode_integer _

/-- A comment stands outside string literals. -/
theorem isCode_hash (first : Char) (rest : List Char) : (hash first rest).1.IsCode := by
  simp only [hash]
  split
  · exact isCode_token rfl
  · exact isCode_token rfl
  · exact isCode_comment

/-- A variable stands outside string literals. -/
theorem isCode_sigil (rest : List Char) : (sigil rest).1.IsCode := by
  simp only [sigil]
  split
  · split
    · exact isCode_token rfl
    · exact isCode_token rfl
  · exact isCode_unrecognized _

/-- A colon, with or without a name, stands outside string literals. -/
theorem isCode_colon (before : Option Char) (rest : List Char) : (colon before rest).1.IsCode := by
  unfold colon
  split
  · exact isCode_token rfl
  · exact isCode_token rfl

/-- A mark stands outside string literals. -/
theorem isCode_mark (first : Char) (rest : List Char) : (mark first rest).1.IsCode := by
  obtain ⟨tag, spelled, same⟩ | same := mark_cases first rest <;> rw [same]
  · exact isCode_token (Tag.isQuoted_of_spelling spelled)
  · exact isCode_unrecognized _

/-- What is read in code stands outside string literals. -/
theorem isCode_inCode (before : Option Char) (first : Char) (rest : List Char) :
    (inCode before first rest).1.IsCode := by
  unfold inCode
  split
  · exact isCode_blank
  split
  · exact isCode_hash first rest
  split
  · exact isCode_ofWord _
  split
  · exact isCode_ofWord _
  split
  · exact isCode_number first rest
  split
  · exact isCode_token rfl
  split
  · exact isCode_sigil rest
  split
  · exact isCode_colon before rest
  · exact isCode_mark first rest

/-- A token that is read in a string literal closes the literal or lets it go on. -/
theorem quotes_inString (first : Char) (rest : List Char) {kind : TokenKind String}
    (isToken : (inString first rest).1 = .token kind) :
    kind = .stringClose ∨ kind.tag.quotes = true := by
  unfold inString at isToken
  split at isToken
  · exact .inl (Content.token.inj isToken).symm
  split at isToken
  · split at isToken
    · contradiction
    · split at isToken
      · exact .inr (Content.token.inj isToken ▸ rfl)
      · contradiction
  · exact .inr (Content.token.inj isToken ▸ rfl)

/-- No integer is read in a string literal. -/
theorem overflow_ne_inString (first : Char) (rest : List Char) :
    (inString first rest).1 ≠ .overflow := by
  unfold inString
  split
  · nofun
  split
  · split
    · nofun
    · split <;> nofun
  · nofun

end Content

namespace Token

/-- A token of a string literal follows on another of the literal, and no line breaks between
them. -/
def Adjoins (source : List Char) (left right : Token String) : Prop :=
  right.tag.isQuoted = true → left.tag.quotes = true ∧
    '\n' ∉ Text.slice source ⟨left.span.stop, right.span.start⟩

/-- Tokens as they stand in a text. -/
structure Strung (source : List Char) (tokens : List (Token String)) : Prop where
  /-- Only the end of a string literal can be empty. -/
  solid : ∀ token ∈ tokens, token.kind ≠ .stringClose → token.span.start < token.span.stop
  /-- The tokens of a string literal stand together. -/
  quoted : tokens.IsChain (Adjoins source)

end Token

namespace Piece

variable {piece : Piece} {kind : TokenKind String}

/-- A piece that was read in code is no token of a string literal. -/
theorem isQuoted_of_isCode (code : piece.content.IsCode) (isKind : piece.kind? = some kind) :
    kind.tag.isQuoted = false := by
  cases content : piece.content <;> rw [kind?, content] at isKind <;>
    simp only [Option.some.injEq, reduceCtorEq] at isKind <;> subst isKind
  case token kind => exact code.token kind content
  case overflow => rfl
  case invalidEscape char => exact absurd content (code.escape char)
  case unterminated opening => exact absurd content (code.closing opening)

/-- A piece that is no token leaves the rules for the next piece as they are. -/
theorem modeAfter_of_kind?_eq_none (isKind : piece.kind? = none) (offset : Nat) (mode : Mode) :
    piece.content.modeAfter offset mode = mode := by
  cases content : piece.content <;> rw [kind?, content] at isKind <;> first
    | rfl
    | contradiction

/-- A string literal goes on after a token when the rules for string literals apply after it. -/
theorem quotes_of_modeAfter {mode : Mode} {before : Option Char} {first : Char}
    {rest : List Char} {offset : Nat}
    (content : piece.content = (Content.read mode before first rest).1)
    (isKind : piece.kind? = some kind) (inside : piece.content.modeAfter offset mode ≠ .code) :
    kind.tag.quotes = true := by
  cases mode with
  | code =>
    have code : piece.content.IsCode := content ▸ Content.isCode_inCode before first rest
    cases same : piece.content <;> rw [same] at inside <;> try exact absurd rfl inside
    case token other =>
      have isOther : other = kind := by
        rw [kind?, same] at isKind
        exact Option.some.inj isKind
      subst isOther
      cases other <;> first | rfl | exact absurd rfl inside
  | string opening =>
    cases same : piece.content <;> rw [kind?, same] at isKind <;>
      simp only [Option.some.injEq, reduceCtorEq] at isKind <;> subst isKind
    case token other =>
      rw [same] at content inside
      obtain rfl | quotes := Content.quotes_inString first rest content.symm
      · exact absurd rfl inside
      · exact quotes
    case overflow =>
      rw [same] at content
      have ordinary := Content.overflow_ne_inString first rest
      exact absurd content.symm ordinary
    case invalidEscape char => rfl
    case unterminated opening =>
      rw [same] at inside
      exact absurd rfl inside

/-- A piece of a string literal is a token, unless it is the backslash that ends the text. -/
theorem finalBackslash_of_kind?_eq_none {opening : Nat} {before : Option Char} {first : Char}
    {rest : List Char}
    (content : piece.content = (Content.read (.string opening) before first rest).1)
    (isKind : piece.kind? = none) : first = '\\' ∧ rest = [] := by
  change piece.content = (Content.inString first rest).1 at content
  have skipped : ∀ other, piece.content = .token other → False := fun other same => by
    rw [kind?, same] at isKind
    contradiction
  unfold Content.inString at content
  split at content
  · exact absurd content (skipped _)
  split at content
  · next isBackslash =>
    cases rest with
    | nil => exact ⟨beq_iff_eq.mp isBackslash, rfl⟩
    | cons char rest =>
      dsimp only at content
      split at content
      · exact absurd content (skipped _)
      · rw [kind?, content] at isKind
        contradiction
  · exact absurd content (skipped _)

/-- The tokens of a text stand together with those of their string literal. A text that starts in
code does not start inside a literal, and in a text that starts inside one no line breaks before
the first token. -/
theorem isChain_listFrom {source early : List Char} (passed : Nat) (mode : Mode)
    (before : Option Char) (offset : Nat) (text : List Char) (whole : source = early ++ text)
    (starts : offset = Text.byteLength early) :
    (tokens (listFrom passed mode before offset text)).IsChain (Token.Adjoins source) ∧
      (mode = .code → ∀ token ∈ (tokens (listFrom passed mode before offset text)).head?,
        token.tag.isQuoted = false) ∧
      (mode ≠ .code → ∀ token ∈ (tokens (listFrom passed mode before offset text)).head?,
        '\n' ∉ Text.slice source
          ⟨offset + Text.byteLength (text.take passed), token.span.start⟩) := by
  induction text generalizing passed mode before offset early with
  | nil =>
    cases mode with
    | code => exact ⟨.nil, fun _ => nofun, fun inside => absurd rfl inside⟩
    | string opening =>
      refine ⟨.singleton _, nofun, fun _ token isToken => ?_⟩
      obtain rfl := Option.some.inj isToken
      have empty : Text.slice source ⟨offset, offset⟩ = [] :=
        @slice_middle source early [] [] (by simpa using whole) _ _ starts rfl
      simp [span, empty]
  | cons char rest ih =>
    have longer : source = (early ++ [char]) ++ rest := by
      rw [whole]
      simp
    have further : offset + char.utf8Size = Text.byteLength (early ++ [char]) := by
      rw [starts, Text.byteLength_append]
      rfl
    cases passed with
    | succ more =>
      obtain ⟨chain, code, unbroken⟩ := ih more mode (some char) _ longer further
      refine ⟨chain, code, fun inside token isToken => ?_⟩
      have gap := unbroken inside token isToken
      rwa [Nat.add_assoc, ← Text.byteLength_cons, ← List.take_succ_cons] at gap
    | zero =>
      rw [listFrom]
      dsimp only
      generalize isPiece : (⟨offset, char :: rest.take (Content.read mode before char rest).2,
        (Content.read mode before char rest).1⟩ : Piece) = piece
      have content : piece.content = (Content.read mode before char rest).1 := isPiece ▸ rfl
      have begins : piece.span.start = offset := isPiece ▸ rfl
      have stops : piece.span.stop = offset + char.utf8Size +
          Text.byteLength (rest.take (Content.read mode before char rest).2) := by
        rw [← isPiece, span, Text.byteLength_cons, Nat.add_assoc]
      obtain ⟨chain, code, unbroken⟩ := ih (Content.read mode before char rest).2
        (piece.content.modeAfter offset mode) (some char) (offset + char.utf8Size) longer further
      rw [← content]
      generalize isLater : listFrom (Content.read mode before char rest).2
        (piece.content.modeAfter offset mode) (some char) (offset + char.utf8Size) rest = later
        at chain code unbroken ⊢
      cases isKind : piece.kind? with
      | none =>
        have same := modeAfter_of_kind?_eq_none isKind offset mode
        rw [same] at code
        rw [tokens_skip isKind]
        refine ⟨chain, code, fun inside token isToken => ?_⟩
        cases mode with
        | code => exact absurd rfl inside
        | string opening =>
          obtain ⟨rfl, rfl⟩ := finalBackslash_of_kind?_eq_none content isKind
          rw [same] at isLater
          subst isLater
          obtain rfl := Option.some.inj isToken
          have gap : Text.slice source ⟨offset, offset + 1⟩ = ['\\'] :=
            @slice_middle source early ['\\'] [] (by simpa using whole) _ _ starts rfl
          simp [span, gap, Char.utf8Size]
      | some kind =>
        rw [tokens_cons isKind]
        refine ⟨chain.cons fun next isNext inside => ?_, fun outside token isToken => ?_,
          fun _ token isToken => ?_⟩
        · by_cases after : piece.content.modeAfter offset mode = .code
          · rw [code after next isNext] at inside
            contradiction
          · refine ⟨quotes_of_modeAfter content isKind after, ?_⟩
            have gap := unbroken after next isNext
            rwa [← stops] at gap
        · obtain rfl := Option.some.inj isToken
          subst outside
          exact isQuoted_of_isCode (content ▸ Content.isCode_inCode before char rest) isKind
        · obtain rfl := Option.some.inj isToken
          have empty : Text.slice source ⟨offset, offset⟩ = [] :=
            @slice_middle source early [] (char :: rest) (by simpa using whole) _ _ starts rfl
          simp [begins, empty]

end Piece

namespace Token

/-- The tokens of a source text stand as they do in a text. -/
theorem Strung.of_source (source : List Char) : Strung source (Piece.tokens (Piece.list source)) := by
  refine ⟨fun token member other => ?_,
    (@Piece.isChain_listFrom source [] 0 .code none 0 source rfl rfl).1⟩
  obtain ⟨piece, inside, read⟩ := List.mem_filterMap.mp member
  obtain ⟨kind, isKind, rfl⟩ := Option.map_eq_some_iff.mp read
  have lies := Piece.lies_listFrom 0 .code none 0 source piece inside
  have filled : piece.text ≠ [] := by
    intro empty
    obtain ⟨opening, content⟩ := lies.filled empty
    rw [Piece.kind?, content] at isKind
    exact other (Option.some.inj isKind).symm
  have positive := Piece.byteLength_pos filled
  simp only [Piece.span]
  omega

variable {source : List Char} {tokens taken rest : List (Token String)}

/-- Tokens that are left stand as before. -/
theorem Strung.of_append {before : List (Token String)}
    (strung : Strung source (before ++ tokens)) : Strung source tokens :=
  ⟨fun token member => strung.solid token (List.mem_append_right _ member),
    strung.quoted.right_of_append⟩

/-- The tokens after the first stand as before. -/
theorem Strung.tail {token : Token String} (strung : Strung source (token :: tokens)) :
    Strung source tokens :=
  @of_append source tokens [token] strung

/-- The halves of a symbol stand in its place. -/
theorem Strung.split {before : List (Token String)} {name : String} {span : Span}
    (line : InLine source (before ++ ⟨.symbol name, span⟩ :: rest))
    (strung : Strung source (before ++ ⟨.symbol name, span⟩ :: rest)) :
    Strung source (before ++ .colonOf span :: .wordOf name span :: rest) := by
  obtain ⟨early, late, joins⟩ := List.isChain_append.mp strung.quoted
  obtain ⟨next, chain⟩ := List.isChain_cons.mp late
  have stands := line.stands ⟨.symbol name, span⟩ (by simp)
  have wide := (stands.symbol name rfl).1
  have outside : (Token.wordOf name span).tag.isQuoted = false :=
    Content.isCode_ofWord name |>.token _ rfl
  refine ⟨fun token member other => ?_, early.append (.cons_cons ?_ (chain.cons ?_)) ?_⟩
  · rcases List.mem_append.mp member with old | new
    · exact strung.solid token (List.mem_append_left _ old) other
    · simp only [List.mem_cons] at new
      rcases new with rfl | rfl | old
      · exact Nat.lt_succ_self _
      · exact wide
      · exact strung.solid token (by simp [old]) other
  · intro inside
    rw [outside] at inside
    contradiction
  · intro other isNext inside
    exact absurd (next other isNext inside) (by simp [Tag.quotes, Token.tag, TokenKind.tag])
  · intro last isLast first isFirst inside
    obtain rfl := Option.some.inj isFirst
    contradiction

/-- No string literal goes on after a directive. -/
theorem quotes_of_isDirective {token : Token String} (directive : token.kind.isDirective = true) :
    token.tag.quotes = false := by
  obtain ⟨kind, span⟩ := token
  cases kind <;> first | rfl | contradiction

/-- After a token that no string literal goes on after, and after directives, a token stands
outside string literals. -/
theorem Strung.outside {left right : Token String} {marks : List (Token String)}
    (strung : Strung source (left :: (marks ++ right :: rest)))
    (directive : ∀ mark ∈ marks, mark.kind.isDirective = true) (ends : left.tag.quotes = false) :
    right.tag.isQuoted = false := by
  have chain : (left :: marks ++ right :: rest).IsChain (Adjoins source) := strung.quoted
  obtain ⟨_, _, joins⟩ := List.isChain_append.mp chain
  obtain ⟨last, isLast⟩ : ∃ last, (left :: marks).getLast? = some last :=
    ⟨_, List.getLast?_eq_some_getLast (List.cons_ne_nil left marks)⟩
  have quotes := joins last isLast right rfl
  have none : last.tag.quotes = false := by
    rcases List.mem_cons.mp (List.mem_of_getLast? isLast) with rfl | inside
    · exact ends
    · exact quotes_of_isDirective (directive last inside)
  by_contra inside
  rw [(quotes (Bool.not_eq_false _ ▸ inside)).1] at none
  contradiction

/-- Before a token inside a string literal no line breaks, and no directive stands there. -/
theorem Strung.unbroken {left right : Token String} {marks : List (Token String)}
    (strung : Strung source (left :: (marks ++ right :: rest)))
    (directive : ∀ mark ∈ marks, mark.kind.isDirective = true)
    (inside : right.tag.isQuoted = true) :
    '\n' ∉ Text.slice source ⟨left.span.stop, right.span.start⟩ := by
  cases marks with
  | nil => exact ((List.isChain_cons.mp strung.quoted).1 right rfl inside).2
  | cons mark marks =>
    have outside := strung.tail.outside (fun other member =>
      directive other (List.mem_cons_of_mem _ member))
      (quotes_of_isDirective (directive mark List.mem_cons_self))
    rw [outside] at inside
    contradiction

/-- Without a directive among them, tokens stand as before. -/
theorem Strung.remove {before : List (Token String)} {mark : Token String}
    (directive : mark.kind.isDirective = true)
    (strung : Strung source (before ++ mark :: tokens)) : Strung source (before ++ tokens) := by
  obtain ⟨early, late, _⟩ := List.isChain_append.mp strung.quoted
  obtain ⟨next, chain⟩ := List.isChain_cons.mp late
  refine ⟨fun token member => strung.solid token ?_, early.append chain ?_⟩
  · rw [List.mem_append] at member ⊢
    exact member.imp_right (List.mem_cons_of_mem _)
  · intro last isLast first isFirst inside
    have quotes := (next first isFirst inside).1
    rw [quotes_of_isDirective directive] at quotes
    contradiction

/-- Tokens that are taken and those that are left stand as before, after others. -/
theorem Strung.append_consumes {before : List (Token String)} (consumes : Consumes tokens taken rest)
    (line : InLine source (before ++ tokens)) (strung : Strung source (before ++ tokens)) :
    Strung source (before ++ (taken ++ rest)) := by
  induction consumes generalizing before with
  | done => exact strung
  | @take token others _ _ _ ih =>
    have moved : before ++ token :: others = before ++ [token] ++ others := by simp
    rw [moved] at line strung
    have whole := ih line strung
    rwa [List.append_assoc] at whole
  | demote directive _ ih =>
    obtain ⟨first, second, apart⟩ := InLine.append_iff.mp line
    refine ih (InLine.append_iff.mpr ⟨first, (InLine.cons_iff.mp second).2.2, ?_⟩)
      (strung.remove directive)
    exact fun left early right late => apart left early right (List.mem_cons_of_mem _ late)
  | @split name span directives others _ _ _ _ ih =>
    rw [← List.append_assoc] at line strung
    have halves := @ih before
    rw [← List.append_assoc] at halves
    exact halves (InLine.split_symbol_after line) (Strung.split line strung)

/-- What is left of tokens stands as before, wherever a parse stops. -/
theorem Strung.consumes (consumes : Consumes tokens taken rest) (line : InLine source tokens)
    (strung : Strung source tokens) : Strung source rest := by
  have whole : Strung source (taken ++ rest) :=
    @append_consumes source tokens taken rest [] consumes line strung
  exact whole.of_append

/-- The first ordinary token of a list, if there is one, has one of some tags. -/
def Opens (tags : Tag → Prop) (tokens : List (Token String)) : Prop :=
  ∀ token ∈ (ordinary tokens).head?, tags token.tag

/-- When nothing is taken, what is left begins as the whole did or with the colon of a symbol; and
so does what is taken when it begins with no directive. -/
theorem Opens.consumes {tags : Tag → Prop} (opens : Opens tags tokens) (colon : tags .colon)
    (consumes : Consumes tokens taken rest) :
    (taken = [] → Opens tags rest) ∧
      ∀ first ∈ taken.head?, first.kind.isDirective = false → tags first.tag := by
  induction consumes with
  | done => exact ⟨fun _ => opens, nofun⟩
  | take =>
    refine ⟨nofun, fun first isFirst plain => ?_⟩
    obtain rfl := Option.some.inj isFirst
    exact opens _ (by rw [ordinary_cons plain]; rfl)
  | demote directive _ ih =>
    rw [Opens, ordinary_cons_directive directive] at opens
    exact ih opens
  | split directives _ ih =>
    refine ih fun token isToken => ?_
    rw [ordinary_append, ordinary_eq_nil directives, List.nil_append, ordinary_cons rfl] at isToken
    obtain rfl := Option.some.inj isToken
    exact colon

/-- A source text begins outside string literals. -/
theorem Opens.of_source (source : List Char) :
    Opens (fun tag => tag.isQuoted = false) (Piece.tokens (Piece.list source)) := by
  intro token isToken
  obtain ⟨others, ordinary⟩ := List.head?_eq_some_iff.mp isToken
  obtain ⟨marks, after, whole, directive, _, _⟩ := ordinary_eq_cons ordinary
  have code := (@Piece.isChain_listFrom source [] 0 .code none 0 source rfl rfl).2.1 rfl
  have strung := Strung.of_source source
  rw [Piece.list] at whole strung
  rw [whole] at code strung
  cases marks with
  | nil => exact code token rfl
  | cons mark marks =>
    exact strung.outside (fun other member => directive other (List.mem_cons_of_mem _ member))
      (quotes_of_isDirective (directive mark List.mem_cons_self))

end Token

end Vibescript
