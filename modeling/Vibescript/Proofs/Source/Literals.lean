import Vibescript.Proofs.Source.Quotation
import Vibescript.Proofs.Source.Stream

/-!
# String literals are closed

In code no piece of a string literal is read, and in a string literal nothing else is: the literal
goes on until it is closed, at the latest where the text ends. `Token.Closes` says so of the tokens
that are left inside or outside a literal, and it is kept while a parse takes tokens.
-/
namespace Vibescript

/-- Tags among which every string literal that is opened goes on with its pieces until it is closed,
and pieces stand nowhere else. -/
inductive Tag.Literals : List Tag → Prop
  /-- There is nothing. -/
  | nil : Literals []
  /-- A token outside string literals. -/
  | plain {tag : Tag} {rest : List Tag} (outside : tag.isQuoted = false) (other : tag ≠ .stringOpen)
      (more : Literals rest) : Literals (tag :: rest)
  /-- A string literal. -/
  | literal {pieces rest : List Tag}
      (inside : ∀ tag ∈ pieces, tag = .stringContent ∨ tag = .stringEscape) (more : Literals rest) :
      Literals (.stringOpen :: (pieces ++ .stringClose :: rest))

/-- A string literal goes on after its quotation mark and after its pieces. -/
theorem Tag.eq_stringOpen {tag : Tag} (outside : tag.isQuoted = false) (quotes : tag.quotes = true) :
    tag = .stringOpen := by
  cases tag <;> first | rfl | contradiction

/-- A token that is read in a string literal belongs to it. -/
theorem Content.isQuoted_inString (first : Char) (rest : List Char) {kind : TokenKind String}
    (isToken : (inString first rest).1 = .token kind) : kind.tag.isQuoted = true := by
  unfold inString at isToken
  split at isToken
  · exact Content.token.inj isToken ▸ rfl
  split at isToken
  · split at isToken
    · contradiction
    · split at isToken
      · exact Content.token.inj isToken ▸ rfl
      · contradiction
  · exact Content.token.inj isToken ▸ rfl

namespace Piece

variable {piece : Piece} {kind : TokenKind String} {mode : Mode} {before : Option Char}
  {first : Char} {rest : List Char} {offset : Nat}

/-- The tokens of a string literal are those that are read by the rules for them. -/
theorem isQuoted_iff (content : piece.content = (Content.read mode before first rest).1)
    (isKind : piece.kind? = some kind) : kind.tag.isQuoted = true ↔ mode ≠ .code := by
  cases mode with
  | code =>
    have outside := isQuoted_of_isCode (content ▸ Content.isCode_inCode before first rest) isKind
    rw [outside]
    exact ⟨nofun, fun inside => absurd rfl inside⟩
  | string opening =>
    refine ⟨nofun, fun _ => ?_⟩
    change piece.content = (Content.inString first rest).1 at content
    cases same : piece.content <;> rw [kind?, same] at isKind <;>
      simp only [Option.some.injEq, reduceCtorEq] at isKind <;> subst isKind
    case token other =>
      exact Content.isQuoted_inString first rest (content.symm.trans same)
    case overflow =>
      exact absurd (content.symm.trans same) (Content.overflow_ne_inString first rest)
    case invalidEscape char => rfl
    case unterminated opening => rfl

/-- The rules for string literals apply just after the tokens that a literal goes on after. -/
theorem quotes_iff (content : piece.content = (Content.read mode before first rest).1)
    (isKind : piece.kind? = some kind) :
    kind.tag.quotes = true ↔ piece.content.modeAfter offset mode ≠ .code := by
  refine ⟨fun quotes code => ?_, quotes_of_modeAfter content isKind⟩
  have quoted := isQuoted_iff content isKind
  cases same : piece.content <;> rw [kind?, same] at isKind <;>
    simp only [Option.some.injEq, reduceCtorEq] at isKind <;> subst isKind <;> rw [same] at code
  case token kind =>
    by_cases opens : kind = .stringOpen
    · subst opens
      contradiction
    · by_cases closes : kind = .stringClose
      · subst closes
        contradiction
      · -- Any other token leaves the rules as they were.
        have stays : (Content.token kind).modeAfter offset mode = mode := by
          cases kind <;> first | rfl | exact absurd rfl opens | exact absurd rfl closes
        rw [stays] at code
        have outside : kind.tag.isQuoted = false := by
          by_contra inside
          exact quoted.mp (Bool.not_eq_false _ ▸ inside) code
        exact opens (TokenKind.eq_stringOpen (Tag.eq_stringOpen outside quotes))
  case overflow => contradiction
  case invalidEscape char => exact quoted.mp rfl code
  case unterminated opening => contradiction

end Piece

namespace Token

/-- Of tokens that are left inside or outside a string literal, each stands where it belongs, and a
literal is closed before they end. -/
def Closes : Bool → List (Token String) → Prop
  | inside, [] => inside = false
  | inside, token :: rest => token.tag.isQuoted = inside ∧ Closes token.tag.quotes rest

/-- The tokens of a text close the literal that it starts in, if any, and all others. -/
theorem closes_listFrom {inside : Bool} (passed : Nat) (mode : Mode) (before : Option Char)
    (offset : Nat) (text : List Char) (starts : inside = true ↔ mode ≠ .code) :
    Closes inside (Piece.tokens (Piece.listFrom passed mode before offset text)) := by
  induction text generalizing passed mode before offset inside with
  | nil =>
    cases mode with
    | code => exact Bool.eq_false_iff.mpr fun isInside => starts.mp isInside rfl
    | string opening => exact ⟨(starts.mpr nofun).symm, rfl⟩
  | cons char rest ih =>
    cases passed with
    | succ more => exact ih more mode (some char) _ starts
    | zero =>
      rw [Piece.listFrom]
      dsimp only
      generalize isPiece : (⟨offset, char :: rest.take (Content.read mode before char rest).2,
        (Content.read mode before char rest).1⟩ : Piece) = piece
      have content : piece.content = (Content.read mode before char rest).1 := isPiece ▸ rfl
      rw [← content]
      cases isKind : piece.kind? with
      | none =>
        rw [Piece.tokens_skip isKind, Piece.modeAfter_of_kind?_eq_none isKind]
        exact ih _ mode (some char) _ starts
      | some kind =>
        rw [Piece.tokens_cons isKind]
        have quoted := (Piece.isQuoted_iff content isKind).trans starts.symm
        exact ⟨Bool.eq_iff_iff.mpr quoted, ih _ _ (some char) _ (Piece.quotes_iff content isKind)⟩

/-- The tokens of a source text close their string literals. -/
theorem Closes.of_source (source : List Char) :
    Closes false (Piece.tokens (Piece.list source)) :=
  closes_listFrom 0 .code none 0 source ⟨nofun, fun inside => absurd rfl inside⟩

variable {inside : Bool} {whole taken rest : List (Token String)} {token : Token String}

/-- After tokens that close their string literals, others follow outside of them. -/
theorem Closes.append {tokens others : List (Token String)} (closes : Closes inside tokens)
    (more : Closes false others) : Closes inside (tokens ++ others) := by
  induction tokens generalizing inside with
  | nil => exact closes ▸ more
  | cons token tokens ih => exact ⟨closes.1, ih closes.2⟩

/-- A directive stands outside string literals. -/
theorem isQuoted_of_isDirective (directive : token.kind.isDirective = true) :
    token.tag.isQuoted = false := by
  obtain ⟨kind, span⟩ := token
  cases kind <;> first | rfl | contradiction

/-- Directives leave tokens where they are. -/
theorem Closes.append_iff {marks : List (Token String)}
    (directive : ∀ mark ∈ marks, mark.kind.isDirective = true) :
    Closes inside (marks ++ rest) ↔ (marks ≠ [] → inside = false) ∧ Closes inside rest := by
  induction marks generalizing inside with
  | nil => exact ⟨fun closes => ⟨nofun, closes⟩, And.right⟩
  | cons mark marks ih =>
    have isMark := directive mark List.mem_cons_self
    rw [List.cons_append, Closes, isQuoted_of_isDirective isMark, quotes_of_isDirective isMark,
      ih fun other member => directive other (List.mem_cons_of_mem _ member)]
    constructor
    · rintro ⟨rfl, -, closes⟩
      exact ⟨fun _ => rfl, closes⟩
    · rintro ⟨outside, closes⟩
      obtain rfl := outside (List.cons_ne_nil _ _)
      exact ⟨rfl, fun _ => rfl, closes⟩

/-- What is left of tokens closes its string literals. -/
theorem Closes.consumes (consumes : Consumes whole taken rest) (closes : Closes inside whole) :
    ∃ later, Closes later rest := by
  induction consumes generalizing inside with
  | done => exact ⟨inside, closes⟩
  | take _ ih => exact ih closes.2
  | demote directive _ ih =>
    exact ih closes.2
  | @split name span before rest _ _ directive _ ih =>
    obtain ⟨outside, symbol, closes⟩ := (append_iff directive).mp closes
    have word : (wordOf name span).tag.isQuoted = false := Content.isCode_ofWord name |>.token _ rfl
    have ends : (wordOf name span).tag.quotes = false := by
      by_contra quotes
      have opens := Tag.eq_stringOpen word (Bool.not_eq_false _ ▸ quotes)
      exact TokenKind.tag_ofWord_ne name rfl Tag.noConfusion Tag.noConfusion opens
    refine ih ((append_iff directive).mpr ⟨outside, symbol, word, ?_⟩)
    rwa [ends]

/-- In a string literal, its pieces come first, and it is closed after them. -/
theorem Closes.pieces (closes : Closes true rest) : ∃ inside close after,
    rest = inside ++ close :: after ∧ close.tag = .stringClose ∧
      (∀ piece ∈ inside, piece.tag = .stringContent ∨ piece.tag = .stringEscape) ∧
      Closes false after := by
  induction rest with
  | nil => contradiction
  | cons token rest ih =>
    obtain ⟨quoted, closes⟩ := closes
    cases quotes : token.tag.quotes with
    | false =>
      rw [quotes] at closes
      refine ⟨[], token, rest, rfl, ?_, nofun, closes⟩
      revert quoted quotes
      cases token.tag <;> first | exact fun _ _ => rfl | nofun
    | true =>
      rw [quotes] at closes
      obtain ⟨inside, close, after, rfl, isClose, pieces, more⟩ := ih closes
      refine ⟨token :: inside, close, after, rfl, isClose, fun piece member => ?_, more⟩
      rcases List.mem_cons.mp member with rfl | later
      · revert quoted quotes
        cases piece.tag <;> first
          | exact fun _ _ => .inl rfl
          | exact fun _ _ => .inr rfl
          | nofun
      · exact pieces piece later

/-- Tokens outside string literals that close theirs have the tags of such tokens. -/
theorem Closes.literals (tokens : List (Token String)) (closes : Closes false tokens) :
    Tag.Literals (tokens.map Token.tag) := by
  cases tokens with
  | nil => exact .nil
  | cons token rest =>
    obtain ⟨outside, more⟩ := closes
    rw [List.map_cons]
    by_cases opens : token.tag = .stringOpen
    · rw [opens] at more ⊢
      obtain ⟨inside, close, after, rfl, isClose, pieces, closed⟩ := more.pieces
      rw [List.map_append, List.map_cons, isClose]
      refine .literal (fun tag member => ?_) (literals after closed)
      obtain ⟨piece, isPiece, rfl⟩ := List.mem_map.mp member
      exact pieces piece isPiece
    · have ends : token.tag.quotes = false := by
        by_contra quotes
        exact opens (Tag.eq_stringOpen outside (Bool.not_eq_false _ ▸ quotes))
      rw [ends] at more
      exact .plain outside opens (literals rest more)
termination_by tokens.length

/-- In the tokens of a source text, string literals are closed before anything else. -/
theorem literals_lex (source : String) : Tag.Literals ((lex source).tokens.map Token.tag) := by
  have written : (lex source).tokens.map Token.tag = (lex source).written.map Token.tag := by
    simp only [LexOutput.written, List.map_map]
    exact List.map_congr_left fun token _ => (tag_written _ token).symm
  have closes : Closes false (lex source).written := by
    rw [written_lex]
    exact (Closes.of_source source.toList).append ⟨rfl, rfl⟩
  rw [written]
  exact closes.literals

end Token

end Vibescript
