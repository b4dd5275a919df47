import Mathlib.Algebra.GroupWithZero.Nat
import Vibescript.Proofs.Source.Tokens

/-!
# Consuming tokens

`Consumes whole taken rest` says how a parse gets from the tokens `whole` that stand before it
to the tokens `rest`: it takes the tokens `taken` in their order, passes over directives, and
splits symbols into a colon and a name where it needs them. Tokens that stand in a line are
taken in a line.
-/
namespace Vibescript

namespace Token

/-- The colon of a symbol with a span. -/
def colonOf (span : Span) : Token String := ⟨.fixed .colon, ⟨span.start, span.start + 1⟩⟩

/-- The name of a symbol with a span, as a word. -/
def wordOf (name : String) (span : Span) : Token String :=
  ⟨.ofWord name, ⟨span.start + 1, span.stop⟩⟩

/-- The tokens that are no directives. -/
def ordinary (tokens : List (Token String)) : List (Token String) :=
  tokens.filter fun token => !token.kind.isDirective

/-- The tokens that are directives. -/
def directives (tokens : List (Token String)) : List (Token String) :=
  tokens.filter fun token => token.kind.isDirective

/-- Directives have no ordinary token among them. -/
theorem ordinary_eq_nil {tokens : List (Token String)}
    (all : ∀ token ∈ tokens, token.kind.isDirective = true) : ordinary tokens = [] := by
  simpa [ordinary] using all

/-- Directives are their own directives. -/
theorem directives_eq_self {tokens : List (Token String)}
    (all : ∀ token ∈ tokens, token.kind.isDirective = true) : directives tokens = tokens :=
  List.filter_eq_self.mpr all

/-- The ordinary tokens of two lists. -/
theorem ordinary_append (left right : List (Token String)) :
    ordinary (left ++ right) = ordinary left ++ ordinary right := List.filter_append ..

/-- The directives of two lists. -/
theorem directives_append (left right : List (Token String)) :
    directives (left ++ right) = directives left ++ directives right := List.filter_append ..

/-- A directive is not among the ordinary tokens. -/
theorem ordinary_cons_directive {token : Token String}
    (directive : token.kind.isDirective = true) (rest : List (Token String)) :
    ordinary (token :: rest) = ordinary rest := by
  simp [ordinary, directive]

/-- An ordinary token is kept. -/
theorem ordinary_cons {token : Token String} (plain : token.kind.isDirective = false)
    (rest : List (Token String)) : ordinary (token :: rest) = token :: ordinary rest := by
  simp [ordinary, plain]

/-- Both halves of a symbol are kept. -/
theorem ordinary_halves {marks : List (Token String)}
    (directives : ∀ mark ∈ marks, mark.kind.isDirective = true) (name : String) (span : Span)
    (rest : List (Token String)) :
    ordinary (marks ++ colonOf span :: wordOf name span :: rest) =
      colonOf span :: wordOf name span :: ordinary rest := by
  rw [ordinary_append, ordinary_eq_nil directives, List.nil_append, ordinary_cons rfl,
    ordinary_cons (TokenKind.isDirective_ofWord name)]

/-- An ordinary token is no directive. -/
theorem directives_cons {token : Token String} (plain : token.kind.isDirective = false)
    (rest : List (Token String)) : directives (token :: rest) = directives rest := by
  simp [directives, plain]

/-- What stands before the first ordinary token is directives. -/
theorem ordinary_eq_cons {tokens rest : List (Token String)} {token : Token String}
    (found : ordinary tokens = token :: rest) :
    ∃ before after, tokens = before ++ token :: after ∧
      (∀ mark ∈ before, mark.kind.isDirective = true) ∧ token.kind.isDirective = false ∧
      ordinary after = rest := by
  obtain ⟨before, after, whole, marks, plain, more⟩ := List.filter_eq_cons_iff.mp found
  exact ⟨before, after, whole, by simpa using marks, by simpa using plain, more⟩

/-- Tokens that follow each other in a source text. -/
structure InLine (source : List Char) (tokens : List (Token String)) : Prop where
  /-- One ends before the next starts. -/
  ordered : tokens.Pairwise Precedes
  /-- Each stands in the text. -/
  stands : ∀ token ∈ tokens, token.Stands source

namespace InLine

variable {source : List Char} {token : Token String} {tokens others : List (Token String)}

/-- The tokens of a source text stand in a line. -/
theorem of_source (source : List Char) : InLine source (Piece.tokens (Piece.list source)) :=
  ⟨Piece.pairwise_tokens source, fun _ => Piece.stands_of_mem_tokens⟩

/-- A token before a line of tokens. -/
theorem cons_iff : InLine source (token :: tokens) ↔
    (∀ other ∈ tokens, token.Precedes other) ∧ token.Stands source ∧ InLine source tokens := by
  constructor
  · intro line
    obtain ⟨first, rest⟩ := List.pairwise_cons.mp line.ordered
    exact ⟨first, line.stands token List.mem_cons_self,
      rest, fun other member => line.stands other (List.mem_cons_of_mem _ member)⟩
  · rintro ⟨first, stands, rest⟩
    refine ⟨List.pairwise_cons.mpr ⟨first, rest.ordered⟩, fun other member => ?_⟩
    rcases List.mem_cons.mp member with rfl | later
    · exact stands
    · exact rest.stands other later

/-- Tokens in a line before tokens in a line. -/
theorem append_iff : InLine source (tokens ++ others) ↔
    InLine source tokens ∧ InLine source others ∧
      ∀ left ∈ tokens, ∀ right ∈ others, left.Precedes right := by
  constructor
  · intro line
    obtain ⟨first, second, apart⟩ := List.pairwise_append.mp line.ordered
    exact ⟨⟨first, fun other member => line.stands other (List.mem_append_left _ member)⟩,
      ⟨second, fun other member => line.stands other (List.mem_append_right _ member)⟩, apart⟩
  · rintro ⟨first, second, apart⟩
    refine ⟨List.pairwise_append.mpr ⟨first.ordered, second.ordered, apart⟩, fun other member => ?_⟩
    rcases List.mem_append.mp member with early | late
    · exact first.stands other early
    · exact second.stands other late

/-- No token of a line starts before the first. -/
theorem le_start (line : InLine source tokens) {first other : Token String}
    (isFirst : first ∈ tokens.head?) (member : other ∈ tokens) :
    first.span.start ≤ other.span.start := by
  obtain ⟨rest, rfl⟩ := List.head?_eq_some_iff.mp isFirst
  obtain ⟨apart, _, _⟩ := cons_iff.mp line
  rcases List.mem_cons.mp member with rfl | later
  · exact Nat.le_refl _
  · exact Nat.le_of_lt (apart other later).2

/-- No token of a line ends after the last. -/
theorem stop_le (line : InLine source tokens) {last other : Token String}
    (isLast : last ∈ tokens.getLast?) (member : other ∈ tokens) :
    other.span.stop ≤ last.span.stop := by
  obtain ⟨before, rfl⟩ := List.getLast?_eq_some_iff.mp isLast
  obtain ⟨_, _, apart⟩ := append_iff.mp line
  rcases List.mem_append.mp member with early | same
  · have stops := (apart other early last List.mem_cons_self).1
    have ordered := (line.stands last (List.mem_append_right _ List.mem_cons_self)).ordered
    omega
  · obtain rfl := List.mem_singleton.mp same
    exact Nat.le_refl _

/-- Tokens in a line end after they start. -/
theorem start_le_stop (line : InLine source tokens) {first last : Token String}
    (isFirst : first ∈ tokens.head?) (isLast : last ∈ tokens.getLast?) :
    first.span.start ≤ last.span.stop := by
  have member := List.mem_of_getLast? isLast
  exact Nat.le_trans (line.le_start isFirst member) (line.stands last member).ordered

/-- The two halves of a symbol stand where the symbol stood. -/
theorem split_symbol {name : String} {span : Span}
    (line : InLine source (⟨.symbol name, span⟩ :: tokens)) :
    InLine source (colonOf span :: wordOf name span :: tokens) := by
  obtain ⟨first, stands, rest⟩ := cons_iff.mp line
  obtain ⟨wide, _⟩ := stands.symbol name rfl
  have inside := stands.inside
  dsimp only at wide inside
  have word : (wordOf name span).kind = .ofWord name := rfl
  refine cons_iff.mpr ⟨fun other member => ?_, ?_, cons_iff.mpr ⟨fun other member => ?_, ?_, rest⟩⟩
  · rcases List.mem_cons.mp member with rfl | later
    · exact ⟨Nat.le_refl _, Nat.lt_succ_self _⟩
    · obtain ⟨apart, starts⟩ := first other later
      exact ⟨Nat.le_trans (Nat.le_of_lt wide) apart, starts⟩
  · refine ⟨Nat.le_succ _, ?_, ?_, ?_, ?_⟩
    · simp only [colonOf]
      omega
    all_goals simp [colonOf, TokenKind.isDirective]
  · obtain ⟨apart, starts⟩ := first other member
    exact ⟨apart, Nat.lt_of_lt_of_le wide apart⟩
  · obtain same | same | ⟨tag, spelled, same⟩ := TokenKind.ofWord_cases name <;>
      rw [same] at word <;>
      exact ⟨Nat.le_of_lt wide, inside, by simp [word, TokenKind.isDirective], by simp [word],
        by simp [word]⟩

/-- The two halves of a symbol stand where the symbol stood, after other tokens. -/
theorem split_symbol_after {before : List (Token String)} {name : String} {span : Span}
    (line : InLine source (before ++ ⟨.symbol name, span⟩ :: tokens)) :
    InLine source (before ++ colonOf span :: wordOf name span :: tokens) := by
  obtain ⟨first, second, apart⟩ := append_iff.mp line
  refine append_iff.mpr ⟨first, second.split_symbol, fun left early right late => ?_⟩
  have symbol := apart left early _ List.mem_cons_self
  simp only [List.mem_cons] at late
  rcases late with rfl | rfl | late
  · exact symbol
  · exact ⟨Nat.le_succ_of_le symbol.1, Nat.lt_succ_of_lt symbol.2⟩
  · exact apart left early right (List.mem_cons_of_mem _ late)

end InLine

end Token

/-- How a parse gets from some tokens to others. -/
inductive Consumes :
    List (Token String) → List (Token String) → List (Token String) → Prop
  /-- Nothing is taken. -/
  | done (tokens : List (Token String)) : Consumes tokens [] tokens
  /-- The next token is taken. -/
  | take {token : Token String} {rest taken left : List (Token String)}
      (more : Consumes rest taken left) : Consumes (token :: rest) (token :: taken) left
  /-- A directive is passed over. -/
  | demote {token : Token String} {rest taken left : List (Token String)}
      (directive : token.kind.isDirective = true) (more : Consumes rest taken left) :
      Consumes (token :: rest) taken left
  /-- A symbol is split, after directives that still wait. -/
  | split {name : String} {span : Span} {before rest taken left : List (Token String)}
      (directives : ∀ token ∈ before, token.kind.isDirective = true)
      (more : Consumes (before ++ .colonOf span :: .wordOf name span :: rest) taken left) :
      Consumes (before ++ ⟨.symbol name, span⟩ :: rest) taken left

namespace Consumes

variable {source : List Char} {whole middle rest taken more : List (Token String)}

/-- Taking tokens and then others. -/
theorem trans (first : Consumes whole taken middle) (second : Consumes middle more rest) :
    Consumes whole (taken ++ more) rest := by
  induction first with
  | done => exact second
  | take _ ih => exact .take (ih second)
  | demote directive _ ih => exact .demote directive (ih second)
  | split directives _ ih => exact .split directives (ih second)

/-- What holds of tokens and of the halves of symbols holds of the tokens that were taken. -/
theorem forall_taken (property : Token String → Prop) (consumes : Consumes whole taken rest)
    (halves : ∀ name span, property ⟨.symbol name, span⟩ →
      property (.colonOf span) ∧ property (.wordOf name span))
    (holds : ∀ token ∈ whole, property token) : ∀ token ∈ taken, property token := by
  induction consumes with
  | done => nofun
  | take _ ih =>
    intro token member
    rcases List.mem_cons.mp member with rfl | later
    · exact holds token List.mem_cons_self
    · exact ih (fun other inside => holds other (List.mem_cons_of_mem _ inside)) token later
  | demote _ _ ih => exact ih fun other inside => holds other (List.mem_cons_of_mem _ inside)
  | @split name span before rest _ _ _ _ ih =>
    have both := halves name span (holds _ (List.mem_append_right _ List.mem_cons_self))
    refine ih fun other inside => ?_
    rcases List.mem_append.mp inside with early | late
    · exact holds other (List.mem_append_left _ early)
    · rcases List.mem_cons.mp late with rfl | later
      · exact both.1
      · rcases List.mem_cons.mp later with rfl | last
        · exact both.2
        · exact holds other (by simp [last])

/-- What holds of tokens and of the halves of symbols holds of the tokens that are left. -/
theorem forall_left (property : Token String → Prop) (consumes : Consumes whole taken rest)
    (halves : ∀ name span, property ⟨.symbol name, span⟩ →
      property (.colonOf span) ∧ property (.wordOf name span))
    (holds : ∀ token ∈ whole, property token) : ∀ token ∈ rest, property token := by
  induction consumes with
  | done => exact holds
  | take _ ih => exact ih fun other inside => holds other (List.mem_cons_of_mem _ inside)
  | demote _ _ ih => exact ih fun other inside => holds other (List.mem_cons_of_mem _ inside)
  | @split name span before rest _ _ _ _ ih =>
    have both := halves name span (holds _ (List.mem_append_right _ List.mem_cons_self))
    refine ih fun other inside => ?_
    simp only [List.mem_append, List.mem_cons] at inside holds
    rcases inside with early | rfl | rfl | late
    · exact holds other (.inl early)
    · exact both.1
    · exact both.2
    · exact holds other (.inr (.inr late))

/-- Directives are passed over one after another. -/
theorem demote_all {directives : List (Token String)}
    (all : ∀ token ∈ directives, token.kind.isDirective = true)
    (first : Consumes whole taken rest) : Consumes (directives ++ whole) taken rest := by
  induction directives with
  | nil => exact first
  | cons directive others ih =>
    exact .demote (all _ List.mem_cons_self)
      (ih fun token member => all token (List.mem_cons_of_mem _ member))

/-- What is taken of a line stands in a line, before what is left. -/
theorem inLine (consumes : Consumes whole taken rest) (line : Token.InLine source whole) :
    Token.InLine source (taken ++ rest) ∧
      ∀ bound, (∀ token ∈ whole, bound ≤ token.span.start) →
        ∀ token ∈ taken ++ rest, bound ≤ token.span.start := by
  induction consumes with
  | done => exact ⟨line, fun bound above => above⟩
  | @take token rest taken left more ih =>
    obtain ⟨first, stands, tail⟩ := Token.InLine.cons_iff.mp line
    obtain ⟨later, keeps⟩ := ih tail
    constructor
    · have starts := keeps (token.span.start + 1) fun other member => (first other member).2
      have stops := keeps token.span.stop fun other member => (first other member).1
      exact Token.InLine.cons_iff.mpr
        ⟨fun other member => ⟨stops other member, starts other member⟩, stands, later⟩
    · intro bound above other member
      rcases List.mem_cons.mp member with rfl | late
      · exact above _ List.mem_cons_self
      · exact keeps bound (fun other inside => above other (List.mem_cons_of_mem _ inside)) other
          late
  | demote _ more ih =>
    obtain ⟨_, _, tail⟩ := Token.InLine.cons_iff.mp line
    obtain ⟨later, keeps⟩ := ih tail
    exact ⟨later, fun bound above =>
      keeps bound fun other inside => above other (List.mem_cons_of_mem _ inside)⟩
  | @split name span before rest _ _ _ more ih =>
    obtain ⟨later, keeps⟩ := ih line.split_symbol_after
    refine ⟨later, fun bound above => keeps bound fun other member => ?_⟩
    simp only [List.mem_append, List.mem_cons] at above member
    have start := above ⟨.symbol name, span⟩ (.inr (.inl rfl))
    dsimp only at start
    rcases member with early | rfl | rfl | late
    · exact above other (.inl early)
    · exact start
    · exact Nat.le_trans start (Nat.le_succ _)
    · exact above other (.inr (.inr late))

/-- When the first token that is taken is no directive, it starts where the first ordinary token
starts. -/
theorem head_start {first : Token String} (consumes : Consumes whole taken rest)
    (isFirst : first ∈ taken.head?) (plain : first.kind.isDirective = false) :
    ∃ token ∈ (Token.ordinary whole).head?, token.span.start = first.span.start := by
  induction consumes with
  | done => contradiction
  | take =>
    obtain rfl := Option.some.inj isFirst
    rw [Token.ordinary_cons plain]
    exact ⟨_, rfl, rfl⟩
  | demote directive _ ih =>
    rw [Token.ordinary_cons_directive directive]
    exact ih isFirst
  | split directives _ ih =>
    obtain ⟨token, found, starts⟩ := ih isFirst
    rw [Token.ordinary_append, Token.ordinary_eq_nil directives, List.nil_append] at found ⊢
    rw [Token.ordinary_cons rfl] at found ⊢
    obtain rfl := Option.some.inj found
    exact ⟨_, rfl, starts⟩

/-- When the first ordinary token is no symbol and the first token that is taken is no directive,
they are the same. -/
theorem head_eq {first token : Token String} (consumes : Consumes whole taken rest)
    (isFirst : first ∈ taken.head?) (plain : first.kind.isDirective = false)
    (found : token ∈ (Token.ordinary whole).head?) (notSymbol : token.tag ≠ .symbol) :
    first = token := by
  induction consumes with
  | done => contradiction
  | take =>
    obtain rfl := Option.some.inj isFirst
    rw [Token.ordinary_cons plain] at found
    exact Option.some.inj found
  | demote directive _ ih =>
    rw [Token.ordinary_cons_directive directive] at found
    exact ih isFirst found
  | split directives _ ih =>
    rw [Token.ordinary_append, Token.ordinary_eq_nil directives, List.nil_append,
      Token.ordinary_cons rfl] at found
    obtain rfl := Option.some.inj found
    exact absurd rfl notSymbol

/-- The number of tokens that can be taken, each symbol counted as two. -/
def weight (tokens : List (Token String)) : Nat :=
  (tokens.map fun token => if token.tag = .symbol then 2 else 1).sum

/-- The number of tokens that can be taken of a token and others. -/
theorem weight_cons (token : Token String) (tokens : List (Token String)) :
    weight (token :: tokens) = (if token.tag = .symbol then 2 else 1) + weight tokens := rfl

/-- The numbers of tokens that can be taken add up. -/
theorem weight_append (tokens others : List (Token String)) :
    weight (tokens ++ others) = weight tokens + weight others := by
  simp [weight]

/-- A word is no symbol. -/
theorem tag_wordOf_ne (name : String) (span : Span) :
    (Token.wordOf name span).tag ≠ .symbol :=
  TokenKind.tag_ofWord_ne name rfl Tag.noConfusion Tag.noConfusion

/-- Every token that is taken makes the number of those that are left smaller. -/
theorem weight_le (consumes : Consumes whole taken rest) :
    weight rest + taken.length ≤ weight whole := by
  induction consumes with
  | done => exact Nat.le_refl _
  | take _ ih =>
    rw [weight_cons, List.length_cons]
    split <;> omega
  | demote _ _ ih =>
    rw [weight_cons]
    omega
  | @split name span before rest _ _ _ _ ih =>
    have colon : (Token.colonOf span).tag ≠ .symbol := by
      simp [Token.tag, Token.colonOf, TokenKind.tag]
    have whole : (⟨.symbol name, span⟩ : Token String).tag = .symbol := rfl
    rw [weight_append, weight_cons, weight_cons, if_neg (tag_wordOf_ne _ _), if_neg colon] at ih
    rw [weight_append, weight_cons, if_pos whole]
    omega

/-- The number of tokens is at most twice the number of pieces they were read from. -/
theorem weight_le_length (tokens : List (Token String)) : weight tokens ≤ 2 * tokens.length := by
  induction tokens with
  | nil => exact Nat.le_refl _
  | cons token tokens ih =>
    rw [weight_cons, List.length_cons]
    split <;> omega

end Consumes

end Vibescript
