import Vibescript.Proofs.Cursor.Consumption
import Vibescript.Proofs.Source.Tiling

/-!
# The layout of a text

Of the text between two tokens, only the line breaks matter to a parse. `Token.layout` keeps the
kind of every token, the names that a directive declares, and whether a line break stands before the
token. Tokens of two texts with the same layout follow each other alike, whether a parse stops at a
directive or passes over it: no directive has a line break in it, so the line breaks on both sides
of one are those before the token after it.
-/
namespace Vibescript

namespace Text

/-- Whether a line break stands in a text between two offsets. -/
def breaks (source : List Char) (before after : Nat) : Bool :=
  (slice source ⟨before, after⟩).contains '\n'

/-- Of two first parts of a text the longer one starts with the other. -/
theorem exists_append_of_byteLength_le {left right before after : List Char}
    (same : before ++ after = left ++ right) (le : byteLength left ≤ byteLength before) :
    ∃ more, before = left ++ more := by
  rcases List.append_eq_append_iff.mp same with ⟨more, rfl, _⟩ | ⟨more, rfl, _⟩
  · have none : more = [] := by
      by_contra some
      have positive := Piece.byteLength_pos some
      rw [byteLength_append] at le
      omega
    exact ⟨[], by simp [none]⟩
  · exact ⟨more, rfl⟩

/-- A text from one boundary to another is made of two parts at a boundary between. -/
theorem slice_append {source : List Char} {first second third : Nat}
    (starts : IsBoundary source first) (middle : IsBoundary source second)
    (stops : IsBoundary source third) (early : first ≤ second) (late : second ≤ third) :
    slice source ⟨first, third⟩ = slice source ⟨first, second⟩ ++ slice source ⟨second, third⟩ := by
  obtain ⟨before, _, whole, rfl⟩ := starts
  obtain ⟨upTo, _, split, rfl⟩ := middle
  obtain ⟨left, rfl⟩ := exists_append_of_byteLength_le (split.symm.trans whole) early
  obtain ⟨all, after, rfl, rfl⟩ := stops
  obtain ⟨right, rfl⟩ := exists_append_of_byteLength_le split late
  have regroup : before ++ left ++ right ++ after = before ++ left ++ (right ++ after) := by
    simp only [List.append_assoc]
  have joined : before ++ left ++ right ++ after = before ++ (left ++ right) ++ after := by
    simp only [List.append_assoc]
  have firstPart : slice (before ++ left ++ right ++ after)
      ⟨byteLength before, byteLength (before ++ left)⟩ = left :=
    Piece.slice_middle regroup rfl (byteLength_append _ _)
  have secondPart : slice (before ++ left ++ right ++ after)
      ⟨byteLength (before ++ left), byteLength (before ++ left ++ right)⟩ = right :=
    Piece.slice_middle rfl rfl (byteLength_append _ _)
  rw [firstPart, secondPart]
  refine Piece.slice_middle joined rfl ?_
  rw [List.append_assoc, byteLength_append]

end Text

namespace Content

/-- Whether content is a directive. -/
def isDirective : Content → Bool
  | .token kind => kind.isDirective
  | _ => false

/-- Only a comment is a directive. -/
theorem inCode_of_isDirective {before : Option Char} {first : Char} {rest : List Char}
    (directive : (inCode before first rest).1.isDirective = true) :
    first = '#' ∧ inCode before first rest = hash first rest := by
  have integer (digits : List Char) : (number.integer digits).1.isDirective = false := by
    simp only [number.integer]
    split <;> rfl
  have word (text : String) : (Content.token (.ofWord text)).isDirective = false :=
    TokenKind.isDirective_ofWord text
  unfold inCode at directive ⊢
  split at directive
  · contradiction
  next solid =>
  rw [if_neg solid]
  split at directive
  · next isHash =>
    rw [if_pos isHash]
    exact ⟨beq_iff_eq.mp isHash, rfl⟩
  exfalso
  split at directive
  · simp [Content.word, word] at directive
  split at directive
  · simp [upperWord, word] at directive
  split at directive
  · simp only [number] at directive
    split at directive
    · split at directive
      · contradiction
      · simp [integer] at directive
    · simp [integer] at directive
  split at directive
  · contradiction
  split at directive
  · simp only [sigil] at directive
    split at directive
    · split at directive <;> contradiction
    · contradiction
  split at directive
  · simp only [colon] at directive
    split at directive <;> contradiction
  · obtain ⟨tag, spelled, same⟩ | same := mark_cases first rest <;> rw [same] at directive <;>
      contradiction

/-- No line break stands in a directive. -/
theorem line_inCode {before : Option Char} {first : Char} {rest : List Char}
    (directive : (inCode before first rest).1.isDirective = true) :
    '\n' ∉ first :: rest.take (inCode before first rest).2 := by
  obtain ⟨rfl, same⟩ := inCode_of_isDirective directive
  have taken : rest.take (rest.takeWhile (· != '\n')).length = rest.takeWhile (· != '\n') :=
    (List.prefix_iff_eq_take.mp (List.takeWhile_prefix _)).symm
  rw [same, hash, taken]
  intro member
  rcases List.mem_cons.mp member with isHash | inside
  · contradiction
  · have other := List.all_eq_true.mp List.all_takeWhile _ inside
    contradiction

end Content

namespace Piece

/-- A piece that is read as a directive is one. -/
theorem isDirective_of_kind? {piece : Piece} {kind : TokenKind String}
    (isKind : piece.kind? = some kind) (directive : kind.isDirective = true) :
    piece.content.isDirective = true := by
  unfold kind? at isKind
  cases content : piece.content with
  | token other =>
    rw [content] at isKind
    obtain rfl := Option.some.inj isKind
    exact directive
  | overflow | invalidEscape | unterminated =>
    rw [content] at isKind
    obtain rfl := Option.some.inj isKind
    contradiction
  | _ =>
    rw [content] at isKind
    contradiction

/-- No line break stands in a directive of a text. -/
theorem line_list {source : List Char} {piece : Piece} (member : piece ∈ list source)
    (directive : piece.content.isDirective = true) : '\n' ∉ piece.text := by
  obtain ⟨earlier, later, isList⟩ := List.append_of_mem member
  rcases cut_listFrom _ _ _ _ _ isList with ⟨opening, content, _⟩ | cut
  · rw [content] at directive
    contradiction
  · obtain ⟨early, char, rest, mode, before, _, _, content, text, _⟩ := cut
    rw [content] at directive
    rw [text]
    cases mode with
    | code => exact Content.line_inCode directive
    | string opening =>
      exfalso
      unfold Content.read Content.inString at directive
      dsimp only at directive
      split at directive
      · contradiction
      split at directive
      · split at directive
        · contradiction
        · split at directive <;> contradiction
      · contradiction

end Piece

namespace Token

/-- What a text shows of a token apart from where it stands. -/
structure Laid where
  /-- What was read. -/
  kind : TokenKind String
  /-- The names that a directive declares. -/
  uses : List String
  /-- Whether a line break stands before it, after the token before. -/
  breaks : Bool
  deriving DecidableEq, Repr

/-- The names that a token declares; none unless it is a uses directive. -/
def uses (source : List Char) (token : Token String) : List String :=
  match token.kind with
  | .usesDirective => Directive.usesNames (Text.slice source token.span)
  | _ => []

/-- The layout of tokens that follow an offset of a text. -/
def layoutFrom (source : List Char) (before : Nat) : List (Token String) → List Laid
  | [] => []
  | token :: rest =>
    ⟨token.kind, token.uses source, Text.breaks source before token.span.start⟩ ::
      layoutFrom source token.span.stop rest

/-- The layout of the tokens of a text. -/
def layout (source : String) : List Laid :=
  layoutFrom source.toList 0 ((lex source).written.filter (·.tag ≠ .endOfInput))

/-- Two tokens of two texts have the same kind, and declare the same names. -/
structure Alike (source other : List Char) (left right : Token String) : Prop where
  /-- They have the same kind. -/
  kind : left.kind = right.kind
  /-- They declare the same names. -/
  uses : left.uses source = right.uses other

/-- Tokens of two texts follow two offsets alike: they are alike, and line breaks stand before the
same ones, whether the tokens before them are passed over or taken. -/
inductive Follow (source other : List Char) :
    Nat → Nat → List (Token String) → List (Token String) → Prop
  /-- No tokens. -/
  | nil (before earlier : Nat) : Follow source other before earlier [] []
  /-- A token before others. -/
  | cons {before earlier : Nat} {left right : Token String} {lefts rights : List (Token String)}
    (alike : Alike source other left right)
    (breaks : Text.breaks source before left.span.start =
      Text.breaks other earlier right.span.start)
    (pass : left.kind.isDirective = true → Follow source other before earlier lefts rights)
    (take : Follow source other left.span.stop right.span.stop lefts rights) :
    Follow source other before earlier (left :: lefts) (right :: rights)

/-- Tokens that stand between the characters of a text, after an offset. -/
structure Sit (source : List Char) (before : Nat) (tokens : List (Token String)) : Prop where
  /-- They follow each other. -/
  line : InLine source tokens
  /-- The offset lies between two characters. -/
  boundary : Text.IsBoundary source before
  /-- They come after the offset and lie between two characters. -/
  bounds : ∀ token ∈ tokens, before ≤ token.span.start ∧
    Text.IsBoundary source token.span.start ∧ Text.IsBoundary source token.span.stop
  /-- No line break stands in a directive. -/
  directive : ∀ token ∈ tokens, token.kind.isDirective = true →
    '\n' ∉ Text.slice source token.span

namespace Sit

variable {source : List Char} {before : Nat} {token : Token String} {rest : List (Token String)}

/-- The tokens of a text sit after its start. -/
theorem of_source (source : List Char) : Sit source 0 (Piece.tokens (Piece.list source)) := by
  refine ⟨.of_source source, ⟨[], source, rfl, rfl⟩, fun token member => ?_,
    fun token member directive => ?_⟩
  · obtain ⟨piece, inside, read⟩ := List.mem_filterMap.mp member
    obtain ⟨kind, _, rfl⟩ := Option.map_eq_some_iff.mp read
    exact ⟨Nat.zero_le _, (Piece.isBoundary_list inside).2⟩
  · obtain ⟨piece, inside, read⟩ := List.mem_filterMap.mp member
    obtain ⟨kind, isKind, rfl⟩ := Option.map_eq_some_iff.mp read
    obtain ⟨early, late, whole, start⟩ := (Piece.lies_listFrom _ _ _ _ _ piece inside).within
    rw [Nat.zero_add] at start
    have text : Text.slice source piece.span = piece.text :=
      Piece.slice_middle whole start rfl
    rw [text]
    exact Piece.line_list inside (Piece.isDirective_of_kind? isKind directive)

/-- The tokens after the first sit after it. -/
theorem take (sit : Sit source before (token :: rest)) : Sit source token.span.stop rest := by
  obtain ⟨apart, _, line⟩ := InLine.cons_iff.mp sit.line
  refine ⟨line, (sit.bounds token List.mem_cons_self).2.2, fun other member => ?_,
    fun other member => sit.directive other (List.mem_cons_of_mem _ member)⟩
  exact ⟨(apart other member).1, (sit.bounds other (List.mem_cons_of_mem _ member)).2⟩

/-- The tokens after the first sit after the same offset. -/
theorem pass (sit : Sit source before (token :: rest)) : Sit source before rest := by
  obtain ⟨_, _, line⟩ := InLine.cons_iff.mp sit.line
  exact ⟨line, sit.boundary, fun other member => sit.bounds other (List.mem_cons_of_mem _ member),
    fun other member => sit.directive other (List.mem_cons_of_mem _ member)⟩

/-- Line breaks before a token stand on one of the sides of a directive before it. -/
theorem breaks_over {next : Token String} (sit : Sit source before (token :: next :: rest))
    (directive : token.kind.isDirective = true) :
    Text.breaks source before next.span.start =
      (Text.breaks source before token.span.start ||
        Text.breaks source token.span.stop next.span.start) := by
  obtain ⟨early, starts, stops⟩ := sit.bounds token List.mem_cons_self
  obtain ⟨_, begins, _⟩ := sit.bounds next (List.mem_cons_of_mem _ List.mem_cons_self)
  obtain ⟨apart, stands, _⟩ := InLine.cons_iff.mp sit.line
  have late := (apart next List.mem_cons_self).1
  have ordered := stands.ordered
  have inside := sit.directive token List.mem_cons_self directive
  have bare : (Text.slice source ⟨token.span.start, token.span.stop⟩).contains '\n' = false := by
    simpa using inside
  rw [Text.breaks, Text.slice_append sit.boundary starts begins early (by omega),
    Text.slice_append starts stops begins ordered late]
  simp only [List.contains_append, bare, Bool.false_or]
  rfl

end Sit

variable {source other : List Char} {before earlier : Nat} {tokens others : List (Token String)}

/-- Tokens that follow alike have the same kinds. -/
theorem Follow.kinds (follow : Follow source other before earlier tokens others) :
    tokens.map Token.kind = others.map Token.kind := by
  induction follow with
  | nil => rfl
  | cons alike _ _ _ _ ih => rw [List.map_cons, List.map_cons, alike.kind, ih]

/-- Tokens with the same layout follow alike. -/
theorem Follow.of_layoutFrom (sit : Sit source before tokens) (sits : Sit other earlier others)
    (same : layoutFrom source before tokens = layoutFrom other earlier others) :
    Follow source other before earlier tokens others := by
  induction tokens generalizing before earlier others with
  | nil =>
    cases others with
    | nil => exact .nil _ _
    | cons => contradiction
  | cons left lefts ih =>
    cases others with
    | nil => contradiction
    | cons right rights =>
      simp only [layoutFrom, List.cons.injEq, Laid.mk.injEq] at same
      obtain ⟨⟨kind, uses, breaks⟩, rest⟩ := same
      refine .cons ⟨kind, uses⟩ breaks (fun directive => ?_) (ih sit.take sits.take rest)
      apply ih sit.pass sits.pass
      cases lefts with
      | nil =>
        cases rights with
        | nil => rfl
        | cons => contradiction
      | cons next lefts =>
        cases rights with
        | nil => contradiction
        | cons after rights =>
          simp only [layoutFrom, List.cons.injEq, Laid.mk.injEq] at rest ⊢
          obtain ⟨⟨nextKind, nextUses, nextBreaks⟩, remains⟩ := rest
          refine ⟨⟨nextKind, nextUses, ?_⟩, remains⟩
          rw [sit.breaks_over directive, sits.breaks_over (kind ▸ directive), breaks, nextBreaks]

/-- The tokens of texts with the same layout follow their starts alike. -/
theorem Follow.of_layout {first second : String} (same : layout first = layout second) :
    Follow first.toList second.toList 0 0 (Piece.tokens (Piece.list first.toList))
      (Piece.tokens (Piece.list second.toList)) := by
  rw [layout, layout, filter_written_lex, filter_written_lex] at same
  exact .of_layoutFrom (.of_source _) (.of_source _) same

end Token

end Vibescript
