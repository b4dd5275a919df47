import Vibescript.Proofs.Cursor.Lookahead
import Vibescript.Proofs.Source.Faults
import Vibescript.Proofs.Source.Layout
import Vibescript.Proofs.Source.Lexemes

/-!
# Texts one below the other

A line break ends every token of a text without errors: the tokens of two texts with a line break
between them are those of the first text, and those of the second at their places further on. Where a
text stands inside another one, its tokens follow each other there as they do by themselves.
-/
namespace Vibescript

/-- A span that much further on. -/
def Span.shift (distance : Nat) (span : Span) : Span :=
  ⟨distance + span.start, distance + span.stop⟩

namespace Token

variable {distance : Nat} {tokens : List (Token String)}

/-- A token that much further on. -/
def shift (distance : Nat) (token : Token String) : Token String :=
  ⟨token.kind, token.span.shift distance⟩

/-- Ordinary tokens stay ordinary further on. -/
theorem ordinary_shift : ordinary (tokens.map (shift distance)) =
    (ordinary tokens).map (shift distance) := by
  rw [ordinary, List.filter_map]
  rfl

/-- Tokens stay of their kinds further on. -/
theorem kinds_shift : kinds (tokens.map (shift distance)) = kinds tokens := by
  rw [kinds, ordinary_shift, List.map_map]
  rfl

end Token

/-- A piece of a string literal that does not reach to the end is the same before other text. -/
theorem Content.inString_append {first : Char} {text : List Char}
    (inside : first = '"' ∨ (inString first text).2 < text.length) (more : List Char) :
    inString first (text ++ more) = inString first text := by
  unfold inString at inside ⊢
  split
  · rfl
  next notQuote =>
  rw [if_neg notQuote] at inside
  have short := inside.resolve_left fun isQuote => notQuote (beq_iff_eq.mpr isQuote)
  split
  · cases text with
    | nil => exact absurd short (Nat.not_lt_zero _)
    | cons char text => rfl
  · next plain =>
    rw [if_neg plain] at short
    rw [List.takeWhile_append, if_neg (Nat.ne_of_lt short)]

/-- Only a quotation mark ends a string literal. -/
theorem Content.modeAfter_inString {first : Char} (other : first ≠ '"') (text : List Char)
    (offset : Nat) (mode : Mode) : (inString first text).1.modeAfter offset mode = mode := by
  unfold inString
  rw [if_neg (by simpa using other)]
  split
  · split
    · rfl
    · split <;> rfl
  · rfl

namespace Piece

/-- A literal that goes on over the rest of a text has an error. -/
theorem faults_listFrom_length (before : Option Char) (offset opening : Nat) (text : List Char) :
    (listFrom text.length (.string opening) before offset text).filterMap error? ≠ [] := by
  intro none
  have contents := listFrom_length before offset opening text
  obtain ⟨piece, pieces, same, broken, _⟩ := List.map_eq_cons_iff.mp contents
  have noError := List.filterMap_eq_nil_iff.mp none piece (same ▸ List.mem_cons_self)
  rw [error?, broken] at noError
  contradiction

section Junction

variable {α : Type} {view : Piece → Option α}
  (blank : ∀ piece : Piece, piece.content = .blank → view piece = none)

include blank

/-- Separators at the start of a text are passed over or read as a blank. -/
theorem view_separators (before : Option Char) (offset : Nat) (text : List Char) :
    (listFrom (text.takeWhile Text.isSeparator).length .code before offset text).filterMap view =
      (listFrom 0 .code before offset text).filterMap view := by
  cases text with
  | nil => rfl
  | cons char rest =>
    cases separator : Text.isSeparator char with
    | false => rw [List.takeWhile_cons_of_neg (by rw [separator]; nofun), List.length_nil]
    | true =>
      rw [List.takeWhile_cons_of_pos separator, List.length_cons, listFrom, listFrom, Content.read,
        Content.inCode_separator before rest separator]
      exact (List.filterMap_cons_none (blank _ rfl)).symm

/-- So is the first of them. -/
theorem view_separator (before : Option Char) (offset : Nat) {char : Char}
    (separator : Text.isSeparator char = true) (rest : List Char) :
    (listFrom 0 .code before offset (char :: rest)).filterMap view =
      (listFrom 0 .code (some char) (offset + char.utf8Size) rest).filterMap view := by
  rw [← view_separators blank (some char), listFrom, Content.read,
    Content.inCode_separator before rest separator]
  exact List.filterMap_cons_none (blank _ rfl)

/-- Where a text without errors goes on after a line break, blanks apart, its pieces are those of the
text by itself and of what comes after the line break. -/
theorem view_lines {passed : Nat} {mode : Mode} {before : Option Char} {offset : Nat}
    {text : List Char} (enough : passed ≤ text.length)
    (clean : (listFrom passed mode before offset text).filterMap error? = []) (more : List Char) :
    (listFrom passed mode before offset (text ++ '\n' :: more)).filterMap view =
      (listFrom passed mode before offset text).filterMap view ++
        (listFrom 0 .code (some '\n') (offset + Text.byteLength text + 1) more).filterMap view := by
  have noError (piece : Piece) (isBlank : piece.content = .blank) : piece.error? = none := by
    rw [error?, isBlank]
  induction text generalizing passed mode before offset with
  | nil =>
    obtain rfl : passed = 0 := Nat.le_zero.mp enough
    cases mode with
    | code => exact view_separator blank before offset rfl more
    | string opening => contradiction
  | cons char rest ih =>
    have further : offset + char.utf8Size + Text.byteLength rest + 1 =
        offset + Text.byteLength (char :: rest) + 1 := by
      rw [Text.byteLength_cons]
      omega
    rw [← further]
    cases passed with
    | succ passed => exact ih (Nat.le_of_succ_le_succ enough) clean
    | zero =>
      by_cases separates : mode = .code ∧ Text.isSeparator char = true
      · obtain ⟨rfl, separator⟩ := separates
        rw [view_separator noError before offset separator] at clean
        rw [List.cons_append, view_separator blank before offset separator,
          view_separator blank before offset separator]
        exact ih (Nat.zero_le _) clean
      have fits := Content.length_read_le mode before char rest
      have later : (listFrom (Content.read mode before char rest).2
          ((Content.read mode before char rest).1.modeAfter offset mode) (some char)
          (offset + char.utf8Size) rest).filterMap error? = [] :=
        List.filterMap_eq_nil_iff.mpr fun piece member =>
          List.filterMap_eq_nil_iff.mp clean piece (List.mem_cons_of_mem _ member)
      have same : Content.read mode before char (rest ++ '\n' :: more) =
          Content.read mode before char rest := by
        cases mode with
        | code =>
          have solid : Text.isSeparator char = false := by simpa using separates
          exact Content.inCode_separator_after rfl solid (.inr rfl) rest more
        | string opening =>
          refine Content.inString_append ?_ _
          by_contra reaches
          rw [not_or, Nat.not_lt] at reaches
          have all : (Content.inString char rest).2 = rest.length :=
            Nat.le_antisymm fits reaches.2
          rw [Content.read, all, Content.modeAfter_inString reaches.1] at later
          exact faults_listFrom_length _ _ _ _ later
      have first : (⟨offset, char :: (rest ++ '\n' :: more).take (Content.read mode before char rest).2,
          (Content.read mode before char rest).1⟩ : Piece) =
            ⟨offset, char :: rest.take (Content.read mode before char rest).2,
              (Content.read mode before char rest).1⟩ := by
        rw [List.take_append_of_le_length fits]
      rw [List.cons_append, listFrom, listFrom, same]
      dsimp only
      rw [first, List.filterMap_cons, List.filterMap_cons, ih fits later]
      split
      · rfl
      · rfl

end Junction

/-- A piece and what it is further on. -/
structure Moved (distance : Nat) (piece other : Piece) : Prop where
  /-- It starts further on. -/
  start : other.start = distance + piece.start
  /-- It has the same characters. -/
  text : other.text = piece.text
  /-- It is read as the same token. -/
  kind : other.kind? = piece.kind?
  /-- It is as free of errors. -/
  clean : piece.error? = none → other.error? = none

/-- The pieces of a text further on, where an operand ends before it as well. -/
theorem moved_listFrom (distance passed : Nat) {mode other : Mode} (sameMode : SameMode mode other)
    {before instead : Option Char}
    (sameBefore : before.any Content.endsOperand = instead.any Content.endsOperand) (offset : Nat)
    (text : List Char) : List.Forall₂ (Moved distance) (listFrom passed mode before offset text)
      (listFrom passed other instead (distance + offset) text) := by
  induction text generalizing passed mode other before instead offset with
  | nil =>
    cases mode with
    | code =>
      cases other with
      | code => exact .nil
      | string => exact sameMode.elim
    | string =>
      cases other with
      | code => exact sameMode.elim
      | string => exact .cons ⟨rfl, rfl, rfl, nofun⟩ .nil
  | cons char rest ih =>
    cases passed with
    | succ passed =>
      rw [listFrom, listFrom, Nat.add_assoc]
      exact ih passed sameMode rfl _
    | zero =>
      have same : Content.read other instead char rest = Content.read mode before char rest := by
        cases mode with
        | code =>
          cases other with
          | code => exact Content.inCode_before sameBefore.symm char rest
          | string => exact sameMode.elim
        | string =>
          cases other with
          | code => exact sameMode.elim
          | string => rfl
      have sameChar : (some char).any Content.endsOperand = (some char).any Content.endsOperand := rfl
      have further := ih (Content.read mode before char rest).2
        (sameMode.modeAfter (Content.read mode before char rest).1 offset (distance + offset))
        sameChar (offset + char.utf8Size)
      rw [listFrom, listFrom, same, Nat.add_assoc]
      refine .cons ⟨rfl, rfl, rfl, fun clean => ?_⟩ further
      unfold error? at clean ⊢
      split at clean <;> first | contradiction | simp_all

/-- The tokens of pieces further on are the same tokens further on. -/
theorem tokens_of_moved {distance : Nat} {pieces others : List Piece}
    (moved : List.Forall₂ (Moved distance) pieces others) :
    tokens others = (tokens pieces).map (Token.shift distance) := by
  induction moved with
  | nil => rfl
  | @cons piece other _ _ first _ ih =>
    have span : other.span = piece.span.shift distance := by
      rw [span, first.start, first.text, Nat.add_assoc]
      rfl
    cases isKind : piece.kind? with
    | none =>
      rw [tokens_skip isKind, tokens_skip (first.kind.trans isKind)]
      exact ih
    | some kind =>
      rw [tokens_cons isKind, tokens_cons (first.kind.trans isKind), span]
      exact congrArg _ ih

/-- Pieces further on are as free of errors. -/
theorem clean_of_moved {distance : Nat} {pieces others : List Piece}
    (moved : List.Forall₂ (Moved distance) pieces others) (clean : pieces.filterMap error? = []) :
    others.filterMap error? = [] := by
  induction moved with
  | nil => rfl
  | cons first _ ih =>
    rw [List.filterMap_eq_nil_iff, List.forall_mem_cons, ← List.filterMap_eq_nil_iff] at clean ⊢
    exact ⟨first.clean clean.1, ih clean.2⟩

/-- The pieces of a text after a line break. -/
theorem moved_list (distance : Nat) (text : List Char) :
    List.Forall₂ (Moved distance) (list text) (listFrom 0 .code (some '\n') distance text) :=
  have same : SameMode .code .code := trivial
  have sameBefore : (none : Option Char).any Content.endsOperand =
    (some '\n').any Content.endsOperand := rfl
  moved_listFrom distance 0 same sameBefore 0 text

variable {above below : List Char}

/-- The tokens of a text without errors and of a text below it. -/
theorem tokens_lines (clean : faults above = []) :
    tokens (list (above ++ '\n' :: below)) = tokens (list above) ++
      (tokens (list below)).map (Token.shift (Text.byteLength above + 1)) := by
  have blank (piece : Piece) (isBlank : piece.content = .blank) : piece.token? = none := by
    rw [token?, kind?, isBlank]
    rfl
  have lines := view_lines blank (Nat.zero_le _) clean below
  rw [Nat.zero_add] at lines
  exact lines.trans (congrArg _ (tokens_of_moved (moved_list _ below)))

/-- A text without errors above another one has no errors with it. -/
theorem faults_lines (clean : faults above = []) (cleanBelow : faults below = []) :
    faults (above ++ '\n' :: below) = [] := by
  have blank (piece : Piece) (isBlank : piece.content = .blank) : piece.error? = none := by
    rw [error?, isBlank]
  have lines := view_lines blank (Nat.zero_le _) clean below
  rw [Nat.zero_add] at lines
  rw [show (listFrom 0 .code none 0 above).filterMap error? = [] from clean, List.nil_append] at lines
  exact lines.trans (clean_of_moved (moved_list _ below) cleanBelow)

end Piece

namespace Text

variable {text before after : List Char} {start stop : Nat}

/-- A span between characters of a text has the same characters in a text that it stands in. -/
theorem slice_inside (starts : IsBoundary text start) (stops : IsBoundary text stop)
    (ordered : start ≤ stop) :
    slice (before ++ text ++ after) ⟨byteLength before + start, byteLength before + stop⟩ =
      slice text ⟨start, stop⟩ := by
  obtain ⟨early, _, whole, rfl⟩ := starts
  obtain ⟨upTo, late, rfl, rfl⟩ := stops
  obtain ⟨middle, rfl⟩ := exists_append_of_byteLength_le whole ordered
  have inside : before ++ (early ++ middle ++ late) ++ after =
      (before ++ early) ++ middle ++ (late ++ after) := by simp only [List.append_assoc]
  rw [Piece.slice_middle inside (byteLength_append _ _).symm (by rw [byteLength_append]; omega),
    Piece.slice_middle rfl rfl (byteLength_append _ _)]

end Text

namespace Token

variable {text before after : List Char} {tokens : List (Token String)} {start : Nat}

/-- Where a text stands inside another one, its tokens follow each other as they do by themselves. -/
theorem Sit.follow_shift (sit : Sit text start tokens) :
    Follow text (before ++ text ++ after) start (Text.byteLength before + start) tokens
      (tokens.map (shift (Text.byteLength before))) := by
  induction tokens generalizing start with
  | nil => exact .nil _ _
  | cons token rest ih =>
    obtain ⟨early, starts, stops⟩ := sit.bounds token List.mem_cons_self
    obtain ⟨_, stands, _⟩ := InLine.cons_iff.mp sit.line
    have same : Text.slice (before ++ text ++ after) (token.shift (Text.byteLength before)).span =
        Text.slice text token.span := Text.slice_inside starts stops stands.ordered
    refine .cons ⟨rfl, ?_⟩ ?_ (fun _ => ih sit.pass) (ih sit.take)
    · rw [uses, uses, same]
      rfl
    · exact congrArg (·.contains '\n') (Text.slice_inside sit.boundary starts early).symm

/-- So do the tokens of a text before other text. -/
theorem Sit.follow_append (sit : Sit text start tokens) :
    Follow text (text ++ after) start start tokens tokens := by
  have follow : Follow text ([] ++ text ++ after) start (Text.byteLength [] + start) tokens
      (tokens.map (shift (Text.byteLength []))) := sit.follow_shift
  have stays (token : Token String) : token.shift 0 = token := by
    rw [shift, Span.shift, Nat.zero_add, Nat.zero_add]
  rwa [Text.byteLength_nil, Nat.zero_add, List.nil_append, List.map_congr_left fun token _ =>
    stays token, List.map_id'] at follow

end Token

end Vibescript
