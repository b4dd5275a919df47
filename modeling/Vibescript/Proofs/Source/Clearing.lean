import Vibescript.Proofs.Source.Lookahead
import Vibescript.Proofs.Source.Tiling

/-!
# Texts without unrecognized characters

`clear` writes spaces over the characters of a source text that start no token. What is read at the
other characters stays: the unrecognized ones are inert, so no lookahead tells them from spaces, and
no operand ends with them. So a cleared text has the same tokens and comments at the same places, and
its errors are the others of the text.
-/
namespace Vibescript

namespace Content

variable {mode : Mode} {before : Option Char} {first char : Char} {rest : List Char} {count : Nat}

/-- An inert character ends no operand. -/
theorem IsInert.endsOperand (inert : IsInert char) : endsOperand char = false := by
  have others (other : Char) (isMark :
      (TokenKind.mark? (String.ofList [other]) : Option (TokenKind String)).isSome = true) :
      (char == other) = false := beq_false_of_ne (inert.ne other (.inr (.inr (.inr isMark))))
  rw [Content.endsOperand, inert.noWord, others '?' (by decide +kernel),
    others '!' (by decide +kernel), others ')' (by decide +kernel), others ']' (by decide +kernel),
    beq_false_of_ne inert.noQuote]
  rfl

/-- A number is recognized. -/
theorem number_ne_unrecognized (first : Char) (rest : List Char) (char : Char) :
    (number first rest).1 ≠ .unrecognized char := by
  have integer (digits : List Char) : (number.integer digits).1 ≠ .unrecognized char := by
    simp only [number.integer]
    split <;> simp
  simp only [number]
  split
  · split
    · simp
    · exact integer _
  · exact integer _

/-- Unrecognized sigils are all that is taken. -/
theorem sigil_unrecognized (reads : sigil rest = (.unrecognized char, count)) :
    char = '@' ∧ ∀ other ∈ rest.take count, other = '@' := by
  simp only [sigil] at reads
  split at reads
  · exact absurd (congrArg Prod.fst reads) (by simp)
  · obtain ⟨same, rfl⟩ := Prod.mk.inj reads
    refine ⟨(Content.unrecognized.inj same).symm, fun other member => ?_⟩
    rcases rest with _ | ⟨second, rest⟩
    · simp at member
    · by_cases isSigil : second = '@'
      · simpa [isSigil] using member
      · simp [isSigil] at member

/-- An unrecognized character is no mark. -/
theorem mark_unrecognized (reads : mark first rest = (.unrecognized char, count)) :
    char = first ∧ count = 0 ∧
      (TokenKind.mark? (String.ofList [first]) : Option (TokenKind String)) = none := by
  unfold mark at reads
  split at reads
  · exact absurd (congrArg Prod.fst reads) (by simp)
  · split at reads
    · exact absurd (congrArg Prod.fst reads) (by simp)
    · next noMark =>
      obtain ⟨same, rfl⟩ := Prod.mk.inj reads
      exact ⟨(Content.unrecognized.inj same).symm, rfl, noMark⟩

/-- What is unrecognized stands in code and starts with an inert character; what it takes besides
are sigils. -/
theorem read_unrecognized (reads : read mode before first rest = (.unrecognized char, count)) :
    mode = .code ∧ IsInert first ∧ ∀ other ∈ rest.take count, other = '@' := by
  cases mode with
  | string =>
    exfalso
    have content := congrArg Prod.fst reads
    simp only [read, inString] at content
    split at content
    · simp at content
    split at content
    · split at content
      · simp at content
      · split at content <;> simp at content
    · simp at content
  | code =>
    refine ⟨rfl, ?_⟩
    change inCode before first rest = _ at reads
    unfold inCode at reads
    split at reads
    · exact absurd (congrArg Prod.fst reads) (by simp)
    next notSeparator =>
    split at reads
    · have content := congrArg Prod.fst reads
      simp only [hash] at content
      split at content <;> simp at content
    split at reads
    · exact absurd (congrArg Prod.fst reads) (by simp [word])
    next notLower =>
    split at reads
    · exact absurd (congrArg Prod.fst reads) (by simp [upperWord])
    next notUpper =>
    split at reads
    · exact absurd (congrArg Prod.fst reads) (number_ne_unrecognized _ _ _)
    next notDigit =>
    split at reads
    · exact absurd (congrArg Prod.fst reads) (by simp)
    next notQuote =>
    have noWord : isWordChar first = false := by
      simp only [Bool.not_eq_true, Bool.or_eq_false_iff] at notLower notUpper notDigit
      have notAlpha : first.isAlpha = false := Bool.or_eq_false_iff.mpr ⟨notUpper, notLower.1⟩
      rw [isWordChar, Char.isAlphanum, notAlpha, notLower.2, notDigit]
      rfl
    have noSeparator : Text.isSeparator first = false := by simpa using notSeparator
    have noQuote : first ≠ '"' := by simpa using notQuote
    split at reads
    · next isSigil =>
      rw [beq_iff_eq] at isSigil
      refine ⟨⟨noWord, noSeparator, noQuote, ?_⟩, (sigil_unrecognized reads).2⟩
      rw [isSigil]
      decide +kernel
    split at reads
    · have content := congrArg Prod.fst reads
      simp only [colon] at content
      split at content <;> simp at content
    · obtain ⟨-, rfl, noMark⟩ := mark_unrecognized reads
      exact ⟨⟨noWord, noSeparator, noQuote, noMark⟩, fun other member => by simp at member⟩

end Content

/-- Each space is one byte. -/
theorem Text.byteLength_replicate_space (count : Nat) :
    byteLength (List.replicate count ' ') = count := by
  induction count with
  | zero => rfl
  | succ count ih =>
    rw [List.replicate_succ, byteLength_cons, ih, Nat.add_comm]
    rfl

namespace Piece

/-- A piece with spaces for unrecognized characters. -/
def cleared (piece : Piece) : List Char :=
  match piece.content with
  | .unrecognized _ => List.replicate (Text.byteLength piece.text) ' '
  | _ => piece.text

/-- Whether a piece is something other than separators. -/
def isFilled (piece : Piece) : Bool := piece.content ≠ .blank

/-- Whether a piece is something other than separators and unrecognized characters. -/
def isSolid (piece : Piece) : Bool :=
  match piece.content with
  | .blank | .unrecognized _ => false
  | _ => true

variable {mode : Mode} {before : Option Char} {offset : Nat} {text pad rest : List Char}
  {piece : Piece} {pieces : List Piece}

/-! ### Separators -/

/-- Separators that are passed over could be a piece of their own. -/
theorem filter_listFrom_passed (before : Option Char) (offset : Nat) (text : List Char) :
    (listFrom (text.takeWhile Text.isSeparator).length .code before offset text).filter isFilled =
      (listFrom 0 .code before offset text).filter isFilled := by
  cases text with
  | nil => rfl
  | cons char text =>
    by_cases separator : Text.isSeparator char = true
    · have blank : Content.read .code before char text =
          (.blank, (text.takeWhile Text.isSeparator).length) := if_pos separator
      rw [List.takeWhile_cons_of_pos separator, List.length_cons, listFrom, listFrom, blank]
      exact (List.filter_cons_of_neg (by simp [isFilled])).symm
    · rw [List.takeWhile_cons_of_neg separator]
      rfl

/-- Separators are read as nothing else, whatever goes before. -/
theorem filter_listFrom_separators (all : ∀ char ∈ pad, Text.isSeparator char = true)
    (before : Option Char) (offset : Nat) (rest : List Char) :
    (listFrom 0 .code before offset (pad ++ rest)).filter isFilled =
      (listFrom 0 .code (pad.getLast?.or before) (offset + Text.byteLength pad) rest).filter
        isFilled := by
  induction pad generalizing before offset with
  | nil => rfl
  | cons char pad ih =>
    obtain ⟨separator, others⟩ := List.forall_mem_cons.mp all
    have blank : Content.read .code before char (pad ++ rest) =
        (.blank, ((pad ++ rest).takeWhile Text.isSeparator).length) := if_pos separator
    rw [List.cons_append, listFrom, blank, List.filter_cons_of_neg (by simp [isFilled])]
    refine (filter_listFrom_passed (some char) _ _).trans ((ih others (some char) _).trans ?_)
    rw [Text.byteLength_cons, ← Nat.add_assoc]
    cases pad with
    | nil => rfl
    | cons next pad =>
      rw [List.getLast?_cons_cons, List.getLast?_cons]
      rfl

/-! ### Clearing piece by piece -/

/-- Unrecognized pieces start with inert characters. -/
theorem inert_listFrom (passed : Nat) (mode : Mode) (before : Option Char) (offset : Nat)
    (text : List Char) : ∀ piece ∈ listFrom passed mode before offset text, ∀ char,
      piece.content = .unrecognized char →
        ∃ first rest, piece.text = first :: rest ∧ Content.IsInert first := by
  induction text generalizing passed mode before offset with
  | nil =>
    intro piece member char unrecognized
    cases mode with
    | code => contradiction
    | string =>
      rw [List.mem_singleton.mp member] at unrecognized
      contradiction
  | cons first rest ih =>
    cases passed with
    | succ passed => exact ih passed mode _ _
    | zero =>
      intro piece member char unrecognized
      rcases List.mem_cons.mp member with rfl | later
      · exact ⟨first, _, rfl, (Content.read_unrecognized (Prod.ext unrecognized rfl)).2.1⟩
      · exact ih _ _ _ _ piece later char unrecognized

/-- A cleared text begins as the text does. -/
theorem alike_cleared (count : Nat)
    (inert : ∀ piece ∈ pieces, ∀ char, piece.content = .unrecognized char →
      ∃ first rest, piece.text = first :: rest ∧ Content.IsInert first) :
    Content.Alike count (pieces.flatMap (·.text)) (pieces.flatMap cleared) := by
  induction pieces with
  | nil => exact .nil count
  | cons piece pieces ih =>
    obtain ⟨starts, others⟩ := List.forall_mem_cons.mp inert
    rw [List.flatMap_cons, List.flatMap_cons, cleared]
    split
    · next char unrecognized =>
      obtain ⟨first, rest, text, isInert⟩ := starts char unrecognized
      have size : Text.byteLength piece.text =
          first.utf8Size - 1 + Text.byteLength rest + 1 := by
        have positive := first.utf8Size_pos
        rw [text, Text.byteLength_cons]
        omega
      rw [size, List.replicate_succ, text]
      exact .blank isInert count _ _
    · exact (ih others).append piece.text

/-- In a string literal nothing is cleared. -/
theorem head?_cleared (opening : Nat) (before : Option Char) (offset : Nat) (text : List Char) :
    ((listFrom 0 (.string opening) before offset text).flatMap cleared).head? = text.head? := by
  cases text with
  | nil => rfl
  | cons char rest =>
    rw [listFrom, List.flatMap_cons, cleared]
    split
    · next unrecognized =>
      exact Mode.noConfusion (Content.read_unrecognized (Prod.ext unrecognized rfl)).1
    · rfl

/-- A text is a first piece and the pieces of what the piece leaves. -/
theorem listFrom_cons (mode : Mode) (before : Option Char) (offset : Nat) (first : Char)
    (rest : List Char) {content : Content} {count : Nat}
    (reads : Content.read mode before first rest = (content, count)) :
    listFrom 0 mode before offset (first :: rest) =
      ⟨offset, first :: rest.take count, content⟩ ::
        listFrom 0 (content.modeAfter offset mode) ((rest.take count).getLast?.or (some first))
          (offset + Text.byteLength (first :: rest.take count)) (rest.drop count) := by
  have fits : (rest.take count).length = count := by
    have inside := Content.length_read_le mode before first rest
    rw [reads] at inside
    rw [List.length_take, Nat.min_eq_left inside]
  have passed := listFrom_passed (rest.take count) (rest.drop count)
    (content.modeAfter offset mode) (some first) (offset + first.utf8Size)
  rw [List.take_append_drop, fits] at passed
  rw [listFrom, reads, Text.byteLength_cons, ← Nat.add_assoc, ← passed]

/-- What is read as neither separators nor as unrecognized is read in a cleared text as well. -/
theorem read_cleared {mode : Mode} {before other : Option Char} {first : Char} {rest : List Char}
    {content : Content} {count : Nat}
    (operand : before.any Content.endsOperand = other.any Content.endsOperand)
    (reads : Content.read mode before first rest = (content, count)) (filled : content ≠ .blank)
    (last : Option Char) (offset place : Nat) :
    Content.read mode other first (rest.take count ++
      (listFrom 0 (content.modeAfter offset mode) last place (rest.drop count)).flatMap cleared) =
        (content, count) := by
  have inside := Content.length_read_le mode before first rest
  have fits : (rest.take count).length = count := by
    rw [reads] at inside
    rw [List.length_take, Nat.min_eq_left inside]
  have alike := alike_cleared 3 (inert_listFrom 0 (content.modeAfter offset mode) last place
    (rest.drop count))
  rw [flatMap_text_listFrom, List.drop_zero] at alike
  rw [← List.take_append_drop count rest] at reads
  refine (Content.read_congr alike operand ?_ (by rw [reads, fits])).trans reads
  cases mode with
  | code =>
    refine .inr ?_
    by_contra separator
    have blank : Content.read .code before first (rest.take count ++ rest.drop count) =
        (.blank, _) := if_pos (by simpa [Content.StopsAtSpace] using separator)
    exact filled (congrArg Prod.fst (reads.symm.trans blank))
  | string opening =>
    by_cases isQuote : first = '"'
    · exact .inr isQuote
    · -- Nothing else ends the literal, so that nothing is cleared after it.
      have inside : content.modeAfter offset (.string opening) = .string opening := by
        rw [← show (Content.read (.string opening) before first _).1 = content from
          congrArg Prod.fst reads]
        simp only [Content.read, Content.inString, beq_false_of_ne isQuote]
        split
        · contradiction
        split
        · split
          · rfl
          · split <;> rfl
        · rfl
      rw [inside, head?_cleared]
      exact .inl rfl

/-- In a cleared text the solid pieces are read, and otherwise separators. -/
theorem filter_cleared (mode : Mode) (before other : Option Char) (offset : Nat) (text : List Char)
    (operand : before.any Content.endsOperand = other.any Content.endsOperand) :
    (listFrom 0 mode other offset
        ((listFrom 0 mode before offset text).flatMap cleared)).filter isFilled =
      (listFrom 0 mode before offset text).filter isSolid := by
  cases text with
  | nil => cases mode <;> rfl
  | cons first rest =>
    rcases reads : Content.read mode before first rest with ⟨content, count⟩
    have more := fun mode before other offset operand =>
      filter_cleared mode before other offset (rest.drop count) operand
    rw [listFrom_cons mode before offset first rest reads, List.flatMap_cons]
    by_cases isBlank : content = .blank
    · subst isBlank
      obtain ⟨rfl, separators⟩ := Content.read_blank reads
      exact (filter_listFrom_separators separators other offset _).trans
        (more .code _ _ _ (by rw [List.getLast?_cons, Option.or_some]; rfl))
    by_cases unrecognized : ∃ char, content = .unrecognized char
    · obtain ⟨char, rfl⟩ := unrecognized
      obtain ⟨rfl, inert, sigils⟩ := Content.read_unrecognized reads
      have spaces := @filter_listFrom_separators
        (List.replicate (Text.byteLength (first :: rest.take count)) ' ')
        (by simp [Text.isSeparator]) other offset
      rw [Text.byteLength_replicate_space] at spaces
      refine (spaces _).trans (more .code _ _ _ ?_)
      -- Neither the last sigil nor the space ends an operand.
      have filled : Text.byteLength (first :: rest.take count) ≠ 0 := by
        rw [Text.byteLength_cons]
        exact Nat.ne_of_gt (Nat.add_pos_left first.utf8Size_pos _)
      rw [List.getLast?_replicate, if_neg filled]
      cases isLast : (rest.take count).getLast? with
      | none => exact inert.endsOperand
      | some last =>
        rw [sigils last (List.mem_of_getLast? isLast)]
        rfl
    have solid : isSolid ⟨offset, first :: rest.take count, content⟩ = true := by
      cases content <;> first | rfl | exact absurd rfl isBlank | exact absurd ⟨_, rfl⟩ unrecognized
    have filled (text : List Char) : isFilled ⟨offset, text, content⟩ = true := by
      simpa [isFilled] using isBlank
    have stays : cleared ⟨offset, first :: rest.take count, content⟩ = first :: rest.take count := by
      cases content <;> first | rfl | exact absurd ⟨_, rfl⟩ unrecognized
    have fits : (rest.take count).length = count := by
      have inside := Content.length_read_le mode before first rest
      rw [reads] at inside
      rw [List.length_take, Nat.min_eq_left inside]
    rw [stays, List.cons_append, listFrom_cons mode other offset first _
      (read_cleared operand reads isBlank _ offset _), List.take_left' fits, List.drop_left' fits,
      List.filter_cons_of_pos (filled _), List.filter_cons_of_pos solid, more _ _ _ _ rfl]
  termination_by text.length
  decreasing_by
    rw [List.length_cons, List.length_drop]
    omega

/-! ### Clearing by spans -/

/-- The spans of the unrecognized characters of a text. -/
def strays (source : List Char) : List Span :=
  ((faults source).filter (·.fault.isUnrecognized)).map (·.span)

end Piece

/-- The text with spaces over the spans: a character that a span covers gives as many as it has
bytes. -/
def Text.overwrite (spans : List Span) : Nat → List Char → List Char
  | _, [] => []
  | offset, char :: rest =>
    (if spans.any (·.contains offset) then List.replicate char.utf8Size ' ' else [char]) ++
      overwrite spans (offset + char.utf8Size) rest

namespace Text

variable {spans : List Span} {offset : Nat} {text : List Char}

/-- Two texts are overwritten one after the other. -/
theorem overwrite_append (spans : List Span) (offset : Nat) (left right : List Char) :
    overwrite spans offset (left ++ right) =
      overwrite spans offset left ++ overwrite spans (offset + byteLength left) right := by
  induction left generalizing offset with
  | nil => rfl
  | cons char left ih =>
    rw [List.cons_append, overwrite, overwrite, ih, List.append_assoc, byteLength_cons,
      Nat.add_assoc]

/-- A text keeps its length. -/
theorem byteLength_overwrite (spans : List Span) (offset : Nat) (text : List Char) :
    byteLength (overwrite spans offset text) = byteLength text := by
  induction text generalizing offset with
  | nil => rfl
  | cons char text ih =>
    rw [overwrite, byteLength_append, ih, byteLength_cons]
    split
    · rw [byteLength_replicate_space]
    · rw [byteLength_cons, byteLength_nil, Nat.add_zero]

/-- Under spans that cover all of it, a text turns into spaces. -/
theorem overwrite_covered (covered : ∀ place, offset ≤ place → place < offset + byteLength text →
    ∃ span ∈ spans, span.contains place = true) :
    overwrite spans offset text = List.replicate (byteLength text) ' ' := by
  induction text generalizing offset with
  | nil => rfl
  | cons char text ih =>
    have positive := char.utf8Size_pos
    rw [byteLength_cons] at covered
    have first : spans.any (·.contains offset) = true :=
      List.any_eq_true.mpr (covered offset (Nat.le_refl _) (by omega))
    rw [overwrite, if_pos first, ih fun place after before => covered place (by omega) (by omega),
      List.replicate_append_replicate, byteLength_cons]

/-- Outside all spans a text stays. -/
theorem overwrite_uncovered (free : ∀ place, offset ≤ place → place < offset + byteLength text →
    ∀ span ∈ spans, span.contains place = false) : overwrite spans offset text = text := by
  induction text generalizing offset with
  | nil => rfl
  | cons char text ih =>
    have positive := char.utf8Size_pos
    rw [byteLength_cons] at free
    have first : ¬ spans.any (·.contains offset) = true := by
      rw [Bool.not_eq_true, List.any_eq_false]
      exact fun span member => by simp [free offset (Nat.le_refl _) (by omega) span member]
    rw [overwrite, if_neg first, ih fun place after before => free place (by omega) (by omega)]
    rfl

end Text

namespace Piece

/-- The unrecognized pieces have the spans of the unrecognized characters. -/
theorem mem_strays {source : List Char} {span : Span} :
    span ∈ strays source ↔
      ∃ piece ∈ list source, (∃ char, piece.content = .unrecognized char) ∧ piece.span = span := by
  simp only [strays, faults, List.mem_map, List.mem_filter, List.mem_filterMap]
  constructor
  · rintro ⟨error, ⟨⟨piece, member, isError⟩, isStray⟩, rfl⟩
    refine ⟨piece, member, ?_⟩
    unfold error? at isError
    split at isError <;> cases isError <;> first | contradiction | exact ⟨⟨_, ‹_›⟩, rfl⟩
  · rintro ⟨piece, member, ⟨char, unrecognized⟩, rfl⟩
    exact ⟨⟨.unrecognizedCharacter char, piece.span⟩,
      ⟨⟨piece, member, by rw [error?, unrecognized]⟩, rfl⟩, rfl⟩

/-- Overwriting the unrecognized characters clears the pieces. -/
theorem overwrite_strays {source : List Char} {earlier later : List Piece}
    (whole : list source = earlier ++ later) :
    Text.overwrite (strays source) (Text.byteLength (earlier.flatMap (·.text)))
      (later.flatMap (·.text)) = later.flatMap cleared := by
  induction later generalizing earlier with
  | nil => rfl
  | cons piece later ih =>
    have starts := start_list whole
    have more := @ih (earlier ++ [piece]) (by rw [whole]; simp)
    rw [List.flatMap_append, Text.byteLength_append, List.flatMap_singleton] at more
    rw [List.flatMap_cons, List.flatMap_cons, Text.overwrite_append, more, ← starts]
    congr 1
    have member : piece ∈ list source := by simp [whole]
    by_cases unrecognized : ∃ char, piece.content = .unrecognized char
    · have clears : piece.cleared = List.replicate (Text.byteLength piece.text) ' ' := by
        obtain ⟨char, unrecognized⟩ := unrecognized
        rw [cleared, unrecognized]
      rw [clears]
      refine Text.overwrite_covered fun place after before => ?_
      exact ⟨piece.span, mem_strays.mpr ⟨piece, member, unrecognized, rfl⟩,
        (Span.contains_iff _ _).mpr ⟨after, before⟩⟩
    · have stays : piece.cleared = piece.text := by
        rw [cleared]
        split
        · next char content => exact absurd ⟨char, content⟩ unrecognized
        · rfl
      rw [stays]
      refine Text.overwrite_uncovered fun place after before span isStray => ?_
      obtain ⟨other, inside, content, rfl⟩ := mem_strays.mp isStray
      by_contra contained
      have symmetric : Std.Symm fun left right : Piece => left.span.Disjoint right.span :=
        ⟨fun left right apart offset both => apart offset both.symm⟩
      have apart := (pairwise_disjoint_list source).forall member inside
        fun same => unrecognized (same ▸ content)
      exact apart place ⟨(Span.contains_iff piece.span place).mpr ⟨after, before⟩,
        by simpa using contained⟩

end Piece

/-- The spans of the unrecognized characters that were met. -/
def LexOutput.strays (output : LexOutput) : List Span :=
  (output.lexer.errors.toList.filter (·.fault.isUnrecognized)).map (·.span)

/-- The text with spaces over its unrecognized characters. -/
def clear (source : String) : String :=
  String.ofList (Text.overwrite (lex source).strays 0 source.toList)

namespace Piece

/-- The pieces of a cleared text, separators apart, are the solid pieces of the text. -/
theorem filter_list_clear (source : String) :
    (list (clear source).toList).filter isFilled = (list source.toList).filter isSolid := by
  have strays : (lex source).strays = strays source.toList := by
    rw [LexOutput.strays, (recorded_lex source).1]
    rfl
  have cleared := @overwrite_strays source.toList [] _ (List.nil_append _).symm
  rw [flatMap_text_list] at cleared
  rw [clear, String.toList_ofList, strays]
  exact cleared ▸ filter_cleared .code none none 0 source.toList rfl

/-- What pieces that are left out do not give is made of the others. -/
theorem filterMap_filter_of_none {α : Type} {keep : Piece → Bool} {make : Piece → Option α}
    (none : ∀ piece, keep piece = false → make piece = none) (pieces : List Piece) :
    (pieces.filter keep).filterMap make = pieces.filterMap make := by
  rw [List.filterMap_filter]
  refine congrArg (List.filterMap · pieces) (funext fun piece => ?_)
  split
  · rfl
  · next leftOut => exact (none piece (by simpa using leftOut)).symm

/-- What a cleared text gives is what the solid pieces of the text give, if separators give
nothing. -/
theorem filterMap_list_clear {α : Type} {make : Piece → Option α}
    (none : ∀ piece, piece.isFilled = false → make piece = none) (source : String) :
    (list (clear source).toList).filterMap make =
      ((list source.toList).filter isSolid).filterMap make := by
  rw [← filter_list_clear, filterMap_filter_of_none none]

/-- A piece that is not filled is blank. -/
theorem content_of_isFilled {piece : Piece} (empty : piece.isFilled = false) :
    piece.content = .blank := by simpa [isFilled] using empty

/-- A piece that is not solid is blank or unrecognized. -/
theorem content_of_isSolid {piece : Piece} (hollow : piece.isSolid = false) :
    piece.content = .blank ∨ ∃ char, piece.content = .unrecognized char := by
  unfold isSolid at hollow
  split at hollow
  · exact .inl ‹_›
  · exact .inr ⟨_, ‹_›⟩
  · contradiction

end Piece

/-- A cleared text has the tokens and the comments of the text, at the same places, and its errors
are those of the text that are no unrecognized characters. -/
theorem lex_clear (source : String) :
    (lex (clear source)).written = (lex source).written ∧
      (lex (clear source)).lexer.comments.toList = (lex source).lexer.comments.toList ∧
      (lex (clear source)).lexer.errors.toList =
        (lex source).lexer.errors.toList.filter (!·.fault.isUnrecognized) := by
  have length : Text.byteLength (clear source).toList = Text.byteLength source.toList := by
    rw [clear, String.toList_ofList, Text.byteLength_overwrite]
  refine ⟨?_, ?_, ?_⟩
  · rw [written_lex, written_lex, length, Piece.tokens, Piece.filterMap_list_clear
      fun piece empty => by rw [Piece.token?, Piece.kind?, Piece.content_of_isFilled empty]; rfl]
    rw [Piece.filterMap_filter_of_none]
    · rfl
    · intro piece hollow
      rcases Piece.content_of_isSolid hollow with blank | ⟨char, unrecognized⟩
      · rw [Piece.token?, Piece.kind?, blank]
        rfl
      · rw [Piece.token?, Piece.kind?, unrecognized]
        rfl
  · rw [(recorded_lex _).2, (recorded_lex _).2, Piece.filterMap_list_clear
      fun piece empty => by rw [Piece.comment?, Piece.content_of_isFilled empty]]
    refine Piece.filterMap_filter_of_none (fun piece hollow => ?_) _
    rcases Piece.content_of_isSolid hollow with blank | ⟨char, unrecognized⟩
    · rw [Piece.comment?, blank]
    · rw [Piece.comment?, unrecognized]
  · rw [(recorded_lex _).1, (recorded_lex _).1, Piece.faults, Piece.faults,
      Piece.filterMap_list_clear fun piece empty => by
        rw [Piece.error?, Piece.content_of_isFilled empty]]
    rw [List.filterMap_filter, List.filter_filterMap]
    refine congrArg (List.filterMap · _) (funext fun piece => ?_)
    obtain ⟨start, text, content⟩ := piece
    cases content <;> rfl

end Vibescript
