import Vibescript.Proofs.Source.Wording
import Vibescript.Proofs.Source.Words

/-!
# Keywords and marks as they are spelled

The text under a keyword, an operator or a mark is its spelling. The same holds of the halves of a
symbol, where the grammar takes it apart: its colon is a colon, and the name may be a reserved word.
-/
namespace Vibescript

namespace TokenKind

/-- A mark is the spelling of its tag. -/
theorem spelling_of_mark? {text : String} {kind : TokenKind String}
    (found : mark? text = some kind) : ∃ tag spelled, kind = .fixed tag spelled ∧
      tag.spelling? = some text := by
  obtain ⟨tag, isTag, made⟩ := Option.bind_eq_some_iff.mp found
  obtain ⟨spelled, rfl⟩ := of_ofTag? made
  have both := List.find?_some isTag
  rw [Bool.and_eq_true, beq_iff_eq] at both
  exact ⟨tag, spelled, rfl, both.2⟩

end TokenKind

namespace Content

/-- Content that has a spelling was read from it. -/
def IsSpelled (text : List Char) : Content → Prop
  | token (.fixed tag _) => tag.spelling? = some (String.ofList text)
  | _ => True

/-- A reserved word is its text. -/
theorem isSpelled_ofWord (text : List Char) :
    (token (.ofWord (String.ofList text))).IsSpelled text := by
  obtain same | same | ⟨tag, spelled, same⟩ := TokenKind.ofWord_cases (String.ofList text)
  · rw [same]
    trivial
  · rw [same]
    trivial
  · rw [same]
    exact (TokenKind.of_ofWord_fixed same).2

/-- A comment has no spelling. -/
theorem isSpelled_hash (first : Char) (rest text : List Char) :
    (hash first rest).1.IsSpelled text := by
  simp only [hash]
  split <;> trivial

/-- A number has no spelling. -/
theorem isSpelled_number (first : Char) (rest text : List Char) :
    (number first rest).1.IsSpelled text := by
  have whole (digits : List Char) : (number.integer digits).1.IsSpelled text := by
    simp only [number.integer]
    split <;> trivial
  simp only [number]
  split
  · split
    · trivial
    · exact whole _
  · exact whole _

/-- A variable has no spelling. -/
theorem isSpelled_sigil (rest text : List Char) : (sigil rest).1.IsSpelled text := by
  simp only [sigil]
  split
  · split <;> trivial
  · trivial

/-- A colon is its text. -/
theorem isSpelled_colon (before : Option Char) (rest : List Char) :
    (colon before rest).1.IsSpelled (':' :: rest.take (colon before rest).2) := by
  unfold colon
  split
  · rfl
  · trivial

/-- A mark is its text. -/
theorem isSpelled_mark (first : Char) (rest : List Char) :
    (mark first rest).1.IsSpelled (first :: rest.take (mark first rest).2) := by
  unfold mark
  split
  · next kind found =>
    obtain ⟨second, isSecond, made⟩ := Option.bind_eq_some_iff.mp found
    obtain ⟨others, rfl⟩ := List.head?_eq_some_iff.mp isSecond
    obtain ⟨tag, spelled, rfl, same⟩ := TokenKind.spelling_of_mark? made
    exact same
  · split
    · next kind found =>
      obtain ⟨tag, spelled, rfl, same⟩ := TokenKind.spelling_of_mark? found
      exact same
    · trivial

/-- What is read in code is spelled as its text. -/
theorem isSpelled_inCode (before : Option Char) (first : Char) (rest : List Char) :
    (inCode before first rest).1.IsSpelled (first :: rest.take (inCode before first rest).2) := by
  unfold inCode
  split
  · trivial
  split
  · exact isSpelled_hash first rest _
  split
  · rw [word_eq]
    exact isSpelled_ofWord _
  split
  · simp only [upperWord, ← List.prefix_iff_eq_take.mp (List.takeWhile_prefix isWordChar)]
    exact isSpelled_ofWord _
  split
  · exact isSpelled_number first rest _
  split
  · trivial
  split
  · exact isSpelled_sigil rest _
  split
  · next isColon =>
    rw [beq_iff_eq] at isColon
    exact isColon ▸ isSpelled_colon before rest
  · exact isSpelled_mark first rest

/-- What is read is spelled as its text. -/
theorem isSpelled_read (mode : Mode) (before : Option Char) (first : Char) (rest : List Char) :
    (read mode before first rest).1.IsSpelled (first :: rest.take (read mode before first rest).2) := by
  cases mode with
  | code => exact isSpelled_inCode before first rest
  | string opening =>
    simp only [read, inString]
    split
    · trivial
    split
    · split
      · trivial
      · split <;> trivial
    · trivial

end Content

namespace Token

/-- A token that has a spelling stands where the text is spelled so. -/
def IsSpelled (source : List Char) (token : Token String) : Prop :=
  ∀ word ∈ token.tag.spelling?, token.span.Covers source word.toList

/-- The halves of a symbol are spelled as the text. -/
theorem isSpelled_halves {source : List Char} {name : String} {span : Span}
    (echoes : Echoes source ⟨.symbol name, span⟩) :
    (colonOf span).IsSpelled source ∧ (wordOf name span).IsSpelled source := by
  have covers : span.Covers source (':' :: name.toList) := echoes
  constructor
  · rintro word isWord
    obtain rfl := Option.mem_some.mp (show word ∈ some ":" from isWord)
    obtain ⟨before, after, rfl, rfl⟩ := covers
    exact ⟨before, name.toList ++ after, by simp, rfl⟩
  · have covers : Span.Covers ⟨span.start + 1, span.stop⟩ source name.toList := covers.tail
    intro word isWord
    obtain same | same | ⟨tag, spelled, same⟩ := TokenKind.ofWord_cases name <;>
      rw [wordOf, Token.tag, same] at isWord
    · contradiction
    · contradiction
    · obtain rfl := Option.mem_some.mp ((TokenKind.of_ofWord_fixed same).2 ▸ isWord)
      exact covers

end Token

namespace Piece

/-- Every piece is spelled as its text. -/
theorem isSpelled_of_mem {source : List Char} {piece : Piece} (member : piece ∈ list source) :
    piece.content.IsSpelled piece.text :=
  forall_listFrom (fun text content => content.IsSpelled text) Content.isSpelled_read
    (fun _ => trivial) _ _ _ _ _ piece member

/-- Every token of a source text is spelled as the text. -/
theorem isSpelled_of_mem_tokens {source : List Char} {token : Token String}
    (member : token ∈ tokens (list source)) : token.IsSpelled source := by
  obtain ⟨piece, inside, read⟩ := List.mem_filterMap.mp member
  obtain ⟨kind, isKind, rfl⟩ := Option.map_eq_some_iff.mp read
  have spelled := isSpelled_of_mem inside
  have covers := covers_of_mem inside
  intro word isWord
  cases content : piece.content <;> rw [kind?, content] at isKind <;>
    simp only [Option.some.injEq, reduceCtorEq] at isKind <;> subst isKind
  case token kind =>
    rw [content] at spelled
    cases kind with
    | fixed tag _ =>
      obtain rfl := Option.mem_some.mp (show word ∈ some _ from spelled ▸ isWord)
      exact (String.toList_ofList (l := piece.text)).symm ▸ covers
    | _ => contradiction
  all_goals contradiction

end Piece

end Vibescript
