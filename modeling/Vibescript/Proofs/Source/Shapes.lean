import Vibescript.Proofs.Source.Printing
import Vibescript.Proofs.Source.Wording

/-!
# The shapes of names

Every name that a token of a text carries has the shape of its kind: an identifier is a word with at
most one mark at its end, a constant and what follows a sigil or a colon are words without one. So
no name holds a space, a bracket or a quotation mark, and no identifier is spelled like a reserved
word.
-/
namespace Vibescript

open Content

/-- A character of a name: a word character or a mark. -/
def Text.isNameChar (char : Char) : Bool := isWordChar char || char == '?' || char == '!'

/-- A name: at least one character, and no other than those of names. -/
structure Text.IsName (text : List Char) : Prop where
  /-- There is a character. -/
  filled : text ≠ []
  /-- Every character may stand in a name. -/
  all : ∀ char ∈ text, isNameChar char = true

namespace Text

variable {text : List Char}

/-- Word characters may stand in a name. -/
theorem isNameChar_word {char : Char} (isWord : isWordChar char = true) : isNameChar char = true := by
  rw [isNameChar, isWord]
  rfl

/-- A word is a name. -/
theorem IsName.of_word {first : Char} {body : List Char} (starts : isWordChar first = true)
    (words : ∀ char ∈ body, isWordChar char = true) : IsName (first :: body) :=
  ⟨List.cons_ne_nil _ _, List.forall_mem_cons.mpr
    ⟨isNameChar_word starts, fun char member => isNameChar_word (words char member)⟩⟩

/-- An identifier is a name. -/
theorem IsIdentifier.isName (shape : IsIdentifier text) : IsName text := by
  obtain ⟨first, body, marker, rfl, starts, words, marks⟩ := shape
  refine ⟨List.cons_ne_nil _ _, List.forall_mem_cons.mpr
    ⟨isNameChar_word (starts_lower starts).2, List.forall_mem_append.mpr
      ⟨fun char member => isNameChar_word (words char member), ?_⟩⟩⟩
  rcases marks with rfl | rfl | rfl
  · exact List.forall_mem_nil _
  · exact List.forall_mem_singleton.mpr rfl
  · exact List.forall_mem_singleton.mpr rfl

/-- A constant is a name. -/
theorem IsConstant.isName (shape : IsConstant text) : IsName text := by
  obtain ⟨first, body, rfl, starts, words⟩ := shape
  exact .of_word (by rw [isWordChar_eq, starts]; rfl) words

/-- What follows a sigil or a colon is a name. -/
theorem IsBare.isName (shape : IsBare text) : IsName text := by
  obtain ⟨first, body, rfl, starts, words⟩ := shape
  exact .of_word (isWordChar_of_isWordStart starts) words

/-- A bare name is an identifier or a constant. -/
theorem IsBare.identifier_or_constant (shape : IsBare text) :
    IsIdentifier text ∨ IsConstant text := by
  obtain ⟨first, body, rfl, starts, words⟩ := shape
  replace starts : (first.isUpper || first.isLower || first == '_') = true := starts
  rw [Bool.or_eq_true, Bool.or_eq_true, beq_iff_eq] at starts
  rcases starts with (upper | lower) | score
  · exact .inr ⟨first, body, rfl, upper, words⟩
  · exact .inl ⟨first, body, [], by simp, .inl lower, words, .inl rfl⟩
  · exact .inl ⟨first, body, [], by simp, .inr score, words, .inl rfl⟩

/-- A constant has no mark. -/
theorem IsConstant.getLast?_ne (shape : IsConstant text) : text.getLast? ≠ some '?' := by
  obtain ⟨first, body, rfl, starts, words⟩ := shape
  intro marked
  have last := List.mem_of_getLast? marked
  rcases List.mem_cons.mp last with rfl | later
  · contradiction
  · exact absurd (words _ later) (by decide)

/-- An identifier has no mark before its last character. -/
theorem IsIdentifier.getLast?_ne (shape : IsIdentifier (text ++ ['?'])) :
    text ≠ [] ∧ text.getLast? ≠ some '?' := by
  obtain ⟨first, body, marker, whole, starts, words, marks⟩ := shape
  have plain : ∀ char ∈ first :: body, isWordChar char = true :=
    List.forall_mem_cons.mpr ⟨(starts_lower starts).2, words⟩
  -- The mark at the end is the mark of the identifier.
  obtain rfl : text = first :: body := by
    rcases marks with rfl | rfl | rfl
    · rw [List.append_nil] at whole
      have last := plain '?' (whole ▸ List.mem_append_right _ List.mem_cons_self)
      contradiction
    · exact List.append_inj_left' whole rfl
    · exact absurd (List.append_inj_right' (show text ++ ['?'] = (first :: body) ++ ['!'] from whole)
        rfl) (by decide)
  refine ⟨List.cons_ne_nil _ _, fun marked => ?_⟩
  have last := plain '?' (List.mem_of_getLast? marked)
  contradiction

end Text

namespace TokenKind

/-- A name has the shape of its kind. -/
def IsShaped : TokenKind String → Prop
  | identifier name => Text.IsIdentifier name.toList ∧ name ≠ "nil"
  | constant name => Text.IsConstant name.toList
  | symbol name | instanceVariable name | classVariable name => Text.IsBare name.toList
  | _ => True

/-- Whatever a token names, apart from the text of a literal, is a name. -/
theorem IsShaped.isName {kind : TokenKind String} (shaped : kind.IsShaped)
    (plain : ∀ text, kind ≠ .stringContent text) :
    ∀ name ∈ kind.name?, Text.IsName name.toList := by
  intro name member
  cases kind <;> simp only [name?, Option.mem_def, Option.some.injEq, reduceCtorEq] at member <;>
    subst member
  case identifier => exact shaped.1.isName
  case constant => exact Text.IsConstant.isName shaped
  case stringContent text => exact absurd rfl (plain text)
  all_goals exact Text.IsBare.isName shaped

/-- A word is a constant if it starts in upper case. -/
theorem isShaped_ofWord {text : List Char} (shape : Text.IsIdentifier text ∨ Text.IsConstant text) :
    (ofWord (String.ofList text)).IsShaped := by
  obtain same | same | ⟨tag, spelled, same⟩ := ofWord_cases (String.ofList text) <;> rw [same]
  · -- A constant starts in upper case, so its shape is not that of an identifier.
    rw [IsShaped, String.toList_ofList]
    refine shape.resolve_left fun lower => ?_
    obtain ⟨first, body, marker, rfl, starts, -⟩ := lower
    rw [ofWord, String.toList_ofList, if_neg (by simp [(starts_lower starts).1])] at same
    cases found : (keyword? (String.ofList (first :: (body ++ marker))) :
        Option (TokenKind String)) with
    | none => rw [found] at same; contradiction
    | some kind =>
      obtain ⟨tag, _, made⟩ := Option.bind_eq_some_iff.mp found
      obtain ⟨spelled, rfl⟩ := of_ofTag? made
      rw [found] at same
      contradiction
  · rw [IsShaped, String.toList_ofList]
    refine ⟨shape.resolve_right fun upper => ?_, fun isNil => ?_⟩
    · obtain ⟨first, body, rfl, starts, -⟩ := upper
      rw [ofWord, String.toList_ofList, if_pos (by simp [starts])] at same
      contradiction
    · rw [isNil] at same
      exact absurd same (by decide)
  · trivial

end TokenKind

namespace Content

/-- The name of a token has the shape of its kind. -/
def IsShaped : Content → Prop
  | token kind => kind.IsShaped
  | _ => True

/-- A name in lower case is an identifier or a reserved word. -/
theorem isShaped_word {first : Char} (starts : first.isLower = true ∨ first = '_')
    (rest : List Char) : (word first rest).1.IsShaped := by
  refine TokenKind.isShaped_ofWord (.inl ⟨first, _, _, rfl, starts,
    List.all_eq_true.mp List.all_takeWhile, ?_⟩)
  split
  · next takes =>
    cases after : rest.dropWhile isWordChar with
    | nil => rw [after] at takes; contradiction
    | cons marker more =>
      rw [after, takesMarker, Bool.and_eq_true, Bool.or_eq_true, beq_iff_eq, beq_iff_eq] at takes
      rcases takes.1 with rfl | rfl
      · exact .inr (.inl rfl)
      · exact .inr (.inr rfl)
  · exact .inl rfl

/-- A name in upper case is a constant. -/
theorem isShaped_upperWord {first : Char} (starts : first.isUpper = true) (rest : List Char) :
    (upperWord first rest).1.IsShaped :=
  TokenKind.isShaped_ofWord (.inr ⟨first, _, rfl, starts, List.all_eq_true.mp List.all_takeWhile⟩)

/-- A comment has no name. -/
theorem isShaped_hash (first : Char) (rest : List Char) : (hash first rest).1.IsShaped := by
  simp only [hash]
  split <;> trivial

/-- A number has no name. -/
theorem isShaped_number (first : Char) (rest : List Char) : (number first rest).1.IsShaped := by
  have integer (digits : List Char) : (number.integer digits).1.IsShaped := by
    rw [number.integer]
    split <;> trivial
  simp only [number]
  split
  · split
    · trivial
    · exact integer _
  · exact integer _

/-- Word characters from the start of a word on are a bare name. -/
theorem isBare_takeWhile {text : List Char} (starts : text.head?.any isWordStart = true) :
    Text.IsBare (text.takeWhile isWordChar) := by
  cases text with
  | nil => contradiction
  | cons first rest =>
    have isStart : isWordStart first = true := starts
    rw [List.takeWhile_cons_of_pos (isWordChar_of_isWordStart isStart)]
    exact ⟨first, _, rfl, isStart, List.all_eq_true.mp List.all_takeWhile⟩

/-- A variable has a bare name. -/
theorem isShaped_sigil (rest : List Char) : (sigil rest).1.IsShaped := by
  simp only [sigil]
  split
  · next starts =>
    have bare := isBare_takeWhile starts
    rw [← String.toList_ofList (l := List.takeWhile _ _)] at bare
    split <;> exact bare
  · trivial

/-- A symbol has a bare name. -/
theorem isShaped_colon (before : Option Char) (rest : List Char) :
    (colon before rest).1.IsShaped := by
  unfold colon
  split
  · trivial
  · next other =>
    rw [Bool.or_eq_true, not_or, Bool.not_eq_true', Bool.not_eq_false] at other
    show Text.IsBare (String.ofList (rest.takeWhile isWordChar)).toList
    rw [String.toList_ofList]
    exact isBare_takeWhile other.2

/-- A mark has no name. -/
theorem isShaped_mark (first : Char) (rest : List Char) : (mark first rest).1.IsShaped := by
  obtain ⟨tag, spelled, same⟩ | same := mark_cases first rest <;> rw [same] <;> trivial

/-- What is read has a name of the shape of its kind. -/
theorem isShaped_read (mode : Mode) (before : Option Char) (first : Char) (rest : List Char) :
    (read mode before first rest).1.IsShaped := by
  cases mode with
  | code =>
    unfold read inCode
    dsimp only
    split
    · trivial
    split
    · exact isShaped_hash first rest
    split
    · next starts => exact isShaped_word (by simpa using starts) rest
    split
    · next starts => exact isShaped_upperWord starts rest
    split
    · exact isShaped_number first rest
    split
    · trivial
    split
    · exact isShaped_sigil rest
    split
    · exact isShaped_colon before rest
    · exact isShaped_mark first rest
  | string opening =>
    simp only [read, inString]
    split
    · trivial
    split
    · split
      · trivial
      · split <;> trivial
    · trivial

end Content

namespace Piece

/-- Every piece has a name of the shape of its kind. -/
theorem isShaped_of_mem {source : List Char} {piece : Piece} (member : piece ∈ list source) :
    piece.content.IsShaped :=
  forall_listFrom (fun _ content => content.IsShaped) Content.isShaped_read (fun _ => trivial) _ _ _
    _ _ piece member

/-- Every token of a text has a name of the shape of its kind. -/
theorem isShaped_of_mem_tokens {source : List Char} {token : Token String}
    (member : token ∈ tokens (list source)) : token.kind.IsShaped := by
  obtain ⟨piece, inside, read⟩ := List.mem_filterMap.mp member
  obtain ⟨kind, isKind, rfl⟩ := Option.map_eq_some_iff.mp read
  have shaped := isShaped_of_mem inside
  cases content : piece.content <;> rw [kind?, content] at isKind <;>
    simp only [Option.some.injEq, reduceCtorEq] at isKind <;> subst isKind
  case token kind =>
    rw [content] at shaped
    exact shaped
  all_goals trivial

end Piece

namespace Text

variable {separator padding char : Char} {text part : List Char}

/-- The parts of a text have its characters, without the separator. -/
theorem of_mem_splitOn (member : part ∈ splitOn separator text) (inside : char ∈ part) :
    char ∈ text ∧ char ≠ separator := by
  induction text generalizing part with
  | nil =>
    rw [List.mem_singleton.mp member] at inside
    contradiction
  | cons first rest ih =>
    rw [splitOn] at member
    split at member
    · rcases List.mem_cons.mp member with rfl | later
      · contradiction
      · exact (ih later inside).imp_left (List.mem_cons_of_mem _)
    · next other =>
      split at member
      · rw [List.mem_singleton.mp member, List.mem_singleton] at inside
        subst inside
        exact ⟨List.mem_cons_self, other⟩
      · next front parts whole =>
        rw [whole] at ih
        rcases List.mem_cons.mp member with rfl | later
        · rcases List.mem_cons.mp inside with rfl | tail
          · exact ⟨List.mem_cons_self, other⟩
          · exact (ih List.mem_cons_self tail).imp_left (List.mem_cons_of_mem _)
        · exact (ih (List.mem_cons_of_mem _ later) inside).imp_left (List.mem_cons_of_mem _)

/-- A trimmed text has characters of the text only. -/
theorem of_mem_trimBoth (inside : char ∈ trimBoth padding text) : char ∈ text := by
  have dropped (list : List Char) : ∀ other ∈ list.dropWhile (· == padding), other ∈ list :=
    fun other member => (List.dropWhile_suffix _).subset member
  have front := dropped _ char (List.mem_reverse.mp inside)
  exact dropped _ char (List.mem_reverse.mp front)

end Text

namespace Directive

/-- A word of a list of capabilities is a name. -/
theorem isName_of_uses? {text : List Char} {names : List String}
    (declares : uses? text = some (.uses names)) : ∀ name ∈ names, Text.IsName name.toList := by
  rw [uses?] at declares
  split at declares
  · contradiction
  next lawful =>
  simp only [Bool.or_eq_true, Bool.not_eq_true', not_or, Bool.not_eq_false, Bool.not_eq_true] at lawful
  obtain ⟨⟨allowed, -⟩, single⟩ := lawful
  obtain rfl := Directive.uses.inj (Option.some.inj declares)
  intro name member
  obtain ⟨word, isWord, rfl⟩ := List.mem_map.mp member
  have spaceless := List.any_eq_false.mp single word isWord
  obtain ⟨trimmed, filled⟩ := List.mem_filter.mp isWord
  obtain ⟨part, isPart, rfl⟩ := List.mem_map.mp trimmed
  rw [String.toList_ofList]
  refine ⟨by simpa using filled, fun char inside => ?_⟩
  obtain ⟨own, noComma⟩ := Text.of_mem_splitOn isPart (Text.of_mem_trimBoth inside)
  have noSpace : char ≠ ' ' := by
    rintro rfl
    exact spaceless (List.contains_iff_mem.mpr inside)
  have uses := List.all_eq_true.mp allowed char own
  simp only [isUsesChar, Bool.or_eq_true, beq_iff_eq, noComma, noSpace, or_false] at uses
  exact Text.isNameChar_word (starts_lower uses).2

/-- The capabilities that a comment declares are names. -/
theorem isName_of_mem_usesNames {comment : List Char} {name : String}
    (member : name ∈ usesNames comment) : Text.IsName name.toList := by
  rw [usesNames] at member
  split at member
  · next names classified =>
    unfold classify at classified
    dsimp only at classified
    split at classified
    · next version =>
      unfold version? at classified
      split at classified
      · contradiction
      · obtain ⟨_, _, minor⟩ := Option.bind_eq_some_iff.mp classified
        obtain ⟨_, _, same⟩ := Option.bind_eq_some_iff.mp minor
        exact Directive.noConfusion (Option.some.inj same)
    · split at classified
      · exact isName_of_uses? classified name member
      · contradiction
  · contradiction

end Directive

/-- The halves of a symbol have names of the shapes of their kinds. -/
theorem Token.isShaped_halves {name : String} {span : Span}
    (shaped : (TokenKind.symbol name).IsShaped) :
    (Token.colonOf span).kind.IsShaped ∧ (Token.wordOf name span).kind.IsShaped := by
  refine ⟨trivial, ?_⟩
  have word := TokenKind.isShaped_ofWord (Text.IsBare.identifier_or_constant shaped)
  rwa [String.ofList_toList] at word

end Vibescript
