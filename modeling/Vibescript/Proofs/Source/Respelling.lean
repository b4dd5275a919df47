import Vibescript.Proofs.Source.Lookahead

/-!
# Texts without the import function

`respell` writes another identifier of the same length wherever a source text has the name of the
function for imports as an identifier. The pieces of the text stay, apart from those that are
respelled: what is read at a character depends on the characters that it takes and on three more
at most, and the two spellings differ in none of their first three.
-/
namespace Vibescript

namespace Content

/-- Two texts begin with the same three characters, if they have so many. -/
def SameOpening (left right : List Char) : Prop := left.take 3 = right.take 3

section

variable {left right : List Char}

/-- The first characters are the same. -/
theorem SameOpening.head? (same : SameOpening left right) : left.head? = right.head? := by
  rcases left with _ | ⟨first, left⟩ <;> rcases right with _ | ⟨other, right⟩ <;>
    simp_all [SameOpening]

/-- Fewer characters are the same as well. -/
theorem SameOpening.take (same : SameOpening left right) {count : Nat} (few : count ≤ 3) :
    left.take count = right.take count := by
  rw [← Nat.min_eq_left few, ← List.take_take, ← List.take_take, same]

/-- The texts go on alike after other characters. -/
theorem SameOpening.append (same : SameOpening left right) (before : List Char) :
    SameOpening (before ++ left) (before ++ right) := by
  rw [SameOpening, List.take_append, List.take_append, same.take (Nat.sub_le 3 _)]

/-- The texts begin alike. -/
theorem SameOpening.alike (same : SameOpening left right) : Alike 3 left right := .of_take same

/-- A name takes the same mark. -/
theorem SameOpening.takesMarker (same : SameOpening left right) :
    takesMarker left = takesMarker right := same.alike.takesMarker.1.symm

end

/-- A word that is an identifier is its text. -/
theorem toList_of_ofWord {text : List Char} {name : String}
    (isName : TokenKind.ofWord (String.ofList text) = .identifier name) : name.toList = text := by
  rcases TokenKind.ofWord_cases (String.ofList text) with same | same | ⟨tag, spelled, same⟩
  · rw [same] at isName
    contradiction
  · rw [same] at isName
    rw [← TokenKind.identifier.inj isName, String.toList_ofList]
  · rw [same] at isName
    contradiction

/-- A name in upper case is no identifier in lower case. -/
theorem upperWord_ne (first : Char) (rest : List Char) (isUpper : first.isUpper = true)
    (name : String) : (upperWord first rest).1 ≠ .token (.identifier name) := by
  intro same
  have word := TokenKind.ofWord (String.ofList (first :: rest.takeWhile isWordChar))
  simp [upperWord, TokenKind.ofWord, isUpper] at same

/-- An identifier is a name in lower case, in code. -/
theorem read_identifier {mode : Mode} {before : Option Char} {first : Char} {rest : List Char}
    {name : String} (reads : (read mode before first rest).1 = .token (.identifier name)) :
    mode = .code ∧ read mode before first rest = word first rest ∧
      name.toList = first :: rest.take (read mode before first rest).2 := by
  cases mode with
  | string opening =>
    simp only [read, inString] at reads
    split at reads
    · simp at reads
    split at reads
    · split at reads
      · simp at reads
      · split at reads <;> simp at reads
    · simp at reads
  | code =>
    have isWord : read .code before first rest = word first rest := by
      simp only [read, inCode] at reads ⊢
      split at reads
      · simp at reads
      next notSeparator =>
      rw [if_neg notSeparator]
      split at reads
      · simp only [hash] at reads
        split at reads <;> simp at reads
      next notHash =>
      rw [if_neg notHash]
      split at reads
      · next isWord => rw [if_pos isWord]
      exfalso
      split at reads
      · next isUpper => exact upperWord_ne first rest isUpper name reads
      split at reads
      · rcases fraction_cases rest with ⟨digit, after, fraction, isDigit⟩ | whole
        · rw [number_float first fraction isDigit] at reads
          simp at reads
        · rw [number_integer first whole] at reads
          simp only [number.integer] at reads
          split at reads <;> simp at reads
      split at reads
      · simp at reads
      split at reads
      · simp only [sigil] at reads
        split at reads
        · split at reads <;> simp at reads
        · simp at reads
      split at reads
      · simp only [colon] at reads
        split at reads <;> simp at reads
      · simp only [mark] at reads
        split at reads
        · next found =>
          obtain ⟨second, _, found⟩ := Option.bind_eq_some_iff.mp found
          obtain ⟨tag, spelled, rfl⟩ := TokenKind.of_mark? found
          simp at reads
        · split at reads
          · next found =>
            obtain ⟨tag, spelled, rfl⟩ := TokenKind.of_mark? found
            simp at reads
          · simp at reads
    rw [isWord, word_eq] at reads
    refine ⟨rfl, isWord, ?_⟩
    rw [isWord]
    exact toList_of_ofWord (token.inj reads)

end Content

namespace Piece

/-- The import function is called by another name of the same length. -/
def respelled (piece : Piece) : Piece :=
  if piece.content = .token (.identifier "require") then
    { piece with text := "requirx".toList, content := .token (.identifier "requirx") }
  else piece

/-- An identifier is the text of its piece. -/
theorem text_listFrom (passed : Nat) (mode : Mode) (before : Option Char) (offset : Nat)
    (text : List Char) : ∀ piece ∈ listFrom passed mode before offset text, ∀ name,
      piece.content = .token (.identifier name) → piece.text = name.toList := by
  induction text generalizing passed mode before offset with
  | nil =>
    intro piece member name isName
    cases mode with
    | code => contradiction
    | string opening =>
      rw [List.mem_singleton.mp member] at isName
      contradiction
  | cons char rest ih =>
    cases passed with
    | succ passed => exact ih passed mode _ _
    | zero =>
      intro piece member name isName
      rcases List.mem_cons.mp member with rfl | later
      · exact (Content.read_identifier isName).2.2.symm
      · exact ih _ _ _ _ piece later name isName

/-- Respelling keeps the first three characters. -/
theorem sameOpening_respelled {pieces : List Piece}
    (texts : ∀ piece ∈ pieces, ∀ name, piece.content = .token (.identifier name) →
      piece.text = name.toList) :
    Content.SameOpening (pieces.flatMap (·.text)) (pieces.flatMap (·.respelled.text)) := by
  induction pieces with
  | nil => rfl
  | cons piece pieces ih =>
    have later := ih fun other member => texts other (List.mem_cons_of_mem _ member)
    simp only [List.flatMap_cons]
    by_cases isImport : piece.content = .token (.identifier "require")
    · rw [texts piece List.mem_cons_self _ isImport, respelled, if_pos isImport]
      rfl
    · rw [respelled, if_neg isImport]
      exact later.append piece.text

/-- The respelled import function is read as an identifier. -/
theorem read_respelled {mode : Mode} {before : Option Char} {first : Char}
    {left right taken : List Char} (same : Content.SameOpening left right)
    (reads : Content.read mode before first (taken ++ left) =
      (.token (.identifier "require"), taken.length)) (other : Option Char) :
    "require".toList = first :: taken ∧
      Content.read mode other first ("equirx".toList ++ right) =
        (.token (.identifier "requirx"), "equirx".toList.length) := by
  obtain ⟨rfl, isWord, text⟩ := Content.read_identifier (congrArg Prod.fst reads)
  rw [reads, List.take_left] at text
  obtain ⟨rfl, rfl⟩ : first = 'r' ∧ taken = "equire".toList :=
    (List.cons.inj text).imp Eq.symm Eq.symm
  refine ⟨rfl, ?_⟩
  have isWordRight : Content.read .code other 'r' ("equirx".toList ++ right) =
    Content.word 'r' ("equirx".toList ++ right) := rfl
  rw [reads] at isWord
  rw [isWordRight]
  have words : ∀ char ∈ "equire".toList ++ "equirx".toList, Content.isWordChar char = true :=
    List.all_eq_true.mp (by decide)
  have wordsLeft := fun char member => words char (List.mem_append_left _ member)
  have wordsRight := fun char member => words char (List.mem_append_right _ member)
  have count := congrArg Prod.snd isWord
  simp only [Content.word, List.takeWhile_append_of_pos wordsLeft,
    List.dropWhile_append_of_pos wordsLeft, List.length_append] at count
  -- Nothing after the name belongs to it, and the same stands after the other spelling.
  have ends : left.takeWhile Content.isWordChar = [] := List.eq_nil_of_length_eq_zero (by omega)
  have stops : left.dropWhile Content.isWordChar = left := by
    have whole := List.takeWhile_append_dropWhile (p := Content.isWordChar) (l := left)
    rwa [ends] at whole
  obtain ⟨endsRight, rest, empty, _, stopsRight⟩ := @Content.span_congr left right
    Content.isWordChar [] (by rw [List.nil_append, ends]) fun refuses => same.head? ▸ refuses
  rw [List.nil_append, List.nil_append, ends] at endsRight
  rw [List.nil_append, ends, List.nil_append] at empty
  rw [← empty, List.nil_append] at stopsRight
  rw [stops] at count
  simp only [Content.word, List.takeWhile_append_of_pos wordsRight,
    List.dropWhile_append_of_pos wordsRight, endsRight, stopsRight, ← same.takesMarker]
  rw [← same.take (show 1 ≤ 3 by decide)]
  have noMark : (if Content.takesMarker left then left.take 1 else []) = [] :=
    List.eq_nil_of_length_eq_zero (by omega)
  rw [noMark]
  rfl

/-- Characters that are the same, or the last of the import function and of what it is respelled
to. -/
def Respelt (char other : Char) : Prop := char = other ∨ char = 'e' ∧ other = 'x'

/-- The pieces of a respelled text are the respelled pieces, also after the rest of a piece. -/
theorem listFrom_respelled {passed : Nat} {mode : Mode} {before other : Option Char} {offset : Nat}
    {text head : List Char} (operand : before.any Content.endsOperand = other.any Content.endsOperand)
    (heads : List.Forall₂ Respelt (text.take passed) head) :
    listFrom passed mode other offset
        (head ++ (listFrom passed mode before offset text).flatMap (·.respelled.text)) =
      (listFrom passed mode before offset text).map respelled := by
  induction text generalizing passed mode before other offset head with
  | nil =>
    rw [List.take_nil] at heads
    obtain rfl := List.forall₂_nil_left_iff.mp heads
    cases mode <;> rfl
  | cons char rest ih =>
    cases passed with
    | succ passed =>
      rw [List.take_succ_cons] at heads
      cases heads with
      | @cons _ otherChar _ head alike heads =>
        have sizes : otherChar.utf8Size = char.utf8Size ∧
            (some char).any Content.endsOperand = (some otherChar).any Content.endsOperand := by
          rcases alike with rfl | ⟨rfl, rfl⟩ <;> exact ⟨rfl, rfl⟩
        rw [List.cons_append, listFrom, listFrom, sizes.1]
        exact ih sizes.2 heads
    | zero =>
      rw [List.take_zero] at heads
      obtain rfl := List.forall₂_nil_left_iff.mp heads
      rw [listFrom]
      rcases reads : Content.read mode before char rest with ⟨content, count⟩
      dsimp only
      generalize isMode : content.modeAfter offset mode = later
      generalize isPieces : listFrom count later (some char) (offset + char.utf8Size) rest = pieces
      have whole : pieces.flatMap (·.text) = rest.drop count := isPieces ▸ flatMap_text_listFrom ..
      have same : Content.SameOpening (rest.drop count) (pieces.flatMap (·.respelled.text)) := by
        rw [← whole, ← isPieces]
        exact sameOpening_respelled (text_listFrom _ _ _ _ _)
      have fits : (rest.take count).length = count := by
        have inside := Content.length_read_le mode before char rest
        rw [reads] at inside
        rw [List.length_take, Nat.min_eq_left inside]
      have split : rest.take count ++ rest.drop count = rest := List.take_append_drop count rest
      rw [List.nil_append, List.flatMap_cons, List.map_cons]
      by_cases isImport : content = .token (.identifier "require")
      · subst isImport
        rw [← split] at reads
        obtain ⟨text, respelt⟩ := read_respelled same (reads.trans (by rw [fits])) other
        obtain ⟨rfl, taken⟩ : 'r' = char ∧ "equire".toList = rest.take count := List.cons.inj text
        have heads : List.Forall₂ Respelt (rest.take count) "equirx".toList := by
          rw [← taken]
          exact .cons (.inl rfl) (.cons (.inl rfl) (.cons (.inl rfl) (.cons (.inl rfl)
            (.cons (.inl rfl) (.cons (.inr ⟨rfl, rfl⟩) .nil)))))
        have more := @ih _ later (some 'r') (some 'r') (offset + 'r'.utf8Size) _ rfl heads
        rw [isPieces] at more
        rw [← taken] at fits
        subst fits isMode
        show listFrom 0 mode other offset ('r' :: ("equirx".toList ++ _)) = _
        rw [listFrom, respelt]
        exact congrArg _ more
      · have congr := Content.read_congr same.alike operand (.inl same.head?)
          (Nat.le_of_eq (by rw [split, reads, fits]))
        rw [split, reads] at congr
        have heads : List.Forall₂ Respelt (rest.take count) (rest.take count) :=
          List.forall₂_same.mpr fun _ _ => .inl rfl
        have more := @ih _ later (some char) (some char) (offset + char.utf8Size) _ rfl heads
        rw [isPieces] at more
        rw [respelled, if_neg isImport]
        show listFrom 0 mode other offset (char :: (rest.take count ++ _)) = _
        rw [listFrom, congr]
        dsimp only
        rw [isMode, more, List.take_left' fits]

/-- The pieces of a respelled text are the respelled pieces. -/
theorem list_respelled (source : List Char) :
    list ((list source).flatMap (·.respelled.text)) = (list source).map respelled :=
  @listFrom_respelled 0 .code none none 0 source [] rfl .nil

end Piece

/-- The text with another identifier of the same length for the import function. -/
def respell (source : String) : String :=
  String.ofList ((Piece.list source.toList).flatMap (·.respelled.text))

/-- The import function is called by another name, of the same length. -/
def TokenKind.respelled (kind : TokenKind String) : TokenKind String :=
  if kind = .identifier "require" then .identifier "requirx" else kind

namespace Piece

/-- The pieces of a respelled text. -/
theorem list_respell (source : String) :
    list (respell source).toList = (list source.toList).map respelled := by
  rw [respell, String.toList_ofList]
  exact list_respelled source.toList

/-- A respelled piece is read as the respelled token. -/
theorem kind?_respelled (piece : Piece) :
    piece.respelled.kind? = piece.kind?.map TokenKind.respelled := by
  unfold respelled
  split
  · next isImport => simp [kind?, isImport, TokenKind.respelled]
  · next other =>
    have keeps : ∀ kind ∈ piece.kind?, kind.respelled = kind := by
      intro kind isKind
      refine if_neg fun isName => ?_
      subst isName
      unfold kind? at isKind
      split at isKind <;> simp_all
    cases isKind : piece.kind? with
    | none => rfl
    | some kind => rw [Option.map_some, keeps kind isKind]

/-- The tokens of a respelled text are the respelled tokens. -/
theorem kinds_respell (source : String) :
    (tokens (list (respell source).toList)).map Token.kind =
      ((tokens (list source.toList)).map Token.kind).map TokenKind.respelled := by
  have kinds (pieces : List Piece) :
      (tokens pieces).map Token.kind = pieces.filterMap kind? := by
    rw [tokens, List.map_filterMap]
    refine congrArg (List.filterMap · _) (funext fun piece => ?_)
    rw [token?]
    cases piece.kind? <;> rfl
  rw [kinds, kinds, list_respell, List.filterMap_map, List.map_filterMap]
  exact congrArg (List.filterMap · _) (funext kind?_respelled)

end Piece

end Vibescript
