import Vibescript.Proofs.Source.Lexemes

/-!
# What reading looks ahead at

What is read at a character depends on the characters that it takes and on three more at most. It is
the same wherever the text goes on alike: with the same three characters, or with the same ones up to
a place where one text has a character that starts nothing and the other a space.
-/
namespace Vibescript

namespace Content

/-- A character that starts nothing and that nothing goes on with. -/
structure IsInert (char : Char) : Prop where
  /-- It belongs to no name and to no number. -/
  noWord : isWordChar char = false
  /-- It separates nothing. -/
  noSeparator : Text.isSeparator char = false
  /-- It opens no string literal. -/
  noQuote : char ≠ '"'
  /-- It is no mark by itself. -/
  noMark : (TokenKind.mark? (String.ofList [char]) : Option (TokenKind String)) = none

/-- An inert character is none of those that start something. -/
theorem IsInert.ne {char : Char} (inert : IsInert char) (other : Char)
    (starts : isWordChar other = true ∨ Text.isSeparator other = true ∨ other = '"' ∨
      (TokenKind.mark? (String.ofList [other]) : Option (TokenKind String)).isSome = true) :
    char ≠ other := by
  rintro rfl
  rcases starts with word | separator | quote | mark
  · exact Bool.false_ne_true (inert.noWord.symm.trans word)
  · exact Bool.false_ne_true (inert.noSeparator.symm.trans separator)
  · exact inert.noQuote quote
  · rw [inert.noMark] at mark
    contradiction

/-- Two texts begin with the same characters, so many of them, or up to a place where the first has
an inert character and the second a space. -/
inductive Alike : Nat → List Char → List Char → Prop
  /-- No character is compared. -/
  | zero (left right : List Char) : Alike 0 left right
  /-- Both texts end. -/
  | nil (count : Nat) : Alike count [] []
  /-- The same character. -/
  | cons (char : Char) {count : Nat} {left right : List Char} (more : Alike count left right) :
      Alike (count + 1) (char :: left) (char :: right)
  /-- An inert character and a space. -/
  | blank {char : Char} (inert : IsInert char) (count : Nat) (left right : List Char) :
      Alike count (char :: left) (' ' :: right)

section

variable {count : Nat} {left right : List Char}

/-- Texts that begin alike begin alike for fewer characters. -/
theorem Alike.mono (alike : Alike count left right) {fewer : Nat} (few : fewer ≤ count) :
    Alike fewer left right := by
  induction alike generalizing fewer with
  | zero left right =>
    obtain rfl := Nat.le_zero.mp few
    exact .zero left right
  | nil => exact .nil fewer
  | cons char _ ih =>
    cases fewer with
    | zero => exact .zero _ _
    | succ fewer => exact .cons char (ih (Nat.le_of_succ_le_succ few))
  | blank inert _ left right => exact .blank inert fewer left right

/-- Texts go on alike after other characters. -/
theorem Alike.append (alike : Alike count left right) (before : List Char) :
    Alike count (before ++ left) (before ++ right) := by
  induction before with
  | nil => exact alike
  | cons char before ih => exact (Alike.cons char ih).mono (Nat.le_succ count)

/-- Texts with the same first characters begin alike. -/
theorem Alike.of_take (same : left.take count = right.take count) : Alike count left right := by
  induction count generalizing left right with
  | zero => exact .zero left right
  | succ count ih =>
    rcases left with _ | ⟨first, left⟩ <;> rcases right with _ | ⟨other, right⟩
    · exact .nil _
    · contradiction
    · contradiction
    · obtain ⟨rfl, same⟩ := List.cons.inj same
      exact .cons first (ih (by simpa using same))

/-- The first characters are the same, or inert and a space. -/
theorem Alike.head_cases (alike : Alike (count + 1) left right) : left.head? = right.head? ∨
    ∃ char ∈ left.head?, IsInert char ∧ right.head? = some ' ' := by
  cases alike with
  | nil => exact .inl rfl
  | cons => exact .inl rfl
  | blank inert => exact .inr ⟨_, rfl, inert, rfl⟩

/-- A condition that names alone fulfil holds of both first characters or of neither. -/
theorem Alike.any_head? (alike : Alike (count + 1) left right) {accepts : Char → Bool}
    (narrow : ∀ char, accepts char = true → isWordChar char = true) :
    right.head?.any accepts = left.head?.any accepts := by
  have refuses (char : Char) (noWord : isWordChar char = false) : accepts char = false := by
    by_contra accepted
    exact Bool.false_ne_true (noWord.symm.trans (narrow char (by simpa using accepted)))
  rcases alike.head_cases with same | ⟨char, isHead, inert, isSpace⟩
  · rw [same]
  · rw [isSpace, Option.mem_def.mp isHead]
    exact (refuses ' ' rfl).trans (refuses char inert.noWord).symm

/-- A name takes the same mark. -/
theorem Alike.takesMarker (alike : Alike 3 left right) :
    takesMarker right = takesMarker left ∧
      (Content.takesMarker left = true → right.take 1 = left.take 1) := by
  cases alike with
  | nil => exact ⟨rfl, fun _ => rfl⟩
  | blank inert =>
    have noMark := beq_false_of_ne (inert.ne '?' (by decide +kernel))
    have noBang := beq_false_of_ne (inert.ne '!' (by decide +kernel))
    simp [Content.takesMarker, noMark, noBang]
  | cons first alike =>
    refine ⟨?_, fun _ => rfl⟩
    cases alike with
    | nil => rfl
    | blank inert =>
      have noEquals := inert.ne '=' (by decide +kernel)
      simp [Content.takesMarker, noEquals]
    | cons second alike =>
      cases alike with
      | nil => rfl
      | cons => rfl
      | @blank char inert =>
        have noEquals : (some char != some '=') = (some ' ' != some '=') :=
          bne_iff_ne.mpr (mt Option.some.inj (inert.ne _ (by decide +kernel)))
        simp only [Content.takesMarker, List.head?_cons, List.tail_cons, noEquals]

/-- The characters that a text begins with are the same wherever the text goes on, if they end
before it does. -/
theorem span_congr (accepts : Char → Bool) {taken : List Char}
    (inside : ((taken ++ left).takeWhile accepts).length ≤ taken.length)
    (stops : left.head?.any accepts = false → right.head?.any accepts = false) :
    (taken ++ right).takeWhile accepts = (taken ++ left).takeWhile accepts ∧
      ∃ rest, taken = (taken ++ left).takeWhile accepts ++ rest ∧
        (taken ++ left).dropWhile accepts = rest ++ left ∧
        (taken ++ right).dropWhile accepts = rest ++ right := by
  induction taken with
  | nil =>
    have none (text : List Char) (refuses : text.head?.any accepts = false) :
        text.takeWhile accepts = [] ∧ text.dropWhile accepts = text := by
      cases text with
      | nil => exact ⟨rfl, rfl⟩
      | cons char text =>
        have refused : ¬ accepts char = true := by simpa using refuses
        exact ⟨List.takeWhile_cons_of_neg refused, List.dropWhile_cons_of_neg refused⟩
    have refuses : left.head?.any accepts = false := by
      cases left with
      | nil => rfl
      | cons char left =>
        by_contra accepted
        rw [List.nil_append, List.takeWhile_cons_of_pos (by simpa using accepted)] at inside
        exact absurd inside (Nat.not_succ_le_zero _)
    obtain ⟨noneLeft, allLeft⟩ := none left refuses
    obtain ⟨noneRight, allRight⟩ := none right (stops refuses)
    simp only [List.nil_append]
    rw [noneLeft, noneRight, allLeft, allRight]
    exact ⟨rfl, [], rfl, rfl, rfl⟩
  | cons char taken ih =>
    simp only [List.cons_append] at inside ⊢
    by_cases accepted : accepts char = true
    · rw [List.takeWhile_cons_of_pos accepted] at inside ⊢
      rw [List.takeWhile_cons_of_pos accepted, List.dropWhile_cons_of_pos accepted,
        List.dropWhile_cons_of_pos accepted]
      obtain ⟨takes, rest, whole, drops⟩ := ih (Nat.le_of_succ_le_succ inside)
      exact ⟨congrArg _ takes, rest, congrArg (char :: ·) whole, drops⟩
    · rw [List.takeWhile_cons_of_neg accepted, List.takeWhile_cons_of_neg accepted,
        List.dropWhile_cons_of_neg accepted, List.dropWhile_cons_of_neg accepted]
      exact ⟨rfl, char :: taken, rfl, rfl, rfl⟩

/-- A digit belongs to names. -/
theorem isWordChar_of_isDigitChar {char : Char} (isDigit : isDigitChar char = true) :
    isWordChar char = true := by
  rw [isDigitChar, Bool.or_eq_true] at isDigit
  rw [isWordChar, Char.isAlphanum, Bool.or_eq_true, Bool.or_eq_true]
  exact isDigit.imp_left Or.inr

variable {taken : List Char} (alike : Alike 3 left right)

include alike

/-- A name in lower case is the same. -/
theorem word_congr {first : Char} (takes : (word first (taken ++ left)).2 ≤ taken.length) :
    word first (taken ++ right) = word first (taken ++ left) := by
  have body : ((taken ++ left).takeWhile isWordChar).length ≤ taken.length :=
    Nat.le_trans (Nat.le_add_right _ _) takes
  obtain ⟨names, rest, _, afterLeft, afterRight⟩ :=
    span_congr isWordChar body (alike.any_head? fun _ => id).trans
  obtain ⟨marked, mark⟩ := (alike.append rest).takesMarker
  simp only [word, names, afterLeft, afterRight, marked]
  split
  · next isMarked => rw [mark isMarked]
  · rfl

/-- A name in upper case is the same. -/
theorem upperWord_congr {first : Char}
    (takes : (upperWord first (taken ++ left)).2 ≤ taken.length) :
    upperWord first (taken ++ right) = upperWord first (taken ++ left) := by
  simp only [upperWord, (span_congr isWordChar takes (alike.any_head? fun _ => id).trans).1]

/-- A comment is the same. -/
theorem hash_congr {first : Char} (takes : (hash first (taken ++ left)).2 ≤ taken.length) :
    hash first (taken ++ right) = hash first (taken ++ left) := by
  have stops : left.head?.any (· != '\n') = false → right.head?.any (· != '\n') = false := by
    intro ends
    rcases alike.head_cases with same | ⟨char, isHead, inert, -⟩
    · rwa [← same]
    · rw [Option.mem_def.mp isHead] at ends
      have isBreak : char = '\n' := by simpa using ends
      exact absurd isBreak (inert.ne _ (by decide +kernel))
  simp only [hash, (span_congr (· != '\n') takes stops).1]

omit alike in
/-- A number with a fraction. -/
theorem number_float (first : Char) {rest after : List Char} {digit : Char}
    (fraction : rest.dropWhile isDigitChar = '.' :: digit :: after) (isDigit : digit.isDigit = true) :
    number first rest =
      (.token (.float (Binary64.nearest
          (digitsValue (first :: rest.takeWhile isDigitChar ++ digit :: after.takeWhile isDigitChar))
          (Nat.pow 10 ((digit :: after.takeWhile isDigitChar).filter Char.isDigit).length))),
        (rest.takeWhile isDigitChar).length + 1 + (digit :: after.takeWhile isDigitChar).length) := by
  simp only [number, fraction]
  rw [if_pos isDigit]

omit alike in
/-- A number without a fraction. -/
theorem number_integer (first : Char) {rest : List Char}
    (whole : ∀ digit after, rest.dropWhile isDigitChar = '.' :: digit :: after →
      digit.isDigit = false) :
    number first rest = number.integer (first :: rest.takeWhile isDigitChar) := by
  simp only [number]
  split
  · next digit after fraction => rw [if_neg (by simp [whole digit after fraction])]
  · rfl

omit alike in
/-- A number has a fraction, or it has none. -/
theorem fraction_cases (rest : List Char) :
    (∃ digit after, rest.dropWhile isDigitChar = '.' :: digit :: after ∧ digit.isDigit = true) ∨
      ∀ digit after, rest.dropWhile isDigitChar = '.' :: digit :: after → digit.isDigit = false := by
  by_cases fraction :
      ∃ digit after, rest.dropWhile isDigitChar = '.' :: digit :: after ∧ digit.isDigit = true
  · exact .inl fraction
  · refine .inr fun digit after isFraction => ?_
    by_contra isDigit
    exact fraction ⟨digit, after, isFraction, by simpa using isDigit⟩

omit alike in
/-- A number takes its digits. -/
theorem length_digits_le (first : Char) (rest : List Char) :
    (rest.takeWhile isDigitChar).length ≤ (number first rest).2 := by
  rcases fraction_cases rest with ⟨digit, after, fraction, isDigit⟩ | whole
  · rw [number_float first fraction isDigit]
    dsimp only
    omega
  · rw [number_integer first whole]
    exact Nat.le_refl _

/-- A number is the same. -/
theorem number_congr {first : Char} (takes : (number first (taken ++ left)).2 ≤ taken.length) :
    number first (taken ++ right) = number first (taken ++ left) := by
  have stops (refuses : left.head?.any isDigitChar = false) :=
    (alike.any_head? fun _ => isWordChar_of_isDigitChar).trans refuses
  obtain ⟨names, rest, whole, afterLeft, afterRight⟩ :=
    span_congr isDigitChar (Nat.le_trans (length_digits_le first _) takes) stops
  rcases fraction_cases (taken ++ left) with ⟨digit, after, fraction, isDigit⟩ | integer
  · rw [number_float first fraction isDigit] at takes ⊢
    have lengths := congrArg List.length whole
    rw [List.length_append] at lengths
    simp only [List.length_cons] at takes
    rw [afterLeft] at fraction
    -- The number takes the point and a digit, so they are among the characters that it takes.
    obtain ⟨more, rfl⟩ : ∃ more, rest = '.' :: digit :: more := by
      rcases rest with _ | ⟨point, _ | ⟨other, more⟩⟩
      · simp only [List.length_nil] at lengths
        omega
      · simp only [List.length_cons, List.length_nil] at lengths
        omega
      · rw [List.cons_append, List.cons_append] at fraction
        obtain ⟨rfl, rfl, _⟩ : point = '.' ∧ other = digit ∧ more ++ left = after := by
          simpa using fraction
        exact ⟨more, rfl⟩
    obtain rfl : more ++ left = after := by simpa using fraction
    simp only [List.length_cons] at lengths
    rw [List.cons_append, List.cons_append] at afterRight
    rw [number_float first afterRight isDigit, names,
      (@span_congr _ _ isDigitChar more (by omega) stops).1]
  · have integerRight : ∀ digit after,
        (taken ++ right).dropWhile isDigitChar = '.' :: digit :: after → digit.isDigit = false := by
      intro digit after fraction
      have opening := alike.append rest
      rw [← afterRight, fraction, ← afterLeft] at opening
      generalize (taken ++ left).dropWhile isDigitChar = text at integer opening
      cases opening with
      | cons _ opening =>
        cases opening with
        | cons => exact integer _ _ rfl
        | blank => rfl
    rw [number_integer first integer, number_integer first integerRight, names]

/-- A variable is the same. -/
theorem sigil_congr (takes : (sigil (taken ++ left)).2 ≤ taken.length) :
    sigil (taken ++ right) = sigil (taken ++ left) := by
  -- A second sigil is among the characters that are taken.
  have sigils : ((taken ++ right).take 1).filter (· == '@') =
      ((taken ++ left).take 1).filter (· == '@') := by
    cases taken with
    | cons => rfl
    | nil =>
      cases alike with
      | nil => rfl
      | cons => rfl
      | @blank char inert =>
        have other : (char == '@') = false := by
          refine beq_false_of_ne fun isSigil => ?_
          subst isSigil
          simp [sigil] at takes
          split at takes <;> simp at takes
        simp [other]
  simp only [sigil] at takes ⊢
  rw [sigils]
  generalize isSigils : ((taken ++ left).take 1).filter (· == '@') = sigils at takes ⊢
  have fits : sigils.length ≤ taken.length := by
    split at takes
    · exact Nat.le_trans (Nat.le_add_right _ _) takes
    · exact takes
  rw [List.drop_append_of_le_length fits, List.drop_append_of_le_length fits] at *
  rw [(alike.append (taken.drop sigils.length)).any_head? fun _ => isWordChar_of_isWordStart]
  split
  · next isName =>
    rw [if_pos isName] at takes
    have name : ((taken.drop sigils.length ++ left).takeWhile isWordChar).length ≤
        (taken.drop sigils.length).length := by
      rw [List.length_drop]
      dsimp only at takes
      omega
    rw [(span_congr isWordChar name (alike.any_head? fun _ => id).trans).1]
  · rfl

/-- A colon is the same. -/
theorem colon_congr {before other : Option Char}
    (operand : before.any endsOperand = other.any endsOperand)
    (takes : (colon before (taken ++ left)).2 ≤ taken.length) :
    colon other (taken ++ right) = colon before (taken ++ left) := by
  unfold colon at takes ⊢
  rw [← operand, (alike.append taken).any_head? fun _ => isWordChar_of_isWordStart]
  split
  · rfl
  · next isSymbol =>
    rw [if_neg isSymbol] at takes
    dsimp only
    rw [(span_congr isWordChar takes (alike.any_head? fun _ => id).trans).1]

/-- A mark is the same. -/
theorem mark_congr {first : Char} (takes : (mark first (taken ++ left)).2 ≤ taken.length) :
    mark first (taken ++ right) = mark first (taken ++ left) := by
  rcases (alike.append taken).head_cases with same | ⟨char, isHead, inert, isSpace⟩
  · simp only [mark, same]
  have noSpace : (TokenKind.mark? (String.ofList [first, ' ']) : Option (TokenKind String)) = none :=
    mark?_separator rfl first
  -- A mark of two characters takes the second, so that the texts differ after it.
  have noMark :
      (TokenKind.mark? (String.ofList [first, char]) : Option (TokenKind String)) = none := by
    by_contra isMark
    obtain ⟨kind, isMark⟩ := Option.ne_none_iff_exists'.mp isMark
    cases taken with
    | nil =>
      rw [mark, Option.mem_def.mp isHead, Option.bind_some, isMark] at takes
      exact absurd takes (Nat.not_succ_le_zero 0)
    | cons =>
      have same : ' ' = char := Option.some.inj (isSpace.symm.trans isHead)
      exact absurd (same ▸ inert.noSeparator) Bool.noConfusion
  simp only [mark, Option.mem_def.mp isHead, isSpace, Option.bind_some, noMark, noSpace]

/-- What starts in code is the same, unless it is a run of separators that goes on differently. -/
theorem inCode_congr {before other : Option Char} {first : Char}
    (operand : before.any endsOperand = other.any endsOperand)
    (solid : left.head? = right.head? ∨ Text.isSeparator first = false)
    (takes : (inCode before first (taken ++ left)).2 ≤ taken.length) :
    inCode other first (taken ++ right) = inCode before first (taken ++ left) := by
  unfold inCode at takes ⊢
  split
  · next separator =>
    rw [if_pos separator] at takes
    have same : left.head? = right.head? :=
      solid.resolve_right fun none => Bool.false_ne_true (none.symm.trans separator)
    rw [(span_congr Text.isSeparator takes fun stops => same ▸ stops).1]
  next notSeparator =>
  rw [if_neg notSeparator] at takes
  split
  · next isHash =>
    rw [if_pos isHash] at takes
    exact hash_congr alike takes
  next notHash =>
  rw [if_neg notHash] at takes
  split
  · next isWord =>
    rw [if_pos isWord] at takes
    exact word_congr alike takes
  next notWord =>
  rw [if_neg notWord] at takes
  split
  · next isUpper =>
    rw [if_pos isUpper] at takes
    exact upperWord_congr alike takes
  next notUpper =>
  rw [if_neg notUpper] at takes
  split
  · next isDigit =>
    rw [if_pos isDigit] at takes
    exact number_congr alike takes
  next notDigit =>
  rw [if_neg notDigit] at takes
  split
  · rfl
  next notQuote =>
  rw [if_neg notQuote] at takes
  split
  · next isSigil =>
    rw [if_pos isSigil] at takes
    exact sigil_congr alike takes
  next notSigil =>
  rw [if_neg notSigil] at takes
  split
  · next isColon =>
    rw [if_pos isColon] at takes
    exact colon_congr alike operand takes
  · next notColon =>
    rw [if_neg notColon] at takes
    exact mark_congr alike takes

omit alike in
/-- What starts in a string literal is the same wherever the next character is, and the end of a
literal is the same anyway. -/
theorem inString_congr {first : Char} (solid : left.head? = right.head? ∨ first = '"')
    (takes : (inString first (taken ++ left)).2 ≤ taken.length) :
    inString first (taken ++ right) = inString first (taken ++ left) := by
  unfold inString at takes ⊢
  split
  · rfl
  next notQuote =>
  rw [if_neg notQuote] at takes
  have same := solid.resolve_right fun isQuote => notQuote (beq_iff_eq.mpr isQuote)
  split
  · have head : (taken ++ left).head? = (taken ++ right).head? := by
      rw [List.head?_append, List.head?_append, same]
    generalize taken ++ left = lefts at head
    generalize taken ++ right = rights at head
    rcases lefts with _ | ⟨char, lefts⟩ <;> rcases rights with _ | ⟨other, rights⟩
    · rfl
    · contradiction
    · contradiction
    · obtain rfl := Option.some.inj head
      rfl
  · next notEscape =>
    rw [if_neg notEscape] at takes
    dsimp only
    rw [(span_congr isPlain takes fun stops => same ▸ stops).1]

/-- What starts with a character does not go on with a space: no separators, and in a string literal
only its end. -/
def StopsAtSpace : Mode → Char → Prop
  | .code, first => Text.isSeparator first = false
  | .string _, first => first = '"'

/-- What starts at a character is the same wherever the text goes on alike. -/
theorem read_congr {mode : Mode} {before other : Option Char} {first : Char}
    (operand : before.any endsOperand = other.any endsOperand)
    (solid : left.head? = right.head? ∨ StopsAtSpace mode first)
    (takes : (read mode before first (taken ++ left)).2 ≤ taken.length) :
    read mode other first (taken ++ right) = read mode before first (taken ++ left) := by
  cases mode with
  | code => exact inCode_congr alike operand solid takes
  | string => exact inString_congr solid takes

end

end Content

end Vibescript
