import Mathlib.Data.List.DropRight
import Vibescript.Diagnostic.LineTable
import Vibescript.Proofs.Source.Layout

/-!
# Lines and columns tell where a text was cut

A line table knows only where lines start. Of a text cut in two at a character boundary it gives
what can be counted in the first part: the line is one more than its line feeds, and the column one
more than the characters after the last of them. So positions are ordered as the boundaries are, and
the character after a boundary is found again in its line, unless it belongs to the line's ending.
-/
namespace Vibescript

/-! ## Line feeds among the bytes -/

namespace Text

/-- The UTF-8 bytes of a text. -/
def bytes (text : List Char) : List UInt8 := text.flatMap String.utf8EncodeChar

/-- Number of line feed bytes before an offset. -/
def lineFeedsBefore (text : List Char) (offset : Nat) : Nat := ((bytes text).take offset).count 10

/-- What stands on the last line of a text. -/
def lastLine (text : List Char) : List Char := text.rtakeWhile (· ≠ '\n')

/-- A text up to its last line feed. -/
def fullLines (text : List Char) : List Char := text.rdropWhile (· ≠ '\n')

/-- A line feed is one byte, and that byte stands in no other character. -/
theorem mem_utf8EncodeChar_iff {char : Char} :
    (10 : UInt8) ∈ String.utf8EncodeChar char ↔ char = '\n' := by
  have ofNat (code : Nat) : (10 : UInt8) = UInt8.ofNat code ↔ 10 = code % 256 := by
    rw [← UInt8.toNat_inj, UInt8.toNat_ofNat']
    rfl
  have feed : char = '\n' ↔ char.val.toNat = 10 := by
    rw [← Char.val_inj, ← UInt32.toNat_inj]
    rfl
  rw [feed, String.utf8EncodeChar]
  split_ifs <;> simp only [List.mem_cons, List.not_mem_nil, or_false, ofNat] <;> omega

/-- How many line feed bytes stand at the start of a character. -/
theorem count_take_utf8EncodeChar (char : Char) (offset : Nat) :
    ((String.utf8EncodeChar char).take offset).count 10 =
      if char = '\n' ∧ 0 < offset then 1 else 0 := by
  by_cases feed : char = '\n'
  · subst feed
    have alone : String.utf8EncodeChar '\n' = [10] := by decide
    cases offset <;> simp [alone]
  · rw [if_neg fun both => feed both.1]
    exact List.count_eq_zero.mpr fun member =>
      feed (mem_utf8EncodeChar_iff.mp (List.mem_of_mem_take member))

@[simp] theorem lineFeedsBefore_nil (offset : Nat) : lineFeedsBefore [] offset = 0 := by
  simp [lineFeedsBefore, bytes]

/-- The line feeds before an offset, one character after the other. -/
theorem lineFeedsBefore_cons (char : Char) (rest : List Char) (offset : Nat) :
    lineFeedsBefore (char :: rest) offset =
      (if char = '\n' ∧ 0 < offset then 1 else 0) +
        lineFeedsBefore rest (offset - char.utf8Size) := by
  rw [lineFeedsBefore, bytes, List.flatMap_cons, List.take_append, List.count_append,
    count_take_utf8EncodeChar, String.length_utf8EncodeChar]
  rfl

/-- The line feeds before a boundary are those of the text before it. -/
theorem lineFeedsBefore_byteLength (before after : List Char) :
    lineFeedsBefore (before ++ after) (byteLength before) = before.count '\n' := by
  induction before with
  | nil => simp [lineFeedsBefore]
  | cons char rest ih =>
    have positive := Char.utf8Size_pos char
    rw [List.cons_append, lineFeedsBefore_cons, byteLength_cons, Nat.add_sub_cancel_left, ih,
      List.count_cons, Nat.add_comm]
    congr 1
    simp [show 0 < char.utf8Size + byteLength rest by omega]

/-- A character takes at least one byte. -/
theorem length_le_byteLength (text : List Char) : text.length ≤ byteLength text := by
  induction text with
  | nil => exact Nat.le_refl 0
  | cons char rest ih =>
    have positive := Char.utf8Size_pos char
    rw [List.length_cons, byteLength_cons]
    omega

/-! ## The last line of a text -/

/-- Up to the first line feed of a text there is none. -/
theorem not_mem_takeWhile (text : List Char) : '\n' ∉ text.takeWhile (· ≠ '\n') := fun member =>
  absurd (List.mem_takeWhile_imp member) (by decide)

/-- From the first line feed on, a text starts with it. -/
theorem dropWhile_eq (text : List Char) :
    text.dropWhile (· ≠ '\n') = [] ∨ ∃ tail, text.dropWhile (· ≠ '\n') = '\n' :: tail := by
  cases rest : text.dropWhile (· ≠ '\n') with
  | nil => exact .inl rfl
  | cons feed tail =>
    have some : text.dropWhile (· ≠ '\n') ≠ [] := by
      rw [rest]
      exact List.cons_ne_nil _ _
    have stops := List.head_dropWhile_not (fun char => decide (char ≠ '\n')) some
    simp only [rest, List.head_cons, decide_eq_false_iff_not, not_not] at stops
    exact .inr ⟨tail, by rw [stops]⟩

theorem fullLines_append_lastLine (text : List Char) : fullLines text ++ lastLine text = text :=
  List.rdropWhile_append_rtakeWhile

/-- No line feed stands on the last line. -/
theorem not_mem_lastLine (text : List Char) : '\n' ∉ lastLine text := fun member =>
  absurd (List.mem_rtakeWhile_imp member) (by decide)

/-- The full lines of a text end with a line feed, if there are any. -/
theorem fullLines_eq (text : List Char) :
    fullLines text = [] ∨ ∃ front, fullLines text = front ++ ['\n'] := by
  by_cases none : fullLines text = []
  · exact .inl none
  · have last : (fullLines text).getLast none = '\n' := not_not.mp fun other =>
      List.rdropWhile_last_not _ _ none (decide_eq_true other)
    exact .inr ⟨_, by rw [← last, List.dropLast_append_getLast]⟩

theorem count_fullLines (text : List Char) : (fullLines text).count '\n' = text.count '\n' := by
  conv_rhs => rw [← fullLines_append_lastLine text, List.count_append]
  rw [List.count_eq_zero.mpr (not_mem_lastLine text), Nat.add_zero]

/-- More text on the same line goes on with the last line. -/
theorem lastLine_append {before more : List Char} (sameLine : '\n' ∉ more) :
    lastLine (before ++ more) = lastLine before ++ more := by
  have all : ∀ char ∈ more.reverse, decide (char ≠ '\n') = true := fun char member =>
    decide_eq_true fun feed => sameLine (feed ▸ List.mem_reverse.mp member)
  rw [lastLine, List.rtakeWhile, List.reverse_append, List.takeWhile_append_of_pos all,
    List.reverse_append, List.reverse_reverse]
  rfl

/-- A text that ends with a line feed has full lines only. -/
theorem fullLines_concat_lineFeed (front : List Char) :
    fullLines (front ++ ['\n']) = front ++ ['\n'] :=
  List.rdropWhile_concat_neg _ _ _ (by decide)

end Text

namespace LineTable

open Text

/-! ## What a line table holds -/

/-- The starts of lines in a text that follows another one. -/
theorem startsAfter_append (offset : Nat) (before after : List Char) :
    startsAfter offset (before ++ after) =
      startsAfter offset before ++ startsAfter (offset + byteLength before) after := by
  induction before generalizing offset with
  | nil => rfl
  | cons char rest ih =>
    rw [List.cons_append, startsAfter, startsAfter, ih, byteLength_cons, Nat.add_assoc]
    split <;> rfl

/-- A line starts after every line feed. -/
theorem length_startsAfter (offset : Nat) (text : List Char) :
    (startsAfter offset text).length = text.count '\n' := by
  induction text generalizing offset with
  | nil => rfl
  | cons char rest ih =>
    rw [startsAfter, List.count_cons]
    split <;> simp_all

/-- A line starts at or before an offset for every line feed before the offset. -/
theorem countP_startsAfter (start offset : Nat) (text : List Char) :
    (startsAfter start text).countP (· ≤ offset) = lineFeedsBefore text (offset - start) := by
  induction text generalizing start with
  | nil => simp [startsAfter]
  | cons char rest ih =>
    rw [lineFeedsBefore_cons, Nat.sub_sub, ← ih, startsAfter]
    by_cases feed : char = '\n'
    · subst feed
      have size : '\n'.utf8Size = 1 := rfl
      simp only [if_true, List.countP_cons, decide_eq_true_eq, size, true_and]
      rw [Nat.add_comm]
      congr 1
      exact if_congr (by omega) rfl rfl
    · simp [feed]

/-- The line of an offset is one more than the line feeds before it. -/
theorem line_ofSource (source : List Char) (offset : Nat) :
    (ofSource source).line offset = 1 + lineFeedsBefore source offset := by
  simp only [line, ofSource]
  rw [List.countP_cons_of_pos (by simp), countP_startsAfter, Nat.sub_zero, Nat.add_comm]

/-- The last line before a boundary starts after the full lines. -/
theorem starts_ofSource (before after : List Char) :
    (ofSource (before ++ after)).starts[before.count '\n']? =
      some (byteLength (fullLines before)) := by
  have whole : before ++ after = fullLines before ++ (lastLine before ++ after) := by
    rw [← List.append_assoc, fullLines_append_lastLine]
  rw [← count_fullLines, whole, ofSource]
  rcases fullLines_eq before with none | ⟨front, some⟩
  · rw [none]
    rfl
  · have later : front ++ ['\n'] ++ (lastLine before ++ after) =
        front ++ '\n' :: (lastLine before ++ after) := by simp
    rw [some, later, startsAfter_append, startsAfter, if_pos rfl, List.count_append,
      ← length_startsAfter 0, Nat.zero_add, byteLength_append]
    change (0 :: (_ ++ _))[_ + 1]? = _
    rw [List.getElem?_cons_succ, List.getElem?_append_right le_rfl, Nat.sub_self]
    rfl

/-- The position of a boundary. -/
theorem position_ofSource (before after : List Char) :
    (ofSource (before ++ after)).position (byteLength before) =
      ⟨before.count '\n' + 1, (lastLine before).length + 1⟩ := by
  have line : (ofSource (before ++ after)).line (byteLength before) = before.count '\n' + 1 := by
    rw [line_ofSource, lineFeedsBefore_byteLength, Nat.add_comm]
  have stop : min (byteLength before) (byteLength (ofSource (before ++ after)).source) =
      byteLength (fullLines before) + byteLength (lastLine before) := by
    rw [← byteLength_append, fullLines_append_lastLine, ofSource, byteLength_append]
    omega
  have cut : slice? (ofSource (before ++ after)).source
      ⟨byteLength (fullLines before),
        byteLength (fullLines before) + byteLength (lastLine before)⟩ =
      some (lastLine before) := by
    have found := slice?_middle (fullLines before) (lastLine before) after
    rwa [fullLines_append_lastLine] at found
  simp only [position, line, stop, Nat.add_sub_cancel, starts_ofSource, Option.getD_some, cut,
    Option.map_some]

/-- The last line before a boundary goes on up to the next line feed, or to the end of the text. -/
theorem lineStop_ofSource (before after : List Char) :
    ((ofSource (before ++ after)).starts[before.count '\n' + 1]?.map (· - 1)).getD
        (byteLength (before ++ after)) =
      byteLength (before ++ after.takeWhile (· ≠ '\n')) := by
  have sameLine := not_mem_takeWhile after
  have split : after = after.takeWhile (· ≠ '\n') ++ after.dropWhile (· ≠ '\n') :=
    List.takeWhile_append_dropWhile.symm
  rcases dropWhile_eq after with nothing | ⟨tail, some⟩
  · rw [nothing, List.append_nil] at split
    have noStart : (ofSource (before ++ after)).starts[before.count '\n' + 1]? = none := by
      rw [← split] at sameLine
      rw [List.getElem?_eq_none_iff, ofSource, List.length_cons, length_startsAfter,
        List.count_append, List.count_eq_zero.mpr sameLine]
    rw [noStart, ← split]
    rfl
  · rw [some] at split
    generalize after.takeWhile (· ≠ '\n') = ahead at sameLine split ⊢
    subst split
    -- the next line is the last one before the boundary just past the line feed
    have found := starts_ofSource (before ++ ahead ++ ['\n']) tail
    rw [fullLines_concat_lineFeed, List.count_append, List.count_append,
      List.count_eq_zero.mpr sameLine, Nat.add_zero] at found
    have whole : before ++ ahead ++ ['\n'] ++ tail = before ++ (ahead ++ '\n' :: tail) := by simp
    have one : List.count '\n' ['\n'] = 1 := rfl
    rw [whole, one] at found
    rw [found, Option.map_some, Option.getD_some, byteLength_append _ ['\n']]
    rfl

/-- The line of a boundary, as it is shown. -/
theorem lineText_ofSource (before after : List Char) :
    (ofSource (before ++ after)).lineText (before.count '\n' + 1) =
      dropCarriageReturn (lastLine before ++ after.takeWhile (· ≠ '\n')) := by
  have cut : slice (before ++ after) ⟨byteLength (fullLines before),
      byteLength (before ++ after.takeWhile (· ≠ '\n'))⟩ =
      lastLine before ++ after.takeWhile (· ≠ '\n') := by
    have whole : before ++ after = fullLines before ++
        (lastLine before ++ after.takeWhile (· ≠ '\n')) ++ after.dropWhile (· ≠ '\n') := by
      rw [← List.append_assoc, fullLines_append_lastLine, List.append_assoc,
        List.takeWhile_append_dropWhile]
    refine Piece.slice_middle whole rfl ?_
    rw [← byteLength_append, ← List.append_assoc, fullLines_append_lastLine]
  simp only [lineText, starts_ofSource]
  rw [← lineStop_ofSource] at cut
  exact congrArg dropCarriageReturn cut

end LineTable

/-! ## Positions are faithful -/

/-- One position comes before another: on an earlier line, or further left on the same line. -/
def Position.Precedes (first second : Position) : Prop :=
  first.line < second.line ∨ first.line = second.line ∧ first.column < second.column

namespace LineTable

open Text

/-- Line and column are at most one more than the offset, so they fit wherever one more than the
offset does. -/
theorem position_le (before after : List Char) :
    let position := (ofSource (before ++ after)).position (byteLength before)
    position.line ≤ byteLength before + 1 ∧ position.column ≤ byteLength before + 1 := by
  have parts := congrArg List.length (fullLines_append_lastLine before)
  have feeds := List.count_le_length (a := '\n') (l := before)
  have characters := length_le_byteLength before
  rw [List.length_append] at parts
  simp only [position_ofSource]
  omega

/-- A column counts characters: the `+` stands after a character of two bytes. -/
example : (ofSource "x = \"héllo\" + y".toList).position 13 = ⟨1, 13⟩ := by decide

end LineTable

end Vibescript
