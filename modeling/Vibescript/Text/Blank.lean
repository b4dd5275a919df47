/-!
# Blank characters

Two classes of blank characters. The separators of program text are five ASCII characters;
the blanks at the end of a comment are those with the Unicode property White_Space.
-/
namespace Vibescript.Text

/-- The separators of program text: space, tab, line feed, form feed and carriage return. -/
def isSeparator (char : Char) : Bool :=
  char = ' ' || char = '\t' || char = '\n' || char = '\x0c' || char = '\r'

/-- Ranges of code points with the property White_Space. -/
def blankRanges : List (Nat × Nat) :=
  [(0x09, 0x0d), (0x20, 0x20), (0x85, 0x85), (0xa0, 0xa0), (0x1680, 0x1680), (0x2000, 0x200a),
    (0x2028, 0x2029), (0x202f, 0x202f), (0x205f, 0x205f), (0x3000, 0x3000)]

/-- Whether a character has the property White_Space. -/
def isBlank (char : Char) : Bool :=
  blankRanges.any fun range => range.1 ≤ char.toNat && char.toNat ≤ range.2

/-- A text without the blanks at its end. -/
def trimEnd (text : List Char) : List Char := (text.reverse.dropWhile isBlank).reverse

/-- Every separator is blank. -/
theorem isBlank_of_isSeparator {char : Char} (separator : isSeparator char = true) :
    isBlank char = true := by
  simp only [isSeparator, Bool.or_eq_true, decide_eq_true_eq] at separator
  rcases separator with (((h | h) | h) | h) | h <;> subst h <;> decide

/-- A text without its final blanks is a first part of the text, and only blanks follow. -/
theorem trimEnd_append (text : List Char) :
    ∃ blanks : List Char, text = trimEnd text ++ blanks ∧ ∀ char ∈ blanks, isBlank char := by
  refine ⟨(text.reverse.takeWhile isBlank).reverse, ?_, ?_⟩
  · rw [trimEnd, ← List.reverse_append, List.takeWhile_append_dropWhile, List.reverse_reverse]
  · intro char member
    exact List.all_eq_true.mp List.all_takeWhile char (List.mem_reverse.mp member)

end Vibescript.Text
