/-!
# Splitting text

Cutting a text at every occurrence of a separating character, and taking a padding character
off both ends.
-/
namespace Vibescript.Text

/-- The parts of a text between the occurrences of a separator; there is one more part than
there are separators. -/
def splitOn (separator : Char) : List Char → List (List Char)
  | [] => [[]]
  | char :: rest =>
    if char = separator then [] :: splitOn separator rest
    else
      match splitOn separator rest with
      | [] => [[char]]
      | part :: parts => (char :: part) :: parts

/-- A text without the padding characters at both ends. -/
def trimBoth (padding : Char) (text : List Char) : List Char :=
  (((text.dropWhile (· == padding)).reverse).dropWhile (· == padding)).reverse

/-- There is at least one part. -/
theorem splitOn_ne_nil (separator : Char) (text : List Char) : splitOn separator text ≠ [] := by
  cases text with
  | nil => simp [splitOn]
  | cons char rest =>
    simp only [splitOn]
    split
    · simp
    · split <;> simp

/-- Joining the parts with the separator gives the text back. -/
theorem intercalate_splitOn (separator : Char) (text : List Char) :
    [separator].intercalate (splitOn separator text) = text := by
  induction text with
  | nil => rfl
  | cons char rest ih =>
    cases parts : splitOn separator rest with
    | nil => exact absurd parts (splitOn_ne_nil separator rest)
    | cons part others =>
      rw [parts] at ih
      by_cases same : char = separator
      · simp only [splitOn, same, ↓reduceIte, parts]
        conv => rhs; rw [← ih]
        cases others <;> simp [List.intercalate]
      · simp only [splitOn, same, ↓reduceIte, parts]
        conv => rhs; rw [← ih]
        cases others <;> simp [List.intercalate]

end Vibescript.Text
