import Vibescript.Decimal.Layout
import Vibescript.Text.Quoted

/-!
# Texts that end by themselves

A text is told apart from what follows it when its end can be seen: a run of characters of one class
before a character of another, a list of words before something that is no word, and a quoted text up
to its closing quotation mark. Such texts followed by anything are equal only when they are, and so is
what follows them.
-/
namespace Vibescript.Text

/-- A text does not go on with a character of a class. -/
def Stops (accepts : Char → Bool) (text : List Char) : Prop :=
  ∀ char ∈ text.head?, accepts char = false

/-- A text stops before a character of another class. -/
theorem stops_cons {accepts : Char → Bool} {first : Char} (refused : accepts first = false)
    (rest : List Char) : Stops accepts (first :: rest) := by
  intro char member
  obtain rfl : first = char := Option.some.inj member
  exact refused

/-- A run of characters of a class is told apart from what follows. -/
theorem run_inj {accepts : Char → Bool} {left right rest more : List Char}
    (lefts : ∀ char ∈ left, accepts char = true) (rights : ∀ char ∈ right, accepts char = true)
    (stops : Stops accepts rest) (stopsToo : Stops accepts more)
    (same : left ++ rest = right ++ more) : left = right ∧ rest = more := by
  induction left generalizing right with
  | nil =>
    cases right with
    | nil => exact ⟨rfl, same⟩
    | cons char right =>
      have refused := stops char (by rw [← List.nil_append rest, same]; rfl)
      rw [rights char List.mem_cons_self] at refused
      contradiction
  | cons char left ih =>
    cases right with
    | nil =>
      have refused := stopsToo char (by rw [← List.nil_append more, ← same]; rfl)
      rw [lefts char List.mem_cons_self] at refused
      contradiction
    | cons other right =>
      obtain ⟨rfl, tails⟩ := List.cons.inj same
      obtain ⟨rfl, rest⟩ := ih (fun other member => lefts other (List.mem_cons_of_mem _ member))
        (fun other member => rights other (List.mem_cons_of_mem _ member)) tails
      exact ⟨rfl, rest⟩

/-- A word of characters of a class: it is not empty, and does not end like a label. -/
structure IsWord (accepts : Char → Bool) (word : List Char) : Prop where
  /-- There is a character. -/
  filled : word ≠ []
  /-- Every character is accepted. -/
  all : ∀ char ∈ word, accepts char = true
  /-- It does not end with a colon. -/
  unlabelled : word.getLast? ≠ some ':'

/-- Words with a space before each. -/
def spaced (words : List (List Char)) : List Char := words.flatMap (' ' :: ·)

/-- What can follow words with a space before each: a mark, or a space with a label. -/
inductive EndsWords (accepts : Char → Bool) : List Char → Prop
  /-- A mark. -/
  | mark {char : Char} {rest : List Char} (refused : accepts char = false) (noSpace : char ≠ ' ') :
    EndsWords accepts (char :: rest)
  /-- A label. -/
  | label {name rest : List Char} (all : ∀ char ∈ name, accepts char = true) :
    EndsWords accepts (' ' :: (name ++ ':' :: ' ' :: rest))

variable {accepts : Char → Bool} {word rest more tail : List Char} {lefts rights : List (List Char)}

/-- After words there is no word character. -/
theorem EndsWords.stops (space : accepts ' ' = false) (ends : EndsWords accepts tail) :
    Stops accepts tail := by
  cases ends with
  | mark refused => exact stops_cons refused _
  | label => exact stops_cons space _

/-- A word is no part of what can follow words. -/
theorem EndsWords.ne_word (space : accepts ' ' = false) (colon : accepts ':' = true)
    (isWord : IsWord accepts word) (stops : Stops accepts rest)
    (ends : EndsWords accepts tail) : tail ≠ ' ' :: (word ++ rest) := by
  rintro rfl
  generalize same : ' ' :: (word ++ rest) = tail at ends
  cases ends with
  | mark _ noSpace => exact noSpace (List.cons.inj same).1.symm
  | @label name after all =>
    have labelled : word ++ rest = (name ++ [':']) ++ ' ' :: after := by
      rw [(List.cons.inj same).2]
      simp
    obtain ⟨rfl, -⟩ := run_inj isWord.all
      (List.forall_mem_append.mpr ⟨all, List.forall_mem_singleton.mpr colon⟩) stops
      (stops_cons space _) labelled
    exact isWord.unlabelled List.getLast?_concat

/-- Words with a space before each stop before the next. -/
theorem stops_spaced (space : accepts ' ' = false) (stops : Stops accepts tail) :
    Stops accepts (spaced lefts ++ tail) := by
  cases lefts with
  | nil => exact stops
  | cons word words => exact stops_cons space _

/-- Words with a space before each are told apart from what follows. -/
theorem spaced_inj (space : accepts ' ' = false) (colon : accepts ':' = true)
    (leftWords : ∀ word ∈ lefts, IsWord accepts word)
    (rightWords : ∀ word ∈ rights, IsWord accepts word) (ends : EndsWords accepts rest)
    (endsToo : EndsWords accepts more) (same : spaced lefts ++ rest = spaced rights ++ more) :
    lefts = rights ∧ rest = more := by
  induction lefts generalizing rights with
  | nil =>
    cases rights with
    | nil => exact ⟨rfl, same⟩
    | cons word rights =>
      have whole : rest = ' ' :: (word ++ (spaced rights ++ more)) := by simpa [spaced] using same
      exact absurd whole (ends.ne_word space colon (rightWords word List.mem_cons_self)
        (stops_spaced space (endsToo.stops space)))
  | cons word lefts ih =>
    cases rights with
    | nil =>
      have whole : more = ' ' :: (word ++ (spaced lefts ++ rest)) := by
        simpa [spaced] using same.symm
      exact absurd whole (endsToo.ne_word space colon (leftWords word List.mem_cons_self)
        (stops_spaced space (ends.stops space)))
    | cons other rights =>
      have whole : word ++ (spaced lefts ++ rest) = other ++ (spaced rights ++ more) := by
        simpa [spaced] using same
      obtain ⟨rfl, tails⟩ := run_inj (leftWords word List.mem_cons_self).all
        (rightWords other List.mem_cons_self).all
        (stops_spaced space (ends.stops space)) (stops_spaced space (endsToo.stops space)) whole
      obtain ⟨rfl, rest⟩ := ih (fun other member => leftWords other (List.mem_cons_of_mem _ member))
        (fun other member => rightWords other (List.mem_cons_of_mem _ member)) tails
      exact ⟨rfl, rest⟩

/-! ### Quoted texts -/

/-- Digits in a base up to sixteen determine the number. -/
theorem toDigits_inj {base left right : Nat} (large : 1 < base) (small : base ≤ 16)
    (same : Nat.toDigits base left = Nat.toDigits base right) : left = right := by
  have digit : ∀ first < 16, ∀ second < 16, Nat.digitChar first = Nat.digitChar second →
      first = second := by decide
  induction left using Nat.strongRecOn generalizing right with
  | ind left ih =>
    rcases Nat.lt_or_ge left base with short | long <;>
      rcases Nat.lt_or_ge right base with shortToo | longToo
    · rw [Nat.toDigits_of_lt_base short, Nat.toDigits_of_lt_base shortToo] at same
      exact digit left (by omega) right (by omega) (List.cons.inj same).1
    · rw [Nat.toDigits_of_lt_base short, Nat.toDigits_of_base_le large longToo] at same
      have lengths := congrArg List.length same
      have some := List.length_pos_iff.mpr (Nat.toDigits_ne_nil (n := right / base) (b := base))
      simp only [List.length_singleton, List.length_append] at lengths
      omega
    · rw [Nat.toDigits_of_base_le large long, Nat.toDigits_of_lt_base shortToo] at same
      have lengths := congrArg List.length same
      have some := List.length_pos_iff.mpr (Nat.toDigits_ne_nil (n := left / base) (b := base))
      simp only [List.length_singleton, List.length_append] at lengths
      omega
    · rw [Nat.toDigits_of_base_le large long, Nat.toDigits_of_base_le large longToo] at same
      obtain ⟨front, last⟩ := List.append_inj' same rfl
      have quotient := ih (left / base) (Nat.div_lt_self (by omega) large) front
      have remainder := digit (left % base) (by have := Nat.mod_lt left (show 0 < base by omega); omega)
        (right % base) (by have := Nat.mod_lt right (show 0 < base by omega); omega)
        (List.cons.inj last).1
      rw [← Nat.div_add_mod left base, ← Nat.div_add_mod right base, quotient, remainder]

/-- No digit closes an escape. -/
theorem brace_not_mem_toDigits (number : Nat) : '}' ∉ Nat.toDigits 16 number := by
  have digit : ∀ value < 16, Nat.digitChar value ≠ '}' := by decide
  induction number using Nat.strongRecOn with
  | ind number ih =>
    rcases Nat.lt_or_ge number 16 with short | long
    · rw [Nat.toDigits_of_lt_base short, List.mem_singleton]
      exact (digit number short).symm
    · rw [Nat.toDigits_of_base_le (by decide) long, List.mem_append, List.mem_singleton, not_or]
      exact ⟨ih (number / 16) (by omega), (digit _ (Nat.mod_lt _ (by decide))).symm⟩

/-- The character that a letter after a backslash stands for. -/
def letterEscape : Char → Char
  | '0' => '\x00'
  | 't' => '\t'
  | 'r' => '\r'
  | 'n' => '\n'
  | char => char

/-- A character is written with a letter after a backslash, as itself, or by its code point. -/
theorem escapeChar_cases (char : Char) :
    (∃ letter, escapeChar .text char = ['\\', letter] ∧ letter ≠ 'u' ∧ letterEscape letter = char) ∨
      (escapeChar .text char = [char] ∧ char ≠ '\\' ∧ char ≠ '"') ∨
      escapeChar .text char = hexEscape char := by
  unfold escapeChar
  split
  · next isNull => exact .inl ⟨'0', rfl, by decide, isNull.symm⟩
  split
  · next isTab => exact .inl ⟨'t', rfl, by decide, isTab.symm⟩
  split
  · next isReturn => exact .inl ⟨'r', rfl, by decide, isReturn.symm⟩
  split
  · next isFeed => exact .inl ⟨'n', rfl, by decide, isFeed.symm⟩
  split
  · next marked =>
    have mark : char = '\\' ∨ char = '"' := by
      unfold QuoteStyle.marks at marked
      split at marked
      · exact .inl rfl
      · exact .inr rfl
      · contradiction
      · contradiction
    rcases mark with rfl | rfl
    · exact .inl ⟨'\\', rfl, by decide, rfl⟩
    · exact .inl ⟨'"', rfl, by decide, rfl⟩
  · next plain =>
    split
    · refine .inr (.inl ⟨rfl, ?_, ?_⟩)
      · rintro rfl
        exact plain rfl
      · rintro rfl
        exact plain rfl
    · exact .inr (.inr rfl)

/-- A written character is told apart from what follows. -/
theorem escapeChar_inj {left right : Char}
    (same : escapeChar .text left ++ rest = escapeChar .text right ++ more) :
    left = right ∧ rest = more := by
  have point (char : Char) (after : List Char) : hexEscape char ++ after =
      '\\' :: 'u' :: '\x7b' :: (Nat.toDigits 16 char.toNat ++ '\x7d' :: after) := by
    simp [hexEscape]
  have digits (char : Char) : ∀ digit ∈ Nat.toDigits 16 char.toNat, (digit != '\x7d') = true :=
    fun digit member => bne_iff_ne.mpr fun isBrace =>
      brace_not_mem_toDigits char.toNat (isBrace ▸ member)
  have closes (after : List Char) : Stops (· != '\x7d') ('\x7d' :: after) := stops_cons rfl after
  obtain ⟨letter, shown, other, stands⟩ | ⟨shown, noSlash, -⟩ | shown := escapeChar_cases left <;>
    obtain ⟨second, shownToo, otherToo, standsToo⟩ | ⟨shownToo, noSlashToo, -⟩ | shownToo :=
      escapeChar_cases right <;>
    rw [shown, shownToo] at same
  · obtain ⟨letters, tails⟩ := List.cons.inj (List.cons.inj same).2
    exact ⟨stands.symm.trans ((congrArg letterEscape letters).trans standsToo), tails⟩
  · exact absurd (List.cons.inj same).1.symm noSlashToo
  · rw [point] at same
    exact absurd (List.cons.inj (List.cons.inj same).2).1 other
  · exact absurd (List.cons.inj same).1 noSlash
  · exact List.cons.inj same
  · rw [point] at same
    exact absurd (List.cons.inj same).1 noSlash
  · rw [point] at same
    exact absurd (List.cons.inj (List.cons.inj same).2).1.symm otherToo
  · rw [point] at same
    exact absurd (List.cons.inj same).1.symm noSlashToo
  · rw [point, point] at same
    obtain ⟨numbers, tails⟩ := run_inj (digits left) (digits right) (closes rest) (closes more)
      (List.cons.inj (List.cons.inj (List.cons.inj same).2).2).2
    exact ⟨Char.toNat_inj.mp (toDigits_inj (by decide) (by decide) numbers),
      (List.cons.inj tails).2⟩

/-- A written character does not start like the end of a quoted text. -/
theorem escapeChar_ne_quote (char : Char) : escapeChar .text char ++ rest ≠ '"' :: more := by
  intro same
  obtain ⟨letter, shown, -⟩ | ⟨shown, -, other⟩ | shown := escapeChar_cases char <;>
    rw [shown] at same
  · exact absurd (List.cons.inj same).1 (by decide)
  · exact other (List.cons.inj same).1
  · exact absurd (List.cons.inj same).1 (by decide)

/-- Written characters are told apart from the closing quotation mark. -/
theorem escapes_inj {left right : List Char}
    (same : left.flatMap (escapeChar .text) ++ '"' :: rest =
      right.flatMap (escapeChar .text) ++ '"' :: more) : left = right ∧ rest = more := by
  induction left generalizing right with
  | nil =>
    cases right with
    | nil => exact ⟨rfl, (List.cons.inj same).2⟩
    | cons char right =>
      rw [List.flatMap_cons, List.append_assoc] at same
      exact absurd same.symm (escapeChar_ne_quote char)
  | cons char left ih =>
    rw [List.flatMap_cons, List.append_assoc] at same
    cases right with
    | nil => exact absurd same (escapeChar_ne_quote char)
    | cons other right =>
      rw [List.flatMap_cons, List.append_assoc] at same
      obtain ⟨rfl, tails⟩ := escapeChar_inj same
      obtain ⟨rfl, rest⟩ := ih tails
      exact ⟨rfl, rest⟩

/-- Quoted texts are told apart, whatever follows. -/
theorem quote_inj {left right : String}
    (same : (quote left).toList ++ rest = (quote right).toList ++ more) :
    left = right ∧ rest = more := by
  have shown (text : String) (after : List Char) : (quote text).toList ++ after =
      '"' :: (text.toList.flatMap (escapeChar .text) ++ '"' :: after) := by
    simp [quote]
  rw [shown, shown] at same
  obtain ⟨texts, tails⟩ := escapes_inj (List.cons.inj same).2
  exact ⟨String.toList_inj.mp texts, tails⟩

end Vibescript.Text
