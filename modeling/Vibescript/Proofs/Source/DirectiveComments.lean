import Mathlib.Algebra.GroupWithZero.Nat
import Mathlib.Data.List.DropRight
import Mathlib.Data.List.ReduceOption
import Vibescript.Proofs.Source.Shapes

/-!
# The grammar of directive comments

A comment is a version directive when it is `# vibe: `, digits, a point, digits and blanks, and a
uses directive when it is `# uses: `, segments with commas between them and blanks, where a segment
is at most one word with spaces around it and there is a word in all. The classifier of comments
accepts these and no others, and finds the numbers and the words in them.
-/
namespace Vibescript

namespace Text

variable {separator padding : Char} {text pad : List Char}

/-! ### Blanks at the end -/

/-- Blanks at the end of a text are taken off. -/
theorem trimEnd_blanks (all : ∀ char ∈ pad, isBlank char = true) (text : List Char) :
    trimEnd (text ++ pad) = trimEnd text := by
  have none : pad.reverse.dropWhile isBlank = [] :=
    List.dropWhile_eq_nil_iff.mpr fun char member => all char (List.mem_reverse.mp member)
  rw [trimEnd, trimEnd, List.reverse_append, List.dropWhile_append, none, List.isEmpty_nil,
    if_pos rfl]

/-- A text that does not end with a blank stays. -/
theorem trimEnd_eq_self (stops : ∀ char ∈ text.getLast?, isBlank char = false) :
    trimEnd text = text := by
  refine List.rdropWhile_eq_self_iff.mpr fun filled => ?_
  have last := stops _ (List.getLast?_eq_some_getLast filled)
  rw [last]
  exact Bool.false_ne_true

/-- A text ends with its last blanks, after what is left of it. -/
theorem exists_blanks (text : List Char) :
    ∃ blanks, text = trimEnd text ++ blanks ∧ (∀ char ∈ blanks, isBlank char = true) ∧
      ∀ char ∈ (trimEnd text).getLast?, isBlank char = false := by
  obtain ⟨blanks, whole, all⟩ := trimEnd_append text
  refine ⟨blanks, whole, all, fun char last => ?_⟩
  have filled : List.rdropWhile isBlank text ≠ [] := by
    intro none
    change char ∈ (List.rdropWhile isBlank text).getLast? at last
    rw [none] at last
    contradiction
  have stops := List.rdropWhile_last_not isBlank text filled
  change char ∈ (List.rdropWhile isBlank text).getLast? at last
  rw [List.getLast?_eq_some_getLast filled] at last
  obtain rfl := Option.some.inj last
  exact Bool.eq_false_iff.mpr stops

/-- No digit is blank. -/
theorem isBlank_of_isDigit {char : Char} (isDigit : char.isDigit = true) : isBlank char = false := by
  have range : 48 ≤ char.toNat ∧ char.toNat ≤ 57 := by
    simpa [Char.isDigit, ← Char.toNat_val, UInt32.le_iff_toNat_le] using isDigit
  simp [isBlank, blankRanges]
  omega

/-! ### Parts and their padding -/

/-- A character of joined parts is the separator or stands in a part. -/
theorem eq_or_mem_of_mem_intercalate {parts : List (List Char)} {char : Char}
    (member : char ∈ [separator].intercalate parts) :
    char = separator ∨ ∃ part ∈ parts, char ∈ part := by
  induction parts with
  | nil => contradiction
  | cons part parts ih =>
    cases parts with
    | nil => exact .inr ⟨part, List.mem_cons_self, by rwa [List.intercalate_singleton] at member⟩
    | cons next parts =>
      rw [List.intercalate_cons_cons] at member
      rcases List.mem_append.mp member with member | later
      · rcases List.mem_append.mp member with inside | isSeparator
        · exact .inr ⟨part, List.mem_cons_self, inside⟩
        · exact .inl (List.mem_singleton.mp isSeparator)
      · exact (ih later).imp_right fun ⟨other, listed, inside⟩ =>
          ⟨other, List.mem_cons_of_mem _ listed, inside⟩

/-- The parts of a text are those that a list splitter finds. -/
theorem splitOn_eq (separator : Char) (text : List Char) :
    splitOn separator text = List.splitOn separator text := by
  rw [List.splitOn]
  induction text with
  | nil => rfl
  | cons char rest ih =>
    rw [splitOn, List.splitOnP_cons_eq_if_modifyHead, ← ih]
    by_cases same : char = separator
    · rw [if_pos same, if_pos (beq_iff_eq.mpr same)]
    · rw [if_neg same, if_neg (by rwa [beq_iff_eq])]
      cases parts : splitOn separator rest with
      | nil => exact absurd parts (splitOn_ne_nil separator rest)
      | cons part others => rfl

/-- Padding at the end of a text goes to its last part. -/
theorem splitOn_append_padding (other : padding ≠ separator)
    (all : ∀ char ∈ pad, char = padding) (text : List Char) :
    List.Forall₂ (fun long short => ∃ pad : List Char, (∀ char ∈ pad, char = padding) ∧
      long = short ++ pad) (splitOn separator (text ++ pad)) (splitOn separator text) := by
  induction text with
  | nil =>
    have whole : splitOn separator pad = [pad] := by
      have joined := @List.splitOn_intercalate _ [pad] _ _ separator
        (List.forall_mem_singleton.mpr fun member => other (all _ member).symm)
        (List.cons_ne_nil _ _)
      rw [splitOn_eq]
      simpa using joined
    rw [List.nil_append, whole]
    exact .cons ⟨pad, all, rfl⟩ .nil
  | cons char rest ih =>
    rw [List.cons_append, splitOn, splitOn]
    split
    · exact .cons ⟨[], List.forall_mem_nil _, rfl⟩ ih
    · generalize splitOn separator (rest ++ pad) = longer at ih
      cases parts : splitOn separator rest with
      | nil => exact absurd parts (splitOn_ne_nil separator rest)
      | cons part others =>
        rw [parts] at ih
        obtain ⟨_, _, ⟨more, all, rfl⟩, rest, rfl⟩ := List.forall₂_cons_right_iff.mp ih
        exact .cons ⟨more, all, rfl⟩ rest

/-- Padding at the end is taken off. -/
theorem trimBoth_append_padding (all : ∀ char ∈ pad, char = padding) (text : List Char) :
    trimBoth padding (text ++ pad) = trimBoth padding text := by
  have none (list : List Char) (same : ∀ char ∈ list, char = padding) :
      list.dropWhile (· == padding) = [] :=
    List.dropWhile_eq_nil_iff.mpr fun char member => beq_iff_eq.mpr (same char member)
  rw [trimBoth, trimBoth, List.dropWhile_append]
  split
  · next isPadding =>
    rw [List.isEmpty_iff.mp isPadding, none pad all]
  · rw [List.reverse_append, List.dropWhile_append,
      none pad.reverse fun char member => all char (List.mem_reverse.mp member), List.isEmpty_nil,
      if_pos rfl]

/-- Without the padding around it, a text is what stands between. -/
theorem trimBoth_between {before word after : List Char}
    (isBefore : ∀ char ∈ before, char = padding) (isAfter : ∀ char ∈ after, char = padding)
    (noPadding : padding ∉ word) : trimBoth padding (before ++ word ++ after) = word := by
  have stops (list : List Char) (free : padding ∉ list) : list.dropWhile (· == padding) = list := by
    cases list with
    | nil => rfl
    | cons char rest =>
      exact List.dropWhile_cons_of_neg fun same =>
        free (beq_iff_eq.mp same ▸ List.mem_cons_self)
  have front : before.dropWhile (· == padding) = [] :=
    List.dropWhile_eq_nil_iff.mpr fun char member => beq_iff_eq.mpr (isBefore char member)
  rw [trimBoth_append_padding isAfter, trimBoth, List.dropWhile_append, front, List.isEmpty_nil,
    if_pos rfl, stops word noPadding, stops word.reverse (by simpa using noPadding),
    List.reverse_reverse]

/-- A text is what is left of it between padding. -/
theorem exists_padding (padding : Char) (text : List Char) :
    ∃ before after, text = before ++ trimBoth padding text ++ after ∧
      (∀ char ∈ before, char = padding) ∧ ∀ char ∈ after, char = padding := by
  have taken (list : List Char) : ∀ char ∈ list.takeWhile (· == padding), char = padding :=
    fun char member => beq_iff_eq.mp (List.all_eq_true.mp List.all_takeWhile char member)
  refine ⟨text.takeWhile (· == padding),
    ((text.dropWhile (· == padding)).reverse.takeWhile (· == padding)).reverse, ?_, taken text,
    fun char member => taken _ char (List.mem_reverse.mp member)⟩
  rw [trimBoth, List.append_assoc, ← List.reverse_append, List.takeWhile_append_dropWhile,
    List.reverse_reverse, List.takeWhile_append_dropWhile]

end Text

namespace Directive

open Text

variable {comment text : List Char} {names : List String} {major minor : Nat}

/-! ### The grammar -/

/-- Decimal digits with a value that fits 32 bits; zeros may lead. -/
structure IsComponent (digits : List Char) (value : Nat) : Prop where
  /-- There is a digit. -/
  filled : digits ≠ []
  /-- Every character is a digit. -/
  all : ∀ char ∈ digits, char.isDigit = true
  /-- The value of the digits. -/
  reads : Nat.ofDigitChars 10 digits 0 = value
  /-- The value fits. -/
  small : value < 2 ^ 32

/-- A comment declares a version: `# vibe: `, two components around a point, and blanks. -/
def IsVersion (comment : List Char) (major minor : Nat) : Prop :=
  ∃ first second blanks, comment = "# vibe: ".toList ++ (first ++ '.' :: second) ++ blanks ∧
    IsComponent first major ∧ IsComponent second minor ∧ ∀ char ∈ blanks, isBlank char = true

/-- A character of the name of a capability. -/
def isCapabilityChar (char : Char) : Bool := char.isLower || char == '_'

/-- A segment of a list of capabilities, with the word in it, if there is one. -/
inductive IsSegment : List Char → Option (List Char) → Prop
  /-- Spaces. -/
  | spaces {text : List Char} (all : ∀ char ∈ text, char = ' ') : IsSegment text none
  /-- A word with spaces around it. -/
  | word {before word after : List Char} (isBefore : ∀ char ∈ before, char = ' ')
      (filled : word ≠ []) (all : ∀ char ∈ word, isCapabilityChar char = true)
      (isAfter : ∀ char ∈ after, char = ' ') : IsSegment (before ++ word ++ after) (some word)

/-- A text is segments with commas between them, which hold some words in all. -/
def IsSegmented (text : List Char) (names : List String) : Prop :=
  names ≠ [] ∧ ∃ segments words, text = [','].intercalate segments ∧
    List.Forall₂ IsSegment segments words ∧ words.reduceOption.map String.ofList = names

/-- A comment declares capabilities, at least one: `# uses: `, segments with commas between them,
and blanks. -/
def IsUses (comment : List Char) (names : List String) : Prop :=
  ∃ text blanks, comment = "# uses: ".toList ++ text ++ blanks ∧ IsSegmented text names ∧
    ∀ char ∈ blanks, isBlank char = true

/-! ### Versions -/

/-- A component is read exactly when it is one. -/
theorem component?_eq_some_iff {digits : List Char} {value : Nat} :
    component? digits = some value ↔ IsComponent digits value := by
  unfold component?
  constructor
  · intro found
    split at found
    · contradiction
    next lawful =>
    simp only [Bool.or_eq_true, List.isEmpty_iff, Bool.not_eq_true', not_or,
      Bool.not_eq_false] at lawful
    dsimp only at found
    split at found
    next small =>
      obtain rfl := Option.some.inj found
      exact ⟨lawful.1, List.all_eq_true.mp lawful.2, rfl, small⟩
    · contradiction
  · rintro ⟨filled, all, rfl, small⟩
    rw [if_neg (by simpa [filled] using all)]
    exact if_pos small

/-- A component has no point. -/
theorem IsComponent.not_mem {digits : List Char} {value : Nat} (isComponent : IsComponent digits value) :
    '.' ∉ digits := fun member => absurd (isComponent.all _ member) (by decide)

/-- A version is read exactly from two components around a point. -/
theorem version?_eq_some_iff : version? text = some (.version major minor) ↔
    ∃ first second, text = first ++ '.' :: second ∧ IsComponent first major ∧
      IsComponent second minor := by
  constructor
  · intro found
    have whole := List.takeWhile_append_dropWhile (p := (· != '.')) (l := text)
    unfold version? at found
    split at found
    · contradiction
    next point second isRest =>
    obtain ⟨high, isHigh, found⟩ := Option.bind_eq_some_iff.mp found
    obtain ⟨low, isLow, found⟩ := Option.bind_eq_some_iff.mp found
    obtain ⟨rfl, rfl⟩ := Directive.version.inj (Option.some.inj found)
    have isPoint : point = '.' := by
      have filled : text.dropWhile (· != '.') ≠ [] := by
        rw [isRest]
        exact List.cons_ne_nil _ _
      have stops := List.head_dropWhile_not (· != '.') filled
      simpa [isRest] using stops
    rw [isRest, isPoint] at whole
    exact ⟨_, second, whole.symm, component?_eq_some_iff.mp isHigh, component?_eq_some_iff.mp isLow⟩
  · rintro ⟨first, second, rfl, isHigh, isLow⟩
    have plain : ∀ char ∈ first, (char != '.') = true := fun char member =>
      bne_iff_ne.mpr fun isPoint => isHigh.not_mem (isPoint ▸ member)
    have rest : (first ++ '.' :: second).dropWhile (· != '.') = '.' :: second :=
      List.dropWhile_append_of_pos plain
    have front : (first ++ '.' :: second).takeWhile (· != '.') = first := by
      rw [List.takeWhile_append_of_pos plain]
      exact List.append_nil first
    unfold version?
    rw [rest, front]
    dsimp only
    rw [component?_eq_some_iff.mpr isHigh, component?_eq_some_iff.mpr isLow]
    rfl

/-! ### Capabilities -/

/-- The only blank among the characters of a list of capabilities is the space. -/
theorem eq_space_of_isBlank {char : Char} (allowed : isUsesChar char = true)
    (blank : isBlank char = true) : char = ' ' := by
  simp only [isUsesChar, Bool.or_eq_true, beq_iff_eq] at allowed
  rcases allowed with ((isLower | rfl) | rfl) | rfl
  · have range : 97 ≤ char.toNat ∧ char.toNat ≤ 122 := by
      change (decide (97 ≤ char.val) && decide (char.val ≤ 122)) = true at isLower
      simpa [← Char.toNat_val, UInt32.le_iff_toNat_le] using isLower
    simp [isBlank, blankRanges] at blank
    omega
  · contradiction
  · contradiction
  · rfl

/-- A word that stands in a segment. -/
theorem IsSegment.trimBoth {segment : List Char} {word : Option (List Char)}
    (isSegment : IsSegment segment word) : trimBoth ' ' segment = word.getD [] := by
  cases isSegment with
  | spaces all =>
    have between := @trimBoth_between ' ' segment [] [] all (List.forall_mem_nil _)
      List.not_mem_nil
    simpa using between
  | word isBefore _ all isAfter =>
    exact trimBoth_between isBefore isAfter fun space => absurd (all _ space) (by decide)

/-- A segment has the characters of a list of capabilities, apart from commas. -/
theorem IsSegment.forall_mem {segment : List Char} {word : Option (List Char)}
    (isSegment : IsSegment segment word) :
    ∀ char ∈ segment, isUsesChar char = true ∧ char ≠ ',' := by
  have space (char : Char) (isSpace : char = ' ') : isUsesChar char = true ∧ char ≠ ',' := by
    subst isSpace
    decide
  cases isSegment with
  | spaces all => exact fun char member => space char (all char member)
  | word isBefore _ all isAfter =>
    intro char member
    rcases List.mem_append.mp member with member | member
    · rcases List.mem_append.mp member with member | member
      · exact space char (isBefore char member)
      · have allowed := all char member
        refine ⟨?_, fun isComma => ?_⟩
        · rw [isCapabilityChar] at allowed
          rw [isUsesChar, allowed]
          rfl
        · exact absurd (isComma ▸ allowed) (by decide)
    · exact space char (isAfter char member)

/-- Segments have the characters of a list of capabilities, apart from commas. -/
theorem forall_mem_segments {segments : List (List Char)} {words : List (Option (List Char))}
    (areSegments : List.Forall₂ IsSegment segments words) :
    ∀ segment ∈ segments, ∀ char ∈ segment, isUsesChar char = true ∧ char ≠ ',' := by
  induction areSegments with
  | nil => exact List.forall_mem_nil _
  | cons isSegment _ ih => exact List.forall_mem_cons.mpr ⟨isSegment.forall_mem, ih⟩

/-- No word of segments has a space. -/
theorem forall_mem_words {segments : List (List Char)} {words : List (Option (List Char))}
    (areSegments : List.Forall₂ IsSegment segments words) :
    ∀ word ∈ words.reduceOption, ' ' ∉ word := by
  induction areSegments with
  | nil => exact List.forall_mem_nil _
  | cons isSegment _ ih =>
    cases isSegment with
    | spaces => exact ih
    | word _ _ all =>
      rw [List.reduceOption_cons_of_some]
      exact List.forall_mem_cons.mpr ⟨fun space => absurd (all _ space) (by decide), ih⟩

/-- The words of segments are those that are left of them. -/
theorem filter_trimBoth {segments : List (List Char)} {words : List (Option (List Char))}
    (areSegments : List.Forall₂ IsSegment segments words) :
    (segments.map (trimBoth ' ')).filter (!·.isEmpty) = words.reduceOption := by
  induction areSegments with
  | nil => rfl
  | cons isSegment _ ih =>
    rw [List.map_cons, isSegment.trimBoth]
    cases isSegment with
    | spaces => exact ih
    | word _ filled =>
      rw [List.reduceOption_cons_of_some, ← ih]
      exact List.filter_cons_of_pos (by simpa using filled)

/-- The words of a segmented text are those of its segments. -/
theorem usesWords_intercalate {segments : List (List Char)} {words : List (Option (List Char))}
    (areSegments : List.Forall₂ IsSegment segments words) (filled : words.reduceOption ≠ []) :
    usesWords ([','].intercalate segments) = words.reduceOption := by
  have some : segments ≠ [] := by
    rintro rfl
    rw [List.forall₂_nil_left_iff.mp areSegments] at filled
    contradiction
  have free : ∀ segment ∈ segments, ',' ∉ segment := fun segment member comma =>
    (forall_mem_segments areSegments segment member _ comma).2 rfl
  rw [usesWords, splitOn_eq, List.splitOn_intercalate _ free some]
  exact filter_trimBoth areSegments

/-- What stands between two commas is a segment, with what is left of it for its word. -/
theorem isSegment_of_trimBoth {segment : List Char}
    (allowed : ∀ char ∈ segment, isUsesChar char = true ∧ char ≠ ',')
    (single : ' ' ∉ Text.trimBoth ' ' segment) :
    IsSegment segment (if (Text.trimBoth ' ' segment).isEmpty then none
      else some (Text.trimBoth ' ' segment)) := by
  obtain ⟨before, after, whole, isBefore, isAfter⟩ := exists_padding ' ' segment
  generalize Text.trimBoth ' ' segment = word at whole single ⊢
  subst whole
  split
  · next isEmpty =>
    obtain rfl := List.isEmpty_iff.mp isEmpty
    refine .spaces fun char member => ?_
    rw [List.append_nil] at member
    exact (List.mem_append.mp member).elim (isBefore char) (isAfter char)
  · next filled =>
    refine .word isBefore (by simpa using filled) (fun char member => ?_) isAfter
    obtain ⟨uses, noComma⟩ :=
      allowed char (List.mem_append_left _ (List.mem_append_right _ member))
    have noSpace : char ≠ ' ' := fun isSpace => single (isSpace ▸ member)
    simpa [isUsesChar, isCapabilityChar, noComma, noSpace] using uses

/-- A segmented text has the characters of a list of capabilities. -/
theorem IsSegmented.forall_mem (segmented : IsSegmented text names) :
    ∀ char ∈ text, isUsesChar char = true := by
  obtain ⟨-, segments, words, rfl, areSegments, -⟩ := segmented
  intro char member
  rcases eq_or_mem_of_mem_intercalate member with rfl | ⟨segment, listed, inside⟩
  · rfl
  · exact (forall_mem_segments areSegments segment listed char inside).1

/-- A list of capabilities is read exactly from segments with words in them. -/
theorem uses?_eq_some_iff : uses? text = some (.uses names) ↔ IsSegmented text names := by
  unfold uses?
  dsimp only
  constructor
  · intro found
    split at found
    · contradiction
    next lawful =>
    simp only [Bool.or_eq_true, Bool.not_eq_true', not_or, Bool.not_eq_false, List.isEmpty_iff,
      Bool.not_eq_true] at lawful
    obtain ⟨⟨allowed, filled⟩, single⟩ := lawful
    obtain rfl := Directive.uses.inj (Option.some.inj found)
    let words := (splitOn ',' text).map fun segment =>
      if (Text.trimBoth ' ' segment).isEmpty then none else some (Text.trimBoth ' ' segment)
    have areSegments : List.Forall₂ IsSegment (splitOn ',' text) words := by
      refine List.forall₂_map_right_iff.mpr (List.forall₂_same.mpr fun segment member => ?_)
      refine isSegment_of_trimBoth (fun char inside => ?_) fun space => ?_
      · obtain ⟨own, noComma⟩ := of_mem_splitOn member inside
        exact ⟨List.all_eq_true.mp allowed char own, noComma⟩
      · refine absurd (List.contains_iff_mem.mpr space) (List.any_eq_false.mp single _ ?_)
        refine List.mem_filter.mpr ⟨List.mem_map_of_mem member, ?_⟩
        cases isWord : Text.trimBoth ' ' segment with
        | nil => exact absurd (isWord ▸ space) List.not_mem_nil
        | cons => rfl
    have isWords : usesWords text = words.reduceOption := filter_trimBoth areSegments
    refine ⟨by simpa using filled, _, words, (intercalate_splitOn ',' text).symm, areSegments, ?_⟩
    rw [isWords]
  · intro segmented
    have allowed := List.all_eq_true.mpr segmented.forall_mem
    obtain ⟨filled, segments, words, rfl, areSegments, rfl⟩ := segmented
    have filled : words.reduceOption ≠ [] := fun none => filled (by rw [none, List.map_nil])
    rw [usesWords_intercalate areSegments filled, if_neg]
    simp only [Bool.or_eq_true, Bool.not_eq_true', not_or, Bool.not_eq_false, List.isEmpty_iff,
      Bool.not_eq_true]
    exact ⟨⟨allowed, filled⟩, List.any_eq_false.mpr fun word member space =>
      forall_mem_words areSegments word member (List.contains_iff_mem.mp space)⟩

/-- Spaces at the end of a list of capabilities say nothing. -/
theorem uses?_append_spaces {pad : List Char} (all : ∀ char ∈ pad, char = ' ') (text : List Char) :
    uses? (text ++ pad) = uses? text := by
  have words : usesWords (text ++ pad) = usesWords text := by
    have parts := @splitOn_append_padding ',' ' ' pad (by decide) all text
    rw [usesWords, usesWords]
    congr 1
    refine List.forall₂_eq_eq_eq ▸ List.rel_map (fun long short padded => ?_) parts
    obtain ⟨more, spaces, rfl⟩ := padded
    exact trimBoth_append_padding spaces short
  have allowed : pad.all isUsesChar = true := by
    refine List.all_eq_true.mpr fun char member => ?_
    rw [all char member]
    rfl
  rw [uses?, uses?, words, List.all_append, allowed, Bool.and_true]

/-! ### The classifier -/

/-- No version is a list of capabilities. -/
theorem version?_ne_uses (text : List Char) (names : List String) :
    version? text ≠ some (.uses names) := by
  intro found
  unfold version? at found
  split at found
  · contradiction
  · obtain ⟨_, _, found⟩ := Option.bind_eq_some_iff.mp found
    obtain ⟨_, _, found⟩ := Option.bind_eq_some_iff.mp found
    exact Directive.noConfusion (Option.some.inj found)

/-- No list of capabilities is a version. -/
theorem uses?_ne_version (text : List Char) (major minor : Nat) :
    uses? text ≠ some (.version major minor) := by
  intro found
  unfold uses? at found
  dsimp only at found
  split at found
  · contradiction
  · exact Directive.noConfusion (Option.some.inj found)

/-- What the classifier makes of a comment that begins as a version directive. -/
theorem classify_version {text blanks : List Char} (all : ∀ char ∈ blanks, isBlank char = true)
    (stops : ∀ char ∈ (versionLead ++ text).getLast?, isBlank char = false) :
    classify (versionLead ++ text ++ blanks) = version? text := by
  rw [classify, trimEnd_blanks all, trimEnd_eq_self stops]
  rfl

/-- What the classifier makes of a comment that begins as a uses directive. -/
theorem classify_uses {text blanks : List Char} (all : ∀ char ∈ blanks, isBlank char = true)
    (stops : ∀ char ∈ (usesLead ++ text).getLast?, isBlank char = false) :
    classify (usesLead ++ text ++ blanks) = uses? text := by
  rw [classify, trimEnd_blanks all, trimEnd_eq_self stops]
  rfl

/-- A comment is classified as a version directive exactly when it is one. -/
theorem classify_eq_some_version_iff :
    classify comment = some (.version major minor) ↔ IsVersion comment major minor := by
  constructor
  · intro found
    obtain ⟨blanks, whole, all⟩ := trimEnd_append comment
    unfold classify at found
    dsimp only at found
    split at found
    · next rest isRest =>
      obtain ⟨first, second, rfl, isHigh, isLow⟩ := version?_eq_some_iff.mp found
      refine ⟨first, second, blanks, ?_, isHigh, isLow, all⟩
      rw [whole, ← List.isPrefixOf?_eq_some_iff_append_eq.mp isRest]
      rfl
    · split at found
      · exact absurd found (uses?_ne_version _ _ _)
      · contradiction
  · rintro ⟨first, second, blanks, rfl, isHigh, isLow, all⟩
    refine (classify_version all fun char last => ?_).trans
      (version?_eq_some_iff.mpr ⟨first, second, rfl, isHigh, isLow⟩)
    rw [List.getLast?_append_of_ne_nil _ (by simp), List.getLast?_append_of_ne_nil _ (by simp),
      List.getLast?_cons_of_ne_nil isLow.filled] at last
    exact isBlank_of_isDigit (isLow.all char (List.mem_of_getLast? last))

/-- A comment is classified as a uses directive exactly when it is one. -/
theorem classify_eq_some_uses_iff :
    classify comment = some (.uses names) ↔ IsUses comment names := by
  constructor
  · intro found
    obtain ⟨blanks, whole, all⟩ := trimEnd_append comment
    unfold classify at found
    dsimp only at found
    split at found
    · exact absurd found (version?_ne_uses _ _)
    · split at found
      · next rest isRest =>
        refine ⟨rest, blanks, ?_, uses?_eq_some_iff.mp found, all⟩
        rw [whole, ← List.isPrefixOf?_eq_some_iff_append_eq.mp isRest]
        rfl
      · contradiction
  · rintro ⟨text, blanks, rfl, segmented, all⟩
    obtain ⟨pad, whole, isPad, stops⟩ := exists_blanks text
    have read := uses?_eq_some_iff.mpr segmented
    have spaces : ∀ char ∈ pad, char = ' ' := fun char member => eq_space_of_isBlank
      (segmented.forall_mem char (whole ▸ List.mem_append_right _ member)) (isPad char member)
    rw [whole, uses?_append_spaces spaces] at read
    have filled : trimEnd text ≠ [] := by
      intro none
      rw [none] at read
      contradiction
    rw [whole, ← List.append_assoc, List.append_assoc]
    refine (classify_uses (List.forall_mem_append.mpr ⟨isPad, all⟩) fun char last => ?_).trans read
    rw [List.getLast?_append_of_ne_nil _ filled] at last
    exact stops char last

/-- A comment is classified as no directive exactly when it has neither shape. -/
theorem classify_eq_none_iff : classify comment = none ↔
    (∀ major minor, ¬ IsVersion comment major minor) ∧ ∀ names, ¬ IsUses comment names := by
  constructor
  · intro none
    refine ⟨fun major minor isVersion => ?_, fun names isUses => ?_⟩
    · rw [classify_eq_some_version_iff.mpr isVersion] at none
      contradiction
    · rw [classify_eq_some_uses_iff.mpr isUses] at none
      contradiction
  · rintro ⟨noVersion, noUses⟩
    cases found : classify comment with
    | none => rfl
    | some directive =>
      cases directive with
      | version major minor =>
        exact absurd (classify_eq_some_version_iff.mp found) (noVersion major minor)
      | uses names => exact absurd (classify_eq_some_uses_iff.mp found) (noUses names)

example : classify "# vibe: 01.2\t ".toList = some (.version 1 2) := by decide +kernel

example : classify "# uses: json, ,db ".toList = some (.uses ["json", "db"]) := by decide +kernel

end Directive

end Vibescript
