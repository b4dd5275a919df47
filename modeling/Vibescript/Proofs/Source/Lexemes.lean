import Vibescript.Proofs.Source.Tiling

/-!
# Texts with spaces between their tokens

A lexeme is a text that is read, by itself, as tokens alone: one token, or a whole string literal.
A space after a lexeme changes nothing of what is read before it, and nothing of a text is read
differently because a space stands before it. So lexemes with single spaces between them are read
one after another, each as it is read by itself, and without an error.
-/
namespace Vibescript

namespace Content

/-- A character that is not accepted ends what accepts. -/
theorem takeWhile_stop (accepts : Char → Bool) {stop : Char} (refused : accepts stop = false)
    (text more : List Char) :
    (text ++ stop :: more).takeWhile accepts = text.takeWhile accepts := by
  rw [List.takeWhile_append, List.takeWhile_cons_of_neg (by rw [refused]; nofun)]
  split
  · next whole =>
    rw [List.append_nil]
    exact ((List.takeWhile_prefix accepts).eq_of_length whole).symm
  · rfl

/-- What comes after the characters before one that is not accepted. -/
theorem dropWhile_stop (accepts : Char → Bool) {stop : Char} (refused : accepts stop = false)
    (text more : List Char) :
    (text ++ stop :: more).dropWhile accepts = text.dropWhile accepts ++ stop :: more := by
  rw [List.dropWhile_append, List.dropWhile_cons_of_neg (by rw [refused]; nofun)]
  split
  · next empty => rw [List.isEmpty_iff.mp empty, List.nil_append]
  · rfl

section

variable {gap : Char} (isGap : Text.isSeparator gap = true)

include isGap

/-- What is known of every separator. -/
theorem forall_separator (property : Char → Prop)
    (all : property ' ' ∧ property '\t' ∧ property '\n' ∧ property '\x0c' ∧ property '\r') :
    property gap := by
  obtain ⟨space, tab, newline, feed, carriage⟩ := all
  have isOne : gap = ' ' ∨ gap = '\t' ∨ gap = '\n' ∨ gap = '\x0c' ∨ gap = '\r' := by
    simpa [Text.isSeparator, or_assoc] using isGap
  obtain rfl | rfl | rfl | rfl | rfl := isOne <;> assumption

/-- A separator ends a name. -/
theorem isWordChar_separator : isWordChar gap = false :=
  forall_separator isGap (fun gap => isWordChar gap = false) (by decide)

/-- A separator ends a number. -/
theorem isDigitChar_separator : isDigitChar gap = false :=
  forall_separator isGap (fun gap => isDigitChar gap = false) (by decide)

/-- A name takes the same mark before a separator. -/
theorem takesMarker_separator (text more : List Char) :
    takesMarker (text ++ gap :: more) = takesMarker text := by
  have other : gap ≠ '=' := forall_separator isGap (· ≠ '=') (by decide)
  have marker : (gap == '?' || gap == '!') = false :=
    forall_separator isGap (fun gap => (gap == '?' || gap == '!') = false) (by decide)
  match text with
  | [] => simp [takesMarker, marker]
  | [marker] => simp [takesMarker, other]
  | [marker, second] =>
    have after : (some gap != some '=') = (none != some '=') :=
      bne_iff_ne.mpr fun same => other (Option.some.inj same)
    simp [takesMarker, after]
  | marker :: second :: third :: rest => rfl

/-- A name in lower case is the same before a separator. -/
theorem word_separator (first : Char) (text more : List Char) :
    word first (text ++ gap :: more) = word first text := by
  have notWord := isWordChar_separator isGap
  have marker (after : List Char) :
      (if takesMarker after then (after ++ gap :: more).take 1 else []) =
        if takesMarker after then after.take 1 else [] := by
    cases after <;> rfl
  simp only [word, takeWhile_stop isWordChar notWord, dropWhile_stop isWordChar notWord,
    takesMarker_separator isGap, marker]

/-- A name in upper case is the same before a separator. -/
theorem upperWord_separator (first : Char) (text more : List Char) :
    upperWord first (text ++ gap :: more) = upperWord first text := by
  simp only [upperWord, takeWhile_stop isWordChar (isWordChar_separator isGap)]

/-- A number is the same before a separator. -/
theorem number_separator (first : Char) (text more : List Char) :
    number first (text ++ gap :: more) = number first text := by
  have notDigit := isDigitChar_separator isGap
  have notPoint : gap ≠ '.' := forall_separator isGap (· ≠ '.') (by decide)
  have noDigit : gap.isDigit = false :=
    forall_separator isGap (fun gap => gap.isDigit = false) (by decide)
  simp only [number, takeWhile_stop isDigitChar notDigit, dropWhile_stop isDigitChar notDigit]
  cases text.dropWhile isDigitChar with
  | nil => simp [notPoint]
  | cons first after =>
    by_cases point : first = '.'
    · subst point
      cases after with
      | nil => simp [noDigit]
      | cons digit after => simp only [List.cons_append, takeWhile_stop isDigitChar notDigit]
    · simp [point]

/-- A variable is the same before a separator. -/
theorem sigil_separator (text more : List Char) :
    sigil (text ++ gap :: more) = sigil text := by
  have noStart : isWordStart gap = false :=
    forall_separator isGap (fun gap => isWordStart gap = false) (by decide)
  have noSigil : (gap == '@') = false :=
    forall_separator isGap (fun gap => (gap == '@') = false) (by decide)
  match text with
  | [] => simp [sigil, noSigil, noStart]
  | first :: rest =>
    have drop : ((first :: rest ++ gap :: more).drop ([first].filter (· == '@')).length) =
        (first :: rest).drop ([first].filter (· == '@')).length ++ gap :: more := by
      by_cases sigil : first = '@' <;> simp [sigil]
    have start (after : List Char) :
        (after ++ gap :: more).head?.any isWordStart = after.head?.any isWordStart := by
      cases after <;> simp [noStart]
    simp only [sigil, List.cons_append, List.take_succ_cons, List.take_zero] at drop ⊢
    simp only [drop, start, takeWhile_stop isWordChar (isWordChar_separator isGap)]
    rfl

/-- A colon is the same before a separator. -/
theorem colon_separator (before : Option Char) (text more : List Char) :
    colon before (text ++ gap :: more) = colon before text := by
  have noStart : isWordStart gap = false :=
    forall_separator isGap (fun gap => isWordStart gap = false) (by decide)
  have start : (text ++ gap :: more).head?.any isWordStart = text.head?.any isWordStart := by
    cases text <;> simp [noStart]
  simp only [colon, start, takeWhile_stop isWordChar (isWordChar_separator isGap)]

/-- No mark ends in a separator. -/
theorem mark?_separator (first : Char) :
    (TokenKind.mark? (String.ofList [first, gap]) : Option (TokenKind String)) = none := by
  have solid (tag : Tag) :
      (tag.spelling?.bind fun text => text.toList.getLast?) ≠ some gap :=
    forall_separator isGap (fun gap =>
      (tag.spelling?.bind fun text => text.toList.getLast?) ≠ some gap) (by cases tag <;> decide)
  have absent : Tag.all.find? (fun tag =>
      tag.isMark && tag.spelling? == some (String.ofList [first, gap])) = none := by
    refine List.find?_eq_none.mpr fun tag _ found => ?_
    rw [Bool.and_eq_true, beq_iff_eq] at found
    refine solid tag ?_
    rw [found.2, Option.bind_some, String.toList_ofList]
    rfl
  rw [TokenKind.mark?, absent]
  rfl

/-- A mark is the same before a separator. -/
theorem mark_separator (first : Char) (text more : List Char) :
    mark first (text ++ gap :: more) = mark first text := by
  cases text with
  | nil =>
    have single : ([] ++ gap :: more).head?.bind (fun second =>
        (TokenKind.mark? (String.ofList [first, second]) : Option (TokenKind String))) = none :=
      mark?_separator isGap first
    rw [mark, single]
    rfl
  | cons second text => rfl

/-- What is no comment is the same before a separator. A comment is the same before a line break. -/
theorem inCode_separator_after {before : Option Char} {first : Char}
    (solid : Text.isSeparator first = false) (ends : (first == '#') = false ∨ gap = '\n')
    (text more : List Char) :
    inCode before first (text ++ gap :: more) = inCode before first text := by
  have notSeparator : ¬Text.isSeparator first = true := by
    rw [solid]
    nofun
  unfold inCode
  rw [if_neg notSeparator, if_neg notSeparator]
  by_cases comment : (first == '#') = true
  · rw [if_pos comment, if_pos comment]
    obtain rfl := ends.resolve_left (by simp [comment])
    simp only [hash, @takeWhile_stop (· != '\n') '\n' rfl]
  rw [if_neg comment, if_neg comment, word_separator isGap, upperWord_separator isGap,
    number_separator isGap, sigil_separator isGap, colon_separator isGap, mark_separator isGap]

end

/-- What stands before a colon matters only where an operand ends. -/
theorem inCode_before {before other : Option Char}
    (same : before.any endsOperand = other.any endsOperand) (first : Char) (text : List Char) :
    inCode before first text = inCode other first text := by
  simp only [inCode, colon, same]

/-- A token is the same before a space. -/
theorem inCode_space {before : Option Char} {first : Char} {text : List Char}
    {kind : TokenKind String} (reads : (inCode before first text).1 = .token kind)
    (plain : kind.isDirective = false) (more : List Char) :
    inCode before first (text ++ ' ' :: more) = inCode before first text := by
  have solid : Text.isSeparator first = false := by
    cases separator : Text.isSeparator first with
    | false => rfl
    | true =>
      rw [inCode, if_pos separator] at reads
      contradiction
  refine inCode_separator_after rfl solid (.inl ?_) text more
  cases comment : first == '#' with
  | false => rfl
  | true =>
    -- A comment is no token, unless it is a directive.
    unfold inCode at reads
    rw [if_neg (ne_true_of_eq_false solid), if_pos comment] at reads
    simp only [hash] at reads
    split at reads <;> cases reads <;> contradiction

/-- A piece of a string literal is the same before a space, unless it is text that goes on. -/
theorem inString_space {first : Char} {text : List Char} {kind : TokenKind String}
    (reads : (inString first text).1 = .token kind)
    (ends : (inString first text).2 = text.length → ∀ run, kind ≠ .stringContent run)
    (more : List Char) : inString first (text ++ ' ' :: more) = inString first text := by
  unfold inString at reads ends ⊢
  by_cases quote : (first == '"') = true
  · rw [if_pos quote, if_pos quote]
  rw [if_neg quote] at reads ends
  rw [if_neg quote, if_neg quote]
  by_cases escape : (first == '\\') = true
  · rw [if_pos escape] at reads
    rw [if_pos escape, if_pos escape]
    cases text with
    | nil => contradiction
    | cons char text => rfl
  rw [if_neg escape] at reads ends
  rw [if_neg escape, if_neg escape]
  obtain rfl := Content.token.inj reads
  have shorter : (text.takeWhile isPlain).length ≠ text.length := fun whole => ends whole _ rfl
  simp only [List.takeWhile_append, if_neg shorter]

/-- In a string literal a plain character starts a run of text. -/
theorem inString_plain {first : Char} (plain : isPlain first = true) (rest : List Char) :
    inString first rest =
      (.token (.stringContent (String.ofList (first :: rest.takeWhile isPlain))),
        (rest.takeWhile isPlain).length) := by
  rw [isPlain, Bool.and_eq_true, bne_iff_ne, bne_iff_ne] at plain
  unfold inString
  rw [beq_false_of_ne plain.1, beq_false_of_ne plain.2]
  rfl

/-- A name in lower case takes its characters. -/
theorem word_eq (first : Char) (rest : List Char) : word first rest =
    (.token (.ofWord (String.ofList (first :: rest.take (word first rest).2))),
      (word first rest).2) := by
  have whole := List.takeWhile_append_dropWhile (p := isWordChar) (l := rest)
  have text : rest.takeWhile isWordChar ++
      (if takesMarker (rest.dropWhile isWordChar) then (rest.dropWhile isWordChar).take 1 else []) =
        rest.take (word first rest).2 := by
    simp only [word]
    generalize rest.takeWhile isWordChar = body at whole
    generalize rest.dropWhile isWordChar = after at whole
    rw [← whole]
    split
    · cases after with
      | nil => simp
      | cons marker after => simp [List.take_append, List.take_of_length_le]
    · simp
  rw [← text]
  rfl

/-- No piece takes more than there is. -/
theorem length_word_le (first : Char) (text : List Char) : (word first text).2 ≤ text.length := by
  have split := congrArg List.length (List.takeWhile_append_dropWhile (p := isWordChar) (l := text))
  rw [List.length_append] at split
  simp only [word]
  split
  · rw [List.length_take]
    omega
  · rw [List.length_nil]
    omega

/-- No number takes more than there is. -/
theorem length_number_le (first : Char) (text : List Char) :
    (number first text).2 ≤ text.length := by
  have split := congrArg List.length (List.takeWhile_append_dropWhile (p := isDigitChar) (l := text))
  rw [List.length_append] at split
  have integer : (number.integer (first :: text.takeWhile isDigitChar)).2 ≤ text.length := by
    simp only [number.integer, List.length_cons]
    omega
  simp only [number]
  split
  · next digit after fraction =>
    rw [fraction] at split
    have places := (List.takeWhile_prefix (l := after) isDigitChar).length_le
    split
    · simp only [List.length_cons] at split ⊢
      omega
    · exact integer
  · exact integer

/-- No variable takes more than there is. -/
theorem length_sigil_le (text : List Char) : (sigil text).2 ≤ text.length := by
  have sigils : ((text.take 1).filter (· == '@')).length ≤ text.length :=
    Nat.le_trans (List.length_filter_le _ _) (List.length_take_le' 1 text)
  have name := (List.takeWhile_prefix isWordChar
    (l := text.drop ((text.take 1).filter (· == '@')).length)).length_le
  rw [List.length_drop] at name
  simp only [sigil]
  split
  · dsimp only
    omega
  · exact sigils

/-- No piece takes more than there is. -/
theorem length_read_le (mode : Mode) (before : Option Char) (first : Char) (text : List Char) :
    (read mode before first text).2 ≤ text.length := by
  have taken (accepts : Char → Bool) : (text.takeWhile accepts).length ≤ text.length :=
    (List.takeWhile_prefix accepts).length_le
  cases mode with
  | code =>
    show (inCode before first text).2 ≤ text.length
    unfold inCode
    split
    · exact taken _
    split
    · exact taken _
    split
    · exact length_word_le first text
    split
    · exact taken _
    split
    · exact length_number_le first text
    split
    · exact Nat.zero_le _
    split
    · exact length_sigil_le text
    split
    · unfold colon
      split
      · exact Nat.zero_le _
      · exact taken _
    · unfold mark
      cases text with
      | nil =>
        dsimp only [List.head?_nil, Option.bind_none]
        split <;> exact Nat.le_refl _
      | cons second text =>
        split
        · exact Nat.succ_le_succ (Nat.zero_le _)
        · split <;> exact Nat.zero_le _
  | string opening =>
    show (inString first text).2 ≤ text.length
    unfold inString
    split
    · exact Nat.zero_le _
    split
    · cases text with
      | nil => exact Nat.zero_le _
      | cons char text =>
        dsimp only
        split <;> exact Nat.succ_le_succ (Nat.zero_le _)
    · exact taken _

end Content

/-- A text is read, by itself, as these tokens and nothing else, and none of them is a directive. -/
structure IsLexeme (text : List Char) (kinds : List (TokenKind String)) : Prop where
  /-- Every piece is a token. -/
  reads : (Piece.list text).map (·.content) = kinds.map .token
  /-- No token is a directive. -/
  plain : ∀ kind ∈ kinds, kind.isDirective = false

instance (text : List Char) (kinds : List (TokenKind String)) : Decidable (IsLexeme text kinds) :=
  decidable_of_iff ((Piece.list text).map (·.content) = kinds.map .token ∧
      ∀ kind ∈ kinds, kind.isDirective = false)
    ⟨fun both => ⟨both.1, both.2⟩, fun isLexeme => ⟨isLexeme.reads, isLexeme.plain⟩⟩

/-- Every fixed spelling is read as its token. -/
theorem isLexeme_spelling (tag : Tag) (spelled : tag.spelling?.isSome = true) :
    IsLexeme (tag.spelling?.get spelled).toList [.fixed tag spelled] := by
  refine ⟨?_, by simp [TokenKind.isDirective]⟩
  revert spelled
  cases tag <;> decide +kernel

namespace Piece

/-- Which rules apply, without regard to where a literal opened. -/
def SameMode : Mode → Mode → Prop
  | .code, .code | .string _, .string _ => True
  | _, _ => False

/-- The same rules go on to apply after the same content. -/
theorem SameMode.modeAfter {mode other : Mode} (same : SameMode mode other) (content : Content)
    (offset place : Nat) :
    SameMode (content.modeAfter offset mode) (content.modeAfter place other) := by
  unfold Content.modeAfter
  split <;> first | exact trivial | exact same

/-- A piece wherever it stands. -/
def face (piece : Piece) : List Char × Content := (piece.text, piece.content)

/-- What pieces are. -/
theorem map_face (pieces : List Piece) :
    (pieces.map face).map Prod.snd = pieces.map (·.content) := by
  rw [List.map_map]
  rfl

/-- What the first piece of a text is, and what the others are. -/
theorem contents_cons (mode : Mode) (before : Option Char) (offset : Nat) (char : Char)
    (text : List Char) :
    (listFrom 0 mode before offset (char :: text)).map (·.content) =
      (Content.read mode before char text).1 ::
        (listFrom (Content.read mode before char text).2
          ((Content.read mode before char text).1.modeAfter offset mode) (some char)
          (offset + char.utf8Size) text).map (·.content) := rfl

/-- The first piece of a text, and the others. -/
theorem faces_cons (mode : Mode) (before : Option Char) (offset : Nat) (char : Char)
    (text : List Char) :
    (listFrom 0 mode before offset (char :: text)).map face =
      (char :: text.take (Content.read mode before char text).2,
        (Content.read mode before char text).1) ::
        (listFrom (Content.read mode before char text).2
          ((Content.read mode before char text).1.modeAfter offset mode) (some char)
          (offset + char.utf8Size) text).map face := rfl

/-- A text that is passed over leaves the text after it. -/
theorem listFrom_passed (text after : List Char) (mode : Mode) (before : Option Char)
    (offset : Nat) : listFrom text.length mode before offset (text ++ after) =
      listFrom 0 mode (text.getLast?.or before) (offset + Text.byteLength text) after := by
  induction text generalizing before offset with
  | nil => rfl
  | cons char text ih =>
    rw [Text.byteLength_cons, ← Nat.add_assoc]
    refine (ih (some char) (offset + char.utf8Size)).trans ?_
    cases text with
    | nil => rfl
    | cons next text =>
      rw [List.getLast?_cons_cons, List.getLast?_cons]
      rfl

/-- A piece starts where those before it end. -/
theorem start_listFrom (passed : Nat) (mode : Mode) (before : Option Char) (offset : Nat)
    (text : List Char) {earlier later : List Piece} {piece : Piece}
    (isList : listFrom passed mode before offset text = earlier ++ piece :: later) :
    piece.start = offset + Text.byteLength (text.take passed) +
      Text.byteLength (earlier.flatMap (·.text)) := by
  induction text generalizing passed mode before offset earlier with
  | nil =>
    cases mode with
    | code => simp [listFrom] at isList
    | string opening =>
      obtain ⟨rfl, single⟩ := List.append_eq_singleton_iff.mp isList.symm |>.resolve_right (by simp)
      obtain rfl := (List.cons.inj single).1
      rw [List.take_nil]
      rfl
  | cons char rest ih =>
    cases passed with
    | succ more =>
      have start := ih _ _ _ _ isList
      rw [List.take_succ_cons, Text.byteLength_cons]
      omega
    | zero =>
      cases earlier with
      | nil =>
        obtain ⟨rfl, _⟩ := List.cons.inj isList
        rfl
      | cons first earlier =>
        obtain ⟨isFirst, others⟩ := List.cons.inj isList
        have start : piece.start = offset + char.utf8Size +
            Text.byteLength (rest.take (Content.read mode before char rest).2) +
            Text.byteLength (earlier.flatMap (·.text)) := ih _ _ _ _ others
        have text : first.text = char :: rest.take (Content.read mode before char rest).2 :=
          isFirst ▸ rfl
        rw [List.flatMap_cons, Text.byteLength_append, text, Text.byteLength_cons, List.take_zero,
          Text.byteLength_nil]
        omega

/-- A piece starts where those before it end. -/
theorem start_list {source : List Char} {earlier later : List Piece} {piece : Piece}
    (isList : list source = earlier ++ piece :: later) :
    piece.start = Text.byteLength (earlier.flatMap (·.text)) := by
  have start := start_listFrom 0 .code none 0 source isList
  rw [start, List.take_zero, Text.byteLength_nil]
  omega

/-- A text that is passed over in a string literal leaves the literal open. -/
theorem listFrom_length (before : Option Char) (offset opening : Nat) (text : List Char) :
    (listFrom text.length (.string opening) before offset text).map (·.content) =
      [.unterminated opening] := by
  induction text generalizing before offset with
  | nil => rfl
  | cons char text ih => exact ih _ _

/-- A text that is read as tokens alone starts with the same content at the end and before a space,
wherever it stands. -/
theorem read_apart {kind : TokenKind String} {kinds : List (TokenKind String)} {mode other : Mode}
    {before instead : Option Char} {offset place : Nat} {char : Char} {text after : List Char}
    (isToken : (Content.read mode before char text).1 = .token kind)
    (isPlain : kind.isDirective = false)
    (later : (listFrom (Content.read mode before char text).2
      ((Content.read mode before char text).1.modeAfter offset mode) (some char) place text).map
        (·.content) = kinds.map .token)
    (sameMode : SameMode mode other)
    (sameBefore : before.any Content.endsOperand = instead.any Content.endsOperand)
    (apart : after = [] ∨ ∃ more, after = ' ' :: more) :
    Content.read other instead char (text ++ after) = Content.read mode before char text := by
  cases mode with
  | code =>
    cases other with
    | code =>
      have moved := Content.inCode_before sameBefore.symm char (text ++ after)
      refine moved.trans ?_
      rcases apart with rfl | ⟨more, rfl⟩
      · rw [List.append_nil]
        rfl
      · exact Content.inCode_space isToken isPlain more
    | string => exact sameMode.elim
  | string opening =>
    cases other with
    | code => exact sameMode.elim
    | string =>
      rcases apart with rfl | ⟨more, rfl⟩
      · rw [List.append_nil]
        rfl
      refine Content.inString_space isToken (fun whole run isRun => ?_) more
      subst isRun
      -- The text would go on to the end, and the literal with it.
      have taken : (Content.read (.string opening) before char text).2 = text.length := whole
      rw [isToken, taken] at later
      have goesOn : (Content.token (.stringContent run)).modeAfter offset
          (.string opening) = .string opening := rfl
      rw [goesOn, listFrom_length] at later
      cases kinds <;> simp at later

/-- The pieces of a text at the end or before a space are those of the text by itself, wherever it
stands. -/
theorem faces_append {kinds : List (TokenKind String)} {passed : Nat} {mode other : Mode}
    {before instead : Option Char} {offset place : Nat} {text after : List Char}
    (reads : (listFrom passed mode before offset text).map (·.content) = kinds.map .token)
    (plain : ∀ kind ∈ kinds, kind.isDirective = false) (enough : passed ≤ text.length)
    (sameMode : SameMode mode other)
    (sameBefore : before.any Content.endsOperand = instead.any Content.endsOperand)
    (apart : after = [] ∨ ∃ more, after = ' ' :: more) :
    ∃ last next, (listFrom passed other instead place (text ++ after)).map face =
      (listFrom passed mode before offset text).map face ++
        (listFrom 0 .code last next after).map face := by
  induction text generalizing kinds passed mode other before instead offset place with
  | nil =>
    obtain rfl : passed = 0 := Nat.le_zero.mp enough
    cases mode with
    | code =>
      cases other with
      | code =>
        obtain rfl : kinds = [] := by simpa [listFrom] using reads.symm
        exact ⟨instead, place, rfl⟩
      | string => exact sameMode.elim
    | string opening =>
      cases kinds <;> simp [listFrom] at reads
  | cons char text ih =>
    cases passed with
    | succ passed =>
      exact ih reads plain (Nat.le_of_succ_le_succ enough) sameMode rfl
    | zero =>
      cases kinds with
      | nil => simp [listFrom] at reads
      | cons kind kinds =>
        rw [contents_cons] at reads
        obtain ⟨isToken, later⟩ := List.cons.inj reads
        have same := read_apart isToken (plain kind List.mem_cons_self) later sameMode sameBefore apart
        have fits := Content.length_read_le mode before char text
        obtain ⟨last, next, rest⟩ := ih later
          (fun kind member => plain kind (List.mem_cons_of_mem _ member)) fits
          (sameMode.modeAfter (Content.read mode before char text).1 offset place) rfl
        refine ⟨last, next, ?_⟩
        rw [List.cons_append, faces_cons, same, rest, faces_cons,
          List.take_append_of_le_length fits, List.cons_append]

end Piece

/-- A text that is read, by itself, as tokens alone: one token, or a whole string literal. -/
structure Lexeme where
  /-- The text. -/
  text : String
  /-- The tokens. -/
  kinds : List (TokenKind String)
  /-- There is one. -/
  filled : kinds ≠ []
  /-- The text is read as these tokens. -/
  isLexeme : IsLexeme text.toList kinds

namespace Lexeme

/-- The source text of some lexemes, with single spaces between them. -/
def source (lexemes : List Lexeme) : String := " ".intercalate (lexemes.map Lexeme.text)

/-- No separator stands at the start of a lexeme. -/
theorem head_text (lexeme : Lexeme) :
    ∃ first rest, lexeme.text.toList = first :: rest ∧ Text.isSeparator first = false := by
  have reads := lexeme.isLexeme.reads
  cases whole : lexeme.text.toList with
  | nil =>
    rw [whole] at reads
    exact absurd (List.map_eq_nil_iff.mp reads.symm) lexeme.filled
  | cons first rest =>
    refine ⟨first, rest, rfl, ?_⟩
    cases separator : Text.isSeparator first with
    | false => rfl
    | true =>
      rw [whole, Piece.list, Piece.contents_cons, Content.read,
        Content.inCode_separator none rest separator] at reads
      cases kinds : lexeme.kinds <;> simp [kinds] at reads

/-- The space between lexemes. -/
def space : List Char × Content := ([' '], .blank)

/-- A space before a lexeme is a piece by itself. -/
theorem faces_space {last : Option Char} {offset : Nat} {text : List Char}
    (solid : ∀ first ∈ text.head?, Text.isSeparator first = false) :
    (Piece.listFrom 0 .code last offset (' ' :: text)).map Piece.face =
      space :: (Piece.listFrom 0 .code (some ' ') (offset + 1) text).map Piece.face := by
  have single : (text.takeWhile Text.isSeparator).length = 0 := by
    cases text with
    | nil => rfl
    | cons first text =>
      rw [List.takeWhile_cons_of_neg (by rw [solid first rfl]; nofun)]
      rfl
  rw [Piece.faces_cons, Content.read, Content.inCode_separator last text rfl, single]
  rfl

/-- Lexemes with single spaces between them are read one after another. -/
theorem faces_source (lexemes : List Lexeme) :
    (Piece.list (source lexemes).toList).map Piece.face =
      [space].intercalate (lexemes.map fun lexeme =>
        (Piece.list lexeme.text.toList).map Piece.face) := by
  have whole : (source lexemes).toList =
      [' '].intercalate (lexemes.map fun lexeme => lexeme.text.toList) := by
    rw [source, String.toList_intercalate, List.map_map]
    rfl
  rw [whole, Piece.list]
  suffices general : ∀ before : Option Char, before.any Content.endsOperand = false →
      ∀ offset, (Piece.listFrom 0 .code before offset
        ([' '].intercalate (lexemes.map fun lexeme => lexeme.text.toList))).map Piece.face =
      [space].intercalate (lexemes.map fun lexeme =>
        (Piece.list lexeme.text.toList).map Piece.face) from
    general none rfl 0
  clear whole
  induction lexemes with
  | nil => exact fun _ _ _ => rfl
  | cons lexeme lexemes ih =>
    intro before quiet offset
    have own (after : List Char) (apart : after = [] ∨ ∃ more, after = ' ' :: more) :
        ∃ last place, (Piece.listFrom 0 .code before offset
            (lexeme.text.toList ++ after)).map Piece.face =
          (Piece.list lexeme.text.toList).map Piece.face ++
            (Piece.listFrom 0 .code last place after).map Piece.face :=
      Piece.faces_append lexeme.isLexeme.reads lexeme.isLexeme.plain (Nat.zero_le _)
        (show Piece.SameMode .code .code from trivial) quiet.symm apart
    cases lexemes with
    | nil =>
      obtain ⟨last, place, same⟩ := own [] (.inl rfl)
      simpa [Piece.listFrom] using same
    | cons next lexemes =>
      have solid : ∀ first ∈ ([' '].intercalate
          ((next :: lexemes).map fun lexeme => lexeme.text.toList)).head?,
          Text.isSeparator first = false := by
        obtain ⟨first, rest, text, solid⟩ := next.head_text
        intro other isHead
        have same : other = first := by
          cases lexemes <;> simpa [text, eq_comm] using isHead
        rw [same, solid]
      have split {α : Type} (separator : α) (f : Lexeme → List α) :
          [separator].intercalate ((lexeme :: next :: lexemes).map f) =
            f lexeme ++ separator :: [separator].intercalate ((next :: lexemes).map f) := by
        simp
      obtain ⟨last, place, same⟩ := own _ (.inr ⟨_, rfl⟩)
      rw [split, split, same, faces_space solid, ih (some ' ') rfl]

/-- What the pieces of lexemes with single spaces between them are. -/
theorem contents_source (lexemes : List Lexeme) :
    (Piece.list (source lexemes).toList).map (·.content) =
      [Content.blank].intercalate (lexemes.map fun lexeme => lexeme.kinds.map .token) := by
  have own (lexeme : Lexeme) :
      ((Piece.list lexeme.text.toList).map Piece.face).map Prod.snd = lexeme.kinds.map .token := by
    rw [Piece.map_face, lexeme.isLexeme.reads]
  rw [← Piece.map_face, faces_source]
  induction lexemes with
  | nil => rfl
  | cons lexeme lexemes ih =>
    cases lexemes with
    | nil => simpa using own lexeme
    | cons next lexemes =>
      simp only [List.map_cons, List.intercalate_cons_cons, List.map_append] at ih ⊢
      rw [ih, own]
      rfl

/-- The tokens of lexemes with single spaces between them are those of the lexemes. -/
theorem kinds_source (lexemes : List Lexeme) :
    (Piece.tokens (Piece.list (source lexemes).toList)).map (·.kind) =
      lexemes.flatMap Lexeme.kinds := by
  have token (piece : Piece) : piece.token?.map (·.kind) =
      Piece.kind? ⟨0, [], piece.content⟩ := by
    rw [Piece.token?, Option.map_map]
    exact Option.map_id'
  have contents : (Piece.tokens (Piece.list (source lexemes).toList)).map (·.kind) =
      ((Piece.list (source lexemes).toList).map (·.content)).filterMap fun content =>
        Piece.kind? ⟨0, [], content⟩ := by
    rw [Piece.tokens, List.map_filterMap, List.filterMap_map]
    exact List.filterMap_congr fun piece _ => token piece
  have own (kinds : List (TokenKind String)) :
      (kinds.map Content.token).filterMap (fun content => Piece.kind? ⟨0, [], content⟩) = kinds := by
    rw [List.filterMap_map]
    exact List.filterMap_some
  rw [contents, contents_source]
  clear contents
  induction lexemes with
  | nil => rfl
  | cons lexeme lexemes ih =>
    cases lexemes with
    | nil => simpa using own lexeme.kinds
    | cons next lexemes =>
      rw [List.map_cons] at ih
      rw [List.map_cons, List.map_cons, List.intercalate_cons_cons, List.append_assoc,
        List.filterMap_append, List.filterMap_append, own, ih]
      rfl

/-- Every piece of lexemes with single spaces between them is a space or a token of one of them. -/
theorem content_source {lexemes : List Lexeme} {piece : Piece}
    (member : piece ∈ Piece.list (source lexemes).toList) :
    piece.content = .blank ∨
      ∃ kind, piece.content = .token kind ∧ kind.isDirective = false := by
  have inside := List.mem_map_of_mem (f := (·.content)) member
  rw [contents_source] at inside
  clear member
  induction lexemes with
  | nil => contradiction
  | cons lexeme lexemes ih =>
    have own (token : piece.content ∈ lexeme.kinds.map Content.token) :
        ∃ kind, piece.content = .token kind ∧ kind.isDirective = false := by
      obtain ⟨kind, among, same⟩ := List.mem_map.mp token
      exact ⟨kind, same.symm, lexeme.isLexeme.plain kind among⟩
    cases lexemes with
    | nil => exact .inr (own (by simpa using inside))
    | cons next lexemes =>
      rw [List.map_cons] at ih
      rw [List.map_cons, List.map_cons, List.intercalate_cons_cons, List.append_assoc,
        List.mem_append, List.mem_append] at inside
      rcases inside with token | blank | later
      · exact .inr (own token)
      · exact .inl (List.mem_singleton.mp blank)
      · exact ih later

/-- A piece between lexemes is a single space. -/
theorem text_source {lexemes : List Lexeme} {piece : Piece}
    (member : piece ∈ Piece.list (source lexemes).toList) (blank : piece.content = .blank) :
    piece.text = [' '] := by
  have inside := List.mem_map_of_mem (f := Piece.face) member
  rw [faces_source] at inside
  clear member
  induction lexemes with
  | nil => contradiction
  | cons lexeme lexemes ih =>
    have own : Piece.face piece ∉ (Piece.list lexeme.text.toList).map Piece.face := by
      intro among
      have isContent := List.mem_map_of_mem (f := Prod.snd) among
      rw [Piece.map_face, lexeme.isLexeme.reads, List.mem_map] at isContent
      obtain ⟨kind, _, same⟩ := isContent
      have isToken : piece.content = .token kind := same.symm
      rw [blank] at isToken
      contradiction
    cases lexemes with
    | nil => exact absurd (by simpa using inside) own
    | cons next lexemes =>
      rw [List.map_cons] at ih
      rw [List.map_cons, List.map_cons, List.intercalate_cons_cons, List.append_assoc,
        List.mem_append, List.mem_append] at inside
      rcases inside with token | space | later
      · exact absurd token own
      · exact congrArg Prod.fst (List.mem_singleton.mp space)
      · exact ih later

/-- No line breaks between lexemes with single spaces between them. -/
theorem unbroken_source {lexemes : List Lexeme} {before after : List (Token String)}
    {left right : Token String}
    (whole : Piece.tokens (Piece.list (source lexemes).toList) = before ++ left :: right :: after) :
    '\n' ∉ Text.slice (source lexemes).toList ⟨left.span.stop, right.span.start⟩ := by
  obtain ⟨early, late, pieces, _, tokens⟩ := List.filterMap_eq_append_iff.mp whole
  obtain ⟨skipped, first, others, rfl, _, isLeft, more⟩ := List.filterMap_eq_cons_iff.mp tokens
  obtain ⟨spaces, second, last, rfl, blanks, isRight, _⟩ := List.filterMap_eq_cons_iff.mp more
  obtain ⟨_, _, rfl⟩ := Option.map_eq_some_iff.mp isLeft
  obtain ⟨_, _, rfl⟩ := Option.map_eq_some_iff.mp isRight
  have starts : first.start = Text.byteLength ((early ++ skipped).flatMap (·.text)) :=
    Piece.start_list (by rw [pieces, List.append_assoc])
  have next : second.start =
      Text.byteLength ((early ++ skipped ++ first :: spaces).flatMap (·.text)) :=
    Piece.start_list (by rw [pieces, List.append_assoc, List.append_assoc, List.cons_append])
  have texts := Piece.flatMap_text_list (source lexemes).toList
  have gap : Text.slice (source lexemes).toList ⟨first.span.stop, second.span.start⟩ =
      spaces.flatMap (·.text) := by
    have whole : (source lexemes).toList = ((early ++ skipped).flatMap (·.text) ++ first.text) ++
        spaces.flatMap (·.text) ++ (second.text ++ last.flatMap (·.text)) := by
      rw [← texts, pieces]
      simp
    refine Piece.slice_middle whole ?_ ?_
    · rw [Text.byteLength_append, ← starts]
      rfl
    · rw [Piece.span, Piece.span, next, starts]
      simp only [List.flatMap_append, List.flatMap_cons, Text.byteLength_append]
      omega
  rw [gap, List.mem_flatMap]
  rintro ⟨piece, among, breaks⟩
  have member : piece ∈ Piece.list (source lexemes).toList := by
    rw [pieces]
    simp [among]
  rcases content_source member with blank | ⟨kind, isToken, _⟩
  · rw [text_source member blank] at breaks
    contradiction
  · have token := blanks piece among
    rw [Piece.token?, Piece.kind?, isToken] at token
    contradiction

/-- Lexemes with single spaces between them have no errors. -/
theorem faults_source (lexemes : List Lexeme) : Piece.faults (source lexemes).toList = [] := by
  refine List.filterMap_eq_nil_iff.mpr fun piece member => ?_
  rcases content_source member with blank | ⟨kind, token, _⟩
  · rw [Piece.error?, blank]
  · rw [Piece.error?, token]

/-- Lexemes with single spaces between them have no directives. -/
theorem plain_source {lexemes : List Lexeme} {token : Token String}
    (member : token ∈ Piece.tokens (Piece.list (source lexemes).toList)) :
    token.kind.isDirective = false := by
  obtain ⟨piece, inside, isToken⟩ := List.mem_filterMap.mp member
  obtain ⟨kind, isKind, rfl⟩ := Option.map_eq_some_iff.mp isToken
  rcases content_source inside with blank | ⟨other, token, plain⟩
  · rw [Piece.kind?, blank] at isKind
    contradiction
  · rw [Piece.kind?, token] at isKind
    obtain rfl := Option.some.inj isKind
    exact plain

end Lexeme

end Vibescript
