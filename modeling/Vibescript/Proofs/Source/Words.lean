import Vibescript.Proofs.Source.Printing

/-!
# Texts without spaces between their tokens

Where a name ends and a mark follows, no space is needed between them. `Piece.Reads` says what a
text in code is read as; the rules put a name, a mark, a colon or a space before a text whose
reading is known. Of what stands before a text only one thing counts: whether an operand ends there,
since then a colon belongs to that operand.
-/
namespace Vibescript

open Content

/-- In code, after an operand or not, a text is read as these contents. -/
def Piece.Reads (operand : Bool) (text : List Char) (contents : List Content) : Prop :=
  ∀ (before : Option Char) (offset : Nat), before.any endsOperand = operand →
    (listFrom 0 .code before offset text).map (·.content) = contents

namespace TokenKind

variable {word : String}

/-- A reserved word is the spelling of its tag. -/
theorem of_ofWord_fixed {tag : Tag} {spelled : tag.spelling?.isSome = true}
    (reserved : ofWord word = .fixed tag spelled) :
    tag.isKeyword = true ∧ tag.spelling? = some word := by
  unfold ofWord at reserved
  split at reserved
  · contradiction
  cases found : (keyword? word : Option (TokenKind String)) with
  | none =>
    rw [found] at reserved
    contradiction
  | some kind =>
    rw [found] at reserved
    obtain ⟨other, isTag, made⟩ := Option.bind_eq_some_iff.mp found
    obtain ⟨_, rfl⟩ := of_ofTag? made
    obtain rfl : other = tag := by
      rw [Option.getD_some] at reserved
      exact (TokenKind.fixed.inj reserved)
    simpa using List.find?_some isTag

end TokenKind

namespace Content

/-- A character that ends a name, whether or not the name has a trailing mark. -/
def endsWord (char : Char) : Bool :=
  !isWordChar char && char != '?' && char != '!' && char != '='

/-- The marks that start no longer mark. -/
def loneMarks : List Char := ['(', ')', '{', '}', '?', ',']

variable {first stop : Char} {body marker after : List Char}

/-- A character that ends a name is no mark of it. -/
theorem takesMarker_stop (ends : endsWord stop = true) (after : List Char) :
    isWordChar stop = false ∧ takesMarker (stop :: after) = false := by
  simp only [endsWord, Bool.and_eq_true, Bool.not_eq_true', bne_iff_ne] at ends
  obtain ⟨⟨⟨notWord, notQuestion⟩, notBang⟩, _⟩ := ends
  refine ⟨notWord, ?_⟩
  rw [takesMarker, beq_false_of_ne notQuestion, beq_false_of_ne notBang]
  rfl

/-- A name in lower case takes its mark and nothing of what ends it. -/
theorem word_stop (words : ∀ char ∈ body, isWordChar char = true)
    (mark : marker = [] ∨ marker = ['?'] ∨ marker = ['!']) (ends : endsWord stop = true) :
    word first (body ++ marker ++ stop :: after) =
      (.token (.ofWord (String.ofList (first :: (body ++ marker)))), (body ++ marker).length) := by
  obtain ⟨notWord, unmarked⟩ := takesMarker_stop ends after
  have notEqual : stop ≠ '=' := by
    rintro rfl
    contradiction
  have taken : (body ++ marker ++ stop :: after).takeWhile isWordChar = body := by
    rw [List.append_assoc, List.takeWhile_append_of_pos words]
    rcases mark with rfl | rfl | rfl
    · simp [notWord]
    · simp [isWordChar]
    · simp [isWordChar]
  have left : (body ++ marker ++ stop :: after).dropWhile isWordChar = marker ++ stop :: after := by
    rw [List.append_assoc, List.dropWhile_append_of_pos words]
    rcases mark with rfl | rfl | rfl
    · simp [notWord]
    · rfl
    · rfl
  have marked : (if takesMarker (marker ++ stop :: after) then
      (marker ++ stop :: after).take 1 else []) = marker := by
    rcases mark with rfl | rfl | rfl
    · rw [List.nil_append, unmarked]
      rfl
    · simp [takesMarker, notEqual]
    · simp [takesMarker, notEqual]
  simp only [word, taken, left, marked, List.length_append]
  rfl

/-- A name is read up to what ends it. -/
theorem inCode_name (starts : first.isLower = true ∨ first = '_')
    (words : ∀ char ∈ body, isWordChar char = true)
    (mark : marker = [] ∨ marker = ['?'] ∨ marker = ['!']) (ends : endsWord stop = true)
    (before : Option Char) :
    inCode before first (body ++ marker ++ stop :: after) =
      (.token (.ofWord (String.ofList (first :: (body ++ marker)))), (body ++ marker).length) := by
  obtain ⟨solid, noComment⟩ := starts_of_isWordChar (starts_lower starts).2
  have lower : (first.isLower || first == '_') = true := by simpa using starts
  rw [inCode, solid, noComment, lower, word_stop words mark ends]
  rfl

/-- A name in upper case is read up to what ends it. -/
theorem inCode_upperName (starts : first.isUpper = true)
    (words : ∀ char ∈ body, isWordChar char = true) (ends : isWordChar stop = false)
    (before : Option Char) :
    inCode before first (body ++ stop :: after) =
      (.token (.ofWord (String.ofList (first :: body))), body.length) := by
  obtain ⟨notLower, isWord⟩ := starts_upper starts
  obtain ⟨solid, noComment⟩ := starts_of_isWordChar isWord
  rw [inCode, solid, noComment, notLower, starts, upperWord, takeWhile_stop isWordChar ends,
    List.takeWhile_eq_self_iff.mpr words]
  rfl

/-- No longer mark starts with these marks. -/
theorem mark?_lone (lone : first ∈ loneMarks) (second : Char) :
    (TokenKind.mark? (String.ofList [first, second]) : Option (TokenKind String)) = none := by
  have single : ∀ tag : Tag, ∀ text ∈ tag.spelling?,
      text.toList.head?.any loneMarks.contains = true → text.toList.length = 1 := by
    intro tag
    cases tag <;> decide
  have absent : Tag.all.find? (fun tag =>
      tag.isMark && tag.spelling? == some (String.ofList [first, second])) = none := by
    refine List.find?_eq_none.mpr fun tag _ found => ?_
    rw [Bool.and_eq_true, beq_iff_eq] at found
    have starts : loneMarks.contains first = true := List.contains_iff_mem.mpr lone
    have short := single tag _ found.2 (by rw [String.toList_ofList]; exact starts)
    rw [String.toList_ofList] at short
    exact absurd short (by simp)
  rw [TokenKind.mark?, absent]
  rfl

/-- A mark that starts no longer mark is read alone. -/
theorem inCode_lone {kind : TokenKind String} (lone : first ∈ loneMarks)
    (isMark : TokenKind.mark? (String.ofList [first]) = some kind) (before : Option Char)
    (rest : List Char) : inCode before first rest = (.token kind, 0) := by
  have isCode : inCode before first rest = mark first rest := by
    simp only [loneMarks, List.mem_cons, List.not_mem_nil, or_false] at lone
    rcases lone with rfl | rfl | rfl | rfl | rfl | rfl <;> rfl
  have alone : (rest.head?.bind fun second =>
      (TokenKind.mark? (String.ofList [first, second]) : Option (TokenKind String))) = none := by
    cases rest with
    | nil => rfl
    | cons second rest => exact mark?_lone lone second
  rw [isCode, mark, alone, isMark]

end Content

/-- No separator starts a name. -/
theorem Text.solid_name {text : List Char} (shape : IsIdentifier text ∨ IsConstant text)
    (after : List Char) : ∀ first ∈ (text ++ after).head?, isSeparator first = false := by
  rcases shape with ⟨first, body, _, rfl, starts, _⟩ | ⟨first, body, rfl, starts, _⟩
  · intro other same
    obtain rfl := Option.some.inj same
    exact (starts_of_isWordChar (starts_lower starts).2).1
  · intro other same
    obtain rfl := Option.some.inj same
    exact (starts_of_isWordChar (by simp [isWordChar_eq, starts])).1

namespace Piece

namespace Reads

variable {operand ended : Bool} {first stop : Char} {rest text after name : List Char}
  {content : Content} {contents : List Content}

/-- Nothing is read at the end of a text. -/
theorem nil : Reads operand [] [] := fun _ _ _ => rfl

/-- A piece before a text. -/
theorem cons
    (reads : ∀ before : Option Char, before.any endsOperand = operand →
      inCode before first (rest ++ after) = (content, rest.length))
    (closed : content ≠ .token .stringOpen)
    (ends : (rest.getLast?.or (some first)).any endsOperand = ended)
    (more : Reads ended after contents) :
    Reads operand (first :: (rest ++ after)) (content :: contents) := by
  intro before offset same
  have mode : content.modeAfter offset .code = .code := by
    cases content with
    | token kind => cases kind <;> first | rfl | exact absurd rfl closed
    | _ => rfl
  rw [contents_cons, Content.read, reads before same, mode]
  rw [listFrom_passed, more _ _ ends]

/-- An operand ends where every character could end one. -/
theorem any_getLast (all : ∀ char ∈ first :: rest, endsOperand char = true) :
    (rest.getLast?.or (some first)).any endsOperand = true := by
  cases isLast : rest.getLast? with
  | none => exact all first List.mem_cons_self
  | some last => exact all last (List.mem_cons_of_mem _ (List.mem_of_getLast? isLast))

/-- Word characters end operands. -/
theorem endsOperand_word {char : Char} (isWord : isWordChar char = true) :
    endsOperand char = true := by
  rw [endsOperand, isWord]
  rfl

/-- A name before what ends it. -/
theorem word (shape : Text.IsIdentifier text ∨ Text.IsConstant text) (stops : endsWord stop = true)
    (more : Reads true (stop :: after) contents) :
    Reads operand (text ++ stop :: after)
      (.token (.ofWord (String.ofList text)) :: contents) := by
  have closed : Content.token (.ofWord (String.ofList text)) ≠ .token .stringOpen := by
    rcases TokenKind.ofWord_cases (String.ofList text) with same | same | ⟨tag, spelled, same⟩ <;>
      rw [same] <;> exact nofun
  rcases shape with ⟨first, body, marker, rfl, starts, words, mark⟩ | ⟨first, body, rfl, starts, words⟩
  · refine cons (fun before _ => inCode_name starts words mark stops before) closed
      (any_getLast fun char member => ?_) more
    rcases List.mem_cons.mp member with rfl | later
    · exact endsOperand_word (starts_lower starts).2
    rcases List.mem_append.mp later with inside | marks
    · exact endsOperand_word (words char inside)
    · rcases mark with rfl | rfl | rfl
      · contradiction
      · obtain rfl := List.mem_singleton.mp marks
        rfl
      · obtain rfl := List.mem_singleton.mp marks
        rfl
  · refine cons (fun before _ => inCode_upperName starts words (takesMarker_stop stops after).1
      before) closed (any_getLast fun char member => ?_) more
    rcases List.mem_cons.mp member with rfl | later
    · exact endsOperand_word (by simp [isWordChar_eq, starts])
    · exact endsOperand_word (words char later)

/-- A name before what ends it is the token of its word. -/
theorem token {kind : TokenKind String} (shape : Text.IsIdentifier text ∨ Text.IsConstant text)
    (isKind : TokenKind.ofWord (String.ofList text) = kind) (stops : endsWord stop = true)
    (more : Reads true (stop :: after) contents) :
    Reads operand (text ++ stop :: after) (.token kind :: contents) :=
  isKind ▸ word shape stops more

/-- A mark that starts no longer mark. -/
theorem mark {kind : TokenKind String} (lone : first ∈ loneMarks)
    (isMark : TokenKind.mark? (String.ofList [first]) = some kind)
    (ends : endsOperand first = ended) (more : Reads ended after contents) :
    Reads operand (first :: after) (.token kind :: contents) := by
  obtain ⟨tag, spelled, rfl⟩ := TokenKind.of_mark? isMark
  exact @cons operand ended first [] after _ _
    (fun before _ => inCode_lone lone isMark before after) nofun ends more

/-- A colon after an operand. -/
theorem colon (more : Reads false after contents) :
    Reads true (':' :: after) (.token (.fixed .colon) :: contents) := by
  refine @cons true false ':' [] after _ _ (fun before same => ?_) nofun rfl more
  show Content.colon before after = _
  rw [Content.colon, same]
  rfl

/-- A colon with a name, where no operand ends. -/
theorem symbol (bare : Text.IsBare name) (stops : isWordChar stop = false)
    (more : Reads true (stop :: after) contents) :
    Reads false (':' :: (name ++ stop :: after))
      (.token (.symbol (String.ofList name)) :: contents) := by
  obtain ⟨head, body, rfl, starts, words⟩ := bare
  have all : ∀ char ∈ head :: body, isWordChar char = true := by
    intro char member
    rcases List.mem_cons.mp member with rfl | later
    · exact isWordChar_of_isWordStart starts
    · exact words char later
  refine cons (fun before same => ?_) nofun ?_ more
  · show Content.colon before _ = _
    rw [Content.colon, same, takeWhile_stop isWordChar stops, List.takeWhile_eq_self_iff.mpr all]
    simp [starts]
  · have last := any_getLast fun char member => endsOperand_word (all char member)
    rw [List.getLast?_cons]
    revert last
    cases body.getLast? <;> exact id

/-- A space. -/
theorem space (solid : ∀ first ∈ after.head?, Text.isSeparator first = false)
    (more : Reads false after contents) : Reads operand (' ' :: after) (.blank :: contents) := by
  refine @cons operand false ' ' [] after _ _ (fun before _ => ?_) nofun rfl more
  have single : after.takeWhile Text.isSeparator = [] := by
    cases after with
    | nil => rfl
    | cons first after => exact List.takeWhile_cons_of_neg (by rw [solid first rfl]; nofun)
  rw [List.nil_append, inCode_separator before after rfl, single]

/-- A text that is read by itself, at the end. -/
theorem lexeme {kinds : List (TokenKind String)} (isLexeme : IsLexeme text kinds) :
    Reads false text (kinds.map .token) := by
  intro before offset quiet
  obtain ⟨last, place, same⟩ : ∃ last place, (listFrom 0 .code before offset (text ++ [])).map face =
      (list text).map face ++ (listFrom 0 .code last place []).map face :=
    Piece.faces_append isLexeme.reads isLexeme.plain (Nat.zero_le _)
      (show Piece.SameMode .code .code from trivial) quiet.symm (.inl rfl)
  rw [List.append_nil] at same
  rw [← Piece.map_face, same, List.map_append, Piece.map_face]
  exact (congrArg (· ++ _) isLexeme.reads).trans (List.append_nil _)

end Reads

end Piece

/-- A source text is tokens of some kinds, without errors and without directives. -/
structure Text.IsCode (source : List Char) (kinds : List (TokenKind String)) : Prop where
  /-- The tokens are of these kinds. -/
  kinds : (Piece.tokens (Piece.list source)).map Token.kind = kinds
  /-- There are no errors. -/
  faults : Piece.faults source = []
  /-- There are no directives. -/
  plain : ∀ token ∈ Piece.tokens (Piece.list source), token.kind.isDirective = false

/-- A text that is read as tokens and spaces is these tokens. -/
theorem Piece.Reads.isCode {source : List Char} {contents : List Content}
    {kinds : List (TokenKind String)} (reads : Reads false source contents)
    (spaced : contents.filter (· ≠ .blank) = kinds.map .token)
    (plain : ∀ kind ∈ kinds, kind.isDirective = false) : Text.IsCode source kinds := by
  have whole : (Piece.list source).map (·.content) = contents := reads none 0 rfl
  have content {piece : Piece} (member : piece ∈ Piece.list source) :
      piece.content = .blank ∨ ∃ kind ∈ kinds, piece.content = .token kind := by
    by_cases blank : piece.content = .blank
    · exact .inl blank
    · have inside : piece.content ∈ contents.filter (· ≠ .blank) :=
        List.mem_filter.mpr ⟨whole ▸ List.mem_map_of_mem member, by simpa using blank⟩
      rw [spaced] at inside
      obtain ⟨kind, among, same⟩ := List.mem_map.mp inside
      exact .inr ⟨kind, among, same.symm⟩
  have isKind {piece : Piece} {kind : TokenKind String} (member : piece ∈ Piece.list source)
      (reads : piece.kind? = some kind) : kind ∈ kinds := by
    rcases content member with blank | ⟨other, among, same⟩
    · rw [Piece.kind?, blank] at reads
      contradiction
    · rw [Piece.kind?, same] at reads
      exact Option.some.inj reads ▸ among
  refine ⟨?_, List.filterMap_eq_nil_iff.mpr fun piece member => ?_, fun token member => ?_⟩
  · have tokens : (Piece.tokens (Piece.list source)).map (Content.token ·.kind) =
        kinds.map .token := by
      rw [← spaced, ← whole, Piece.tokens, List.map_filterMap, ← List.filterMap_eq_filter,
        List.filterMap_map]
      refine List.filterMap_congr fun piece member => ?_
      rw [Piece.token?, Function.comp_apply]
      rcases content member with blank | ⟨kind, _, same⟩
      · simp [Piece.kind?, Option.guard, blank]
      · simp [Piece.kind?, Option.guard, same]
    have injective : Function.Injective (Content.token) := fun _ _ => Content.token.inj
    refine injective.list_map ?_
    rw [List.map_map]
    exact tokens
  · rcases content member with blank | ⟨kind, _, same⟩
    · rw [Piece.error?, blank]
    · rw [Piece.error?, same]
  · obtain ⟨piece, inside, isToken⟩ := List.mem_filterMap.mp member
    obtain ⟨kind, reads, rfl⟩ := Option.map_eq_some_iff.mp isToken
    exact plain kind (isKind inside reads)

end Vibescript
