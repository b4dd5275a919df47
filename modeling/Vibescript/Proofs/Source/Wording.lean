import Vibescript.Proofs.Source.Lexemes

/-!
# What tokens say

A name is the text under its token, after the sigils if it has any, and an integer is the value of
its digits. A string literal reaches from its opening quotation mark to the first one that is not
escaped, or to the end of the text, and its pieces together are what stands between, with the
escapes decoded.
-/
namespace Vibescript

namespace Content

/-- Digits with separators among them. -/
def IsDigits (text : List Char) : Prop := ∀ char ∈ text, isDigitChar char = true

/-- The decimal value of digits, underscores left out. -/
def decimal (text : List Char) : Nat := Nat.ofDigitChars 10 (text.filter (· != '_')) 0

/-- Content has the names and the values of the text that it was read from. -/
def Echoes (text : List Char) : Content → Prop
  | token (.identifier name) | token (.constant name) => text = name.toList
  | token (.symbol name) => text = ':' :: name.toList
  | token (.instanceVariable name) => text = '@' :: name.toList
  | token (.classVariable name) => text = '@' :: '@' :: name.toList
  | token (.integer value) => IsDigits text ∧ value = decimal text ∧ value < integerLimit
  | overflow => IsDigits text ∧ integerLimit ≤ decimal text
  | token .stringOpen => text = ['"']
  | _ => True

/-- Without separators, digits are left. -/
theorem digitsValue_eq {text : List Char} (digits : IsDigits text) :
    digitsValue text = decimal text := by
  rw [digitsValue, decimal, List.filter_congr fun char member => ?_]
  have either := digits char member
  rw [isDigitChar, Bool.or_eq_true, beq_iff_eq] at either
  rcases either with isDigit | rfl
  · rw [isDigit, eq_comm, bne_iff_ne]
    rintro rfl
    contradiction
  · rfl

/-- A word is its text. -/
theorem echoes_ofWord (text : List Char) : (token (.ofWord (String.ofList text))).Echoes text := by
  obtain same | same | ⟨tag, spelled, same⟩ := TokenKind.ofWord_cases (String.ofList text) <;>
    rw [same]
  · exact String.toList_ofList.symm
  · exact String.toList_ofList.symm
  · trivial

/-- A comment has no name. -/
theorem echoes_hash (first : Char) (rest text : List Char) : (hash first rest).1.Echoes text := by
  simp only [hash]
  split <;> trivial

/-- A name in upper case is its text. -/
theorem echoes_upperWord (first : Char) (rest : List Char) :
    (upperWord first rest).1.Echoes (first :: rest.take (upperWord first rest).2) := by
  simp only [upperWord, ← List.prefix_iff_eq_take.mp (List.takeWhile_prefix isWordChar)]
  exact echoes_ofWord _

/-- An integer literal is the value of its digits. -/
theorem echoes_integer {digits : List Char} (areDigits : IsDigits digits) :
    (number.integer digits).1.Echoes digits := by
  simp only [number.integer, digitsValue_eq areDigits]
  split
  · next small => exact ⟨areDigits, rfl, small⟩
  · next large => exact ⟨areDigits, Nat.le_of_not_lt large⟩

/-- A number without a fraction is the value of its digits. -/
theorem echoes_number (first : Char) (rest : List Char) (isDigit : first.isDigit = true) :
    (number first rest).1.Echoes (first :: rest.take (number first rest).2) := by
  have areDigits : IsDigits (first :: rest.takeWhile isDigitChar) := by
    intro char member
    rcases List.mem_cons.mp member with rfl | later
    · rw [isDigitChar, isDigit, Bool.true_or]
    · exact List.all_eq_true.mp List.all_takeWhile char later
  have whole : (number.integer (first :: rest.takeWhile isDigitChar)).1.Echoes (first ::
      rest.take (number.integer (first :: rest.takeWhile isDigitChar)).2) := by
    have taken := List.prefix_iff_eq_take.mp (List.takeWhile_prefix isDigitChar (l := rest))
    have count : (number.integer (first :: rest.takeWhile isDigitChar)).2 =
        (rest.takeWhile isDigitChar).length := rfl
    rw [count, ← taken]
    exact echoes_integer areDigits
  simp only [number]
  split
  · split
    · trivial
    · exact whole
  · exact whole

/-- A variable is its text after the sigils. -/
theorem echoes_sigil (rest : List Char) : (sigil rest).1.Echoes ('@' :: rest.take (sigil rest).2) := by
  have name (text : List Char) :=
    List.prefix_iff_eq_take.mp (List.takeWhile_prefix isWordChar (l := text))
  rcases rest with _ | ⟨second, rest⟩
  · trivial
  by_cases isSigil : second = '@'
  · subst isSigil
    simp only [sigil, List.take_succ_cons, List.take_zero, List.filter_cons, beq_self_eq_true,
      if_true, List.filter_nil, List.length_singleton, List.drop_succ_cons, List.drop_zero]
    split
    · rw [if_neg (by decide), Nat.add_comm, List.take_succ_cons, ← name]
      exact congrArg ('@' :: '@' :: ·) String.toList_ofList.symm
    · trivial
  · have other : (second == '@') = false := beq_false_of_ne isSigil
    simp only [sigil, List.take_succ_cons, List.take_zero, List.filter_cons, other,
      List.filter_nil, Bool.false_eq_true, if_false, List.length_nil, List.drop_zero,
      Nat.zero_add]
    split
    · show (token (.instanceVariable _)).Echoes ('@' :: (second :: rest).take _)
      rw [← name]
      exact congrArg ('@' :: ·) String.toList_ofList.symm
    · trivial

/-- A symbol is its text after the colon. -/
theorem echoes_colon (before : Option Char) (rest : List Char) :
    (colon before rest).1.Echoes (':' :: rest.take (colon before rest).2) := by
  unfold colon
  split
  · trivial
  · dsimp only
    rw [← List.prefix_iff_eq_take.mp (List.takeWhile_prefix isWordChar (l := rest))]
    exact congrArg (':' :: ·) String.toList_ofList.symm

/-- A mark has no name. -/
theorem echoes_mark (first : Char) (rest text : List Char) : (mark first rest).1.Echoes text := by
  obtain ⟨tag, spelled, same⟩ | same := mark_cases first rest <;> rw [same] <;> trivial

/-- What is read in code echoes its text. -/
theorem echoes_inCode (before : Option Char) (first : Char) (rest : List Char) :
    (inCode before first rest).1.Echoes (first :: rest.take (inCode before first rest).2) := by
  unfold inCode
  split
  · trivial
  split
  · exact echoes_hash first rest _
  split
  · rw [word_eq]
    exact echoes_ofWord _
  split
  · exact echoes_upperWord first rest
  split
  · next isDigit => exact echoes_number first rest isDigit
  split
  · next isQuote =>
    rw [beq_iff_eq] at isQuote
    exact isQuote ▸ rfl
  split
  · next isSigil =>
    rw [beq_iff_eq] at isSigil
    exact isSigil ▸ echoes_sigil rest
  split
  · next isColon =>
    rw [beq_iff_eq] at isColon
    exact isColon ▸ echoes_colon before rest
  · exact echoes_mark first rest _

/-- What is read echoes its text. -/
theorem echoes_read (mode : Mode) (before : Option Char) (first : Char) (rest : List Char) :
    (read mode before first rest).1.Echoes (first :: rest.take (read mode before first rest).2) := by
  cases mode with
  | code => exact echoes_inCode before first rest
  | string opening =>
    simp only [read, inString]
    split
    · trivial
    split
    · split
      · trivial
      · split <;> trivial
    · trivial

/-- The inside of a string literal, which ends before the first quotation mark that is not escaped or
with the text, and what follows it. -/
def literal : List Char → List Char × List Char
  | [] => ([], [])
  | '"' :: rest => ([], '"' :: rest)
  | '\\' :: char :: rest => ('\\' :: char :: (literal rest).1, (literal rest).2)
  | char :: rest => (char :: (literal rest).1, (literal rest).2)

/-- What the inside of a string literal stands for: escapes are decoded, any other character after
a backslash stands for itself, and a backslash at the end for nothing. -/
def unescape : List Char → List Char
  | [] => []
  | ['\\'] => []
  | '\\' :: char :: rest => (decodeEscape? char).getD char :: unescape rest
  | char :: rest => char :: unescape rest

/-- The inside of a literal and what follows it are the text. -/
theorem literal_append (text : List Char) : (literal text).1 ++ (literal text).2 = text := by
  induction text using literal.induct with
  | case1 => rfl
  | case2 rest => rfl
  | case3 char rest ih => rw [literal, List.cons_append, List.cons_append, ih]
  | case4 char rest notQuote notEscape ih => rw [literal, List.cons_append, ih] <;> assumption

example : literal "a\\\"b\" + 1".toList = ("a\\\"b".toList, "\" + 1".toList) := by decide

example : unescape "a\\\"\\n\\q\\".toList = "a\"\nq".toList := by decide

/-- Characters that stand for themselves belong to the inside of a literal. -/
theorem literal_plain {body : List Char} (plain : ∀ char ∈ body, isPlain char = true)
    (rest : List Char) : literal (body ++ rest) = (body ++ (literal rest).1, (literal rest).2) := by
  induction body with
  | nil => rfl
  | cons char body ih =>
    have isPlain := plain char List.mem_cons_self
    simp only [Content.isPlain, Bool.and_eq_true, bne_iff_ne] at isPlain
    have later := ih fun other member => plain other (List.mem_cons_of_mem _ member)
    rw [List.cons_append, literal, later]
    · rfl
    · exact isPlain.1
    · exact fun _ _ isEscape => absurd isEscape isPlain.2

/-- Characters that stand for themselves stay. -/
theorem unescape_plain {body : List Char} (plain : ∀ char ∈ body, isPlain char = true)
    (rest : List Char) : unescape (body ++ rest) = body ++ unescape rest := by
  induction body with
  | nil => rfl
  | cons char body ih =>
    have isPlain := plain char List.mem_cons_self
    simp only [Content.isPlain, Bool.and_eq_true, bne_iff_ne] at isPlain
    have later := ih fun other member => plain other (List.mem_cons_of_mem _ member)
    rw [List.cons_append, unescape, later]
    · rfl
    · exact fun isEscape => absurd isEscape isPlain.2
    · exact fun _ _ isEscape => absurd isEscape isPlain.2

/-- All characters of a run stand for themselves. -/
theorem isPlain_run {char : Char} (plain : isPlain char = true) (rest : List Char) :
    ∀ other ∈ char :: rest.takeWhile isPlain, isPlain other = true := by
  intro other member
  rcases List.mem_cons.mp member with rfl | later
  · exact plain
  · exact List.all_eq_true.mp List.all_takeWhile other later

/-- A literal that starts with a character that stands for itself starts with a run of those. -/
theorem literal_run {char : Char} (plain : isPlain char = true) (rest : List Char) :
    literal (char :: rest) =
      ((char :: rest.takeWhile isPlain) ++ (literal (rest.drop (rest.takeWhile isPlain).length)).1,
        (literal (rest.drop (rest.takeWhile isPlain).length)).2) := by
  have taken := List.prefix_iff_eq_take.mp (List.takeWhile_prefix isPlain (l := rest))
  have split := List.take_append_drop (rest.takeWhile isPlain).length rest
  rw [← taken] at split
  calc literal (char :: rest)
      = literal ((char :: rest.takeWhile isPlain) ++
          rest.drop (rest.takeWhile isPlain).length) := by rw [List.cons_append, split]
    _ = _ := literal_plain (isPlain_run plain rest) _

end Content

/-- A span covers a part of a text. -/
def Span.Covers (span : Span) (source text : List Char) : Prop :=
  ∃ before after, source = before ++ text ++ after ∧
    span = ⟨Text.byteLength before, Text.byteLength before + Text.byteLength text⟩

/-- The part that a span covers is the text under it. -/
theorem Span.Covers.slice? {span : Span} {source text : List Char}
    (covers : span.Covers source text) : Text.slice? source span = some text := by
  obtain ⟨before, after, rfl, rfl⟩ := covers
  exact Text.slice?_middle before text after

/-- Without its first character, a part is covered by what is left of its span. -/
theorem Span.Covers.tail {span : Span} {source rest : List Char} {char : Char}
    (covers : span.Covers source (char :: rest)) :
    Span.Covers ⟨span.start + char.utf8Size, span.stop⟩ source rest := by
  obtain ⟨before, after, rfl, rfl⟩ := covers
  refine ⟨before ++ [char], after, by simp, ?_⟩
  rw [Text.byteLength_append, Text.byteLength_cons, Text.byteLength_cons, Text.byteLength_nil,
    Nat.add_zero, Nat.add_assoc]

namespace Token

/-- A token has the name or the value that the text under its span has. -/
def Echoes (source : List Char) (token : Token String) : Prop :=
  match token.kind with
  | .identifier name | .constant name => token.span.Covers source name.toList
  | .symbol name => token.span.Covers source (':' :: name.toList)
  | .instanceVariable name => token.span.Covers source ('@' :: name.toList)
  | .classVariable name => token.span.Covers source ('@' :: '@' :: name.toList)
  | .integer value => ∃ text, token.span.Covers source text ∧ Content.IsDigits text ∧
      (value = Content.decimal text ∧ value < Content.integerLimit ∨
        value = 0 ∧ Content.integerLimit ≤ Content.decimal text ∧
          ⟨.integerOverflow, token.span⟩ ∈ Piece.faults source)
  | _ => True

/-- What the pieces of a string literal stand for. -/
def inner (pieces : List (Token String)) : List Char :=
  (pieces.filterMap (·.kind.pieceText?)).flatMap String.toList

/-- A piece stands for its text. -/
theorem inner_cons {piece : Token String} {run : String} (isRun : piece.kind.pieceText? = some run)
    (pieces : List (Token String)) : inner (piece :: pieces) = run.toList ++ inner pieces := by
  simp [inner, isRun]

/-- The halves of a symbol echo the text when the symbol does. -/
theorem Echoes.halves {source : List Char} {name : String} {span : Span}
    (echoes : Echoes source ⟨.symbol name, span⟩) :
    (colonOf span).Echoes source ∧ (wordOf name span).Echoes source := by
  refine ⟨trivial, ?_⟩
  have covers : Span.Covers ⟨span.start + 1, span.stop⟩ source name.toList := Span.Covers.tail echoes
  unfold Echoes wordOf
  obtain same | same | ⟨tag, spelled, same⟩ := TokenKind.ofWord_cases name <;> rw [same]
  · exact covers
  · exact covers
  · trivial

end Token

namespace Piece

/-- The span of a piece covers its text. -/
theorem covers_of_mem {source : List Char} {piece : Piece} (member : piece ∈ list source) :
    piece.span.Covers source piece.text := by
  obtain ⟨before, after, whole, start⟩ := (lies_listFrom _ _ _ _ _ piece member).within
  exact ⟨before, after, whole, by rw [span, start, Nat.zero_add]⟩

/-- Every piece echoes its text. -/
theorem echoes_of_mem {source : List Char} {piece : Piece} (member : piece ∈ list source) :
    piece.content.Echoes piece.text :=
  forall_listFrom (fun text content => content.Echoes text) Content.echoes_read
    (fun _ => trivial) _ _ _ _ _ piece member

/-- Every token of a source text echoes the text under its span. -/
theorem echoes_of_mem_tokens {source : List Char} {token : Token String}
    (member : token ∈ tokens (list source)) : token.Echoes source := by
  obtain ⟨piece, inside, read⟩ := List.mem_filterMap.mp member
  obtain ⟨kind, isKind, rfl⟩ := Option.map_eq_some_iff.mp read
  have echoes := echoes_of_mem inside
  have covers := covers_of_mem inside
  cases content : piece.content <;> rw [kind?, content] at isKind <;>
    simp only [Option.some.injEq, reduceCtorEq] at isKind <;> subst isKind <;> rw [content] at echoes
  case token kind =>
    cases kind
    case integer value =>
      exact ⟨piece.text, covers, echoes.1, .inl echoes.2⟩
    all_goals first
      | trivial
      | exact Eq.subst (motive := fun text => piece.span.Covers source text) echoes covers
  case overflow =>
    refine ⟨piece.text, covers, echoes.1, .inr ⟨rfl, echoes.2, ?_⟩⟩
    refine List.mem_filterMap.mpr ⟨piece, inside, ?_⟩
    rw [error?, content]
  all_goals trivial

/-- What begins a list of tokens of a literal that is closed later is a piece of it. -/
theorem exists_pieces {token closing : Token String} {pieces rest after : List (Token String)}
    (whole : token :: rest = pieces ++ closing :: after) (closes : closing.kind = .stringClose)
    (goesOn : token.kind ≠ .stringClose) :
    ∃ others, pieces = token :: others ∧ rest = others ++ closing :: after := by
  cases pieces with
  | nil => exact absurd ((List.cons.inj whole).1 ▸ closes) goesOn
  | cons piece others =>
    obtain ⟨rfl, rest⟩ := List.cons.inj whole
    exact ⟨others, rfl, rest⟩

/-- No pieces of a literal come before a token that closes it. -/
theorem pieces_eq_nil {token closing : Token String} {pieces rest after : List (Token String)}
    (whole : token :: rest = pieces ++ closing :: after)
    (inside : ∀ piece ∈ pieces, piece.kind.pieceText?.isSome = true)
    (ends : token.kind = .stringClose) : pieces = [] ∧ token = closing := by
  cases pieces with
  | nil => exact ⟨rfl, (List.cons.inj whole).1⟩
  | cons piece others =>
    obtain ⟨rfl, -⟩ := List.cons.inj whole
    have isPiece := inside _ List.mem_cons_self
    rw [ends] at isPiece
    exact absurd isPiece Bool.false_ne_true

/-- A backslash with a character after it is a piece of the literal that it stands in. -/
theorem exists_escape (offset : Nat) (next : Char) (rest : List Char) (mode : Mode) :
    ∃ kind run, (⟨offset, '\\' :: (next :: rest).take (Content.inString '\\' (next :: rest)).2,
        (Content.inString '\\' (next :: rest)).1⟩ : Piece).kind? = some kind ∧
      kind.pieceText? = some run ∧ run.toList = [(Content.decodeEscape? next).getD next] ∧
      (Content.inString '\\' (next :: rest)).2 = 1 ∧
      (Content.inString '\\' (next :: rest)).1.modeAfter offset mode = mode := by
  cases decodes : Content.decodeEscape? next with
  | some decoded =>
    have escape : Content.inString '\\' (next :: rest) = (.token (.stringEscape decoded), 1) := by
      simp [Content.inString, decodes]
    rw [escape]
    exact ⟨_, _, rfl, rfl, String.toList_singleton decoded, rfl, rfl⟩
  | none =>
    have escape : Content.inString '\\' (next :: rest) = (.invalidEscape next, 1) := by
      simp [Content.inString, decodes]
    rw [escape]
    exact ⟨_, _, rfl, rfl, String.toList_ofList, rfl, rfl⟩

/-- The tokens of a string literal are what is inside of it, and it ends where they close it. -/
theorem pieces_listFrom {passed opening : Nat} {before : Option Char} {offset : Nat}
    {text : List Char} {pieces after : List (Token String)} {closing : Token String}
    (whole : tokens (listFrom passed (.string opening) before offset text) =
      pieces ++ closing :: after)
    (inside : ∀ piece ∈ pieces, piece.kind.pieceText?.isSome = true)
    (closes : closing.kind = .stringClose) :
    Token.inner pieces = Content.unescape (Content.literal (text.drop passed)).1 ∧
      closing.span.stop = offset + Text.byteLength (text.take passed) +
        Text.byteLength (Content.literal (text.drop passed)).1 +
        Text.byteLength ((Content.literal (text.drop passed)).2.take 1) := by
  induction text generalizing passed before offset pieces with
  | nil =>
    -- The literal is closed by the end of the text.
    obtain ⟨rfl, rfl⟩ := pieces_eq_nil whole inside rfl
    rw [List.drop_nil, List.take_nil]
    exact ⟨rfl, rfl⟩
  | cons char rest ih =>
    cases passed with
    | succ passed =>
      rw [listFrom] at whole
      obtain ⟨value, stops⟩ := ih whole inside
      rw [List.drop_succ_cons, List.take_succ_cons, Text.byteLength_cons, ← Nat.add_assoc]
      exact ⟨value, stops⟩
    | zero =>
      rw [listFrom] at whole
      change tokens (⟨offset, char :: rest.take (Content.inString char rest).2,
        (Content.inString char rest).1⟩ :: listFrom (Content.inString char rest).2
          ((Content.inString char rest).1.modeAfter offset (.string opening)) (some char)
          (offset + char.utf8Size) rest) = _ at whole
      rw [List.drop_zero, List.take_zero, Text.byteLength_nil, Nat.add_zero]
      by_cases isQuote : char = '"'
      · -- The quotation mark closes the literal.
        subst isQuote
        rw [tokens_cons (show _ = some TokenKind.stringClose from rfl)] at whole
        obtain ⟨rfl, rfl⟩ := pieces_eq_nil whole inside rfl
        exact ⟨rfl, rfl⟩
      by_cases isEscape : char = '\\'
      · subst isEscape
        cases rest with
        | nil => exact @ih 0 (some '\\') _ _ whole inside
        | cons next rest =>
          obtain ⟨kind, run, isKind, isRun, decoded, one, stays⟩ :=
            exists_escape offset next rest (.string opening)
          rw [tokens_cons isKind, one, stays] at whole
          have goesOn : kind ≠ .stringClose := by
            rintro rfl
            contradiction
          obtain ⟨others, rfl, more⟩ := exists_pieces whole closes goesOn
          obtain ⟨value, stops⟩ :=
            ih more fun piece member => inside piece (List.mem_cons_of_mem _ member)
          rw [List.drop_succ_cons, List.drop_zero] at value stops
          rw [Content.literal, Content.unescape, Token.inner_cons isRun, decoded, value]
          refine ⟨rfl, ?_⟩
          rw [stops]
          simp only [List.take_succ_cons, List.take_zero, Text.byteLength_cons,
            Text.byteLength_nil]
          omega
      · have plain : Content.isPlain char = true := by
          rw [Content.isPlain, bne_iff_ne.mpr isQuote, bne_iff_ne.mpr isEscape]
          rfl
        rw [Content.inString_plain plain, tokens_cons rfl] at whole
        obtain ⟨others, rfl, more⟩ := exists_pieces whole closes
          fun same => absurd (congrArg TokenKind.tag same) Tag.noConfusion
        obtain ⟨value, stops⟩ :=
          ih more fun piece member => inside piece (List.mem_cons_of_mem _ member)
        have taken := List.prefix_iff_eq_take.mp
          (List.takeWhile_prefix Content.isPlain (l := rest))
        dsimp only at value stops
        rw [← taken] at stops
        rw [Content.literal_run plain, Content.unescape_plain (Content.isPlain_run plain rest),
          Token.inner_cons rfl, value, stops]
        refine ⟨by rw [String.toList_ofList], ?_⟩
        simp only [Text.byteLength_append, Text.byteLength_cons]
        omega

/-- A string literal opens with a quotation mark, and the pieces after it are those of the text
after the mark. -/
theorem opening_listFrom {passed : Nat} {mode : Mode} {before : Option Char} {offset : Nat}
    {text : List Char} {early late : List (Token String)} {opening : Token String}
    (whole : tokens (listFrom passed mode before offset text) = early ++ opening :: late)
    (opens : opening.kind = .stringOpen) :
    ∃ head tail, text = head ++ '"' :: tail ∧
      opening.span.start = offset + Text.byteLength head ∧
      late = tokens (listFrom 0 (.string opening.span.start) (some '"') (opening.span.start + 1)
        tail) := by
  induction text generalizing passed mode before offset early with
  | nil =>
    have member : opening ∈ tokens (listFrom passed mode before offset []) := whole ▸ by simp
    cases mode with
    | code => contradiction
    | string start =>
      rw [List.mem_singleton.mp member] at opens
      contradiction
  | cons char rest ih =>
    -- Further on in the text, the literal opens further on.
    have further {passed : Nat} {mode : Mode} {before : Option Char} {early : List (Token String)}
        (whole : tokens (listFrom passed mode before (offset + char.utf8Size) rest) =
          early ++ opening :: late) :
        ∃ head tail, char :: rest = head ++ '"' :: tail ∧
          opening.span.start = offset + Text.byteLength head ∧
          late = tokens (listFrom 0 (.string opening.span.start) (some '"')
            (opening.span.start + 1) tail) := by
      obtain ⟨head, tail, rfl, starts, same⟩ := ih whole
      refine ⟨char :: head, tail, rfl, ?_, same⟩
      rw [starts, Text.byteLength_cons, Nat.add_assoc]
    cases passed with
    | succ passed => exact further whole
    | zero =>
      have echoes := Content.echoes_read mode before char rest
      rw [listFrom] at whole
      dsimp only at whole
      generalize isPiece : (⟨offset, char :: rest.take (Content.read mode before char rest).2,
        (Content.read mode before char rest).1⟩ : Piece) = piece at whole
      have content : piece.content = (Content.read mode before char rest).1 := isPiece ▸ rfl
      cases isKind : piece.kind? with
      | none => exact further (tokens_skip isKind _ ▸ whole)
      | some kind =>
        rw [tokens_cons isKind] at whole
        cases early with
        | cons first early => exact further (List.cons.inj whole).2
        | nil =>
          obtain ⟨rfl, rfl⟩ := List.cons.inj whole
          obtain rfl : kind = .stringOpen := opens
          have isOpen : (Content.read mode before char rest).1 = .token .stringOpen := by
            rw [← content]
            cases other : piece.content <;> rw [kind?, other] at isKind <;>
              simp only [Option.some.injEq, reduceCtorEq] at isKind
            rw [isKind]
          rw [isOpen] at echoes
          obtain ⟨rfl, single⟩ := List.cons.inj echoes
          have starts : piece.span.start = offset := isPiece ▸ rfl
          refine ⟨[], rest, rfl, starts, ?_⟩
          rw [starts, isOpen]
          -- The mark takes no further character, unless there is none.
          rcases List.take_eq_nil_iff.mp single with none | rfl
          · rw [none]
            rfl
          · rfl

end Piece

/-- A span is that of a string literal with a value: it opens with a quotation mark, it reaches to
the first one that is not escaped or to the end of the text, and the value is what stands between,
with the escapes decoded. -/
def Span.CoversLiteral (span : Span) (source value : List Char) : Prop :=
  ∃ tail, Text.dropBytes? (span.start + 1) source = some tail ∧
    Text.slice? source span =
      some ('"' :: (Content.literal tail).1 ++ (Content.literal tail).2.take 1) ∧
    value = Content.unescape (Content.literal tail).1

/-- The tokens of a string literal cover it. -/
theorem Token.coversLiteral {source : List Char} {early pieces after : List (Token String)}
    {opening closing : Token String}
    (whole : Piece.tokens (Piece.list source) = early ++ opening :: (pieces ++ closing :: after))
    (opens : opening.kind = .stringOpen)
    (inside : ∀ piece ∈ pieces, piece.kind.pieceText?.isSome = true)
    (closes : closing.kind = .stringClose) :
    Span.CoversLiteral ⟨opening.span.start, closing.span.stop⟩ source (inner pieces) := by
  obtain ⟨head, tail, rfl, starts, late⟩ := Piece.opening_listFrom whole opens
  obtain ⟨value, stops⟩ := Piece.pieces_listFrom late.symm inside closes
  rw [List.drop_zero, List.take_zero, Text.byteLength_nil, Nat.add_zero] at *
  rw [Nat.zero_add] at starts
  have split := Content.literal_append tail
  have more := List.take_append_drop 1 (Content.literal tail).2
  refine ⟨tail, ?_, ?_, value⟩
  · have begins : head ++ '"' :: tail = (head ++ ['"']) ++ tail := by simp
    have length : opening.span.start + 1 = Text.byteLength (head ++ ['"']) := by
      rw [Text.byteLength_append, starts]
      rfl
    rw [begins, length, Text.dropBytes?_append]
  · refine Span.Covers.slice? ⟨head, (Content.literal tail).2.drop 1, ?_, ?_⟩
    · rw [List.append_assoc, List.cons_append, List.cons_append, List.append_assoc, more, split]
    · have quote : '"'.utf8Size = 1 := rfl
      rw [stops, starts, Text.byteLength_append, Text.byteLength_cons, quote]
      simp only [Nat.add_assoc]

end Vibescript
