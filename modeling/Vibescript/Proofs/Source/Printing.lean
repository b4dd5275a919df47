import Mathlib.Algebra.GroupWithZero.Nat
import Mathlib.Data.List.Forall2
import Mathlib.Data.List.TakeWhile
import Vibescript.Proofs.Source.Lexemes
import Vibescript.Proofs.Source.Recorded

/-!
# Printed tokens are read back

Every token can be printed: a name as it is, an integer in decimal, a variable with its sigils, a
word or a mark in its fixed spelling, and a text between quotation marks with its quotation marks
and backslashes escaped. Printed tokens with single spaces between them are read back, without an
error and without a comment.
-/
namespace Vibescript

open Content TokenKind

/-- The shape of an identifier: a letter in lower case or an underscore, word characters, and
perhaps a question or exclamation mark. -/
def Text.IsIdentifier (text : List Char) : Prop :=
  ∃ first body marker, text = first :: (body ++ marker) ∧
    (first.isLower = true ∨ first = '_') ∧ (∀ char ∈ body, isWordChar char = true) ∧
    (marker = [] ∨ marker = ['?'] ∨ marker = ['!'])

/-- The shape of a constant: a letter in upper case and word characters. -/
def Text.IsConstant (text : List Char) : Prop :=
  ∃ first body, text = first :: body ∧ first.isUpper = true ∧
    ∀ char ∈ body, isWordChar char = true

/-- The shape of the name after a sigil or a colon: a letter or an underscore, and word
characters. -/
def Text.IsBare (text : List Char) : Prop :=
  ∃ first body, text = first :: body ∧ isWordStart first = true ∧
    ∀ char ∈ body, isWordChar char = true

/-- A text with its quotation marks and backslashes escaped. -/
def Text.escape (text : List Char) : List Char :=
  text.flatMap fun char => if isPlain char then [char] else ['\\', char]

/-- What is printed as a lexeme. -/
inductive PrintedToken where
  /-- An identifier that is no reserved word. -/
  | identifier (name : String) (shape : Text.IsIdentifier name.toList)
    (free : ∀ tag : Tag, tag.isKeyword = true → tag.spelling? ≠ some name)
  /-- A constant. -/
  | constant (name : String) (shape : Text.IsConstant name.toList)
  /-- An integer of 64 bits. -/
  | integer (value : Nat) (fits : value < 2 ^ 64)
  /-- A symbol. -/
  | symbol (name : String) (shape : Text.IsBare name.toList)
  /-- An instance variable. -/
  | instanceVariable (name : String) (shape : Text.IsBare name.toList)
  /-- A class variable. -/
  | classVariable (name : String) (shape : Text.IsBare name.toList)
  /-- A reserved word, an operator or a punctuation mark. -/
  | fixed (tag : Tag) (spelled : tag.spelling?.isSome = true)
  /-- A string literal with any text. -/
  | string (text : String)

namespace PrintedToken

/-- The printed text. -/
def text : PrintedToken → List Char
  | identifier name _ _ | constant name _ => name.toList
  | integer value _ => Nat.toDigits 10 value
  | symbol name _ => ':' :: name.toList
  | instanceVariable name _ => '@' :: name.toList
  | classVariable name _ => '@' :: '@' :: name.toList
  | fixed tag spelled => (tag.spelling?.get spelled).toList
  | string text => '"' :: (Text.escape text.toList ++ ['"'])

/-- The tokens that the printed text is read as: one token or, for a string literal, pieces that
together are the text, between quotation marks. -/
def Reads : PrintedToken → List (TokenKind String) → Prop
  | identifier name _ _, kinds => kinds = [.identifier name]
  | constant name _, kinds => kinds = [.constant name]
  | integer value _, kinds => kinds = [.integer value]
  | symbol name _, kinds => kinds = [.symbol name]
  | instanceVariable name _, kinds => kinds = [.instanceVariable name]
  | classVariable name _, kinds => kinds = [.classVariable name]
  | fixed tag spelled, kinds => kinds = [.fixed tag spelled]
  | string text, kinds => ∃ pieces, kinds = .stringOpen :: (pieces ++ [.stringClose]) ∧
      (∀ piece ∈ pieces, piece.pieceText?.isSome = true) ∧
      String.join (pieces.filterMap TokenKind.pieceText?) = text

end PrintedToken

/-! Each printed token is read by itself. -/

namespace Piece

/-- A text that is passed over in code leaves nothing to read. -/
theorem listFrom_code_length (before : Option Char) (offset : Nat) (text : List Char) :
    listFrom text.length .code before offset text = [] := by
  induction text generalizing before offset with
  | nil => rfl
  | cons char text ih => exact ih _ _

end Piece

/-- A text that its first token takes as a whole is a lexeme. -/
theorem IsLexeme.of_inCode {first : Char} {rest : List Char} {kind : TokenKind String}
    (reads : inCode none first rest = (.token kind, rest.length))
    (plain : kind.isDirective = false) (closed : kind ≠ .stringOpen) :
    IsLexeme (first :: rest) [kind] := by
  have mode : (Content.token kind).modeAfter 0 .code = .code := by
    cases kind <;> first | rfl | exact absurd rfl closed
  refine ⟨?_, fun other member => List.mem_singleton.mp member ▸ plain⟩
  rw [Piece.list, Piece.contents_cons, Content.read, reads]
  dsimp only
  rw [mode, Piece.listFrom_code_length]
  rfl

namespace Content

variable {first : Char} {body : List Char}

/-- A character that starts a word is neither a separator nor a number sign. -/
theorem starts_of_isWordChar (isWord : isWordChar first = true) :
    Text.isSeparator first = false ∧ (first == '#') = false := by
  constructor
  · cases separator : Text.isSeparator first with
    | false => rfl
    | true =>
      simp only [Text.isSeparator, Bool.or_eq_true, decide_eq_true_eq] at separator
      rcases separator with (((rfl | rfl) | rfl) | rfl) | rfl <;> contradiction
  · cases comment : first == '#' with
    | false => rfl
    | true =>
      obtain rfl := beq_iff_eq.mp comment
      contradiction

/-- A word that is not spelled like a reserved word is none. -/
theorem keyword?_eq_none {text : String}
    (free : ∀ tag : Tag, tag.isKeyword = true → tag.spelling? ≠ some text) :
    (TokenKind.keyword? text : Option (TokenKind String)) = none := by
  have absent : Tag.all.find? (fun tag => tag.isKeyword && tag.spelling? == some text) = none := by
    refine List.find?_eq_none.mpr fun tag _ found => ?_
    rw [Bool.and_eq_true, beq_iff_eq] at found
    exact free tag found.1 found.2
  rw [TokenKind.keyword?, absent]
  rfl

/-- The letters, the digits and the underscore belong to words. -/
theorem isWordChar_eq :
    isWordChar first = (first.isUpper || first.isLower || first.isDigit || first == '_') := rfl

/-- The letters in lower case. -/
theorem isLower_iff : first.isLower = true ↔ 97 ≤ first.toNat ∧ first.toNat ≤ 122 := by
  have lower : first.isLower = (decide (first.val ≥ 'a'.val) && decide (first.val ≤ 'z'.val)) := rfl
  simp [lower, UInt32.le_iff_toNat_le]

/-- The letters in upper case. -/
theorem isUpper_iff : first.isUpper = true ↔ 65 ≤ first.toNat ∧ first.toNat ≤ 90 := by
  have upper : first.isUpper = decide (first.val ≥ 'A'.val ∧ first.val ≤ 'Z'.val) := rfl
  simp [upper, UInt32.le_iff_toNat_le]

/-- A letter in lower case or an underscore is no letter in upper case, and starts a word. -/
theorem starts_lower (starts : first.isLower = true ∨ first = '_') :
    first.isUpper = false ∧ isWordChar first = true := by
  rcases starts with lower | rfl
  · rw [← Bool.not_eq_true, isUpper_iff]
    have range := isLower_iff.mp lower
    exact ⟨by omega, by simp [isWordChar_eq, lower]⟩
  · exact ⟨rfl, rfl⟩

/-- A letter in upper case starts a word, and none in lower case. -/
theorem starts_upper (starts : first.isUpper = true) :
    (first.isLower || first == '_') = false ∧ isWordChar first = true := by
  refine ⟨eq_false_of_ne_true fun lower => ?_, by simp [isWordChar_eq, starts]⟩
  have notUpper := (starts_lower (by simpa using lower)).1
  rw [starts] at notUpper
  contradiction

/-- A word in lower case takes its mark. -/
theorem word_marked {marker : List Char} (words : ∀ char ∈ body, isWordChar char = true)
    (mark : marker = [] ∨ marker = ['?'] ∨ marker = ['!']) :
    word first (body ++ marker) =
      (.token (.ofWord (String.ofList (first :: (body ++ marker)))), (body ++ marker).length) := by
  have taken : (body ++ marker).takeWhile isWordChar = body := by
    rw [List.takeWhile_append_of_pos words]
    rcases mark with rfl | rfl | rfl <;> simp [isWordChar]
  have left : (body ++ marker).dropWhile isWordChar = marker := by
    rw [List.dropWhile_append_of_pos words]
    rcases mark with rfl | rfl | rfl <;> rfl
  have marked : (if takesMarker marker then marker.take 1 else []) = marker := by
    rcases mark with rfl | rfl | rfl <;> rfl
  simp only [word, taken, left, marked, List.length_append]
  rfl

/-- A word in lower case that is not reserved is an identifier. -/
theorem inCode_identifier {marker : List Char} (starts : first.isLower = true ∨ first = '_')
    (words : ∀ char ∈ body, isWordChar char = true)
    (mark : marker = [] ∨ marker = ['?'] ∨ marker = ['!'])
    (free : ∀ tag : Tag, tag.isKeyword = true →
      tag.spelling? ≠ some (String.ofList (first :: (body ++ marker)))) :
    inCode none first (body ++ marker) =
      (.token (.identifier (String.ofList (first :: (body ++ marker)))), (body ++ marker).length) := by
  obtain ⟨notUpper, isWord⟩ := starts_lower starts
  obtain ⟨solid, noComment⟩ := starts_of_isWordChar isWord
  have lower : (first.isLower || first == '_') = true := by
    rcases starts with lower | rfl
    · rw [lower]
      rfl
    · rfl
  have isIdentifier : TokenKind.ofWord (String.ofList (first :: (body ++ marker))) =
      .identifier (String.ofList (first :: (body ++ marker))) := by
    rw [TokenKind.ofWord, keyword?_eq_none free, String.toList_ofList, List.head?_cons,
      Option.any_some, notUpper]
    rfl
  rw [inCode, solid, noComment, lower, word_marked words mark, isIdentifier]
  rfl

/-- A word in upper case is a constant. -/
theorem inCode_constant (starts : first.isUpper = true)
    (words : ∀ char ∈ body, isWordChar char = true) :
    inCode none first body = (.token (.constant (String.ofList (first :: body))), body.length) := by
  obtain ⟨notLower, isWord⟩ := starts_upper starts
  obtain ⟨solid, noComment⟩ := starts_of_isWordChar isWord
  have isConstant : TokenKind.ofWord (String.ofList (first :: body)) =
      .constant (String.ofList (first :: body)) := by
    rw [TokenKind.ofWord, String.toList_ofList, List.head?_cons, Option.any_some, starts]
    rfl
  rw [inCode, solid, noComment, notLower, starts, upperWord, List.takeWhile_eq_self_iff.mpr words,
    isConstant]
  rfl

/-- A digit starts a number and nothing else. -/
theorem starts_digit (starts : first.isDigit = true) :
    (first.isLower || first == '_') = false ∧ first.isUpper = false ∧
      isWordChar first = true := by
  have range := Char.isDigit_iff_toNat.mp starts
  have zero : '0'.toNat = 48 := rfl
  have nine : '9'.toNat = 57 := rfl
  refine ⟨?_, ?_, by simp [isWordChar, Char.isAlphanum, starts]⟩
  · have noUnderscore : first ≠ '_' := by
      rintro rfl
      contradiction
    rw [beq_false_of_ne noUnderscore, Bool.or_false, ← Bool.not_eq_true, isLower_iff]
    omega
  · rw [← Bool.not_eq_true, isUpper_iff]
    omega

/-- Digits are a number. -/
theorem inCode_integer (starts : first.isDigit = true)
    (digits : ∀ char ∈ body, char.isDigit = true)
    (fits : Nat.ofDigitChars 10 (first :: body) 0 < 2 ^ 64) :
    inCode none first body =
      (.token (.integer (Nat.ofDigitChars 10 (first :: body) 0)), body.length) := by
  obtain ⟨notLower, notUpper, isWord⟩ := starts_digit starts
  obtain ⟨solid, noComment⟩ := starts_of_isWordChar isWord
  have all : ∀ char ∈ body, isDigitChar char = true := fun char member => by
    rw [isDigitChar, digits char member, Bool.true_or]
  have taken := List.takeWhile_eq_self_iff.mpr all
  have left := List.dropWhile_eq_nil_iff.mpr all
  have value : digitsValue (first :: body) = Nat.ofDigitChars 10 (first :: body) 0 := by
    rw [digitsValue, List.filter_eq_self.mpr]
    intro char member
    rcases List.mem_cons.mp member with rfl | later
    · exact starts
    · exact digits char later
  have small : Nat.ofDigitChars 10 (first :: body) 0 < integerLimit := fits
  rw [inCode, solid, noComment, notLower, notUpper, starts, number]
  simp only [taken, left, number.integer, value, if_pos small]
  rfl

/-- A colon and a name are a symbol, where no operand ends. -/
theorem inCode_symbol {name : List Char} (bare : Text.IsBare name) :
    inCode none ':' name = (.token (.symbol (String.ofList name)), name.length) := by
  obtain ⟨first, body, rfl, starts, words⟩ := bare
  have whole : (first :: body).takeWhile isWordChar = first :: body := by
    refine List.takeWhile_eq_self_iff.mpr fun char member => ?_
    rcases List.mem_cons.mp member with rfl | later
    · exact isWordChar_of_isWordStart starts
    · exact words char later
  show colon none (first :: body) = _
  rw [colon, whole]
  simp [starts]

/-- One sigil and a name are an instance variable. -/
theorem inCode_instanceVariable {name : List Char} (bare : Text.IsBare name) :
    inCode none '@' name = (.token (.instanceVariable (String.ofList name)), name.length) := by
  obtain ⟨first, body, rfl, starts, words⟩ := bare
  have single : (first == '@') = false := by
    cases sigils : first == '@' with
    | false => rfl
    | true =>
      obtain rfl := beq_iff_eq.mp sigils
      contradiction
  show sigil (first :: body) = _
  simp [sigil, single, starts, isWordChar_of_isWordStart starts,
    List.takeWhile_eq_self_iff.mpr words]

/-- Two sigils and a name are a class variable. -/
theorem inCode_classVariable {name : List Char} (bare : Text.IsBare name) :
    inCode none '@' ('@' :: name) =
      (.token (.classVariable (String.ofList name)), ('@' :: name).length) := by
  obtain ⟨first, body, rfl, starts, words⟩ := bare
  show sigil ('@' :: first :: body) = _
  simp [sigil, starts, isWordChar_of_isWordStart starts, List.takeWhile_eq_self_iff.mpr words]
  omega

/-- In a string literal a character that is not plain can be escaped. -/
theorem inString_escape (special : isPlain first = false) (rest : List Char) :
    inString '\\' (first :: rest) = (.token (.stringEscape first), 1) := by
  simp only [isPlain, Bool.and_eq_false_iff, bne_eq_false_iff_eq] at special
  rcases special with rfl | rfl <;> rfl

end Content

namespace Text

variable {char : Char} {text : List Char}

/-- A plain character stands for itself. -/
theorem escape_plain (plain : isPlain char = true) : escape (char :: text) = char :: escape text := by
  simp [escape, plain]

/-- Any other character is escaped. -/
theorem escape_special (special : isPlain char = false) :
    escape (char :: text) = '\\' :: char :: escape text := by
  simp [escape, special]

/-- Escaping changes nothing before the first character that is not plain. -/
theorem takeWhile_escape (text : List Char) :
    (escape text ++ ['"']).takeWhile isPlain = text.takeWhile isPlain := by
  induction text with
  | nil => rfl
  | cons char text ih =>
    cases plain : isPlain char with
    | true =>
      rw [escape_plain plain, List.cons_append, List.takeWhile_cons_of_pos plain, ih,
        List.takeWhile_cons_of_pos plain]
    | false =>
      rw [escape_special plain, List.takeWhile_cons_of_neg (by rw [plain]; exact Bool.false_ne_true)]
      rfl

end Text

/-- Pieces of a string literal stand for a text. -/
def TokenKind.Decode (pieces : List (TokenKind String)) (text : List Char) : Prop :=
  (∀ piece ∈ pieces, piece.pieceText?.isSome = true) ∧
    (pieces.filterMap TokenKind.pieceText?).flatMap String.toList = text

/-- A run of text stands for itself. -/
theorem TokenKind.pieceText?_stringContent (text : String) :
    pieceText? (.stringContent text) = some text := rfl

/-- An escape stands for one character. -/
theorem TokenKind.pieceText?_stringEscape (char : Char) :
    pieceText? (.stringEscape char) = some (String.singleton char) := rfl

/-- A piece more stands for more text. -/
theorem TokenKind.Decode.cons {pieces : List (TokenKind String)} {text : List Char}
    (decode : Decode pieces text) {piece : TokenKind String} {part : String}
    (isPiece : piece.pieceText? = some part) :
    Decode (piece :: pieces) (part.toList ++ text) := by
  refine ⟨fun other member => ?_, ?_⟩
  · rcases List.mem_cons.mp member with rfl | later
    · rw [isPiece]
      rfl
    · exact decode.1 other later
  · rw [List.filterMap_cons_some isPiece, List.flatMap_cons, decode.2]

/-- An escaped text is read up to the quotation mark after it. What is passed over belongs to the
text before the first escape. -/
theorem Piece.contents_escape (text : List Char) (passed opening : Nat) (before : Option Char)
    (offset : Nat) (enough : passed ≤ (text.takeWhile isPlain).length) :
    ∃ pieces : List (TokenKind String),
      (listFrom passed (.string opening) before offset
          (Text.escape text ++ ['"'])).map (·.content) =
        (pieces ++ [TokenKind.stringClose]).map Content.token ∧
      Decode pieces (text.drop passed) := by
  induction text generalizing passed before offset with
  | nil =>
    obtain rfl := Nat.le_zero.mp enough
    exact ⟨[], rfl, nofun, rfl⟩
  | cons char text ih =>
    cases plain : isPlain char with
    | true =>
      rw [List.takeWhile_cons_of_pos plain, List.length_cons] at enough
      rw [Text.escape_plain plain, List.cons_append]
      cases passed with
      | succ passed => exact ih passed _ _ (Nat.le_of_succ_le_succ enough)
      | zero =>
        obtain ⟨pieces, reads, decode⟩ := ih (text.takeWhile isPlain).length (some char)
          (offset + char.utf8Size) (Nat.le_refl _)
        refine ⟨.stringContent (String.ofList (char :: text.takeWhile isPlain)) :: pieces, ?_, ?_⟩
        · rw [contents_cons, Content.read, inString_plain plain, Text.takeWhile_escape]
          exact congrArg (_ :: ·) reads
        · have whole := decode.cons (TokenKind.pieceText?_stringContent
            (String.ofList (char :: text.takeWhile isPlain)))
          have run := List.prefix_iff_eq_take.mp (List.takeWhile_prefix (l := text) isPlain)
          rw [String.toList_ofList, List.cons_append] at whole
          nth_rewrite 2 [run] at whole
          rwa [List.take_append_drop] at whole
    | false =>
      rw [List.takeWhile_cons_of_neg (by rw [plain]; exact Bool.false_ne_true)] at enough
      obtain rfl := Nat.le_zero.mp enough
      obtain ⟨pieces, reads, decode⟩ := ih 0 (some char)
        (offset + '\\'.utf8Size + char.utf8Size) (Nat.zero_le _)
      have whole := decode.cons (TokenKind.pieceText?_stringEscape char)
      rw [String.toList_singleton] at whole
      refine ⟨.stringEscape char :: pieces, ?_, whole⟩
      rw [Text.escape_special plain, List.cons_append, List.cons_append, contents_cons,
        Content.read, inString_escape plain]
      exact congrArg (_ :: ·) reads

namespace PrintedToken

/-- The printed text of a string literal is a lexeme. -/
theorem isLexeme_string (text : List Char) :
    ∃ pieces : List (TokenKind String),
      IsLexeme ('"' :: (Text.escape text ++ ['"'])) (.stringOpen :: (pieces ++ [.stringClose])) ∧
        Decode pieces text := by
  obtain ⟨pieces, reads, decode⟩ := Piece.contents_escape text 0 0 (some '"') 1 (Nat.zero_le _)
  refine ⟨pieces, ⟨?_, ?_⟩, decode⟩
  · rw [Piece.list, Piece.contents_cons]
    exact congrArg (_ :: ·) reads
  · intro kind member
    simp only [List.mem_cons, List.mem_append, List.not_mem_nil, or_false] at member
    rcases member with rfl | piece | rfl
    · rfl
    · have isPiece := decode.1 kind piece
      cases kind <;> first | rfl | contradiction
    · rfl

/-- Every printed token is a lexeme that is read as it should be. -/
theorem exists_lexeme (printed : PrintedToken) :
    ∃ lexeme : Lexeme, lexeme.text = String.ofList printed.text ∧ printed.Reads lexeme.kinds := by
  have make (kinds : List (TokenKind String)) (filled : kinds ≠ [])
      (isLexeme : IsLexeme printed.text kinds) (reads : printed.Reads kinds) :
      ∃ lexeme : Lexeme, lexeme.text = String.ofList printed.text ∧ printed.Reads lexeme.kinds :=
    ⟨⟨String.ofList printed.text, kinds, filled, by rwa [String.toList_ofList]⟩, rfl, reads⟩
  have single {kind : TokenKind String} {first : Char} {rest : List Char}
      (same : printed.text = first :: rest)
      (inCode : inCode none first rest = (.token kind, rest.length))
      (plain : kind.isDirective = false) (closed : kind ≠ .stringOpen)
      (reads : printed.Reads [kind]) :
      ∃ lexeme : Lexeme, lexeme.text = String.ofList printed.text ∧ printed.Reads lexeme.kinds :=
    make [kind] (List.cons_ne_nil _ _) (same ▸ .of_inCode inCode plain closed) reads
  match printed with
  | .identifier name shape free =>
    obtain ⟨first, body, marker, whole, starts, words, mark⟩ := shape
    have same : name = String.ofList (first :: (body ++ marker)) := by
      rw [← whole, String.ofList_toList]
    rw [same] at free
    exact single whole (inCode_identifier starts words mark free) rfl nofun
      (congrArg (fun name => [TokenKind.identifier name]) same.symm)
  | .constant name shape =>
    obtain ⟨first, body, whole, starts, words⟩ := shape
    have same : name = String.ofList (first :: body) := by rw [← whole, String.ofList_toList]
    exact single whole (inCode_constant starts words) rfl nofun
      (congrArg (fun name => [TokenKind.constant name]) same.symm)
  | .integer value fits =>
    have isValue := Nat.ofDigitChars_ten_toDigits (n := value)
    have digits (char : Char) (member : char ∈ Nat.toDigits 10 value) : char.isDigit = true :=
      Nat.isDigit_of_mem_toDigits (by decide) (by decide) member
    cases whole : Nat.toDigits 10 value with
    | nil => exact absurd whole Nat.toDigits_ne_nil
    | cons first body =>
      rw [whole] at isValue digits
      have reads := inCode_integer (digits first List.mem_cons_self)
        (fun char member => digits char (List.mem_cons_of_mem _ member)) (isValue ▸ fits)
      rw [isValue] at reads
      exact single whole reads rfl nofun rfl
  | .symbol name shape =>
    exact single rfl (inCode_symbol shape) rfl nofun
      (congrArg (fun name => [TokenKind.symbol name]) (String.ofList_toList))
  | .instanceVariable name shape =>
    exact single rfl (inCode_instanceVariable shape) rfl nofun
      (congrArg (fun name => [TokenKind.instanceVariable name]) String.ofList_toList)
  | .classVariable name shape =>
    exact single rfl (inCode_classVariable shape) rfl nofun
      (congrArg (fun name => [TokenKind.classVariable name]) String.ofList_toList)
  | .fixed tag spelled => exact make _ (List.cons_ne_nil _ _) (isLexeme_spelling tag spelled) rfl
  | .string text =>
    obtain ⟨pieces, isLexeme, all, decoded⟩ := isLexeme_string text.toList
    exact make _ (List.cons_ne_nil _ _) isLexeme ⟨pieces, rfl, all, by
      rw [← String.toList_inj, String.toList_join, decoded]⟩

/-- Printed tokens with single spaces between them. -/
def source (printed : List PrintedToken) : String :=
  " ".intercalate (printed.map fun token => String.ofList token.text)

/-- Printed tokens are lexemes that are read as they should be. -/
theorem exists_lexemes (printed : List PrintedToken) :
    ∃ lexemes : List Lexeme, Lexeme.source lexemes = source printed ∧
      List.Forall₂ Reads printed (lexemes.map Lexeme.kinds) := by
  suffices texts : ∃ lexemes : List Lexeme,
      lexemes.map Lexeme.text = printed.map (fun token => String.ofList token.text) ∧
        List.Forall₂ Reads printed (lexemes.map Lexeme.kinds) by
    obtain ⟨lexemes, same, reads⟩ := texts
    exact ⟨lexemes, congrArg (" ".intercalate ·) same, reads⟩
  induction printed with
  | nil => exact ⟨[], rfl, .nil⟩
  | cons token printed ih =>
    obtain ⟨lexeme, same, reads⟩ := token.exists_lexeme
    obtain ⟨lexemes, others, all⟩ := ih
    exact ⟨lexeme :: lexemes, by rw [List.map_cons, same, others, List.map_cons], .cons reads all⟩

end PrintedToken

/-- Lexemes with single spaces between them have no comments. -/
theorem Lexeme.comments_source (lexemes : List Lexeme) :
    (Piece.list (source lexemes).toList).filterMap Piece.comment? = [] := by
  refine List.filterMap_eq_nil_iff.mpr fun piece member => ?_
  rcases content_source member with blank | ⟨kind, token, _⟩
  · rw [Piece.comment?, blank]
  · rw [Piece.comment?, token]

/-- Reading printed tokens with single spaces between them gives these tokens and then the end of
the text, without an error and without a comment. -/
theorem reads_lex_printed (printed : List PrintedToken) :
    (∃ kinds, List.Forall₂ PrintedToken.Reads printed kinds ∧
      (lex (PrintedToken.source printed)).written.map (·.kind) =
        kinds.flatten ++ [.endOfInput]) ∧
      (lex (PrintedToken.source printed)).lexer.errors = #[] ∧
      (lex (PrintedToken.source printed)).lexer.comments = #[] := by
  obtain ⟨lexemes, same, reads⟩ := PrintedToken.exists_lexemes printed
  rw [← same]
  have recorded := recorded_lex (Lexeme.source lexemes)
  rw [Lexeme.faults_source, Lexeme.comments_source, Array.toList_eq_nil_iff,
    Array.toList_eq_nil_iff] at recorded
  refine ⟨⟨lexemes.map Lexeme.kinds, reads, ?_⟩, recorded⟩
  rw [written_lex, List.map_append, Lexeme.kinds_source, List.flatMap_def]
  rfl

/-- A name that starts like a reserved word, a colon before a symbol, and a text with a quotation
mark, a line break and a backslash. -/
example : (lex "end? : :a \"\\\"\n\\\\\"").written.map (·.kind) =
    [.identifier "end?", .fixed .colon, .symbol "a", .stringOpen, .stringEscape '"',
      .stringContent "\n", .stringEscape '\\', .stringClose, .endOfInput] := by
  decide +kernel

end Vibescript
