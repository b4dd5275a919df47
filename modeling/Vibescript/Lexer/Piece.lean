import Vibescript.Directive
import Vibescript.Lexer.Error
import Vibescript.Text.Utf8
import Vibescript.Token.Basic

/-!
# Pieces of source text

Source text is cut into pieces that follow each other without gaps: tokens, blanks, comments
and characters that belong to nothing. Each piece is read from its first character, the
characters after it and, for a colon, the character before it. Inside a string literal other
rules hold than in code; `Mode` says which apply.
-/
namespace Vibescript

/-- Which rules apply to the next piece. -/
inductive Mode where
  /-- Outside string literals. -/
  | code
  /-- In a string literal whose opening quotation mark has this offset. -/
  | string (opening : Nat)
  deriving DecidableEq, Repr

/-- What a piece of source text is. -/
inductive Content where
  /-- Separators. -/
  | blank
  /-- A comment that is no directive. -/
  | comment
  /-- A backslash that ends the source inside a string literal. -/
  | finalBackslash
  /-- A token. -/
  | token (kind : TokenKind String)
  /-- A character, or sigils without a name, that start no token. -/
  | unrecognized (char : Char)
  /-- An integer literal beyond 64 bits; it is read as zero. -/
  | overflow
  /-- A backslash and a character that has no escape; the character stands for itself. -/
  | invalidEscape (char : Char)
  /-- The end of the source inside a string literal; it closes the literal. -/
  | unterminated (opening : Nat)
  deriving DecidableEq, Repr

/-- A piece of source text. -/
structure Piece where
  /-- Offset of its first byte. -/
  start : Nat
  /-- Its characters. -/
  text : List Char
  /-- What it is. -/
  content : Content
  deriving DecidableEq, Repr

namespace Piece

/-- The bytes of a piece. -/
def span (piece : Piece) : Span := ⟨piece.start, piece.start + Text.byteLength piece.text⟩

/-- The token that a piece is read as. -/
def kind? (piece : Piece) : Option (TokenKind String) :=
  match piece.content with
  | .token kind => some kind
  | .overflow => some (.integer 0)
  | .invalidEscape char => some (.stringContent (String.ofList [char]))
  | .unterminated _ => some .stringClose
  | .blank | .comment | .finalBackslash | .unrecognized _ => none

/-- The error in a piece. -/
def error? (piece : Piece) : Option LexicalError :=
  match piece.content with
  | .unrecognized char => some ⟨.unrecognizedCharacter char, piece.span⟩
  | .overflow => some ⟨.integerOverflow, piece.span⟩
  | .invalidEscape char => some ⟨.invalidEscape char, piece.span⟩
  | .unterminated opening => some ⟨.unterminatedString, ⟨opening, piece.span.stop⟩⟩
  | .token _ | .blank | .comment | .finalBackslash => none

end Piece

namespace Content

/-- The rules that apply after a piece that starts at an offset. -/
def modeAfter (content : Content) (offset : Nat) (mode : Mode) : Mode :=
  match content with
  | .token .stringOpen => .string offset
  | .token .stringClose => .code
  | .unterminated _ => .code
  | _ => mode

/-- A character that starts a name. -/
def isWordStart (char : Char) : Bool := char.isAlpha || char == '_'

/-- A character that a name goes on with. -/
def isWordChar (char : Char) : Bool := char.isAlphanum || char == '_'

/-- A digit or a separator between digits. -/
def isDigitChar (char : Char) : Bool := char.isDigit || char == '_'

/-- The value of decimal digits, separators left out. -/
def digitsValue (digits : List Char) : Nat :=
  Nat.ofDigitChars 10 (digits.filter Char.isDigit) 0

/-- The least number that is no integer literal. -/
def integerLimit : Nat := UInt64.size

/-- Whether a name takes the character after it as a trailing mark: a question or exclamation
mark, unless it is the first half of a two-character operator. -/
def takesMarker : List Char → Bool
  | [] => false
  | marker :: rest =>
    (marker == '?' || marker == '!') && !(rest.head? == some '=' && rest.tail.head? != some '=')

/-- A name in lower case: word characters, then possibly a marker. -/
def word (first : Char) (rest : List Char) : Content × Nat :=
  let body := rest.takeWhile isWordChar
  let after := rest.dropWhile isWordChar
  let marker := if takesMarker after then after.take 1 else []
  let text := first :: body ++ marker
  (.token (.ofWord (String.ofList text)), body.length + marker.length)

/-- A name in upper case: word characters. -/
def upperWord (first : Char) (rest : List Char) : Content × Nat :=
  let body := rest.takeWhile isWordChar
  (.token (.ofWord (String.ofList (first :: body))), body.length)

/-- A number: digits, and for a float a point with digits after it. -/
def number (first : Char) (rest : List Char) : Content × Nat :=
  let whole := rest.takeWhile isDigitChar
  match rest.dropWhile isDigitChar with
  | '.' :: digit :: after =>
    if digit.isDigit then
      let places := digit :: after.takeWhile isDigitChar
      let value := Binary64.nearest (digitsValue (first :: whole ++ places))
        (Nat.pow 10 (places.filter Char.isDigit).length)
      (.token (.float value), whole.length + 1 + places.length)
    else integer (first :: whole)
  | _ => integer (first :: whole)
where
  /-- An integer literal with these digits. -/
  integer (digits : List Char) : Content × Nat :=
    let value := digitsValue digits
    (if value < integerLimit then .token (.integer value) else .overflow, digits.length - 1)

/-- A comment, up to the end of the line. -/
def hash (first : Char) (rest : List Char) : Content × Nat :=
  let body := rest.takeWhile (· != '\n')
  let content :=
    match Directive.classify (first :: body) with
    | some (.version major minor) => .token (.versionDirective major minor)
    | some (.uses _) => .token .usesDirective
    | none => .comment
  (content, body.length)

/-- A variable with one sigil or two; sigils without a name are not recognized. -/
def sigil (rest : List Char) : Content × Nat :=
  let sigils := rest.take 1 |>.filter (· == '@')
  let after := rest.drop sigils.length
  let name := after.takeWhile isWordChar
  if after.head?.any isWordStart then
    let text := String.ofList name
    (.token (if sigils.isEmpty then .instanceVariable text else .classVariable text),
      sigils.length + name.length)
  else (.unrecognized '@', sigils.length)

/-- Whether a colon directly after a character belongs to what stands before it. -/
def endsOperand (char : Char) : Bool :=
  isWordChar char || char == '?' || char == '!' || char == ')' || char == ']' || char == '"'

/-- A colon: a symbol when a name follows directly and no operand stands directly before. -/
def colon (before : Option Char) (rest : List Char) : Content × Nat :=
  if before.any endsOperand || !rest.head?.any isWordStart then (.token (.fixed .colon), 0)
  else
    let name := rest.takeWhile isWordChar
    (.token (.symbol (String.ofList name)), name.length)

/-- The longest operator or punctuation mark, of two characters or one. -/
def mark (first : Char) (rest : List Char) : Content × Nat :=
  match rest.head?.bind fun second => TokenKind.mark? (String.ofList [first, second]) with
  | some kind => (.token kind, 1)
  | none =>
    match TokenKind.mark? (String.ofList [first]) with
    | some kind => (.token kind, 0)
    | none => (.unrecognized first, 0)

/-- What starts at a character in code, and how many further characters it takes. -/
def inCode (before : Option Char) (first : Char) (rest : List Char) : Content × Nat :=
  if Text.isSeparator first then (.blank, (rest.takeWhile Text.isSeparator).length)
  else if first == '#' then hash first rest
  else if first.isLower || first == '_' then word first rest
  else if first.isUpper then upperWord first rest
  else if first.isDigit then number first rest
  else if first == '"' then (.token .stringOpen, 0)
  else if first == '@' then sigil rest
  else if first == ':' then colon before rest
  else mark first rest

/-- The character that an escape stands for. -/
def decodeEscape? : Char → Option Char
  | 'n' => some '\n'
  | 'r' => some '\r'
  | 't' => some '\t'
  | '\\' => some '\\'
  | '"' => some '"'
  | _ => none

/-- A character of a string literal that stands for itself. -/
def isPlain (char : Char) : Bool := char != '"' && char != '\\'

/-- What starts at a character in a string literal, and how many further characters it
takes. -/
def inString (first : Char) (rest : List Char) : Content × Nat :=
  if first == '"' then (.token .stringClose, 0)
  else if first == '\\' then
    match rest with
    | [] => (.finalBackslash, 0)
    | char :: _ =>
      match decodeEscape? char with
      | some decoded => (.token (.stringEscape decoded), 1)
      | none => (.invalidEscape char, 1)
  else
    let body := rest.takeWhile isPlain
    (.token (.stringContent (String.ofList (first :: body))), body.length)

/-- What starts at a character, and how many further characters it takes. -/
def read (mode : Mode) (before : Option Char) (first : Char) (rest : List Char) :
    Content × Nat :=
  match mode with
  | .code => inCode before first rest
  | .string _ => inString first rest

end Content

namespace Piece

/-- The pieces of a text that starts at an offset, after the characters that still belong to
the piece before have been passed over. -/
def listFrom (passed : Nat) (mode : Mode) (before : Option Char) (offset : Nat) :
    List Char → List Piece
  | [] =>
    match mode with
    | .code => []
    | .string opening => [⟨offset, [], .unterminated opening⟩]
  | char :: rest =>
    match passed with
    | more + 1 => listFrom more mode (some char) (offset + char.utf8Size) rest
    | 0 =>
      let (content, more) := Content.read mode before char rest
      ⟨offset, char :: rest.take more, content⟩ ::
        listFrom more (content.modeAfter offset mode) (some char) (offset + char.utf8Size) rest

/-- The pieces of a source text. -/
def list (source : List Char) : List Piece := listFrom 0 .code none 0 source

/-- Put together, the pieces are the text without what was passed over. -/
theorem flatMap_text_listFrom (passed : Nat) (mode : Mode) (before : Option Char) (offset : Nat)
    (text : List Char) :
    (listFrom passed mode before offset text).flatMap (·.text) = text.drop passed := by
  induction text generalizing passed mode before offset with
  | nil => cases mode <;> simp [listFrom]
  | cons char rest ih => cases passed <;> simp [listFrom, ih]

/-- Every character of a source text belongs to one piece, and the pieces follow each other as
the characters do. -/
theorem flatMap_text_list (source : List Char) : (list source).flatMap (·.text) = source :=
  flatMap_text_listFrom 0 .code none 0 source

end Piece

end Vibescript
