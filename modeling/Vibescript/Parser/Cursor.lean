import Vibescript.Lexer.Basic
import Vibescript.Token.TagSet

/-!
# Token cursors

A cursor stands on the current token of a source text and looks ahead as far as it is asked,
reading tokens from the lexer only then. Directive comments never become the current token.
They wait in a queue until a statement position claims them; a directive that the cursor steps
over becomes an ordinary comment.
-/
namespace Vibescript

/-- A position between the tokens of a source text. -/
structure Cursor where
  /-- Where further tokens come from. -/
  lexer : Lexer
  /-- The current token. -/
  current : Token Name
  /-- The tokens after the current one that were looked at. -/
  ahead : List (Token Name)
  /-- The directives that were met and not yet claimed, in source order. -/
  directives : List (Token Name)
  /-- The directives that were stepped over. -/
  demoted : Array Comment
  /-- The span of the last token or directive that was consumed. -/
  previous : Span
  /-- Number of tokens and directives that were consumed. -/
  position : Nat

namespace Cursor

/-- The first token among these pieces that is no directive, and the directives before it. -/
def pullIn (lexer : Lexer) : List Piece → Token Name × List (Token Name) × Lexer
  | [] => (lexer.endToken, [], { lexer with pieces := [] })
  | piece :: rest =>
    match lexer.read piece rest with
    | (none, lexer) => pullIn lexer rest
    | (some token, lexer) =>
      if token.kind.isDirective then
        let (found, directives, lexer) := pullIn lexer rest
        (found, token :: directives, lexer)
      else (token, [], lexer)

/-- The next token of a lexer that is no directive, and the directives before it. -/
def pull (lexer : Lexer) : Token Name × List (Token Name) × Lexer := pullIn lexer lexer.pieces

/-- The cursor at the first token of a lexer. -/
def ofLexer (lexer : Lexer) : Cursor :=
  let (current, directives, lexer) := pull lexer
  { lexer, current, ahead := [], directives, demoted := #[], previous := .point 0, position := 0 }

/-- The cursor at the first token of a source text. -/
def ofSource (source : String) : Cursor := ofLexer (Lexer.ofSource source)

/-- Look at so many further tokens. -/
def lookFurther : Nat → Cursor → Cursor
  | 0, cursor => cursor
  | count + 1, cursor =>
    let (token, directives, lexer) := pull cursor.lexer
    lookFurther count
      { cursor with
        lexer
        ahead := cursor.ahead ++ [token]
        directives := cursor.directives ++ directives }

/-- The token so many places after the current one. -/
def peek (cursor : Cursor) (places : Nat) : Token Name × Cursor :=
  match places with
  | 0 => (cursor.current, cursor)
  | before + 1 =>
    let cursor := lookFurther (places - cursor.ahead.length) cursor
    (cursor.ahead[before]?.getD cursor.lexer.endToken, cursor)

/-- The source text. -/
def source (cursor : Cursor) : List Char := cursor.lexer.source

/-- The source text under a span. -/
def text (cursor : Cursor) (span : Span) : List Char := Text.slice cursor.source span

/-- The text of a name. -/
def nameText (cursor : Cursor) (name : Name) : String := cursor.lexer.names.text name

/-- Intern a text. -/
def intern (cursor : Cursor) (text : String) : Name × Cursor :=
  let (name, lexer) := cursor.lexer.intern text
  (name, { cursor with lexer })

/-- Whether an error was met so far. -/
def hasLexicalErrors (cursor : Cursor) : Bool := !cursor.lexer.errors.isEmpty

/-- Whether the current token is the end of the source text. -/
def isAtEnd (cursor : Cursor) : Bool := cursor.current.tag == .endOfInput

/-- Whether the current token has a tag. -/
def check (cursor : Cursor) (tag : Tag) : Bool := cursor.current.tag == tag

/-- Whether the source text between two spans has a line break. -/
def lineBreakBetween (cursor : Cursor) (before after : Span) : Bool :=
  (cursor.text ⟨before.stop, after.start⟩).contains '\n'

/-- Whether a line break stands before the current token, after what was consumed last. -/
def isAtLineStart (cursor : Cursor) : Bool :=
  cursor.lineBreakBetween cursor.previous cursor.current.span

/-- Make the waiting directives before an offset ordinary comments. -/
def demoteBefore (cursor : Cursor) (offset : Nat) : Cursor :=
  let isBefore := fun directive : Token Name => decide (directive.span.start < offset)
  let comments := (cursor.directives.takeWhile isBefore).map fun directive =>
    ({ span := directive.span, text := String.ofList (cursor.text directive.span) } : Comment)
  { cursor with
    directives := cursor.directives.dropWhile isBefore
    demoted := cursor.demoted ++ comments.toArray }

/-- Step to the next token and give back the current one. At the end of the source text the
cursor stays where it is. -/
def advance (cursor : Cursor) : Token Name × Cursor :=
  let token := cursor.current
  if cursor.isAtEnd then (token, cursor)
  else
    let cursor := cursor.demoteBefore token.span.start
    let cursor :=
      match cursor.ahead with
      | next :: ahead => { cursor with current := next, ahead }
      | [] =>
        let (next, directives, lexer) := pull cursor.lexer
        { cursor with current := next, lexer, directives := cursor.directives ++ directives }
    (token, { cursor with previous := token.span, position := cursor.position + 1 })

/-- Step over the current token if it has a tag. -/
def eat (cursor : Cursor) (tag : Tag) : Bool × Cursor :=
  if cursor.check tag then (true, cursor.advance.2) else (false, cursor)

/-- Claim the first waiting directive if it stands before the current token. -/
def takeDirective (cursor : Cursor) : Option (Token Name) × Cursor :=
  match cursor.directives with
  | [] => (none, cursor)
  | directive :: directives =>
    if directive.span.start < cursor.current.span.start then
      (some directive,
        { cursor with
          directives, previous := directive.span, position := cursor.position + 1 })
    else (none, cursor)

/-- Split a current symbol into its colon and its name, where the grammar wants a colon. -/
def splitSymbol (cursor : Cursor) : Bool × Cursor :=
  match cursor.current.kind with
  | .symbol _ =>
    let span := cursor.current.span
    let colon : Span := ⟨span.start, span.start + 1⟩
    let rest : Span := ⟨colon.stop, span.stop⟩
    let word := TokenKind.ofWord (String.ofList (cursor.text rest))
    let (kind, names) := word.intern cursor.lexer.names
    (true,
      { cursor with
        lexer := { cursor.lexer with names }
        current := ⟨.fixed .colon, colon⟩
        ahead := ⟨kind, rest⟩ :: cursor.ahead })
  | _ => (false, cursor)

/-- An upper bound on the tokens before the end of the source text, symbols unsplit. -/
def tokensLeft (cursor : Cursor) : Nat := cursor.ahead.length + cursor.lexer.pieces.length + 1

/-- Step over so many tokens at most, until a condition holds. -/
def skipWithin (stop : Cursor → Bool) : Nat → Cursor → Cursor
  | 0, cursor => cursor
  | count + 1, cursor =>
    if cursor.isAtEnd || stop cursor then cursor else skipWithin stop count cursor.advance.2

/-- Step over tokens until a condition holds or the source text ends. -/
def skipUntil (cursor : Cursor) (stop : Cursor → Bool) : Cursor :=
  skipWithin stop cursor.tokensLeft cursor

/-- Step over all tokens that are left. -/
def skipToEnd (cursor : Cursor) : Cursor := cursor.skipUntil fun _ => false

/-- Step over tokens until one of a set, or the first on a new line, so that one bad line does
not swallow the statements after it. The answer is whether such a token was found. -/
def synchronize (cursor : Cursor) (boundary : TagSet) : Bool × Cursor :=
  let cursor := cursor.skipUntil fun cursor =>
    boundary.contains cursor.current.tag || cursor.isAtLineStart
  (!cursor.isAtEnd, cursor)

/-- The lexer at the end, with every directive that was not claimed among its comments, and
the comments in source order. -/
def finish (cursor : Cursor) : Lexer :=
  let cursor := cursor.demoteBefore Span.offsetLimit
  let comments := (cursor.lexer.comments ++ cursor.demoted).toList.mergeSort
    fun left right => left.span.start ≤ right.span.start
  { cursor.lexer with comments := comments.toArray }

end Cursor

end Vibescript
