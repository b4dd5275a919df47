import Vibescript.Lexer.Piece

/-!
# The lexer

A lexer hands out the tokens of a source text one at a time. It interns names, and records
errors and ordinary comments, only as it passes them. After the last token it hands out the
end of input for ever. A token stream hands out the end of input once.
-/
namespace Vibescript

/-- A comment that is no directive, or a directive that nothing claimed. -/
structure Comment where
  /-- Where it stands. -/
  span : Span
  /-- Its text, from the number sign to the end of the line. -/
  text : String
  deriving DecidableEq, Repr

/-- A source text in the course of being read. -/
structure Lexer where
  /-- The source text. -/
  source : List Char
  /-- The pieces still to be read. -/
  pieces : List Piece
  /-- The names met so far. -/
  names : NameTable
  /-- The errors met so far. -/
  errors : Array LexicalError
  /-- The ordinary comments met so far. -/
  comments : Array Comment

namespace Lexer

/-- A lexer at the start of a source text, with names interned before. -/
def withNames (source : String) (names : NameTable) : Lexer :=
  { source := source.toList
    pieces := Piece.list source.toList
    names
    errors := #[]
    comments := #[] }

/-- A lexer at the start of a source text. -/
def ofSource (source : String) : Lexer := withNames source NameTable.initial

/-- Number of bytes of the source text. -/
def length (lexer : Lexer) : Nat := Text.byteLength lexer.source

/-- The token at the end of the source text. -/
def endToken (lexer : Lexer) : Token Name := ⟨.endOfInput, .point lexer.length⟩

/-- Intern a text. -/
def intern (lexer : Lexer) (text : String) : Name × Lexer :=
  let (name, names) := lexer.names.intern text
  (name, { lexer with names })

/-- Pass over a piece: record its error or comment. -/
def pass (lexer : Lexer) (piece : Piece) (rest : List Piece) : Lexer :=
  { lexer with
    pieces := rest
    errors := match piece.error? with
      | some error => lexer.errors.push error
      | none => lexer.errors
    comments := match piece.content with
      | .comment => lexer.comments.push ⟨piece.span, String.ofList piece.text⟩
      | _ => lexer.comments }

/-- Read a piece: pass over it, and hand out the token that it is, if any. -/
def read (lexer : Lexer) (piece : Piece) (rest : List Piece) : Option (Token Name) × Lexer :=
  let lexer := lexer.pass piece rest
  match piece.kind? with
  | none => (none, lexer)
  | some kind =>
    let (kind, names) := kind.intern lexer.names
    (some ⟨kind, piece.span⟩, { lexer with names })

/-- The first token among these pieces. -/
def nextIn (lexer : Lexer) : List Piece → Token Name × Lexer
  | [] => (lexer.endToken, { lexer with pieces := [] })
  | piece :: rest =>
    match lexer.read piece rest with
    | (some token, lexer) => (token, lexer)
    | (none, lexer) => lexer.nextIn rest

/-- The next token. -/
def next (lexer : Lexer) : Token Name × Lexer := lexer.nextIn lexer.pieces

end Lexer

/-- The tokens of a lexer up to and including the end of input. -/
structure TokenStream where
  /-- The lexer. -/
  lexer : Lexer
  /-- Whether the end of input was handed out. -/
  isDone : Bool

namespace TokenStream

/-- The stream of a lexer. -/
def ofLexer (lexer : Lexer) : TokenStream := ⟨lexer, false⟩

/-- The next token; none after the end of input. -/
def next? (stream : TokenStream) : Option (Token Name) × TokenStream :=
  if stream.isDone then (none, stream)
  else
    let (token, lexer) := stream.lexer.next
    (some token, ⟨lexer, token.tag == .endOfInput⟩)

/-- Up to so many tokens. -/
def take : Nat → TokenStream → List (Token Name) × TokenStream
  | 0, stream => ([], stream)
  | count + 1, stream =>
    match stream.next? with
    | (none, stream) => ([], stream)
    | (some token, stream) =>
      let (tokens, stream) := stream.take count
      (token :: tokens, stream)

end TokenStream

/-- A source text that was read to its end. -/
structure LexOutput where
  /-- Every token; the last is the end of input. -/
  tokens : List (Token Name)
  /-- The lexer after the last token. -/
  lexer : Lexer

/-- Whether the source text has errors. -/
def LexOutput.hasErrors (output : LexOutput) : Bool := !output.lexer.errors.isEmpty

/-- Read a whole source text. No source has more tokens than pieces, the end of input apart. -/
def lex (source : String) : LexOutput :=
  let lexer := Lexer.ofSource source
  let (tokens, stream) := (TokenStream.ofLexer lexer).take (lexer.pieces.length + 1)
  ⟨tokens, stream.lexer⟩

end Vibescript
