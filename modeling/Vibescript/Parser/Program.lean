import Vibescript.Parser.Statement

/-!
# Parsing a source text

The levels of the grammar are stacked from the nesting limit downwards, so reading is a
recursion on the number of levels left; below the last one stands a level that refuses.
Parsing never fails as a whole: its result is a tree, with error nodes where tokens were
skipped, and the errors in source order.
-/
namespace Vibescript

/-- A tree with the errors found on the way. -/
structure ParseOutput where
  /-- The tree. -/
  tree : SyntaxTree
  /-- The errors, in the order of their places. -/
  errors : List ParseError

namespace ParseOutput

/-- Whether there are errors. -/
def hasErrors (output : ParseOutput) : Bool := !output.errors.isEmpty

/-- The errors as diagnostics. -/
def diagnostics (output : ParseOutput) : List Diagnostic :=
  output.errors.map ParseError.toDiagnostic

end ParseOutput

namespace Grammar

/-- Refuse to go deeper: skip the rest of the source text and fail at the token that would
have gone deeper. -/
def refuse (limit : Nat) : Parse NodeId := do
  let token ← Build.current
  Build.skipToEnd
  throw (.ofFault .nestingTooDeep (.nesting ⟨limit⟩) token.span)

/-- The reading of a request with so many levels left. -/
def descend (options : ParseOptions) (soft : SoftNames) (rounds : Nat) :
    Nat → Request → Parse NodeId
  | 0, _ => refuse options.maxDepth
  | levels + 1, request =>
    let grammar : Grammar :=
      ⟨options, soft, rounds, fun request => descend options soft rounds levels request⟩
    match request with
    | .statement => grammar.statement
    | .expression least => grammar.expressionFrom least
    | .operand => grammar.operand

/-- The outermost level. -/
def outermost (options : ParseOptions) (soft : SoftNames) (rounds : Nat) : Grammar :=
  ⟨options, soft, rounds, descend options soft rounds options.maxDepth⟩

/-- Every statement of a source text. -/
def program (grammar : Grammar) : Build NodeId := do
  let body ← grammar.body .empty
  Build.addNode (.program body) ⟨0, (← Build.cursor).lexer.length⟩

end Grammar

namespace Parser

/-- The words that mean something in some places only, interned in their order. -/
def softNames (names : NameTable) : SoftNames × NameTable :=
  let (importName, names) := names.intern "require"
  let (asKey, names) := names.intern "as"
  let (property, names) := names.intern "property"
  let (getter, names) := names.intern "getter"
  let (setter, names) := names.intern "setter"
  (⟨importName, asKey, property, getter, setter⟩, names)

/-- A parser at the start of a source text. -/
def start (source : String) : SoftNames × Parser :=
  let cursor := Cursor.ofSource source
  let (soft, names) := softNames cursor.lexer.names
  (soft,
    { cursor := { cursor with lexer := { cursor.lexer with names } }
      arena := .empty
      errors := #[]
      isHalted := false })

/-- More rounds than any loop takes on a source text: a round consumes a token or a directive,
and a piece of the source is at most two tokens, since a symbol can be split. -/
def rounds (source : String) : Nat := 2 * (Piece.list source.toList).length + 2

/-- Read a whole source text: the node of the program, and the parser at the end. -/
def run (options : ParseOptions) (source : String) : NodeId × Parser :=
  let (soft, parser) := start source
  (Grammar.outermost options soft (rounds source)).program parser

/-- The result of a parse: lexical errors and the others, by place; of errors at one place the
lexical ones come first. -/
def finish (parser : Parser) (options : ParseOptions) (root : NodeId) : ParseOutput :=
  let lexer := parser.cursor.finish
  let errors := (lexer.errors.toList.map ParseError.ofLexical ++ parser.errors.toList).mergeSort
    fun left right => left.span.start ≤ right.span.start
  { tree := ⟨parser.arena, lexer.names, root⟩
    errors := if options.recovery == .failFast then errors.take 1 else errors }

end Parser

/-- Parse a source text. -/
def parseWith (options : ParseOptions) (source : String) : ParseOutput :=
  let (root, parser) := Parser.run options source
  parser.finish options root

/-- Parse a source text with the usual options. -/
def parse (source : String) : ParseOutput := parseWith .usual source

end Vibescript
