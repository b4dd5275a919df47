import Vibescript.Parser.Basic

/-!
# The grammar at one nesting depth

Every cycle of the grammar leads through a statement, an expression or the operand of a unary
operator, each of which stands one level deeper. A `Grammar` holds what the productions of one
level need, among it the readings of the level below; so no production refers to itself.

Bodies are read statement by statement. A statement that fails is reported, tokens are skipped
up to the next statement, and an error node takes its place.
-/
namespace Vibescript

/-- What is read one level deeper. -/
inductive Request where
  /-- A statement. -/
  | statement
  /-- An expression whose operators bind at least so tightly. -/
  | expression (least : BindingPower)
  /-- The operand of a unary operator. -/
  | operand
  deriving DecidableEq, Repr

/-- What the productions of one nesting depth use. -/
structure Grammar where
  /-- How to parse. -/
  options : ParseOptions
  /-- The words that mean something in some places only. -/
  soft : SoftNames
  /-- More rounds than any loop over the source text takes. -/
  rounds : Nat
  /-- The readings one level deeper. -/
  deeper : Request → Parse NodeId

namespace Grammar

variable {α : Type} {m : Type → Type} [Monad m]

/-- Repeat a step until it is done, so many rounds at most. -/
def repeatWithin (step : α → m (ForInStep α)) : Nat → α → m α
  | 0, state => return state
  | rounds + 1, state => do
    match ← step state with
    | .done state => return state
    | .yield state => repeatWithin step rounds state

/-- Repeat a step until it is done. Every step that goes on consumes a token, so the bound on
rounds is never reached. -/
def loop (grammar : Grammar) (start : α) (step : α → m (ForInStep α)) : m α :=
  repeatWithin step grammar.rounds start

/-- One or more items with a separator between them. -/
def oneOrMore (grammar : Grammar) (separator : Tag) (item : Parse α) : Parse (Array α) :=
  grammar.loop #[] fun items => do
    let items := items.push (← item)
    return if ← Build.eat separator then .yield items else .done items

/-- Items up to a closing token, with commas between them and possibly after the last. -/
def itemsUntil (grammar : Grammar) (closer : Tag) (item : Parse α) : Parse (Array α) :=
  grammar.loop #[] fun items => do
    if ← Build.check closer then return .done items
    let items := items.push (← item)
    return if ← Build.eat .comma then .yield items else .done items

/-- A full expression. -/
def expression (grammar : Grammar) : Parse NodeId := grammar.deeper (.expression .assignment)

/-- Report an error. Once the parser is halted, errors are dropped. -/
def report (grammar : Grammar) (error : ParseError) : Build Unit :=
  modify fun parser =>
    if parser.isHalted then parser
    else
      { parser with
        errors := parser.errors.push error
        isHalted := grammar.options.recovery == .failFast || error.code == .nestingTooDeep }

/-- Whether to stop reading and skip the rest of the source text. -/
def shouldHalt (grammar : Grammar) : Build Bool := do
  let parser ← get
  return parser.isHalted ||
    (grammar.options.recovery == .failFast && parser.cursor.hasLexicalErrors)

/-- Where a construct starts, to come back to when it fails. -/
structure Checkpoint where
  /-- The first token. -/
  start : Span
  /-- The number of tokens consumed before it. -/
  position : Nat
  /-- The nodes built before it. -/
  mark : ArenaMark
  deriving Repr

/-- The present place. -/
def checkpoint : Build Checkpoint := do
  let parser ← get
  return ⟨parser.cursor.current.span, parser.cursor.position, parser.arena.mark⟩

/-- Consume a token if nothing was consumed since a checkpoint, take back the nodes built since
then, and add an error node for everything consumed. -/
def abandon (checkpoint : Checkpoint) : Build NodeId := do
  let cursor ← Build.cursor
  if cursor.position == checkpoint.position && !cursor.isAtEnd then
    let _ ← Build.advance
  Build.onArena fun arena => ((), arena.truncate checkpoint.mark)
  let span ←
    if (← Build.cursor).position == checkpoint.position then
      pure (Span.point checkpoint.start.start)
    else Build.spanFrom checkpoint.start
  Build.addNode .error span

/-- A directive that a statement position claimed. -/
def directive (token : Token Name) : Build NodeId := do
  match token.kind with
  | .versionDirective major minor => Build.addNode (.versionDirective major minor) token.span
  | _ =>
    let comment := (← Build.cursor).text token.span
    let names ← (Directive.usesNames comment).mapM Build.intern
    let range ← Build.addNames names.toArray
    Build.addNode (.usesDirective range) token.span

/-- One round of a body: a directive, the end of the body, or a statement. -/
def bodyStep (grammar : Grammar) (terminators : TagSet) (statements : Array NodeId) :
    Build (ForInStep (Array NodeId)) := do
  if ← grammar.shouldHalt then
    Build.skipToEnd
    return .done statements
  if let some token ← Build.onCursor Cursor.takeDirective then
    return .yield (statements.push (← directive token))
  let tag ← Build.currentTag
  if tag == .endOfInput || terminators.contains tag then return .done statements
  let start ← checkpoint
  match ← (grammar.deeper .statement).run with
  | .ok id => return .yield (statements.push id)
  | .error error =>
    grammar.report error
    let _ ← Build.onCursor fun cursor => cursor.synchronize .statementBoundary
    return .yield (statements.push (← abandon start))

/-- Statements up to a terminator, which is left, or to the end of the source text. -/
def body (grammar : Grammar) (terminators : TagSet) : Build NodeRange := do
  Build.addList (← grammar.loop #[] (grammar.bodyStep terminators))

end Grammar

end Vibescript
