import Vibescript.Parser.Error
import Vibescript.Parser.Lookahead
import Vibescript.Parser.Sets
import Vibescript.Tree.Basic

/-!
# The state of a parse

A parser holds a cursor, the nodes built so far and the errors reported so far. Steps that
cannot fail are told apart by their type from readings that can.
-/
namespace Vibescript

/-- What happens at the first error. -/
inductive RecoveryMode where
  /-- Go on at the next statement. -/
  | recover
  /-- Keep that error only, and stop. -/
  | failFast
  deriving DecidableEq, Repr

/-- How to parse. -/
structure ParseOptions where
  /-- The nesting limit of statements and expressions. -/
  maxDepth : Nat
  /-- What happens at the first error. -/
  recovery : RecoveryMode
  deriving DecidableEq, Repr

/-- Recover from errors, with the usual nesting limit. -/
def ParseOptions.usual : ParseOptions := ⟨defaultNestingLimit, .recover⟩

/-- The names of the words that mean something in some places only. -/
structure SoftNames where
  /-- The import function. -/
  importName : Name
  /-- The key of an import's local name. -/
  asKey : Name
  /-- The accessor that reads and writes. -/
  property : Name
  /-- The accessor that reads. -/
  getter : Name
  /-- The accessor that writes. -/
  setter : Name
  deriving DecidableEq, Repr

/-- The accessor declaration that a name introduces. -/
def SoftNames.accessor? (soft : SoftNames) (name : Name) : Option AccessorKind :=
  if name = soft.property then some .property
  else if name = soft.getter then some .getter
  else if name = soft.setter then some .setter
  else none

/-- A parse in progress. -/
structure Parser where
  /-- Where the parse stands. -/
  cursor : Cursor
  /-- The nodes built so far. -/
  arena : Arena
  /-- The errors reported so far. -/
  errors : Array ParseError
  /-- Whether further errors are dropped. -/
  isHalted : Bool

/-- A step of a parse that cannot fail. -/
abbrev Build := StateM Parser

/-- A reading of the grammar: a step that succeeds or fails. What it did before it failed
stays done. -/
abbrev Parse := ExceptT ParseError Build

namespace Build

variable {α : Type}

/-- Do something with the cursor. -/
def onCursor (step : Cursor → α × Cursor) : Build α :=
  modifyGet fun ⟨cursor, arena, errors, isHalted⟩ =>
    let (answer, cursor) := step cursor
    (answer, ⟨cursor, arena, errors, isHalted⟩)

/-- Do something with the arena. -/
def onArena (step : Arena → α × Arena) : Build α :=
  modifyGet fun ⟨cursor, arena, errors, isHalted⟩ =>
    let (answer, arena) := step arena
    (answer, ⟨cursor, arena, errors, isHalted⟩)

/-- The cursor. -/
def cursor : Build Cursor := do return (← get).cursor

/-- The current token. -/
def current : Build (Token Name) := do return (← cursor).current

/-- The tag of the current token. -/
def currentTag : Build Tag := do return (← current).tag

/-- Ask a question about the tokens ahead. -/
def ask (question : Lookahead Bool) : Build Bool := onCursor question

/-- The parameter that starts at the current token, if one does. -/
def askParameter? : Build (Option Lookahead.ParameterShape) := onCursor Lookahead.parameter?

/-- Step to the next token and give back the current one. -/
def advance : Build (Token Name) := onCursor Cursor.advance

/-- Whether the current token has a tag. -/
def check (tag : Tag) : Build Bool := do return (← cursor).check tag

/-- Step over the current token if it has a tag. -/
def eat (tag : Tag) : Build Bool := onCursor fun cursor => cursor.eat tag

/-- Split a current symbol into a colon and a name. -/
def splitSymbol : Build Bool := onCursor Cursor.splitSymbol

/-- Step over all tokens that are left. -/
def skipToEnd : Build Unit := onCursor fun cursor => ((), cursor.skipToEnd)

/-- Intern a text. -/
def intern (text : String) : Build Name := onCursor fun cursor => cursor.intern text

/-- Add a node. -/
def addNode (kind : NodeKind) (span : Span) : Build NodeId :=
  onArena fun arena => arena.add kind span

/-- Add a list of children. -/
def addList (ids : Array NodeId) : Build NodeRange := onArena fun arena => arena.addList ids.toList

/-- Add a list of names. -/
def addNames (names : Array Name) : Build NameRange :=
  onArena fun arena => arena.addNames names.toList

/-- The span from the start of one span to the end of what was consumed last. -/
def spanFrom (start : Span) : Build Span := do
  return ⟨start.start, max (← cursor).previous.stop start.start⟩

/-- Add a node that covers everything from a start to what was consumed last. -/
def close (kind : NodeKind) (start : Span) : Build NodeId := do addNode kind (← spanFrom start)

/-- Step over one token and add a node that covers it. -/
def leaf (kind : NodeKind) : Build NodeId := do addNode kind (← advance).span

/-- The span of a node. -/
def nodeSpan (id : NodeId) : Build Span := do return (← get).arena.span id

/-- The error of finding the current token where some others were expected. -/
def unexpected (code : ErrorCode) (expected : TagSet) : Build ParseError := do
  let token ← current
  return .unexpected code expected token.tag token.span

end Build

namespace Parse

open Build

/-- Step over a token with a tag, or fail with a code. -/
def expectWith (code : ErrorCode) (tag : Tag) (construct : Construct) : Parse (Token Name) := do
  if ← check tag then advance
  else throw ((← unexpected code (.singleton tag)).within construct)

/-- Step over a token with a tag, or fail. -/
def expect (tag : Tag) (construct : Construct) : Parse (Token Name) :=
  expectWith .unexpectedToken tag construct

/-- Step over an identifier and give back its name and its span, or fail. -/
def expectIdentifier (construct : Construct) : Parse (Name × Span) := do
  let token ← current
  match token.kind with
  | .identifier name =>
    let _ ← advance
    return (name, token.span)
  | _ => throw ((← unexpected .expectedIdentifier (.singleton .identifier)).within construct)

/-- Step over a constant and give back its name, or fail. -/
def expectConstant (construct : Construct) : Parse Name := do
  match (← current).kind with
  | .constant name =>
    let _ ← advance
    return name
  | _ => throw ((← unexpected .expectedIdentifier (.singleton .constant)).within construct)

/-- Step over the `end` of a block that a keyword opened, or fail. -/
def expectEnd (opener : Tag) (span : Span) (construct : Construct) : Parse Unit := do
  if ← check .kwEnd then
    let _ ← advance
  else
    let error ← unexpected .unclosedBlock .blockEnd
    throw (((error.withFault (.unclosed opener)).openedBy opener span).within construct)

end Parse

end Vibescript
