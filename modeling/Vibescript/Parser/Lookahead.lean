import Vibescript.Parser.Cursor
import Vibescript.Parser.Precedence

/-!
# Readings chosen by lookahead

In three places the grammar could be read in two ways. Each is settled by looking at tokens
before any is consumed, so the parser never goes back:

- a parameter with or without a type;
- `name = require("path", as: "name")`, matched in full, is an import, and any other shape is
  an ordinary assignment;
- `rescue (Constant)` names the errors to rescue, and is no parenthesized expression.

A question stops at the first token that settles it, since every token looked at is read.
-/
namespace Vibescript

/-- A question about the tokens at a cursor. -/
abbrev Lookahead := StateM Cursor

namespace Lookahead

/-- The token so many places after the current one. -/
def token (places : Nat) : Lookahead (Token Name) := fun cursor => cursor.peek places

/-- The tag so many places after the current one. -/
def tag (places : Nat) : Lookahead Tag := do return (← token places).tag

/-- Whether a tag stands so many places after the current token. -/
def hasTag (places : Nat) (expected : Tag) : Lookahead Bool := do
  return (← tag places) == expected

/-- Whether an identifier stands so many places after the current token. -/
def hasName (places : Nat) (name : Name) : Lookahead Bool := do
  return (← token places).kind == .identifier name

/-- Ask a second question only when the first is answered with yes. -/
def andThen (first second : Lookahead Bool) : Lookahead Bool := do
  if ← first then second else return false

/-- The place just past the pieces of a string literal, so many at most. -/
def stringRest : Nat → Nat → Lookahead (Option Nat)
  | 0, _ => return none
  | count + 1, places => do
    match ← tag places with
    | .stringContent | .stringEscape => stringRest count (places + 1)
    | .stringClose => return some (places + 1)
    | _ => return none

/-- The place just past a string literal that starts at a place. -/
def stringEnd (places : Nat) : Lookahead (Option Nat) := do
  if ← hasTag places .stringOpen then
    let cursor ← get
    stringRest (cursor.tokensLeft + 1) (places + 1)
  else return none

/-- Tokens that go on with the expression before them. -/
def continuesExpression (tag : Tag) : Bool :=
  tag == .dot || tag == .leftBracket || tag == .kwDo || (InfixOp.ofTag? tag).isSome

/-- Whether a closing parenthesis stands at a place and nothing after it goes on with the
expression on the same line. -/
def closesImport (places : Nat) : Lookahead Bool := do
  if ← hasTag places .rightParen then
    let close ← token places
    let next ← token (places + 1)
    let cursor ← get
    return cursor.lineBreakBetween close.span next.span || !continuesExpression next.tag
  else return false

/-- Whether an import starts at the current token. -/
def startsImport (importName asKey : Name) : Lookahead Bool :=
  andThen (hasTag 0 .identifier) <| andThen (hasTag 1 .assign) <|
    andThen (hasName 2 importName) <| andThen (hasTag 3 .leftParen) do
      match ← stringEnd 4 with
      | none => return false
      | some places =>
        if ← hasTag places .comma then
          andThen (hasName (places + 1) asKey) <| andThen (hasTag (places + 2) .colon) do
            match ← stringEnd (places + 3) with
            | none => return false
            | some places => closesImport places
        else closesImport places

/-- The readings of a parameter. -/
inductive ParameterShape where
  /-- A name. -/
  | simple
  /-- A name with a type. -/
  | typed
  /-- An instance variable. -/
  | instanceVariable
  deriving DecidableEq, Repr

/-- The parameter that starts at the current token, if one does. -/
def parameter? : Lookahead (Option ParameterShape) := do
  match ← tag 0 with
  | .identifier =>
    match ← tag 1 with
    | .colon | .symbol => return some .typed
    | _ => return some .simple
  | .instanceVariable => return some .instanceVariable
  | _ => return none

/-- Whether the tokens just after `rescue` name the errors to rescue. -/
def isRescueFilter : Lookahead Bool :=
  andThen (hasTag 0 .leftParen) <| andThen (hasTag 1 .constant) (hasTag 2 .rightParen)

/-- Whether a key of an argument starts at the current token: an identifier with a colon, or
with a symbol, whose colon is then the key's. -/
def isKeyword : Lookahead Bool := do
  match ← tag 1 with
  | .colon | .symbol => return true
  | _ => return false

/-- Whether the current token qualifies a method name: `self` with a point. -/
def isSelfQualifier : Lookahead Bool := andThen (hasTag 0 .kwSelf) (hasTag 1 .dot)

end Lookahead

end Vibescript
