import Vibescript.Diagnostic.Basic
import Vibescript.Text.Quoted

/-!
# Lexical errors

What can be wrong with source text below the level of tokens. Reading goes on after every one
of these errors.
-/
namespace Vibescript

/-- The four ways in which source text is not a sequence of tokens. -/
inductive LexicalFault where
  /-- A character that starts no token. -/
  | unrecognizedCharacter (char : Char)
  /-- A string literal that runs to the end of the source. -/
  | unterminatedString
  /-- A backslash before a character that has no escape. -/
  | invalidEscape (char : Char)
  /-- An integer literal beyond 64 bits. -/
  | integerOverflow
  deriving DecidableEq, Repr

namespace LexicalFault

/-- The fault in words. -/
def message : LexicalFault → String
  | unrecognizedCharacter char => s!"unrecognized character `{Text.showChar char}`"
  | unterminatedString => "unterminated string literal"
  | invalidEscape char => s!"invalid escape sequence `\\{Text.showChar char}`"
  | integerOverflow => "integer literal is too large"

/-- The code of a fault. -/
def code : LexicalFault → ErrorCode
  | unrecognizedCharacter _ => .unrecognizedCharacter
  | unterminatedString => .unterminatedString
  | invalidEscape _ => .invalidEscape
  | integerOverflow => .integerOverflow

/-- What is said at the place of a fault. -/
def labelMessage : LexicalFault → String
  | unrecognizedCharacter _ => "not valid here"
  | unterminatedString => "string starts here"
  | invalidEscape _ => "unknown escape"
  | integerOverflow => "does not fit in 64 bits"

/-- Advice about a fault. -/
def note? : LexicalFault → Option String
  | unrecognizedCharacter _ => none
  | unterminatedString => "add a closing `\"` before the end of the file"
  | invalidEscape _ => "valid escapes are `\\n`, `\\r`, `\\t`, `\\\\` and `\\\"`"
  | integerOverflow => "integer literals must be at most 18446744073709551615"

end LexicalFault

/-- A fault and where it stands. -/
structure LexicalError where
  /-- What is wrong. -/
  fault : LexicalFault
  /-- Where it is wrong. -/
  span : Span
  deriving DecidableEq, Repr

namespace LexicalError

/-- The error as one line. -/
protected def toString (error : LexicalError) : String := s!"{error.fault.message} at {error.span}"

instance : ToString LexicalError := ⟨LexicalError.toString⟩

/-- The diagnostic of an error. -/
def toDiagnostic (error : LexicalError) : Diagnostic :=
  let diagnostic :=
    ((Diagnostic.ofCode error.fault.code .error).withMessage error.fault.message).withLabel
      ⟨error.span, error.fault.labelMessage, true⟩
  match error.fault.note? with
  | some note => diagnostic.withNote note
  | none => diagnostic

end LexicalError

end Vibescript
