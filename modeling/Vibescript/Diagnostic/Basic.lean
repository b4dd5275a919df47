import Vibescript.Diagnostic.Code
import Vibescript.Span
import Vibescript.Token.Tag

/-!
# Diagnostics

A diagnostic is one reportable problem: a message with labelled places in the source, the
tokens that would have been accepted, and notes.
-/
namespace Vibescript

/-- How grave a diagnostic is. -/
inductive Severity where
  /-- The program is refused. -/
  | error
  /-- The program is doubtful. -/
  | warning
  /-- Information only. -/
  | note
  deriving DecidableEq, Repr

/-- The word for a severity. -/
def Severity.text : Severity → String
  | error => "error"
  | warning => "warning"
  | note => "note"

instance : ToString Severity := ⟨Severity.text⟩

/-- A place in the source with a short message under it. -/
structure Label where
  /-- The place. -/
  span : Span
  /-- What is said about it. -/
  message : String
  /-- Whether the place is the problem itself, and not one related to it. -/
  isPrimary : Bool
  deriving DecidableEq, Repr

/-- One reportable problem. -/
structure Diagnostic where
  /-- What kind of problem it is. -/
  code : ErrorCode
  /-- How grave it is. -/
  severity : Severity
  /-- The problem in words. -/
  message : String
  /-- Places, in the order they are shown. -/
  labels : List Label
  /-- Tokens that would have been accepted at the first place. -/
  expected : List Tag
  /-- Further remarks. -/
  notes : List String
  deriving DecidableEq, Repr

namespace Diagnostic

/-- A bare diagnostic whose message is the description of its code. -/
def ofCode (code : ErrorCode) (severity : Severity) : Diagnostic :=
  { code, severity, message := code.description, labels := [], expected := [], notes := [] }

/-- Replace the message. -/
def withMessage (diagnostic : Diagnostic) (message : String) : Diagnostic :=
  { diagnostic with message }

/-- Add a label after the others. -/
def withLabel (diagnostic : Diagnostic) (label : Label) : Diagnostic :=
  { diagnostic with labels := diagnostic.labels ++ [label] }

/-- Add accepted tokens after the others. -/
def withExpected (diagnostic : Diagnostic) (expected : List Tag) : Diagnostic :=
  { diagnostic with expected := diagnostic.expected ++ expected }

/-- Add a note after the others. -/
def withNote (diagnostic : Diagnostic) (note : String) : Diagnostic :=
  { diagnostic with notes := diagnostic.notes ++ [note] }

/-- The place of the problem itself: the first primary label. -/
def primarySpan? (diagnostic : Diagnostic) : Option Span :=
  (diagnostic.labels.find? (·.isPrimary)).map (·.span)

/-- Whether the program is refused for this. -/
def isError (diagnostic : Diagnostic) : Bool := diagnostic.severity == .error

/-- The accepted tokens as prose, if any are known. -/
def expectedSummary? (diagnostic : Diagnostic) : Option String :=
  match diagnostic.expected.map Tag.description with
  | [] => none
  | [only] => some only
  | many => some ("one of " ++ String.intercalate ", " many)

/-- The diagnostic as one line without source text. -/
protected def toString (diagnostic : Diagnostic) : String :=
  let head := s!"{diagnostic.severity}[{diagnostic.code}]: {diagnostic.message}"
  match diagnostic.primarySpan? with
  | some span => s!"{head} at {span}"
  | none => head

instance : ToString Diagnostic := ⟨Diagnostic.toString⟩

end Diagnostic

end Vibescript
