import Vibescript.Diagnostic.Basic
import Vibescript.Diagnostic.LineTable

/-!
# Diagnostics for a terminal

A diagnostic is shown with the source lines of its labels and a row of markers under each:

    error[E1003]: expected `end` to close `if`
      --> main.vibe:3:1
       |
     3 | puts(x)
       | ^ reached end of input

Colour is a matter of ANSI escapes around some of the words.
-/
namespace Vibescript

/-- When colours are used. -/
inductive ColorMode where
  /-- On a terminal. -/
  | auto
  /-- Everywhere. -/
  | always
  /-- Nowhere. -/
  | never
  deriving DecidableEq, Repr

/-- Whether a mode uses colours. -/
def ColorMode.enabled (mode : ColorMode) (isTerminal : Bool) : Bool :=
  match mode with
  | auto => isTerminal
  | always => true
  | never => false

/-- Read the value of a colour flag. -/
def ColorMode.ofFlag? : String → Option ColorMode
  | "auto" => some auto
  | "always" => some always
  | "never" => some never
  | _ => none

/-- How words are set off. -/
inductive Paint where
  | error | warning | note | bold | related
  deriving DecidableEq, Repr

/-- The escape that starts a paint. -/
def Paint.escape : Paint → String
  | error => "\x1b[1;31m"
  | warning => "\x1b[1;33m"
  | note => "\x1b[1;36m"
  | bold => "\x1b[1m"
  | related => "\x1b[1;34m"

/-- The escape that ends every paint. -/
def Paint.reset : String := "\x1b[0m"

/-- The paint of a severity. -/
def Severity.paint : Severity → Paint
  | error => .error
  | warning => .warning
  | note => .note

/-- Where and how the diagnostics of one source file are shown. -/
structure Terminal where
  /-- Whether colours are used. -/
  colored : Bool
  /-- The name of the source file. -/
  path : String
  /-- The lines of the source file. -/
  lines : LineTable

namespace Terminal

/-- A character repeated. -/
def repeated (char : Char) (count : Nat) : String := String.ofList (List.replicate count char)

/-- A text in a paint. -/
def painted (terminal : Terminal) (paint : Paint) (text : String) : String :=
  if terminal.colored then paint.escape ++ text ++ Paint.reset else text

/-- Number of markers under a label: as many as the span has characters when it ends further
right on the line it starts on, else one. -/
def markerWidth (start stop : Position) : Nat :=
  if stop.line = start.line ∧ start.column < stop.column then stop.column - start.column else 1

/-- The source line of a label with the markers and the message under it. -/
def snippet (terminal : Terminal) (label : Label) : String :=
  let start := terminal.lines.position label.span.start
  let stop := terminal.lines.position label.span.stop
  let text := String.ofList (terminal.lines.lineText start.line)
  let number := toString start.line
  let gutter := repeated ' ' number.length ++ " |"
  let marker := if label.isPrimary then '^' else '-'
  let markers := repeated marker (markerWidth start stop) ++ " " ++ label.message
  let paint := if label.isPrimary then Paint.error else Paint.related
  gutter ++ "\n" ++
    number ++ " |" ++ (if text.isEmpty then "" else " " ++ text) ++ "\n" ++
    gutter ++ " " ++ repeated ' ' (start.column - 1) ++ terminal.painted paint markers ++ "\n"

/-- A label: where it points, then its snippet. -/
def label (terminal : Terminal) (label : Label) : String :=
  let start := terminal.lines.position label.span.start
  let pointer := if label.isPrimary then "-->" else ":::"
  s!"  {pointer} {terminal.path}:{start.line}:{start.column}\n" ++ terminal.snippet label

/-- A diagnostic with everything known about it, and an empty line after it. -/
def diagnostic (terminal : Terminal) (diagnostic : Diagnostic) : String :=
  let severity := terminal.painted diagnostic.severity.paint diagnostic.severity.text
  let code := terminal.painted .bold s!"[{diagnostic.code}]"
  let expected :=
    match diagnostic.expectedSummary? with
    | some summary => s!"   = expected {summary}\n"
    | none => ""
  severity ++ code ++ ": " ++ diagnostic.message ++ "\n" ++
    String.join (diagnostic.labels.map terminal.label) ++ expected ++
    String.join (diagnostic.notes.map fun note => s!"   = note: {note}\n") ++ "\n"

/-- A count with its noun, as many as there are; nothing for none. -/
def counted (noun : String) (count : Nat) : List String :=
  if count = 0 then [] else [s!"{count} {noun}" ++ (if count = 1 then "" else "s")]

/-- The closing line, left out when there is nothing to count. -/
def summary (errors warnings : Nat) : String :=
  match counted "error" errors ++ counted "warning" warnings with
  | [] => ""
  | parts => String.intercalate ", " parts ++ " emitted\n"

/-- Every diagnostic in order. -/
def diagnostics (terminal : Terminal) (diagnostics : List Diagnostic) : String :=
  String.join (diagnostics.map terminal.diagnostic)

end Terminal

end Vibescript
