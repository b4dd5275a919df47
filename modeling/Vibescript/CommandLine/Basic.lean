import Vibescript.CommandLine.Options
import Vibescript.Parser.Program
import Vibescript.Tree.Printer

/-!
# The command line

A command line is read into an invocation, which says what to do and which file to read. What
an invocation prints, and whether it succeeds, is a function of the text of that file.
-/
namespace Vibescript

/-- The commands that work on a file. -/
inductive FileCommand where
  /-- List the tokens. -/
  | lex
  /-- Show the syntax tree. -/
  | parse
  /-- Report the errors. -/
  | check
  deriving DecidableEq, Repr

/-- What a command line asks for. -/
inductive Invocation where
  /-- Explain how to use the program. -/
  | help
  /-- Name the version. -/
  | version
  /-- Describe an error code. -/
  | explain (code : ErrorCode)
  /-- Work on a file. -/
  | onFile (command : FileCommand) (options : CommandOptions) (path : String)
  /-- The command does not exist. -/
  | unknown (command : String)
  /-- The command line is wrong. -/
  | wrong (error : CommandError)
  deriving DecidableEq, Repr

/-- What a run of the program prints and how it ends. -/
structure Outcome where
  /-- Text for the standard output. -/
  output : String
  /-- Text for the standard error. -/
  errors : String
  /-- Whether the run succeeds. -/
  isSuccess : Bool
  deriving DecidableEq, Repr

/-- The exit status of a run. -/
def Outcome.status (outcome : Outcome) : UInt8 := if outcome.isSuccess then 0 else 1

/-- Why a file cannot be read. -/
inductive ReadFailure where
  /-- There is no such file. -/
  | notFound
  /-- Reading it is not permitted. -/
  | notPermitted
  /-- It is a directory. -/
  | isDirectory
  /-- Its bytes are no text. -/
  | notText
  /-- Another reason. -/
  | other (reason : String)
  deriving DecidableEq, Repr

/-- The reason in words. -/
def ReadFailure.reason : ReadFailure → String
  | notFound => "No such file or directory (os error 2)"
  | notPermitted => "Permission denied (os error 13)"
  | isDirectory => "Is a directory (os error 21)"
  | notText => "stream did not contain valid UTF-8"
  | other reason => reason

namespace Invocation

/-- The invocation of a command on the file that its arguments name. -/
def ofFileCommand (command : FileCommand) (arguments : List String) : Invocation :=
  let read := do
    let options ← CommandOptions.ofArguments arguments
    return (options, ← options.path)
  match read with
  | .ok (options, path) => onFile command options path
  | .error error => wrong error

/-- The invocation that describes the error code of the first argument. -/
def ofExplain : List String → Invocation
  | [] => wrong .missingPath
  | text :: _ =>
    match ErrorCode.ofText? text with
    | some code => explain code
    | none => wrong (.unknownCode text)

/-- Read a command line. -/
def ofArguments : List String → Invocation
  | [] => help
  | command :: arguments =>
    match command with
    | "lex" => ofFileCommand .lex arguments
    | "parse" => ofFileCommand .parse arguments
    | "check" => ofFileCommand .check arguments
    | "explain" | "--explain" => ofExplain arguments
    | "help" | "--help" | "-h" => help
    | "version" | "--version" | "-V" => version
    | _ => unknown command

/-- The file that an invocation reads. -/
def path? : Invocation → Option String
  | onFile _ _ path => some path
  | _ => none

/-- How to use the program. -/
def usage : String :=
  String.intercalate "\n"
    ["vibescript front-end",
      "",
      "Usage: vibec <command> [options] <file.vibe>",
      "",
      "Commands:",
      "  lex <file>           Print the token stream",
      "  parse <file>         Print the syntax tree as an S-expression",
      "  check <file>         Report syntax errors (exit 1 if any)",
      "  explain <code>       Describe an error code (e.g. E1003)",
      "  help                 Show this help message",
      "  version              Show version information",
      "",
      "Options:",
      "  --max-depth=<n>      Nesting limit (default 256)",
      "  --fail-fast          Stop at the first error",
      "  --color=<when>       auto, always, never",
      "",
      "Set VIBE_LOG (e.g. VIBE_LOG=vibe_parse=debug) to trace the front-end.",
      ""]

/-- A text with spaces after it, at least so wide. -/
def padded (width : Nat) (text : String) : String :=
  text ++ Terminal.repeated ' ' (width - text.length)

/-- A token as one line: its kind, its span and the source text under it. -/
def tokenLine (source : List Char) (token : Token Name) : String :=
  let text := Text.quote (String.ofList (Text.slice source token.span))
  s!"{padded 16 token.tag.label} {padded 10 (toString token.span)} {text}\n"

/-- Diagnostics with a closing line; nothing when there are none. -/
def report (terminal : Terminal) (diagnostics : List Diagnostic) : String :=
  if diagnostics.isEmpty then ""
  else
    let errors := diagnostics.countP Diagnostic.isError
    terminal.diagnostics diagnostics ++ Terminal.summary errors (diagnostics.length - errors)

/-- What a command prints on its standard output for a source text, and its diagnostics. -/
def FileCommand.results (command : FileCommand) (options : ParseOptions) (source : String) :
    String × List Diagnostic :=
  match command with
  | .lex =>
    let output := Vibescript.lex source
    (String.join (output.tokens.map (tokenLine source.toList)),
      output.lexer.errors.toList.map fun error => (ParseError.ofLexical error).toDiagnostic)
  | .parse =>
    let output := parseWith options source
    (output.tree.toSexp ++ "\n", output.diagnostics)
  | .check => ("", (parseWith options source).diagnostics)

/-- The outcome of an invocation, given the text of the file that it reads. The standard error
is a terminal or not, which decides about colours unless a flag does. -/
def outcome (invocation : Invocation) (content : Except ReadFailure String) (isTerminal : Bool) :
    Outcome :=
  match invocation with
  | help => ⟨usage, "", true⟩
  | version => ⟨"vibec 0.1.0\n", "", true⟩
  | explain code => ⟨code.explanation ++ "\n", "", true⟩
  | unknown command => ⟨usage, s!"Unknown command: {command}\n\n", false⟩
  | wrong error => ⟨"", s!"error: {error.message}\n", false⟩
  | onFile command options path =>
    match content with
    | .error failure =>
      ⟨"", s!"error: {(CommandError.unreadable path failure.reason).message}\n", false⟩
    | .ok source =>
      let (output, diagnostics) := FileCommand.results command options.parse source
      let terminal : Terminal :=
        { colored := options.color.enabled isTerminal
          path
          lines := .ofSource source.toList }
      ⟨output, report terminal diagnostics, diagnostics.isEmpty⟩

end Invocation

/-- The outcome of a command line, given how to read files. -/
def runCommandLine (arguments : List String) (read : String → Except ReadFailure String)
    (isTerminal : Bool) : Outcome :=
  let invocation := Invocation.ofArguments arguments
  invocation.outcome (read (invocation.path?.getD "")) isTerminal

end Vibescript
