import Vibescript.Diagnostic.Terminal
import Vibescript.Parser.Basic

/-!
# Command-line options

The flags and paths that every command takes, and the errors that a command line can have
before any source text is read.
-/
namespace Vibescript

/-- What is wrong with a command line or the file it names. -/
inductive CommandError where
  /-- A flag that does not exist. -/
  | unknownFlag (flag : String)
  /-- A value that a flag does not take. -/
  | invalidValue (flag value : String)
  /-- No file is named. -/
  | missingPath
  /-- A file cannot be read. -/
  | unreadable (path reason : String)
  /-- An error code that does not exist. -/
  | unknownCode (text : String)
  deriving DecidableEq, Repr

/-- The error in words. -/
def CommandError.message : CommandError → String
  | unknownFlag flag => s!"unknown option `{flag}`"
  | invalidValue flag value => s!"invalid value `{value}` for `{flag}`"
  | missingPath => "missing file path"
  | unreadable path reason => s!"cannot read `{path}`: {reason}"
  | unknownCode text => s!"unknown error code `{text}`"

/-- The flags and paths of a command. -/
structure CommandOptions where
  /-- How to parse. -/
  parse : ParseOptions
  /-- When to use colours. -/
  color : ColorMode
  /-- The arguments that are no flags, in order. -/
  paths : List String
  deriving DecidableEq, Repr

namespace CommandOptions

/-- No flags and no paths. -/
def none : CommandOptions := ⟨.usual, .auto, []⟩

/-- The rest of an argument that starts with a flag. -/
def valueOf? (flag argument : String) : Option String :=
  (flag.toList.isPrefixOf? argument.toList).map String.ofList

/-- A nesting limit: decimal digits below the limit of 32 bits, after a plus sign or not. -/
def depth? (text : String) : Option Nat :=
  let digits :=
    match text.toList with
    | '+' :: rest => rest
    | all => all
  if digits.isEmpty || !digits.all Char.isDigit then Option.none
  else
    let value := Nat.ofDigitChars 10 digits 0
    if value < UInt32.size then some value else Option.none

/-- Whether an argument looks like a flag: it starts with a dash and is more than one. -/
def isFlag (argument : String) : Bool :=
  argument.toList.head? == some '-' && argument != "-"

/-- Take one argument into account. -/
def add (options : CommandOptions) (argument : String) : Except CommandError CommandOptions :=
  match valueOf? "--max-depth=" argument, valueOf? "--color=" argument with
  | some value, _ =>
    match depth? value with
    | some maxDepth => .ok { options with parse := { options.parse with maxDepth } }
    | Option.none => .error (.invalidValue "--max-depth" value)
  | Option.none, some value =>
    match ColorMode.ofFlag? value with
    | some color => .ok { options with color }
    | Option.none => .error (.invalidValue "--color" value)
  | Option.none, Option.none =>
    if argument = "--fail-fast" then
      .ok { options with parse := { options.parse with recovery := .failFast } }
    else if isFlag argument then .error (.unknownFlag argument)
    else .ok { options with paths := options.paths ++ [argument] }

/-- The options of the arguments after the name of the command. The first wrong argument is
reported. -/
def ofArguments (arguments : List String) : Except CommandError CommandOptions :=
  arguments.foldlM add none

/-- The file that a command works on: the first path. -/
def path (options : CommandOptions) : Except CommandError String :=
  match options.paths with
  | [] => .error .missingPath
  | path :: _ => .ok path

end CommandOptions

end Vibescript
