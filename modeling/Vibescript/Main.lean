import Vibescript.CommandLine.Basic

/-!
# The program

Reading the file that an invocation names, and writing what it prints.
-/
namespace Vibescript

/-- Why an attempt to read a file failed. -/
def ReadFailure.ofError : IO.Error → ReadFailure
  | .noFileOrDirectory .. => .notFound
  | .permissionDenied .. => .notPermitted
  | .inappropriateType .. => .isDirectory
  | error => .other (toString error)

/-- Read a file as text. -/
def readText (path : String) : IO (Except ReadFailure String) := do
  try
    let bytes ← IO.FS.readBinFile path
    match String.fromUTF8? bytes with
    | some text => return .ok text
    | none => return .error .notText
  catch error => return .error (.ofError error)

end Vibescript

open Vibescript in
/-- Run a command line. -/
def main (arguments : List String) : IO UInt32 := do
  let invocation := Invocation.ofArguments arguments
  let content ←
    match invocation.path? with
    | some path => readText path
    | none => pure (.ok "")
  let stdout ← IO.getStdout
  let stderr ← IO.getStderr
  let outcome := invocation.outcome content (← stderr.isTty)
  stdout.putStr outcome.output
  stderr.putStr outcome.errors
  return outcome.status.toUInt32
