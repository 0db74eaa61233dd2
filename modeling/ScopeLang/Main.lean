import ScopeLang.Program

/-!
# The command

Reads what the options name, calls the program on it and writes the outcome.
-/

namespace ScopeLang.Command

/-- The read error for a failure of the system, which has a number and words. -/
def readError : IO.Error → ReadError
  | .noFileOrDirectory _ code words | .inappropriateType _ code words
  | .permissionDenied _ code words | .invalidArgument _ code words
  | .resourceExhausted _ code words | .noSuchThing _ code words
  | .interrupted _ code words | .alreadyExists _ code words
  | .resourceBusy code words | .hardwareFault code words
  | .unsupportedOperation code words | .otherError code words =>
      .other (ReadError.systemMessage words code.toNat)
  | error => .other error.toString

/-- The bytes that are read, or why they cannot be. -/
def attempt (read : IO ByteArray) : IO (Except ReadError ByteArray) := do
  try return .ok (← read)
  catch error => return .error (readError error)

/-- The contents of a file. -/
def readFile (path : String) : IO (Except ReadError ByteArray) := do
  if '\x00' ∈ path.toList then return .error .nulInPath
  attempt do (← IO.FS.Handle.mk path .read).readBinToEnd

/-- The world as far as an origin needs it. -/
def survey (origin : Origin) : IO World := do
  match origin with
  | .standardInput =>
      let contents ← attempt do (← IO.getStdin).readBinToEnd
      return { stdin := contents, readFile := fun _ => .error .notFound }
  | .file path =>
      let contents ← readFile path
      return { stdin := .ok .empty, readFile := fun _ => contents }
  | _ => return { stdin := .ok .empty, readFile := fun _ => .error .notFound }

end ScopeLang.Command

open ScopeLang in
/-- Run the command and exit with its status. -/
def main (arguments : List String) : IO UInt32 := do
  let program := CommandLine.programName (← IO.appPath).toString
  let origin :=
    match CommandLine.parse arguments with
    | .ok options => options.origin
    | .error _ => .nowhere
  let world ← Command.survey origin
  let errors ← IO.getStderr
  let style := if ← errors.isTty then .coloured else .plain
  let outcome := Program.call program arguments world style
  IO.print outcome.stdout
  errors.putStr outcome.stderr
  return outcome.status.toUInt32
