import ScopeLang.Log

/-!
# Options of a run

What a run of the program is asked to do: where the script comes from and how
much is recorded.  A script comes from an argument, from standard input or
from a file; should several be named, the first of these wins.
-/

namespace ScopeLang

/-- What a run is asked to do. -/
structure Options where
  /-- A script given as an argument. -/
  inline : Option String := none
  /-- Whether the script is read from standard input. -/
  stdin : Bool := false
  /-- How much more than warnings is recorded. -/
  verbosity : Nat := 0
  /-- The path of a script file. -/
  file : Option String := none
deriving DecidableEq, Repr

/-- Where a script comes from. -/
inductive Origin where
  | inline (script : String)
  | standardInput
  | file (path : String)
  /-- No input was named, and the script is empty. -/
  | nowhere
deriving DecidableEq, Repr

namespace Options

/-- The origin of the script that the options name. -/
def origin (options : Options) : Origin :=
  match options.inline, options.stdin, options.file with
  | some script, _, _ => .inline script
  | none, true, _ => .standardInput
  | none, false, some path => .file path
  | none, false, none => .nowhere

/-- The name under which the script appears in messages. -/
def sourceName (options : Options) : String :=
  match options.file, options.stdin with
  | some path, _ => path
  | none, true => "<stdin>"
  | none, false => "<inline>"

/-- The most detailed level that is recorded. -/
def threshold (options : Options) : Log.Level :=
  .ofVerbosity options.verbosity

end Options

end ScopeLang
