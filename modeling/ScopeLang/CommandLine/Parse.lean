import ScopeLang.CommandLine.Options
import ScopeLang.CommandLine.Reply

/-!
# Reading the command line

Arguments are read from left to right, and the first that is wrong decides.
Help and version act as soon as they are met; whether exactly one input was
named is looked at last.

An input that is an argument of its own, a file or a script after `-i` or
`--inline`, is held until the next option, file or the end settles it.  A
complaint about something that is no option at all, or about a value that is
not wanted, comes before a complaint about what is held.
-/

namespace ScopeLang.CommandLine

/-- An argument by its form. -/
inductive Argument where
  /-- Two hyphens: all that follows is plain. -/
  | separator
  /-- A long option, with the text after its equals sign. -/
  | long (name : String) (value : Option String)
  /-- Short options behind one hyphen. -/
  | cluster (letters : List Char)
  /-- Anything else, a lone hyphen included. -/
  | plain (text : String)
deriving DecidableEq, Repr

/-- The form of an argument. -/
def Argument.ofText (text : String) : Argument :=
  match text.toList with
  | ['-', '-'] => .separator
  | '-' :: '-' :: body =>
      match body.dropWhile (· ≠ '=') with
      | [] => .long (String.ofList body) none
      | _ :: value =>
          .long (String.ofList (body.takeWhile (· ≠ '='))) (some (String.ofList value))
  | '-' :: letter :: letters => .cluster (letter :: letters)
  | _ => .plain text

/-- The switch with a long name. -/
def Switch.ofName? (name : String) : Option Switch :=
  if name = "stdin" then some .stdin
  else if name = "verbose" then some .verbose
  else if name = "help" then some .help
  else if name = "version" then some .version
  else none

/-- The switch with a short name. -/
def Switch.ofLetter? (letter : Char) : Option Switch :=
  match letter with
  | 's' => some .stdin
  | 'v' => some .verbose
  | 'h' => some .help
  | 'V' => some .version
  | _ => none

/-- The state of an input that is given as an argument of its own. -/
inductive Pending where
  /-- There is none. -/
  | idle
  /-- The option for an inline script was met and the script is still to come. -/
  | awaiting
  /-- The input was met and is not yet settled. -/
  | holding (input : Input)
deriving DecidableEq, Repr

/-- The largest verbosity that is told apart. -/
def maxVerbosity : Nat := 255

/-- Whether two inputs are named in the same way. -/
def Input.alike : Input → Input → Bool
  | .inline _, .inline _ => true
  | .stdin, .stdin => true
  | .file _, .file _ => true
  | _, _ => false

/-- Whether an input is a file. -/
def Input.isFile : Input → Bool
  | .file _ => true
  | _ => false

/-- Whether a file is held. -/
def Pending.isFile : Pending → Bool
  | .holding input => input.isFile
  | _ => false

/-- The script of an inline input. -/
def Input.script? : Input → Option String
  | .inline script => some script
  | _ => none

/-- The path of a file. -/
def Input.path? : Input → Option String
  | .file path => some path
  | _ => none

/-- The options with all that was given. -/
def optionsOf (inputs : List Input) (verbosity : Nat) : Options where
  inline := inputs.findSome? Input.script?
  stdin := inputs.contains .stdin
  verbosity := verbosity
  file := inputs.findSome? Input.path?

/-- How far the command line was read. -/
structure Progress where
  /-- The inputs that are settled, in order. -/
  given : List Input := []
  /-- How often more verbosity was asked for. -/
  verbosity : Nat := 0
  pending : Pending := .idle
  /-- Whether all that follows is plain. -/
  trailing : Bool := false
deriving DecidableEq, Repr

namespace Progress

/-- Whether an input is settled that is named in the way of the given one. -/
def has (progress : Progress) (input : Input) : Bool :=
  progress.given.any (·.alike input)

/-- Take an input as settled. -/
def give (progress : Progress) (input : Input) : Except Reply Progress :=
  if progress.has input then .error (.refused (.repeated input))
  else .ok { progress with given := progress.given ++ [input] }

/-- Settle an input that is awaited or held. -/
def settle (progress : Progress) : Except Reply Progress :=
  match progress.pending with
  | .idle => .ok progress
  | .awaiting => .error (.refused .noValue)
  | .holding input => { progress with pending := .idle }.give input

/-- The inputs that a complaint about an unknown option takes into account: those
that are settled, with the one that is held.  One that repeats another cancels it. -/
def described (progress : Progress) : List Input :=
  match progress.pending with
  | .holding input =>
      if progress.has input then progress.given.filter fun other => !other.alike input
      else progress.given ++ [input]
  | _ => progress.given

/-- The switches that were given, apart from the one that is an input. -/
def switches (progress : Progress) : List Switch :=
  if progress.verbosity = 0 then [] else [.verbose]

/-- The usage to show at the end. -/
def usage (progress : Progress) : Usage :=
  .brief progress.switches

/-- The usage to show where an option is unknown: brief once anything was given. -/
def usageUnknown (progress : Progress) : Usage :=
  if progress.described.isEmpty && progress.switches.isEmpty then .full else progress.usage

/-- The usage to show where a switch has a value.  The switch itself is shown
where the choices behind it do not name it. -/
def usageValue (progress : Progress) (switch : Switch) : Usage :=
  if progress.given.isEmpty && progress.switches.isEmpty then
    .brief ([switch].filter (· ≠ .stdin))
  else .extended ([switch].filter fun switch => switch ≠ .stdin ∧ switch ≠ .verbose)

/-- Throw a switch. -/
def throwSwitch (progress : Progress) (switch : Switch) : Except Reply Progress := do
  let settled ← progress.settle
  match switch with
  | .stdin => settled.give .stdin
  | .verbose => .ok { settled with verbosity := min maxVerbosity (settled.verbosity + 1) }
  | .help => .error .help
  | .version => .error .version

/-- Read a long option. -/
def readLong (progress : Progress) (name : String) (value : Option String) :
    Except Reply Progress :=
  if name = "inline" then do
    let settled ← progress.settle
    match value with
    | some script => settled.give (.inline script)
    | none => .ok { settled with pending := .awaiting }
  else
    match Switch.ofName? name, value with
    | some switch, none => progress.throwSwitch switch
    | some switch, some value =>
        .error (.refused (.valueRefused switch value (progress.usageValue switch)))
    | none, _ => .error (.refused (.unknownOption ("--" ++ name) progress.usageUnknown))

/-- Read short options.  What follows the letter of the inline script is the
script, without an equals sign in front. -/
def readCluster (progress : Progress) : List Char → Except Reply Progress
  | [] => .ok progress
  | 'i' :: rest => do
      let settled ← progress.settle
      match rest with
      | [] => .ok { settled with pending := .awaiting }
      | '=' :: script => settled.give (.inline (String.ofList script))
      | script => settled.give (.inline (String.ofList script))
  | letter :: rest =>
      match Switch.ofLetter? letter with
      | some switch => do (← progress.throwSwitch switch).readCluster rest
      | none => .error (.refused (.unknownOption (String.ofList ['-', letter]) .full))

/-- Whether a path was already met. -/
def hasPath (progress : Progress) : Bool :=
  progress.given.any (·.isFile) || progress.pending.isFile

/-- Take an argument as the path of the script file. -/
def readPath (progress : Progress) (path : String) : Except Reply Progress :=
  if progress.hasPath then .error (.refused (.surplus path))
  else do return { ← progress.settle with pending := .holding (.file path) }

/-- Read one more argument. -/
def read (progress : Progress) (text : String) : Except Reply Progress :=
  if progress.trailing then progress.readPath text
  else
    match Argument.ofText text with
    | .separator => .ok { progress with trailing := true }
    | .long name value => progress.readLong name value
    | .cluster letters => progress.readCluster letters
    | .plain text =>
        match progress.pending with
        | .awaiting => .ok { progress with pending := .holding (.inline text) }
        | _ => progress.readPath text

/-- Exactly one input must be named. -/
def check (progress : Progress) : Except Reply Unit :=
  match progress.given with
  | [] => .error (.refused (.noInput progress.usage))
  | [_] => .ok ()
  | first :: others => .error (.refused (.conflict first others progress.usage))

/-- The options that were asked for, once all arguments are read. -/
def finish (progress : Progress) : Except Reply Options := do
  let settled ← progress.settle
  settled.check
  return optionsOf settled.given settled.verbosity

end Progress

/-- Read the arguments that follow the program's name. -/
def parse (arguments : List String) : Except Reply Options := do
  (← arguments.foldlM Progress.read {}).finish

/-- The program's name: the last component of the path by which it was called,
if that names anything. -/
def programName (path : String) : String :=
  let components := (path.toList.splitOn '/').filter fun part => part ≠ [] ∧ part ≠ ['.']
  match components.getLast? with
  | none => defaultName
  | some ['.', '.'] => defaultName
  | some name => String.ofList name

/-- Read a whole command line, the program's name included.  A reply comes with
the name that it is to show. -/
def parseCall : List String → Except (Reply × String) Options
  | [] => (parse []).mapError (·, defaultName)
  | path :: arguments => (parse arguments).mapError (·, programName path)

/-- Read a whole command line, with a reply as its text. -/
def tryParse (arguments : List String) : Except String Options :=
  (parseCall arguments).mapError fun answered => answered.1.message .whole answered.2

end ScopeLang.CommandLine
