import ScopeLang.Text.Control

/-!
# Replies of the command line

Where the arguments do not lead to a run, the program answers with its help, its
version or a refusal.  A refusal says what is wrong, may give a tip and the
usage, and ends with a pointer to the help.  Arguments and the program's name
appear in a reply without control characters and sequences.  What an unknown option
may have been meant for is not looked into: it gets the same tip however much it
resembles one that exists.
-/

namespace ScopeLang.CommandLine

/-- The three ways to name a script. -/
inductive Input where
  | inline (script : String)
  | stdin
  | file (path : String)
deriving DecidableEq, Repr

/-- The options without a value. -/
inductive Switch where
  | stdin
  | verbose
  | help
  | version
deriving DecidableEq, Repr

/-- The usage that a refusal shows. -/
inductive Usage where
  /-- All that can be given. -/
  | full
  /-- The inputs to choose from, after the other switches that were given. -/
  | brief (given : List Switch)
  /-- The same, and then all arguments to choose from. -/
  | extended (given : List Switch)
deriving DecidableEq, Repr

/-- Why arguments are refused. -/
inductive Refusal where
  /-- No input was named. -/
  | noInput (usage : Usage)
  /-- Several inputs were named, the first of them and then the others. -/
  | conflict (first : Input) (others : List Input) (usage : Usage)
  /-- An input was named in a way in which one was named before. -/
  | repeated (input : Input)
  /-- An option that does not exist. -/
  | unknownOption (option : String) (usage : Usage)
  /-- An argument for which there is no place. -/
  | surplus (argument : String)
  /-- The inline script is missing. -/
  | noValue
  /-- A value for an option that takes none. -/
  | valueRefused (switch : Switch) (value : String) (usage : Usage)
deriving DecidableEq, Repr

/-- What the program answers with in place of a run. -/
inductive Reply where
  | help
  | version
  | refused (reason : Refusal)
deriving DecidableEq, Repr

/-- The option for an inline script as it is written in messages. -/
def inlineLabel : String :=
  "--inline <INLINE>"

/-- An input as it is written in messages. -/
def Input.label : Input → String
  | .inline _ => inlineLabel
  | .stdin => "--stdin"
  | .file _ => "[FILE]"

/-- A switch as it is written in messages. -/
def Switch.label : Switch → String
  | .stdin => "--stdin"
  | .verbose => "--verbose..."
  | .help => "--help"
  | .version => "--version"

/-- The choice of inputs as it is written in messages. -/
def inputChoice : String :=
  "<FILE|" ++ inlineLabel ++ "|--stdin>"

/-- The choice of all arguments as it is written in messages. -/
def argumentChoice : String :=
  "<" ++ inlineLabel ++ "|--stdin|--verbose...|FILE>"

/-- Switches as they are written in a usage line. -/
def switchList (switches : List Switch) : String :=
  String.join (switches.map fun switch => " " ++ switch.label)

/-- A usage line for the program's name. -/
def Usage.line (program : String) : Usage → String
  | .full => "Usage: " ++ program ++ " [OPTIONS] " ++ inputChoice
  | .brief given => "Usage: " ++ program ++ switchList given ++ " " ++ inputChoice
  | .extended given =>
      "Usage: " ++ program ++ switchList given ++ " " ++ inputChoice ++ " " ++ argumentChoice

namespace Refusal

/-- What is wrong, where `shown` says how an argument is shown. -/
def text (shown : String → String) : Refusal → String
  | .noInput _ =>
      "the following required arguments were not provided:\n  " ++ inputChoice
  | .conflict first others _ =>
      "the argument '" ++ first.label ++ "' cannot be used with"
        ++ match others with
          | [other] => " '" ++ other.label ++ "'"
          | others => ":" ++ String.join (others.map fun other => "\n  " ++ other.label)
  | .repeated input =>
      "the argument '" ++ input.label ++ "' cannot be used multiple times"
  | .unknownOption option _ => "unexpected argument '" ++ shown option ++ "' found"
  | .surplus argument => "unexpected argument '" ++ shown argument ++ "' found"
  | .noValue =>
      "a value is required for '" ++ inlineLabel ++ "' but none was supplied"
  | .valueRefused switch value _ =>
      "unexpected value '" ++ shown value ++ "' for '" ++ switch.label
        ++ "' found; no more were expected"

/-- How to mend it, where that is known.  No option that resembles an unknown one is
suggested. -/
def tip? (shown : String → String) : Refusal → Option String
  | .unknownOption option _ =>
      some ("  tip: to pass '" ++ shown option ++ "' as a value, use '-- " ++ shown option ++ "'")
  | _ => none

/-- The usage to show, if any. -/
def usage? : Refusal → Option Usage
  | .noInput usage => some usage
  | .conflict _ _ usage => some usage
  | .repeated _ => some .full
  | .unknownOption _ usage => some usage
  | .surplus _ => some .full
  | .noValue => none
  | .valueRefused _ _ usage => some usage

/-- A paragraph with an empty line after it, or nothing. -/
def paragraph : Option String → String
  | some text => text ++ "\n\n"
  | none => ""

/-- The whole message of a refusal: what is wrong, the tip, the usage and where
to find the help. -/
def message (shown : String → String) (program : String) (refusal : Refusal) : String :=
  paragraph (some ("error: " ++ refusal.text shown))
    ++ paragraph (refusal.tip? shown)
    ++ paragraph (refusal.usage?.map (·.line (shown program)))
    ++ "For more information, try '--help'.\n"

end Refusal

/-- The program's name where the command line does not tell it. -/
def defaultName : String :=
  "scopescript"

/-- The version of the program. -/
def versionText : String :=
  defaultName ++ " 0.1.0\n"

/-- The help of the program. -/
def helpText (program : String) : String :=
  Usage.full.line program ++ "\n\n"
    ++ "Arguments:\n"
    ++ "  [FILE]  Script file to be run\n\n"
    ++ "Options:\n"
    ++ "  -i, --inline <INLINE>  Optionally read program as an arg\n"
    ++ "  -s, --stdin            Optionally read program from stdin\n"
    ++ "  -v, --verbose...       Log more, repeat for even more "
    ++ "(-v info, -vv debug, -vvv trace)\n"
    ++ "  -h, --help             Print help\n"
    ++ "  -V, --version          Print version\n"

/-- The text of a reply. -/
def Reply.message (stripping : Text.Stripping) (program : String) : Reply → String
  | .help => helpText (Text.strip stripping program)
  | .version => versionText
  | .refused reason => reason.message (Text.strip stripping) program

end ScopeLang.CommandLine
