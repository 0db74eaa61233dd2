import ScopeLang.CommandLine.Parse
import ScopeLang.Host

/-!
# The program

The whole program as a function: from the arguments, the inputs and the kind of
terminal to the exit status and the texts on standard output and standard
error.
-/

namespace ScopeLang

/-- What a call of the program leaves behind. -/
structure Outcome where
  /-- The exit status. -/
  status : Nat
  stdout : String
  stderr : String
deriving DecidableEq, Repr

namespace Program

/-- The line that reports a failure. -/
def failureLine (style : Log.Style) (failure : Failure) : String :=
  let title :=
    match style with
    | .plain => Log.Level.error.lower
    | .coloured => Log.Level.error.render .coloured
  let text :=
    match failure.render with
    | .ok text => text
    -- no failure of a run comes here: its place can be shown (`Host.exists_render_of_failed`)
    | .error _ => failure.message
  title ++ ": " ++ text ++ "\n"

/-- The outcome of a run: status 1 for a failure, and on standard error the log and
then the failure. -/
def finish (style : Log.Style) (report : Report Failure) : Outcome :=
  let log := Log.text style (report.events.map Event.record)
  match report.result with
  | .ok _ => { status := 0, stdout := report.stdout, stderr := log }
  | .error failure =>
      { status := 1, stdout := report.stdout, stderr := log ++ failureLine style failure }

/-- The outcome of a call that leads to no run: status 2 for a refusal. -/
def answer (program : String) (reply : CommandLine.Reply) : Outcome :=
  let text := reply.message .stream program
  match reply with
  | .refused _ => { status := 2, stdout := "", stderr := text }
  | _ => { status := 0, stdout := text, stderr := "" }

/-- Call the program under a name with some arguments.  The options set the level of
the log before the run begins. -/
def call (program : String) (arguments : List String) (world : World) (style : Log.Style) :
    Outcome :=
  match CommandLine.parse arguments with
  | .error reply => answer program reply
  | .ok options => finish style ((Host.ofOptions options).runAt options.threshold world).1

end Program

end ScopeLang
