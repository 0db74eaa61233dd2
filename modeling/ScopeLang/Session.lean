import ScopeLang.Process

/-!
# Sessions

A session runs one source and can be run again: the cursor stays where the last
run stopped, and scopes that a fault left open stay open.  Each run opens a
scope of its own before the first statement and closes one after the last, and
it succeeds if no scope is open then.
-/

namespace ScopeLang

/-- What a run shows to the outside. -/
structure Report (ε : Type) where
  /-- Whether the run succeeded. -/
  result : Except ε Unit
  /-- The text that went to standard output. -/
  stdout : String
  /-- What there is to record, in order. -/
  events : List Event

/-- A source being run. -/
structure Session where
  cursor : Cursor
  memory : Memory
  capture : Capture
deriving DecidableEq

namespace Session

/-- A session at the beginning of a source, with no scope open. -/
def ofSource (source : String) : Session where
  cursor := .ofSource source
  memory := .empty
  capture := .off

/-- Begin to capture what the session prints. -/
def startCapture (session : Session) : Session :=
  { session with capture := session.capture.start }

/-- Hand out what was captured and stop capturing. -/
def takeCapture (session : Session) : Option String × Session :=
  (session.capture.take.1, { session with capture := session.capture.take.2 })

/-- The process of a session that is run: nothing is printed or recorded yet. -/
def start (session : Session) : Process where
  cursor := session.cursor
  memory := session.memory
  capture := session.capture
  stdout := ""
  events := []

/-- The session that a process leaves behind. -/
def ofProcess (process : Process) : Session where
  cursor := process.cursor
  memory := process.memory
  capture := process.capture

/-- Run the source from where the last run stopped, with a log at some level. -/
def runAt (level : Log.Level) (session : Session) : Report Fault × Session :=
  let ran := Process.script.runAt level session.start
  ({ result := ran.1, stdout := ran.2.stdout, events := ran.2.events }, ofProcess ran.2)

/-- Run the source and record everything. -/
def run (session : Session) : Report Fault × Session :=
  session.runAt .trace

end Session

/-- Run a source once and give the lines that it prints, or its fault, together
with the events of the run. -/
def evaluate (source : String) : Except Fault (List String) × List Event :=
  let ran := (Session.ofSource source).startCapture.run
  let printed := ran.2.takeCapture.1.getD ""
  (ran.1.result.map fun _ => (Text.linesOf printed.toList).map String.ofList, ran.1.events)

end ScopeLang
