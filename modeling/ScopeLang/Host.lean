import ScopeLang.Session
import ScopeLang.World

/-!
# Hosts

A host runs the script that its options name.  Each run reads the script anew
and executes it in a session of its own, which captures its text if the host
does; only captured text is carried from one run to the next.
-/

namespace ScopeLang

/-- Why a run of a host failed. -/
inductive Failure where
  /-- The script could not be read. -/
  | unreadable (source : String) (error : ReadError)
  /-- The script is at fault. -/
  | faulty (source : String) (script : String) (fault : Fault)
deriving DecidableEq, Repr

namespace Failure

/-- What went wrong, in one line. -/
def message : Failure → String
  | .unreadable source error => "unable to read " ++ source ++ ": " ++ error.message
  | .faulty source _ fault => source ++ ": " ++ fault.message

/-- What went wrong, with the place in the script. -/
def render : Failure → Except Misaligned String
  | .unreadable source error => .ok ("unable to read " ++ source ++ ": " ++ error.message)
  | .faulty source script fault => (fault.render script).map fun text => source ++ ": " ++ text

/-- What went wrong, without the name of the source. -/
def cause : Failure → String
  | .unreadable _ error => error.message
  | .faulty _ _ fault => fault.message

/-- The fault of the script, if that is the failure. -/
def fault? : Failure → Option Fault
  | .unreadable _ _ => none
  | .faulty _ _ fault => some fault

end Failure

/-- Options to run, with the text that earlier runs left captured. -/
structure Host where
  options : Options
  capture : Capture
deriving DecidableEq

namespace Host

/-- A host that has not run yet. -/
def ofOptions (options : Options) : Host where
  options := options
  capture := .off

/-- Begin to capture what the runs print. -/
def startCapture (host : Host) : Host :=
  { host with capture := host.capture.start }

/-- Hand out what was captured and stop capturing. -/
def takeCapture (host : Host) : Option String × Host :=
  (host.capture.take.1, { host with capture := host.capture.take.2 })

/-- A session of a script that captures its text if the host does. -/
def sessionOf (host : Host) (script : String) : Session :=
  if host.capture.isOn then (Session.ofSource script).startCapture else .ofSource script

/-- Run a script under a name, with a log at some level.  What the session has
captured is added to what the host holds, also after a fault. -/
def runScriptAt (level : Log.Level) (host : Host) (name script : String) :
    Report Failure × Host :=
  let ran := (host.sessionOf script).runAt level
  ({ result := ran.1.result.mapError (.faulty name script)
     stdout := ran.1.stdout
     events := Event.passing level [.loaded name script.utf8ByteSize] ++ ran.1.events },
   { host with capture := host.capture.add ran.2.takeCapture.1 })

/-- Read the script and run it, with a log at some level. -/
def runAt (level : Log.Level) (host : Host) (world : World) : Report Failure × Host × World :=
  let name := host.options.sourceName
  match world.fetch host.options.origin with
  | (.error error, world) =>
      ({ result := .error (.unreadable name error), stdout := "", events := [] }, host, world)
  | (.ok script, world) =>
      let ran := host.runScriptAt level name script
      (ran.1, ran.2, world)

/-- Read the script, run it and record everything. -/
def run (host : Host) (world : World) : Report Failure × Host × World :=
  host.runAt .trace world

end Host

end ScopeLang
