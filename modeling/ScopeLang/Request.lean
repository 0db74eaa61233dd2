import ScopeLang.Host
import ScopeLang.Trace

/-!
# Requests to sessions and hosts

Sessions and hosts answer the same three requests, in any order and any number:
to begin capturing, to hand out what was captured, and to run.
-/

namespace ScopeLang

/-- What can be asked of a session or a host. -/
inductive Request where
  | startCapture
  | takeCapture
  | run
deriving DecidableEq, Repr

/-- What a request is answered with. -/
inductive Response (ε : Type) where
  /-- Capturing has begun. -/
  | started
  /-- The text that was captured, if any was being captured. -/
  | taken (text : Option String)
  /-- What the run shows. -/
  | ran (report : Report ε)

/-- Answer a request to a session. -/
def Session.respond (session : Session) : Request → Response Fault × Session
  | .startCapture => (.started, session.startCapture)
  | .takeCapture => (.taken session.takeCapture.1, session.takeCapture.2)
  | .run => (.ran session.run.1, session.run.2)

/-- Answer a request to a host in its world. -/
def Host.respond (state : Host × World) : Request → Response Failure × (Host × World)
  | .startCapture => (.started, state.1.startCapture, state.2)
  | .takeCapture => (.taken state.1.takeCapture.1, state.1.takeCapture.2, state.2)
  | .run => (.ran (state.1.run state.2).1, (state.1.run state.2).2)

/-- The answers of a new session on a source. -/
def Session.responses (source : String) (requests : List Request) : List (Response Fault) :=
  (trace respond (ofSource source) requests).1

/-- The answers of a new host. -/
def Host.responses (options : Options) (world : World) (requests : List Request) :
    List (Response Failure) :=
  (trace respond (ofOptions options, world) requests).1

end ScopeLang
