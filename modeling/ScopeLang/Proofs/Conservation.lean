import ScopeLang.Proofs.Printing
import ScopeLang.Proofs.Steps

/-!
# Conservation of printed text

Text that is captured is not lost: it is handed out later, in its place.

* **One machine**: sessions and hosts differ in what a run does, but not in what
  they do with the lines that it prints.  Both are a `capturing` machine
  (`Session.respond_eq_capturing`, `Host.respond_eq_capturing`), the host with
  the capture of its session inside its own (`Host.runScriptAt_trace`).
* **Outcomes**: with all requests but the runs left out, a capturing machine
  does the same runs (`outcomes_eq`, `core_eq`).
* **Texts**: what its answers hand out and what it holds at the end make up the
  text of these runs (`texts_eq`).
-/

namespace ScopeLang

variable {κ σ ε : Type}

/-- The runs among some requests. -/
def Request.runs (requests : List Request) : List Request :=
  requests.filter (· = .run)

namespace Response

/-- The text that an answer hands out. -/
def text : Response ε → String
  | .started => ""
  | .taken text => text.getD ""
  | .ran report => report.stdout

/-- How a run ended and what it recorded. -/
def outcome? : Response ε → Option (Except ε Unit × List Event)
  | .ran report => some (report.result, report.events)
  | _ => none

end Response

/-! ## Machines that capture -/

/-- What a run does, apart from where its lines go. -/
structure Performance (ε : Type) where
  result : Except ε Unit
  events : List Event
  lines : List String

/-- Answer a request, where the state is what a run works on and a capture. -/
def capturing (perform : κ → Performance ε × κ) (state : κ × Capture) :
    Request → Response ε × (κ × Capture)
  | .startCapture => (.started, state.1, state.2.start)
  | .takeCapture => (.taken state.2.take.1, state.1, state.2.take.2)
  | .run =>
      let done := perform state.1
      let printed := state.2.print (Text.unlines done.1.lines)
      (.ran { result := done.1.result, stdout := printed.1, events := done.1.events },
        done.2, printed.2)

section Capturing

variable (perform : κ → Performance ε × κ)

theorem core_eq (core : κ) (capture other : Capture) (requests : List Request) :
    (trace (capturing perform) (core, capture) requests).2.1 =
      (trace (capturing perform) (core, other) (Request.runs requests)).2.1 := by
  induction requests generalizing core capture other with
  | nil => rfl
  | cons request requests ih =>
      cases request with
      | startCapture => exact ih ..
      | takeCapture => exact ih ..
      | run => exact ih ..

theorem outcomes_eq (core : κ) (capture other : Capture) (requests : List Request) :
    (trace (capturing perform) (core, capture) requests).1.filterMap Response.outcome? =
      (trace (capturing perform) (core, other) (Request.runs requests)).1.filterMap
        Response.outcome? := by
  induction requests generalizing core capture other with
  | nil => rfl
  | cons request requests ih =>
      cases request with
      | startCapture => exact ih ..
      | takeCapture => exact ih ..
      | run => exact congrArg (_ :: ·) (ih ..)

theorem capture_runs_off (core : κ) (requests : List Request) :
    (trace (capturing perform) (core, .off) (Request.runs requests)).2.2 = .off := by
  induction requests generalizing core with
  | nil => rfl
  | cons request requests ih =>
      cases request with
      | startCapture => exact ih core
      | takeCapture => exact ih core
      | run => exact ih _

/-- What is handed out or held in the end is what was held before and then what
is printed by the runs alone. -/
theorem texts_eq (core : κ) (capture : Capture) (requests : List Request) :
    String.join ((trace (capturing perform) (core, capture) requests).1.map Response.text) ++
        (trace (capturing perform) (core, capture) requests).2.2.held.getD "" =
      capture.held.getD "" ++ String.join
        ((trace (capturing perform) (core, .off) (Request.runs requests)).1.map Response.text) := by
  induction requests generalizing core capture with
  | nil => exact String.append_empty.symm ▸ String.empty_append
  | cons request requests ih =>
      cases request with
      | startCapture =>
          show String.join ("" :: _) ++ _ = _
          rw [String.join_cons, String.empty_append]
          exact ih core capture.start
      | takeCapture =>
          -- what was held is handed out now, and nothing is held in its place
          show String.join (capture.held.getD "" :: _) ++ _ = _
          rw [String.join_cons, String.append_assoc]
          exact congrArg (_ ++ ·) ((ih core .off).trans String.empty_append)
      | run =>
          have later := ih (perform core).2
          obtain ⟨held⟩ := capture
          show String.join (_ :: _) ++ _ = _ ++ String.join (Text.unlines _ :: _)
          rw [String.join_cons, String.join_cons, String.append_assoc]
          cases held with
          | none =>
              show Text.unlines _ ++ _ = "" ++ _
              rw [String.empty_append]
              exact congrArg (_ ++ ·) ((later .off).trans String.empty_append)
          | some held =>
              show "" ++ _ = held ++ _
              rw [String.empty_append, ← String.append_assoc]
              exact later _

end Capturing

/-! ## What is conserved -/

/-- What a machine does with its text in a state, where `plain` is the state in
which it would be if nothing had been captured. -/
structure Routes (respond : σ → Request → Response ε × σ) (capture : σ → Capture)
    (printed : σ → List String) (state plain : σ) : Prop where
  /-- To begin again keeps what is held. -/
  starts : (capture (respond state .startCapture).2).held = some ((capture state).held.getD "")
  takes : (respond state .takeCapture).1 = .taken (capture state).held ∧
    (capture (respond state .takeCapture).2).held = none
  wholeLines : ∀ line ∈ printed state, Text.IsLine line
  uncaptured : (respond plain .run).1.text = Text.unlines (printed state)
  /-- All lines of a run go to standard output, or all are held. -/
  oneWay :
    match (capture state).held with
    | none => (respond state .run).1.text = Text.unlines (printed state) ∧
        (capture (respond state .run).2).held = none
    | some held => (respond state .run).1.text = "" ∧
        (capture (respond state .run).2).held = some (held ++ Text.unlines (printed state))

/-- What a machine does on some requests, compared with what it does on the runs
among them. -/
structure Conserves (respond : σ → Request → Response ε × σ) (capture : σ → Capture)
    (printed : σ → List String) (start : σ) (requests : List Request) : Prop where
  /-- Each run ends alike and records the same. -/
  outcomes : (trace respond start requests).1.filterMap Response.outcome? =
    (trace respond start (Request.runs requests)).1.filterMap Response.outcome?
  /-- The texts of the answers, one after the other, and what is held at the end
  are the texts of the runs alone. -/
  texts : String.join ((trace respond start requests).1.map Response.text) ++
      (capture (trace respond start requests).2).held.getD "" =
    String.join ((trace respond start (Request.runs requests)).1.map Response.text)
  routes : Routes respond capture printed (trace respond start requests).2
    (trace respond start (Request.runs requests)).2

section Conserves

variable {respond : σ → Request → Response ε × σ} {parts : σ → κ × Capture}
  {perform : κ → Performance ε × κ}

theorem routes_of_capturing
    (maps : ∀ state request, capturing perform (parts state) request =
      ((respond state request).1, parts (respond state request).2))
    (wholeLines : ∀ core, ∀ line ∈ (perform core).1.lines, Text.IsLine line) {state plain : σ}
    (core : (parts state).1 = (parts plain).1) (off : (parts plain).2 = .off) :
    Routes respond (fun state => (parts state).2)
      (fun state => (perform (parts state).1).1.lines) state plain := by
  have started := maps state .startCapture
  have taken := maps state .takeCapture
  have ran := maps state .run
  have ranPlain := maps plain .run
  refine ⟨congrArg (·.2.2.held) started.symm, ⟨congrArg Prod.fst taken.symm,
    congrArg (·.2.2.held) taken.symm⟩, wholeLines _, ?_, ?_⟩
  · have text := congrArg (·.1.text) ranPlain.symm
    dsimp only [capturing, Response.text] at text
    rw [off, Capture.print_off, ← core] at text
    exact text
  · have text := congrArg (·.1.text) ran.symm
    have held := congrArg (·.2.2.held) ran.symm
    dsimp only [capturing, Response.text, Capture.print] at text held
    cases before : (parts state).2.held with
    | none =>
        rw [before] at text held
        exact ⟨text, held.trans before⟩
    | some earlier =>
        rw [before] at text held
        exact ⟨text, held⟩

/-- **Conservation.** A machine that captures conserves what its runs print. -/
theorem conserves_of_capturing
    (maps : ∀ state request, capturing perform (parts state) request =
      ((respond state request).1, parts (respond state request).2))
    (wholeLines : ∀ core, ∀ line ∈ (perform core).1.lines, Text.IsLine line)
    {start : σ} (off : (parts start).2 = .off) (requests : List Request) :
    Conserves respond (fun state => (parts state).2)
      (fun state => (perform (parts state).1).1.lines) start requests := by
  have traced : ∀ requests, trace (capturing perform) ((parts start).1, .off) requests =
      ((trace respond start requests).1, parts (trace respond start requests).2) := by
    intro requests
    rw [← off, trace_map (g := id) maps start requests, List.map_id]
  have outcomes := outcomes_eq perform (parts start).1 .off .off requests
  have texts := texts_eq perform (parts start).1 .off requests
  have core := core_eq perform (parts start).1 .off .off requests
  have plainOff := capture_runs_off perform (parts start).1 requests
  rw [traced, traced] at outcomes texts core
  rw [traced] at plainOff
  exact ⟨outcomes, texts.trans String.empty_append, routes_of_capturing maps wholeLines core plainOff⟩

end Conserves

/-! ## Sessions and hosts -/

namespace Session

/-- The lines that the next run of a session prints. -/
def printed (session : Session) : List String :=
  (execute session.cursor session.memory.openScope).effects.lines

def perform (core : Cursor × Memory) : Performance Fault × (Cursor × Memory) :=
  let execution := execute core.1 core.2.openScope
  ({ result := verdict execution
     events := execution.effects.events
     lines := execution.effects.lines },
   execution.cursor, closing execution)

def parts (session : Session) : (Cursor × Memory) × Capture :=
  ((session.cursor, session.memory), session.capture)

theorem respond_eq_capturing (session : Session) (request : Request) :
    capturing perform session.parts request =
      ((session.respond request).1, (session.respond request).2.parts) := by
  cases request with
  | startCapture => rfl
  | takeCapture => rfl
  | run =>
      show _ = (Response.ran session.run.1, session.run.2.parts)
      rw [run_eq]
      rfl

theorem isLine_of_mem_perform (core : Cursor × Memory) :
    ∀ line ∈ (perform core).1.lines, Text.IsLine line := by
  have lines := isLine_of_mem_course core.1.lexemes core.2.openScope
  rw [← course_execute] at lines
  exact lines

/-- What was printed before a fault is among the lines of the run. -/
theorem lines_prefix_printed {session : Session} {statements : List Statement} {effects : Effects}
    {stop : Cursor} {memory : Memory}
    (h : Advances session.cursor session.memory.openScope statements effects stop memory) :
    effects.lines <+: session.printed := by
  unfold printed
  rw [h.execute_eq]
  exact List.prefix_append ..

end Session

namespace Host

/-- The lines that the next run of a host prints. -/
def printed (state : Host × World) : List String :=
  match (state.2.fetch state.1.options.origin).1 with
  | .ok script => (Session.ofSource script).printed
  | .error _ => []

def perform (core : Options × World) : Performance Failure × (Options × World) :=
  match core.2.fetch core.1.origin with
  | (.error error, world) =>
      ({ result := .error (.unreadable core.1.sourceName error), events := [], lines := [] },
        core.1, world)
  | (.ok script, world) =>
      let done := (Session.perform (.ofSource script, .empty)).1
      ({ result := done.result.mapError (.faulty core.1.sourceName script)
         events := .loaded core.1.sourceName script.utf8ByteSize :: done.events
         lines := done.lines },
        core.1, world)

def parts (state : Host × World) : (Options × World) × Capture :=
  ((state.1.options, state.2), state.1.capture)

/-- The capture of a session inside that of its host does what the host's would
do alone. -/
theorem runScriptAt_trace (host : Host) (name script : String) :
    host.runScriptAt .trace name script =
      ({ result := (Session.perform (.ofSource script, .empty)).1.result.mapError
           (.faulty name script)
         stdout := (host.capture.print (Text.unlines (Session.ofSource script).printed)).1
         events := .loaded name script.utf8ByteSize ::
           (Session.perform (.ofSource script, .empty)).1.events },
       { host with
         capture := (host.capture.print (Text.unlines (Session.ofSource script).printed)).2 }) := by
  have ran (session : Session) : session.runAt .trace = _ := session.run_eq
  obtain ⟨options, ⟨held⟩⟩ := host
  unfold runScriptAt
  rw [ran]
  cases held with
  | none => rfl
  | some held =>
      show (_, Host.mk options ⟨some (held ++ ("" ++ _))⟩) = _
      rw [String.empty_append]
      rfl

theorem respond_eq_capturing (state : Host × World) (request : Request) :
    capturing perform (parts state) request =
      ((respond state request).1, parts (respond state request).2) := by
  obtain ⟨host, world⟩ := state
  cases request with
  | startCapture => rfl
  | takeCapture => rfl
  | run =>
      rcases fetched : world.fetch host.options.origin with ⟨error | script, later⟩
      · simp only [capturing, respond, run, runAt, perform, parts, fetched, Text.unlines_nil,
          Capture.print_empty]
      · simp only [capturing, respond, run, runAt, perform, parts, fetched, runScriptAt_trace]
        rfl

theorem isLine_of_mem_perform (core : Options × World) :
    ∀ line ∈ (perform core).1.lines, Text.IsLine line := by
  unfold perform
  rcases core.2.fetch core.1.origin with ⟨error | script, later⟩
  · exact fun line mem => absurd mem List.not_mem_nil
  · exact Session.isLine_of_mem_perform _

theorem printed_eq_perform (state : Host × World) :
    printed state = (perform (parts state).1).1.lines := by
  unfold printed perform parts
  rcases state.2.fetch state.1.options.origin with ⟨error | script, later⟩ <;> rfl

end Host

/-- **Conservation.** For every sequence of requests to a session and to a host,
the runs are those of the same sequence without capturing, and all that they
print is handed out once, in order: to standard output, or to who takes what
was captured, or it is still held.  A run prints the lines of all statements
that it carries out, also where a later one fails. -/
theorem output_conserved (source : String) (options : Options) (world : World)
    (requests : List Request) :
    Conserves Session.respond Session.capture Session.printed (.ofSource source) requests ∧
      Conserves Host.respond (·.1.capture) Host.printed (.ofOptions options, world) requests ∧
      ∀ (session : Session) statements effects stop memory,
        Advances session.cursor session.memory.openScope statements effects stop memory →
        effects.lines <+: session.printed := by
  refine ⟨?_, ?_, fun _ _ _ _ _ => Session.lines_prefix_printed⟩
  · exact conserves_of_capturing Session.respond_eq_capturing Session.isLine_of_mem_perform rfl
      requests
  · rw [funext Host.printed_eq_perform]
    exact conserves_of_capturing Host.respond_eq_capturing Host.isLine_of_mem_perform rfl requests

end ScopeLang
