import ScopeLang.Program
import ScopeLang.Proofs.Steps
import ScopeLang.Proofs.Verdict

/-!
# The depth of the memory during runs

A run opens a scope before its first statement, and no brace closes the last
one.  So there is an open scope at every statement, whatever earlier runs left
behind.

* **One statement**: a statement that is carried out where a scope is open
  leaves one open, changes the depth by what it opens or closes, and drops no
  write (`Statement.depth_of_exec`, `Statement.keeps_write`).
* **A run**: the same holds of all statements from one point of an execution to
  another (`Advances.depth`, `Advances.keeps_writes`).
-/

namespace ScopeLang

open Statement

namespace Memory

theorem exists_closeScope {memory : Memory} (h : 0 < memory.depth) :
    ∃ frame, memory.closeScope = (some frame, memory.closeScope.2) := by
  obtain ⟨frames⟩ := memory
  cases frames with
  | nil => exact absurd h (Nat.lt_irrefl 0)
  | cons frame outer => exact ⟨frame, rfl⟩

theorem isOpen_eq_false_iff (memory : Memory) : memory.isOpen = false ↔ memory.depth = 0 := by
  rw [← Bool.not_eq_true, isOpen_iff]
  omega

end Memory

/-! ## One statement -/

namespace Statement

theorem opened_append (statements more : List Statement) :
    opened (statements ++ more) = opened statements + opened more :=
  List.countP_append

theorem closed_append (statements more : List Statement) :
    closed (statements ++ more) = closed statements + closed more :=
  List.countP_append

theorem depth_of_exec {statement : Statement} {memory changed : Memory} {effects : Effects}
    (h : statement.exec memory = .ok (changed, effects)) (isOpen : 0 < memory.depth) :
    0 < changed.depth ∧
      changed.depth + closed [statement] = memory.depth + opened [statement] := by
  cases exec_eq_ok_iff.1 h with
  | print name => exact ⟨isOpen, rfl⟩
  | openScope => exact ⟨Nat.zero_lt_succ _, rfl⟩
  | closeScope brace deep =>
      rw [Memory.depth_closeScope]
      show 0 < memory.depth - 1 ∧ memory.depth - 1 + 1 = memory.depth
      omega
  | write target _ =>
      rw [Memory.depth_write]
      exact ⟨isOpen, rfl⟩
  | skip target _ => exact ⟨isOpen, rfl⟩

theorem keeps_write {statement : Statement} {memory changed : Memory} {effects : Effects}
    (h : statement.exec memory = .ok (changed, effects)) (isOpen : 0 < memory.depth)
    (name : String) : .writeDropped name ∉ effects.events := by
  cases exec_eq_ok_iff.1 h with
  | print other => simp
  | openScope => simp
  | closeScope brace _ => simp
  | write target _ => simp [Memory.events_write isOpen]
  | skip target _ => simp

end Statement

/-! ## From one point of an execution to another -/

theorem Advances.depth {cursor stop : Cursor} {memory changed : Memory}
    {statements : List Statement} {effects : Effects}
    (h : Advances cursor memory statements effects stop changed) (isOpen : 0 < memory.depth) :
    0 < changed.depth ∧ changed.depth + closed statements = memory.depth + opened statements := by
  induction h with
  | here cursor memory => exact ⟨isOpen, rfl⟩
  | @next _ _ _ _ _ _ _ _ statement statements _ _ _ _ executed _ ih =>
      obtain ⟨stillOpen, one⟩ := depth_of_exec executed isOpen
      obtain ⟨lastOpen, others⟩ := ih stillOpen
      refine ⟨lastOpen, ?_⟩
      have closes := closed_append [statement] statements
      have opens := opened_append [statement] statements
      rw [List.singleton_append] at closes opens
      omega

theorem Advances.keeps_writes {cursor stop : Cursor} {memory changed : Memory}
    {statements : List Statement} {effects : Effects}
    (h : Advances cursor memory statements effects stop changed) (isOpen : 0 < memory.depth)
    (name : String) : .writeDropped name ∉ effects.events := by
  induction h with
  | here cursor memory => exact List.not_mem_nil
  | next _ _ executed _ ih =>
      have now := keeps_write executed isOpen name
      have later := ih (depth_of_exec executed isOpen).1
      simp [Execution.begun, now, later]

theorem Stops.keeps_writes {cursor : Cursor} {memory : Memory} {effects : Effects}
    {execution : Execution} (h : Stops cursor memory effects execution) {name : String}
    (kept : .writeDropped name ∉ effects.events) :
    .writeDropped name ∉ execution.effects.events := by
  cases h with
  | usedUp _ => exact kept
  | failed _ _ => simp [Execution.begun, kept]

/-! ## Runs -/

/-- What holds where a run stands that found `depth` scopes open and carried out
some statements. -/
structure Standing (depth : Nat) (statements : List Statement) (effects : Effects)
    (memory : Memory) : Prop where
  isOpen : 0 < memory.depth
  count : memory.depth + closed statements = depth + 1 + opened statements
  /-- What is assigned here is read back. -/
  keeps : ∀ name value, (memory.write name value).1.read name = some value
  noWarning : ∀ name, .writeDropped name ∉ effects.events

namespace Session

/-- How a run ends that has come to a point by carrying out some statements. -/
inductive RunEnds (session : Session) (statements : List Statement) (stop : Cursor)
    (memory : Memory) : Prop
  /-- All lexemes were read, and a scope is found to close at the end. -/
  | usedUp {frame : Frame} : stop.next.1 = none →
      memory.closeScope = (some frame, session.run.2.memory) →
      session.run.2.memory.depth + closed statements = session.memory.depth + opened statements →
      (session.run.1.result = .ok () ↔ session.run.2.memory.depth = 0) →
      RunEnds session statements stop memory
  /-- The next statement failed, and the scope that the run opened stays. -/
  | failed {first : Lexeme} {rest left : Cursor} {fault : Fault} :
      stop.next = (some first, rest) → Statement.step first rest memory = (.error fault, left) →
      session.run.1.result = .error fault → session.run.2.memory = memory →
      session.run.2.memory.depth + closed statements =
        session.memory.depth + 1 + opened statements →
      RunEnds session statements stop memory

theorem standing_of_advances {session : Session} {statements : List Statement} {effects : Effects}
    {stop : Cursor} {memory : Memory}
    (h : Advances session.cursor session.memory.openScope statements effects stop memory) :
    Standing session.memory.depth statements effects memory := by
  have opens : 0 < session.memory.openScope.depth := Nat.zero_lt_succ _
  obtain ⟨isOpen, count⟩ := h.depth opens
  refine ⟨isOpen, count, ?_, h.keeps_writes opens⟩
  intro name value
  rw [Memory.read_write isOpen, if_pos rfl]

theorem runEnds_of_stops {session : Session} {statements : List Statement} {effects : Effects}
    {stop : Cursor} {memory : Memory}
    (standing : Standing session.memory.depth statements effects memory)
    (h : Stops stop memory effects (execute session.cursor session.memory.openScope)) :
    RunEnds session statements stop memory := by
  have count := standing.count
  have isOpen := standing.isOpen
  generalize executed : execute session.cursor session.memory.openScope = execution at h
  have result : session.run.1.result = verdict execution := by
    rw [run_result, executed]
  have left : session.run.2.memory = closing execution := by
    rw [run_memory, executed]
  cases h with
  | usedUp nothing =>
      obtain ⟨frame, closes⟩ := Memory.exists_closeScope isOpen
      replace left : session.run.2.memory = memory.closeScope.2 := left
      have depth := Memory.depth_closeScope memory
      refine .usedUp (by rw [nothing]) (closes.trans (by rw [left])) ?_ ?_
      · rw [left]
        omega
      · rw [result, left, ← Memory.isOpen_eq_false_iff]
        show (if memory.closeScope.2.isOpen then Except.error Fault.unclosedScope else .ok ()) = _ ↔ _
        cases memory.closeScope.2.isOpen <;> simp
  | failed read stepped => exact .failed read stepped result left (by rw [left]; exact count)

/-- The process of a session when the run has opened its scope. -/
def entered (session : Session) : Process :=
  { session.start with memory := session.memory.openScope }

/-- What the runs of a session have to do with its scopes. -/
structure KeepsFrame (session : Session) : Prop where
  /-- A scope is open whenever the run is about to read a statement. -/
  isOpen : ∀ level process, Process.Reaches level session.entered process →
    0 < process.memory.depth
  standing : ∀ statements effects stop memory,
    Advances session.cursor session.memory.openScope statements effects stop memory →
    Standing session.memory.depth statements effects memory
  ends : ∃ statements effects stop memory,
    Advances session.cursor session.memory.openScope statements effects stop memory ∧
    RunEnds session statements stop memory
  noWarning : ∀ name, .writeDropped name ∉ session.run.1.events

theorem keepsFrame (session : Session) : KeepsFrame session := by
  obtain ⟨statements, effects, stop, memory, advances, stops⟩ :=
    execute_stops session.cursor session.memory.openScope
  have standing := standing_of_advances advances
  refine ⟨?_, fun _ _ _ _ => standing_of_advances, ?_, fun name => ?_⟩
  · intro level process reaches
    obtain ⟨statements, effects, advances, -⟩ := Process.reaches_iff.1 reaches
    exact (standing_of_advances advances).isOpen
  · exact ⟨statements, effects, stop, memory, advances, runEnds_of_stops standing stops⟩
  · rw [run_eq]
    exact stops.keeps_writes (standing.noWarning name)

end Session

theorem Host.noWarning (host : Host) (world : World) (name : String) :
    .writeDropped name ∉ (host.run world).1.events := by
  unfold Host.run Host.runAt
  rcases world.fetch host.options.origin with ⟨error | script, world⟩
  · exact List.not_mem_nil
  · have kept := (Session.keepsFrame (host.sessionOf script)).noWarning name
    show Event.writeDropped name ∉ .loaded _ _ :: (host.sessionOf script).run.1.events
    simp [kept]

/-- **Frames.** After any requests to a session, a scope is open at every
statement of a run, the depth follows the scopes that the statements open and
close, and so it is at the end of the run.  No run of a session, of a host or
of the program gives the warning of a dropped write. -/
theorem runs_keep_frame (source : String) (requests : List Request) (host : Host) (world : World)
    (program : String) (arguments : List String) (style : Log.Style) :
    (Session.after source requests).KeepsFrame ∧
      (∀ name, .writeDropped name ∉ (host.run world).1.events) ∧
      ∀ options, CommandLine.parse arguments = .ok options →
        Program.call program arguments world style =
            Program.conclude style options.threshold ((Host.ofOptions options).run world).1 ∧
          ∀ name, .writeDropped name ∉ ((Host.ofOptions options).run world).1.events := by
  refine ⟨Session.keepsFrame _, host.noWarning world, ?_⟩
  intro options parsed
  exact ⟨Program.call_of_parse parsed program world style, Host.noWarning _ world⟩

end ScopeLang
