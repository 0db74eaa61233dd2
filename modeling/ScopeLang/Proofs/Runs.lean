import ScopeLang.Execution
import ScopeLang.Program

/-!
# Runs and executions

A run works on a process, one action after the other.  What comes of it is said
in one go by the execution of the lexemes on the memory.

* **Runs**: the process of a run ends where the execution does, with its memory
  and its effects (`Process.loop_eq`, `Session.runAt_eq`).
* **Logs**: the level of the log decides which events are recorded and nothing
  else, for a session, a host and the program (`Session.runAt_eq_upTo`,
  `Host.runAt_eq_upTo`, `Program.call_of_parse`).
-/

namespace ScopeLang

/-! ## Processes -/

namespace Process

variable (level : Log.Level)

theorem advanced_nothing (process : Process) (cursor : Cursor) (memory : Memory) :
    process.advanced level cursor memory .empty =
      { process with cursor := cursor, memory := memory } := by
  simp [advanced, Effects.empty]

/-- Effects one after the other are the effects together. -/
theorem advanced_advanced (process : Process) (cursor behind : Cursor) (memory changed : Memory)
    (effects further : Effects) :
    (process.advanced level cursor memory effects).advanced level behind changed further =
      process.advanced level behind changed (effects ++ further) := by
  simp [advanced, Text.unlines_append, Capture.print_append, String.append_assoc]

theorem begun_eq_advanced (process : Process) (first : Lexeme) (behind : Cursor) :
    process.begun level first behind =
      process.advanced level behind process.memory (Execution.begun first) := by
  simp [begun, advanced, Execution.begun]

variable {level} {process after : Process} {first : Lexeme} {behind : Cursor}

/-- A statement of a run that succeeds has the effects of its record and its own. -/
theorem step_of_statement_ok
    (h : (statement first).runAt level { process with cursor := behind } = (.ok (), after)) :
    ∃ changed effects next,
      Statement.step first behind process.memory = (.ok (changed, effects), next) ∧
        after = process.advanced level next changed (Execution.begun first ++ effects) := by
  rw [runAt_statement, begun_eq_advanced] at h
  obtain ⟨changed, effects, next, stepped, rfl⟩ := step_of_carryOut_ok h
  exact ⟨changed, effects, next, stepped, advanced_advanced ..⟩

/-- A statement of a run that fails has the effect of its record. -/
theorem step_of_statement_error {fault : Fault}
    (h : (statement first).runAt level { process with cursor := behind } = (.error fault, after)) :
    ∃ stopped, Statement.step first behind process.memory = (.error fault, stopped) ∧
      after = process.advanced level stopped process.memory (Execution.begun first) := by
  rw [runAt_statement, begun_eq_advanced] at h
  obtain ⟨stopped, stepped, rfl⟩ := step_of_carryOut_error h
  exact ⟨stopped, stepped, rfl⟩

theorem statement_of_step_ok {changed : Memory} {effects : Effects} {next : Cursor}
    (h : Statement.step first behind process.memory = (.ok (changed, effects), next)) :
    (statement first).runAt level { process with cursor := behind } =
      (.ok (), process.advanced level next changed (Execution.begun first ++ effects)) := by
  rw [runAt_statement, begun_eq_advanced, ← advanced_advanced level process behind next]
  exact carryOut_of_step_ok h

variable (level)

/-- How the statements of an execution end. -/
def outcome (execution : Execution) : Except Fault Unit :=
  match execution.fault with
  | some fault => .error fault
  | none => .ok ()

/-- **Runs.** A process carries out its statements as the execution says. -/
theorem loop_eq (process : Process) :
    loop level process =
      (outcome (execute process.cursor process.memory),
       process.advanced level (execute process.cursor process.memory).cursor
         (execute process.cursor process.memory).memory
         (execute process.cursor process.memory).effects) := by
  fun_induction loop level process with
  | case1 process stopped read =>
      rw [execute_of_next_none _ read, advanced_nothing]
      rfl
  | case2 process first behind read fault after done =>
      obtain ⟨stopped, stepped, rfl⟩ := step_of_statement_error done
      rw [execute_of_step_error read stepped]
      rfl
  | case3 process first behind read after done _ ih =>
      -- the execution of the rest begins where the statement has left the process
      obtain ⟨changed, effects, next, stepped, rfl⟩ := step_of_statement_ok done
      rw [ih, execute_of_step_ok read stepped]
      exact congrArg (Prod.mk _) (advanced_advanced ..)

/-- A run closes a scope when its statements have succeeded, and then looks whether
one is open. -/
theorem runAt_script (process : Process) :
    script.runAt level process =
      match loop level { process with memory := process.memory.openScope } with
      | (.error fault, after) => (.error fault, after)
      | (.ok (), after) =>
          (if after.memory.closeScope.2.isOpen then .error .unclosedScope else .ok (),
           { after with memory := after.memory.closeScope.2 }) := by
  have carried (process : Process) : statements.runAt level process = loop level process := rfl
  unfold script
  simp only [Action.runAt_bind, runAt_remember, carried]
  rcases loop level { process with memory := process.memory.openScope } with
    ⟨fault | ⟨⟩, after⟩
  · rfl
  · by_cases isOpen : after.memory.closeScope.2.isOpen = true <;> simp [isOpen]

end Process

/-- The records of a run, in order. -/
def Report.records {ε : Type} (report : Report ε) : List Log.Record :=
  report.events.map Event.record

/-- A report of which the log shows the events that pass. -/
def Report.upTo {ε : Type} (level : Log.Level) (report : Report ε) : Report ε :=
  { report with events := Event.passing level report.events }

/-! ## Sessions -/

namespace Session

/-- The memory after the last statement: a run that met no fault closes a scope. -/
def closing (execution : Execution) : Memory :=
  match execution.fault with
  | some _ => execution.memory
  | none => execution.memory.closeScope.2

/-- How a run ends: with the fault of a statement, or with a scope left open,
or well. -/
def verdict (execution : Execution) : Except Fault Unit :=
  match execution.fault with
  | some fault => .error fault
  | none => if (closing execution).isOpen then .error .unclosedScope else .ok ()

/-- What a run shows and leaves behind, by its execution. -/
def conclusion (capture : Capture) (execution : Execution) : Report Fault × Session :=
  let printed := capture.print (Text.unlines execution.effects.lines)
  ({ result := verdict execution
     stdout := printed.1
     events := execution.effects.events },
   { cursor := execution.cursor
     memory := closing execution
     capture := printed.2 })

/-- A run comes to the conclusion of its execution, with a log of the events that
pass. -/
theorem runAt_eq (level : Log.Level) (session : Session) :
    session.runAt level =
      let ended := conclusion session.capture (execute session.cursor session.memory.openScope)
      (ended.1.upTo level, ended.2) := by
  unfold runAt
  rw [Process.runAt_script, Process.loop_eq]
  dsimp only [start]
  unfold conclusion verdict closing Process.outcome
  cases (execute session.cursor session.memory.openScope).fault <;>
    simp [ofProcess, Process.advanced, Report.upTo]

/-- A run that records everything. -/
theorem run_eq (session : Session) :
    session.run =
      conclusion session.capture (execute session.cursor session.memory.openScope) := by
  unfold run
  rw [runAt_eq]
  simp only [Report.upTo, Event.passing_trace]

theorem run_result (session : Session) :
    session.run.1.result = verdict (execute session.cursor session.memory.openScope) := by
  rw [run_eq]
  rfl

theorem run_cursor (session : Session) :
    session.run.2.cursor = (execute session.cursor session.memory.openScope).cursor := by
  rw [run_eq]
  rfl

theorem run_memory (session : Session) :
    session.run.2.memory = closing (execute session.cursor session.memory.openScope) := by
  rw [run_eq]
  rfl

/-- **Logs.** The level decides which events are recorded, and nothing else. -/
theorem runAt_eq_upTo (level : Log.Level) (session : Session) :
    session.runAt level = (session.run.1.upTo level, session.run.2) := by
  rw [runAt_eq, run_eq]

end Session

/-! ## Hosts and the program -/

theorem Host.runScriptAt_eq_upTo (level : Log.Level) (host : Host) (name script : String) :
    host.runScriptAt level name script =
      ((host.runScriptAt .trace name script).1.upTo level,
        (host.runScriptAt .trace name script).2) := by
  unfold runScriptAt
  rw [Session.runAt_eq_upTo level, Session.runAt_eq_upTo .trace]
  simp only [Report.upTo, Event.passing_trace, Event.passing_append]

theorem Host.runAt_eq_upTo (level : Log.Level) (host : Host) (world : World) :
    host.runAt level world = ((host.run world).1.upTo level, (host.run world).2) := by
  unfold run runAt
  rcases world.fetch host.options.origin with ⟨error | script, later⟩
  · rfl
  · dsimp only
    rw [runScriptAt_eq_upTo level]

namespace Program

/-- The outcome of a run of which the log shows the events that pass. -/
def conclude (style : Log.Style) (threshold : Log.Level) (report : Report Failure) : Outcome :=
  finish style (report.upTo threshold)

/-- An accepted command line leads to a run, and its options say how much of it is
shown. -/
theorem call_of_parse {arguments : List String} {options : Options}
    (parsed : CommandLine.parse arguments = .ok options) (program : String) (world : World)
    (style : Log.Style) :
    call program arguments world style =
      conclude style options.threshold ((Host.ofOptions options).run world).1 := by
  unfold call conclude
  rw [parsed]
  dsimp only
  rw [Host.runAt_eq_upTo]

end Program

end ScopeLang
