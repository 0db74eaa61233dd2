import ScopeLang.Capture
import ScopeLang.Statement
import ScopeLang.Text.Lines

/-!
# Processes

A process is a source that is being run: a place in it, the open scopes, the
text that is held, and what went to standard output and to the log so far.

Statements are carried out by actions, which work on the process as they go:
what an action has changed stays changed, also if the action fails.  The log has
a level, and an event is recorded only if it passes.
-/

namespace ScopeLang

/-- A source that is being run. -/
structure Process where
  cursor : Cursor
  memory : Memory
  capture : Capture
  /-- What went to standard output. -/
  stdout : String
  /-- What was recorded. -/
  events : List Event
deriving DecidableEq

/-- What can be done in a process, under the level of the log. -/
abbrev Action := ReaderT Log.Level (ExceptT Fault (StateM Process))

namespace Action

variable {α β : Type}

/-- Perform an action.  There is a process afterwards in any case. -/
def runAt (action : Action α) (level : Log.Level) (process : Process) :
    Except Fault α × Process :=
  StateT.run (ExceptT.run (ReaderT.run action level)) process

/-! ## What single actions do -/

variable (level : Log.Level) (process : Process)

@[simp] theorem runAt_pure (value : α) :
    (pure value : Action α).runAt level process = (.ok value, process) := rfl

@[simp] theorem runAt_throw (fault : Fault) :
    (throw fault : Action α).runAt level process = (.error fault, process) := rfl

@[simp] theorem runAt_get :
    (get : Action Process).runAt level process = (.ok process, process) := rfl

@[simp] theorem runAt_read :
    (read : Action Log.Level).runAt level process = (.ok level, process) := rfl

@[simp] theorem runAt_modify (change : Process → Process) :
    (modify change : Action Unit).runAt level process = (.ok (), change process) := rfl

/-- What follows an action starts from the process that the action has left, and
is not reached if the action fails. -/
theorem runAt_bind (first : Action α) (second : α → Action β) :
    (first >>= second).runAt level process =
      match first.runAt level process with
      | (.ok value, after) => (second value).runAt level after
      | (.error fault, after) => (.error fault, after) := by
  have unfolded : (first >>= second).runAt level process =
      ExceptT.bindCont (fun value => second value level) (first.runAt level process).1
        (first.runAt level process).2 := rfl
  rw [unfolded]
  rcases first.runAt level process with ⟨fault | value, after⟩ <;> rfl

end Action

namespace Process

/-! ## Statements -/

/-- Record an event, if it passes. -/
def record (event : Event) : Action Unit := do
  if event.level.passes (← read) then
    modify fun process => { process with events := process.events ++ [event] }

/-- Read the next lexeme. -/
def fetch : Action (Option Lexeme) := do
  let next := (← get).cursor.next
  modify fun process => { process with cursor := next.2 }
  return next.1

/-- Read a lexeme that the statement cannot do without. -/
def expect : Action Lexeme := do
  match ← fetch with
  | some lexeme => return lexeme
  | none => throw .endOfInput

/-- Print a line. -/
def emit (line : String) : Action Unit :=
  modify fun process =>
    let printed := process.capture.print (line ++ "\n")
    { process with capture := printed.2, stdout := process.stdout ++ printed.1 }

/-- Change the memory. -/
def remember (change : Memory → Memory) : Action Unit :=
  modify fun process => { process with memory := change process.memory }

/-- Bind a name in the innermost scope. -/
def write (name : String) (value : Int64) : Action Unit := do
  let written := (← get).memory.write name value
  remember fun _ => written.1
  written.2.forM record

/-- The rest of a statement that begins with `print`. -/
def print : Action Unit := do
  let name ← expect
  emit (Statement.shown ((← get).memory.read name.text))

/-- The rest of a statement that begins with `scope`. -/
def openScope : Action Unit := do
  let brace ← expect
  if brace.token = .openBrace then
    remember .openScope
    record (.scopeOpened (← get).memory.depth)
  else throw (.atSpan .missingBrace brace.span)

/-- The statement that a closing brace is.  The scope of the run itself is closed
only when the source is used up. -/
def closeScope (brace : Span) : Action Unit := do
  if (← get).memory.depth ≤ 1 then throw (.atSpan .strayBrace brace)
  else
    remember (·.closeScope.2)
    record (.scopeClosed (← get).memory.depth)

/-- The rest of a statement that begins with a target. -/
def assign (target : String) : Action Unit := do
  let operator ← expect
  if operator.token = .equals then
    let operand ← expect
    match Literal.parse? operand.text with
    | some value => write target value
    | none =>
        match (← get).memory.read operand.text with
        | some value => write target value
        | none => record (.assignmentSkipped target operand.text)
  else throw (.atSpan .missingEquals operator.span)

/-- Carry out the statement that begins with a lexeme that was just read. -/
def carryOut (first : Lexeme) : Action Unit :=
  match first.token with
  | .print => print
  | .scope => openScope
  | .closeBrace => closeScope first.span
  -- any other word names the variable that is assigned
  | target => assign target.text

/-! ## What they do -/

variable (level : Log.Level) (process : Process)

@[simp] theorem runAt_record (event : Event) :
    (record event).runAt level process =
      (.ok (), { process with events := process.events ++ Event.passing level [event] }) := by
  unfold record
  rw [Action.runAt_bind, Action.runAt_read]
  by_cases passes : event.level.passes level = true
  · simp [Event.passing, passes]
  · simp [Event.passing, passes]

theorem runAt_expect :
    expect.runAt level process =
      (process.cursor.expect.1, { process with cursor := process.cursor.expect.2 }) := by
  unfold expect Cursor.expect
  rw [Action.runAt_bind]
  have fetched : fetch.runAt level process =
      (.ok process.cursor.next.1, { process with cursor := process.cursor.next.2 }) := rfl
  rw [fetched]
  rcases process.cursor.next with ⟨_ | lexeme, behind⟩ <;> rfl

@[simp] theorem runAt_emit (line : String) :
    (emit line).runAt level process =
      (.ok (),
       { process with
         capture := (process.capture.print (line ++ "\n")).2
         stdout := process.stdout ++ (process.capture.print (line ++ "\n")).1 }) := rfl

@[simp] theorem runAt_remember (change : Memory → Memory) :
    (remember change).runAt level process =
      (.ok (), { process with memory := change process.memory }) := rfl

@[simp] theorem runAt_write (name : String) (value : Int64) :
    (write name value).runAt level process =
      (.ok (),
       { process with
         memory := (process.memory.write name value).1
         events :=
           process.events ++ Event.passing level (process.memory.write name value).2 }) := by
  unfold write
  simp only [Action.runAt_bind, Action.runAt_get, runAt_remember]
  rcases frames : process.memory.frames with _ | ⟨innermost, outer⟩
  · simp [Memory.write, frames]
  · simp [Memory.write, frames]

/-- The process once reading and the memory have come to a point and effects were
brought forth. -/
def advanced (cursor : Cursor) (memory : Memory) (effects : Effects) : Process where
  cursor := cursor
  memory := memory
  capture := (process.capture.print (Text.unlines effects.lines)).2
  stdout := process.stdout ++ (process.capture.print (Text.unlines effects.lines)).1
  events := process.events ++ Event.passing level effects.events

theorem runAt_print :
    print.runAt level process =
      match process.cursor.expect with
      | (.ok name, behind) =>
          (.ok (), process.advanced level behind process.memory
            { lines := [Statement.shown (process.memory.read name.text)], events := [] })
      | (.error fault, stopped) => (.error fault, { process with cursor := stopped }) := by
  unfold print
  rw [Action.runAt_bind, runAt_expect]
  rcases process.cursor.expect with ⟨fault | name, behind⟩
  · rfl
  · simp [Action.runAt_bind, advanced]

theorem runAt_openScope :
    openScope.runAt level process =
      match process.cursor.expect with
      | (.ok brace, behind) =>
          if brace.token = .openBrace then
            (.ok (), process.advanced level behind process.memory.openScope
              { lines := [], events := [.scopeOpened process.memory.openScope.depth] })
          else (.error (.atSpan .missingBrace brace.span), { process with cursor := behind })
      | (.error fault, stopped) => (.error fault, { process with cursor := stopped }) := by
  unfold openScope
  rw [Action.runAt_bind, runAt_expect]
  rcases process.cursor.expect with ⟨fault | brace, behind⟩
  · rfl
  · by_cases isBrace : brace.token = .openBrace
    · simp [Action.runAt_bind, isBrace, advanced]
    · simp [isBrace]

theorem runAt_closeScope (brace : Span) :
    (closeScope brace).runAt level process =
      if process.memory.depth ≤ 1 then (.error (.atSpan .strayBrace brace), process)
      else
        (.ok (), process.advanced level process.cursor process.memory.closeScope.2
          { lines := [], events := [.scopeClosed process.memory.closeScope.2.depth] }) := by
  unfold closeScope
  rw [Action.runAt_bind, Action.runAt_get]
  by_cases shallow : process.memory.depth ≤ 1
  · simp [shallow]
  · simp [Action.runAt_bind, shallow, advanced]

theorem runAt_assign (target : String) :
    (assign target).runAt level process =
      match process.cursor.expect with
      | (.ok operator, after) =>
          if operator.token = .equals then
            match after.expect with
            | (.ok operand, last) =>
                match (Statement.assign target operand.text).exec process.memory with
                | .ok (changed, effects) => (.ok (), process.advanced level last changed effects)
                | .error fault => (.error fault, { process with cursor := last })
            | (.error fault, stopped) => (.error fault, { process with cursor := stopped })
          else (.error (.atSpan .missingEquals operator.span), { process with cursor := after })
      | (.error fault, stopped) => (.error fault, { process with cursor := stopped }) := by
  unfold assign
  rw [Action.runAt_bind, runAt_expect]
  rcases process.cursor.expect with ⟨fault | operator, after⟩
  · rfl
  · by_cases equals : operator.token = .equals
    · simp only [equals, if_true, Action.runAt_bind, runAt_expect]
      rcases after.expect with ⟨fault | operand, last⟩
      · rfl
      · -- the literal comes first, and only without one the name is read
        cases literal : Literal.parse? operand.text with
        | some value => simp [Statement.exec, Statement.operandValue, literal, advanced]
        | none =>
            cases found : process.memory.read operand.text with
            | some value => simp [Statement.exec, Statement.operandValue, literal, found,
                Action.runAt_bind, advanced]
            | none => simp [Statement.exec, Statement.operandValue, literal, found,
                Action.runAt_bind, advanced]
    · simp [equals]

/-- A statement is read and carried out on the memory; where it fails, nothing but
the cursor has changed. -/
theorem runAt_carryOut (first : Lexeme) :
    (carryOut first).runAt level process =
      match Statement.step first process.cursor process.memory with
      | (.ok (changed, effects), behind) =>
          (.ok (), process.advanced level behind changed effects)
      | (.error fault, stopped) => (.error fault, { process with cursor := stopped }) := by
  obtain ⟨token, span⟩ := first
  unfold carryOut Statement.step Statement.read
  cases token with
  | print =>
      dsimp only
      rw [runAt_print]
      rcases process.cursor.expect with ⟨fault | name, behind⟩ <;> rfl
  | scope =>
      dsimp only
      rw [runAt_openScope]
      rcases process.cursor.expect with ⟨fault | brace, behind⟩
      · rfl
      · by_cases isBrace : brace.token = .openBrace <;> simp [isBrace, Statement.exec]
  | closeBrace =>
      dsimp only
      rw [runAt_closeScope]
      by_cases shallow : process.memory.depth ≤ 1 <;> simp [shallow, Statement.exec]
  | openBrace | equals | word =>
      dsimp only
      rw [runAt_assign]
      rcases process.cursor.expect with ⟨fault | operator, after⟩
      · rfl
      · by_cases equals : operator.token = .equals
        · simp only [equals, if_true]
          rcases after.expect with ⟨fault | operand, last⟩
          · rfl
          · dsimp only
            rcases (Statement.assign _ operand.text).exec process.memory with
              fault | ⟨changed, effects⟩ <;> rfl
        · simp [equals]

variable {level process}

theorem carryOut_of_step_ok {first : Lexeme} {changed : Memory} {effects : Effects}
    {behind : Cursor}
    (h : Statement.step first process.cursor process.memory = (.ok (changed, effects), behind)) :
    (carryOut first).runAt level process =
      (.ok (), process.advanced level behind changed effects) := by
  rw [runAt_carryOut, h]

theorem step_of_carryOut_ok {first : Lexeme} {after : Process}
    (h : (carryOut first).runAt level process = (.ok (), after)) :
    ∃ changed effects behind,
      Statement.step first process.cursor process.memory = (.ok (changed, effects), behind) ∧
        after = process.advanced level behind changed effects := by
  rw [runAt_carryOut] at h
  rcases stepped : Statement.step first process.cursor process.memory with
    ⟨fault | ⟨changed, effects⟩, behind⟩
  · rw [stepped] at h
    cases h
  · rw [stepped] at h
    cases h
    exact ⟨changed, effects, behind, rfl, rfl⟩

theorem step_of_carryOut_error {first : Lexeme} {fault : Fault} {after : Process}
    (h : (carryOut first).runAt level process = (.error fault, after)) :
    ∃ stopped, Statement.step first process.cursor process.memory = (.error fault, stopped) ∧
      after = { process with cursor := stopped } := by
  rw [runAt_carryOut] at h
  rcases stepped : Statement.step first process.cursor process.memory with
    ⟨fault | ⟨changed, effects⟩, stopped⟩
  · rw [stepped] at h
    cases h
    exact ⟨stopped, rfl, rfl⟩
  · rw [stepped] at h
    cases h

variable (level process)

/-- A statement never moves the cursor back. -/
theorem carryOut_length_le (first : Lexeme) :
    ((carryOut first).runAt level process).2.cursor.rest.length ≤ process.cursor.rest.length := by
  have le := Statement.step_length_le first process.cursor process.memory
  rw [runAt_carryOut]
  rcases stepped : Statement.step first process.cursor process.memory with
    ⟨fault | ⟨changed, effects⟩, behind⟩
  all_goals
    rw [stepped] at le
    exact le

/-! ## Whole runs -/

/-- Record that a statement begins, and carry it out. -/
def statement (first : Lexeme) : Action Unit := do
  record (.statement first.text first.span.start)
  carryOut first

/-- The process once the first lexeme of a statement was read and recorded. -/
def begun (first : Lexeme) (behind : Cursor) : Process :=
  { process with
    cursor := behind
    events := process.events ++ Event.passing level [.statement first.text first.span.start] }

theorem runAt_statement (first : Lexeme) (behind : Cursor) :
    (statement first).runAt level { process with cursor := behind } =
      (carryOut first).runAt level (process.begun level first behind) := by
  unfold statement
  rw [Action.runAt_bind, runAt_record]
  rfl

theorem statement_length_le (first : Lexeme) (behind : Cursor) :
    ((statement first).runAt level { process with cursor := behind }).2.cursor.rest.length ≤
      behind.rest.length := by
  rw [runAt_statement]
  exact carryOut_length_le level (process.begun level first behind) first

/-- Carry out statements until no lexeme is left or one fails. -/
def loop (level : Log.Level) (process : Process) : Except Fault Unit × Process :=
  match read : process.cursor.next with
  | (none, stopped) => (.ok (), { process with cursor := stopped })
  | (some first, behind) =>
      match done : (statement first).runAt level { process with cursor := behind } with
      | (.error fault, after) => (.error fault, after)
      | (.ok (), after) =>
          have : after.cursor.rest.length < process.cursor.rest.length := by
            have le := statement_length_le level process first behind
            rw [done] at le
            exact Nat.lt_of_le_of_lt le (Cursor.next_length_lt read)
          loop level after
termination_by process.cursor.rest.length

/-- Carry out all statements that are left. -/
def statements : Action Unit := fun level process => loop level process

/-- Run the source from where the cursor is, in a scope of its own.  A scope is
closed when no lexeme is left, and none may be open then. -/
def script : Action Unit := do
  remember .openScope
  statements
  remember (·.closeScope.2)
  if (← get).memory.isOpen then throw .unclosedScope

/-- A statement is carried out, and if it succeeds, the rest follows. -/
theorem loop_of_next_some {level : Log.Level} {process : Process} {first : Lexeme}
    {behind : Cursor} (h : process.cursor.next = (some first, behind)) :
    loop level process =
      match (statement first).runAt level { process with cursor := behind } with
      | (.error fault, after) => (.error fault, after)
      | (.ok (), after) => loop level after := by
  rw [loop]
  split
  · simp_all
  · next read =>
      rw [h] at read
      cases read
      split <;> simp_all

end Process

end ScopeLang
