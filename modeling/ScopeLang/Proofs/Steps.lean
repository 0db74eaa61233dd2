import ScopeLang.Proofs.Runs
import ScopeLang.Proofs.Script

/-!
# An execution, statement by statement

`Advances` leads from one point of an execution to a later one, over the
statements that were carried out in between.

* **Progress**: an execution advances as far as it can, and stops where no
  lexeme is left or where the next statement fails (`execute_stops`).
* **Middle**: an execution goes on from every point that it advances to
  (`Advances.execute_eq`).
* **Processes**: a run comes to these points and to no others
  (`Process.reaches_iff`).
-/

namespace ScopeLang

/-- `Advances cursor memory statements effects stop changed`: the statements are
read from the cursor on and carried out, with the effects. -/
inductive Advances : Cursor → Memory → List Statement → Effects → Cursor → Memory → Prop
  | here (cursor : Cursor) (memory : Memory) : Advances cursor memory [] .empty cursor memory
  | next {cursor rest behind stop : Cursor} {memory changed final : Memory} {first : Lexeme}
      {statement : Statement} {statements : List Statement} {effects further : Effects} :
      cursor.next = (some first, rest) → Statement.read first rest = (.ok statement, behind) →
      statement.exec memory = .ok (changed, effects) →
      Advances behind changed statements further stop final →
      Advances cursor memory (statement :: statements) (Execution.begun first ++ effects ++ further)
        stop final

/-- `Stops cursor memory effects execution`: no statement more is carried out,
and with the effects so far the execution is over. -/
inductive Stops (cursor : Cursor) (memory : Memory) (effects : Effects) : Execution → Prop
  /-- No lexeme is left. -/
  | usedUp {left : Cursor} : cursor.next = (none, left) →
      Stops cursor memory effects
        { fault := none, cursor := left, memory := memory, effects := effects }
  /-- The next statement fails. -/
  | failed {first : Lexeme} {rest left : Cursor} {fault : Fault} :
      cursor.next = (some first, rest) →
      Statement.step first rest memory = (.error fault, left) →
      Stops cursor memory effects
        { fault := some fault, cursor := left, memory := memory,
          effects := effects ++ Execution.begun first }

theorem Statement.step_eq_ok_iff {first : Lexeme} {cursor behind : Cursor} {memory : Memory}
    {outcome : Memory × Effects} :
    step first cursor memory = (.ok outcome, behind) ↔
      ∃ statement, read first cursor = (.ok statement, behind) ∧
        statement.exec memory = .ok outcome := by
  unfold step
  rcases read first cursor with ⟨fault | statement, left⟩
  · simp
  · constructor
    · intro stepped
      obtain ⟨executed, rfl⟩ := Prod.mk.inj stepped
      exact ⟨statement, rfl, executed⟩
    · rintro ⟨_, ⟨⟩, executed⟩
      show (statement.exec memory, behind) = _
      rw [executed]

theorem Stops.after {cursor : Cursor} {memory : Memory} {effects : Effects} {execution : Execution}
    (h : Stops cursor memory effects execution) (earlier : Effects) :
    Stops cursor memory (earlier ++ effects) (execution.after earlier) := by
  cases h with
  | usedUp nothing => exact .usedUp nothing
  | failed read stepped =>
      unfold Execution.after
      rw [← Effects.append_assoc]
      exact .failed read stepped

/-- An execution prints what it has printed up to where it stops. -/
theorem Stops.lines {stop : Cursor} {memory : Memory} {effects : Effects} {execution : Execution}
    (h : Stops stop memory effects execution) : execution.effects.lines = effects.lines := by
  cases h with
  | usedUp _ => rfl
  | failed _ _ => exact List.append_nil _

/-- **Progress.** An execution carries out statements until it stops. -/
theorem execute_stops (cursor : Cursor) (memory : Memory) :
    ∃ statements effects stop changed,
      Advances cursor memory statements effects stop changed ∧
        Stops stop changed effects (execute cursor memory) := by
  fun_induction execute cursor memory with
  | case1 cursor memory stopped read =>
      exact ⟨[], .empty, cursor, memory, .here cursor memory, .usedUp read⟩
  | case2 cursor memory first rest read fault stopped stepped =>
      exact ⟨[], .empty, cursor, memory, .here cursor memory, .failed read stepped⟩
  | case3 cursor memory first rest read changed effects next stepped _ ih =>
      obtain ⟨statements, further, stop, final, advances, stops⟩ := ih
      obtain ⟨statement, reading, executed⟩ := Statement.step_eq_ok_iff.1 stepped
      exact ⟨statement :: statements, _, stop, final, .next read reading executed advances,
        stops.after _⟩

theorem Execution.after_after (first second : Effects) (execution : Execution) :
    (execution.after second).after first = execution.after (first ++ second) := by
  unfold after
  rw [Effects.append_assoc]

/-- **Middle.** What is brought forth up to a point stays, whatever comes of the
rest. -/
theorem Advances.execute_eq {cursor stop : Cursor} {memory changed : Memory}
    {statements : List Statement} {effects : Effects}
    (h : Advances cursor memory statements effects stop changed) :
    execute cursor memory = (execute stop changed).after effects := by
  induction h with
  | here cursor memory => rfl
  | next read reading executed _ ih =>
      have stepped := Statement.step_eq_ok_iff.2 ⟨_, reading, executed⟩
      rw [execute_of_step_ok read stepped, ih, Execution.after_after]

/-! ## Processes -/

namespace Process

/-- `Reaches level process later`: a run carries out statements until the process has
become `later`, where it is about to read the next one. -/
inductive Reaches (level : Log.Level) : Process → Process → Prop
  | here (process : Process) : Reaches level process process
  | next {process after later : Process} {first : Lexeme} {behind : Cursor} :
      process.cursor.next = (some first, behind) →
      (statement first).runAt level { process with cursor := behind } = (.ok (), after) →
      Reaches level after later → Reaches level process later

theorem exists_advances_of_reaches {level : Log.Level} {process later : Process}
    (h : Reaches level process later) :
    ∃ statements effects, Advances process.cursor process.memory statements effects later.cursor
        later.memory ∧
      later = process.advanced level later.cursor later.memory effects := by
  induction h with
  | here process => exact ⟨[], .empty, .here _ _, (advanced_nothing level process _ _).symm⟩
  | @next process after later first behind read done _ ih =>
      obtain ⟨statements, further, advances, whole⟩ := ih
      obtain ⟨changed, effects, next, stepped, rfl⟩ := step_of_statement_ok done
      obtain ⟨statement, reading, executed⟩ := Statement.step_eq_ok_iff.1 stepped
      refine ⟨statement :: statements, _, .next read reading executed advances, ?_⟩
      rw [whole]
      exact advanced_advanced ..

theorem Reaches.of_advances (level : Log.Level) {cursor stop : Cursor} {memory changed : Memory}
    {statements : List Statement} {effects : Effects}
    (h : Advances cursor memory statements effects stop changed) (process : Process)
    (atCursor : process.cursor = cursor) (withMemory : process.memory = memory) :
    Reaches level process (process.advanced level stop changed effects) := by
  induction h generalizing process with
  | here cursor memory =>
      cases atCursor
      cases withMemory
      rw [advanced_nothing]
      exact .here process
  | @next cursor rest behind stop memory changed final first statement statements effects further
      read reading executed _ ih =>
      cases atCursor
      cases withMemory
      have stepped := Statement.step_eq_ok_iff.2 ⟨_, reading, executed⟩
      rw [← advanced_advanced level process behind stop changed]
      exact .next read (statement_of_step_ok stepped) (ih _ rfl rfl)

/-- **Processes.** A run comes to the points that the execution advances to, with
what was brought forth up to there. -/
theorem reaches_iff {level : Log.Level} {process later : Process} :
    Reaches level process later ↔
      ∃ statements effects, Advances process.cursor process.memory statements effects later.cursor
          later.memory ∧
        later = process.advanced level later.cursor later.memory effects := by
  constructor
  · exact exists_advances_of_reaches
  · rintro ⟨statements, effects, advances, whole⟩
    rw [whole]
    exact .of_advances level advances process rfl rfl

end Process

end ScopeLang
