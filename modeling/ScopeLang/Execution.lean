import ScopeLang.Statement

/-!
# Execution of a script

What the statements of a source mean, one after the other, until the source is
used up or a statement fails.  Nothing is read ahead of a statement, so a fault
leaves the cursor behind the lexeme at fault and the memory as it was before the
failing statement.
-/

namespace ScopeLang

/-- How far an execution came, and what it brought forth. -/
structure Execution where
  /-- The fault that stopped it, if any. -/
  fault : Option Fault
  /-- Where reading stopped. -/
  cursor : Cursor
  /-- The memory at the end. -/
  memory : Memory
  /-- All lines and events, in order. -/
  effects : Effects
deriving DecidableEq

namespace Execution

/-- The record of a statement that begins with a lexeme. -/
def begun (first : Lexeme) : Effects where
  lines := []
  events := [.statement first.text first.span.start]

/-- An execution with more effects in front. -/
def after (earlier : Effects) (execution : Execution) : Execution :=
  { execution with effects := earlier ++ execution.effects }

end Execution

/-- Execute all statements from a cursor on. -/
def execute (cursor : Cursor) (memory : Memory) : Execution :=
  match read : cursor.next with
  | (none, stopped) =>
      { fault := none, cursor := stopped, memory := memory, effects := .empty }
  | (some first, rest) =>
      match stepped : Statement.step first rest memory with
      | (.error fault, stopped) =>
          { fault := some fault, cursor := stopped, memory := memory,
            effects := Execution.begun first }
      | (.ok (changed, effects), next) =>
          have : next.rest.length < cursor.rest.length := by
            have lt := Cursor.next_length_lt read
            have le := Statement.step_length_le first rest memory
            rw [stepped] at le
            exact Nat.lt_of_le_of_lt le lt
          (execute next changed).after (Execution.begun first ++ effects)
termination_by cursor.rest.length

/-! ## One statement at a time -/

/-- A source that is used up executes to nothing. -/
theorem execute_of_next_none {cursor stopped : Cursor} (memory : Memory)
    (h : cursor.next = (none, stopped)) :
    execute cursor memory =
      { fault := none, cursor := stopped, memory := memory, effects := .empty } := by
  rw [execute]
  split <;> simp_all

/-- A failing statement stops the execution and leaves the memory as it was. -/
theorem execute_of_step_error {cursor rest stopped : Cursor} {memory : Memory}
    {first : Lexeme} {fault : Fault} (h : cursor.next = (some first, rest))
    (hs : Statement.step first rest memory = (.error fault, stopped)) :
    execute cursor memory =
      { fault := some fault, cursor := stopped, memory := memory,
        effects := Execution.begun first } := by
  rw [execute]
  split
  · simp_all
  · next heq =>
      rw [h] at heq
      cases heq
      split <;> simp_all

/-- A statement that succeeds is followed by the execution of the rest. -/
theorem execute_of_step_ok {cursor rest next : Cursor} {memory changed : Memory}
    {first : Lexeme} {effects : Effects} (h : cursor.next = (some first, rest))
    (hs : Statement.step first rest memory = (.ok (changed, effects), next)) :
    execute cursor memory =
      (execute next changed).after (Execution.begun first ++ effects) := by
  rw [execute]
  split
  · simp_all
  · next heq =>
      rw [h] at heq
      cases heq
      split <;> simp_all

end ScopeLang
