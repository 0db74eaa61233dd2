import ScopeLang.Fault
import ScopeLang.Literal
import ScopeLang.Memory
import ScopeLang.Token.Cursor

/-!
# Statements

A script is a flat sequence of statements: `print` with a name, `scope` with an
opening brace, a closing brace, or a target with an equals sign and an operand.
The first word decides which it is, and any word that is not `print`, `scope`
or a closing brace is a target.

This module says what a statement means.  `Statement.read` takes the words of one
statement off a cursor, `Statement.exec` gives the memory and the effects that come
of it, and `Statement.step` does one after the other.
-/

namespace ScopeLang

/-- One statement of a script. -/
inductive Statement where
  /-- Print the value of a name. -/
  | print (name : String)
  /-- Open a scope. -/
  | openScope
  /-- Close the innermost scope, by the brace at the given place. -/
  | closeScope (brace : Span)
  /-- Give a name the value of a literal or of another name. -/
  | assign (target operand : String)
deriving DecidableEq, Repr

/-- What statements bring forth beside their effect on the memory. -/
structure Effects where
  /-- The lines that were printed. -/
  lines : List String
  /-- What there is to record. -/
  events : List Event
deriving DecidableEq, Repr

namespace Effects

/-- No effects. -/
def empty : Effects where
  lines := []
  events := []

/-- Effects one after the other. -/
def append (first second : Effects) : Effects where
  lines := first.lines ++ second.lines
  events := first.events ++ second.events

instance : Append Effects where
  append := append

@[simp] theorem lines_append (first second : Effects) :
    (first ++ second).lines = first.lines ++ second.lines := rfl

@[simp] theorem events_append (first second : Effects) :
    (first ++ second).events = first.events ++ second.events := rfl

end Effects

/-- Read a lexeme that the statement cannot do without. -/
def Cursor.expect (cursor : Cursor) : Except Fault Lexeme × Cursor :=
  match cursor.next with
  | (some lexeme, after) => (.ok lexeme, after)
  | (none, after) => (.error .endOfInput, after)

/-- Reading never moves a cursor back. -/
theorem Cursor.expect_length_le (cursor : Cursor) :
    cursor.expect.2.rest.length ≤ cursor.rest.length := by
  have le := cursor.next_length_le
  unfold expect
  split <;> simp_all

namespace Statement

/-- Read the statement that begins with `first`.  The cursor stops behind the
last lexeme that was read, also where that lexeme is at fault. -/
def read (first : Lexeme) (cursor : Cursor) : Except Fault Statement × Cursor :=
  match first.token with
  | .print =>
      match cursor.expect with
      | (.ok name, after) => (.ok (.print name.text), after)
      | (.error fault, after) => (.error fault, after)
  | .scope =>
      match cursor.expect with
      | (.ok brace, after) =>
          if brace.token = .openBrace then (.ok .openScope, after)
          else (.error (.atSpan .missingBrace brace.span), after)
      | (.error fault, after) => (.error fault, after)
  | .closeBrace => (.ok (.closeScope first.span), cursor)
  | target =>
      match cursor.expect with
      | (.ok operator, after) =>
          if operator.token = .equals then
            match after.expect with
            | (.ok operand, last) => (.ok (.assign target.text operand.text), last)
            | (.error fault, last) => (.error fault, last)
          else (.error (.atSpan .missingEquals operator.span), after)
      | (.error fault, after) => (.error fault, after)

/-- The value of an operand: that of a literal, else that of a name. -/
def operandValue (operand : String) (memory : Memory) : Option Int64 :=
  (Literal.parse? operand).or (memory.read operand)

/-- The line that is printed for a name's value. -/
def shown : Option Int64 → String
  | some value => Literal.render value
  | none => "null"

/-- Carry out a statement.  Only a closing brace can fail: the outermost scope
is not closed by a brace. -/
def exec (statement : Statement) (memory : Memory) : Except Fault (Memory × Effects) :=
  match statement with
  | .print name => .ok (memory, { lines := [shown (memory.read name)], events := [] })
  | .openScope =>
      .ok (memory.openScope, { lines := [], events := [.scopeOpened memory.openScope.depth] })
  | .closeScope brace =>
      if memory.depth ≤ 1 then .error (.atSpan .strayBrace brace)
      else
        .ok (memory.closeScope.2,
          { lines := [], events := [.scopeClosed memory.closeScope.2.depth] })
  | .assign target operand =>
      match operandValue operand memory with
      | some value =>
          .ok ((memory.write target value).1,
            { lines := [], events := (memory.write target value).2 })
      | none => .ok (memory, { lines := [], events := [.assignmentSkipped target operand] })

/-- Read the statement that begins with `first` and carry it out. -/
def step (first : Lexeme) (cursor : Cursor) (memory : Memory) :
    Except Fault (Memory × Effects) × Cursor :=
  match read first cursor with
  | (.ok statement, after) => (statement.exec memory, after)
  | (.error fault, after) => (.error fault, after)

/-! ## Progress -/

/-- Reading a statement never moves a cursor back. -/
theorem read_length_le (first : Lexeme) (cursor : Cursor) :
    (read first cursor).2.rest.length ≤ cursor.rest.length := by
  have one := cursor.expect_length_le
  unfold read
  split
  · split <;> simp_all
  · split
    · split <;> simp_all
    · simp_all
  · simp
  · split
    · next operator after heq =>
        have two := after.expect_length_le
        rw [heq] at one
        split
        · split
          · next h => rw [h] at two; exact Nat.le_trans two one
          · next h => rw [h] at two; exact Nat.le_trans two one
        · exact one
    · simp_all

/-- A step never moves a cursor back. -/
theorem step_length_le (first : Lexeme) (cursor : Cursor) (memory : Memory) :
    (step first cursor memory).2.rest.length ≤ cursor.rest.length := by
  have le := read_length_le first cursor
  unfold step
  split <;> simp_all

end Statement

end ScopeLang
