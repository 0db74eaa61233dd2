import ScopeLang.Proofs.Printing
import ScopeLang.Proofs.Steps
import ScopeLang.Proofs.Stopping

/-!
# Statements are atomic

A statement reads its lexemes one at a time and can fail at each of them, and what
an action has changed before it fails stays changed.  But no statement changes
anything before it has read all its lexemes and made all its checks.

* **Failure**: a statement that fails moves the cursor and changes nothing else
  (`Process.failed_carryOut`).
* **Frame**: a statement that succeeds changes what its form allows and nothing
  else (`Process.performs_carryOut`).
-/

namespace ScopeLang

open Statement

/-! ## What a statement leaves alone -/

/-- `LeftAt source cursor fault stopped`: a fault that was met behind the cursor
has left it right behind the lexeme at fault, or at the end of the source. -/
inductive LeftAt (source : String) (cursor : Cursor) : Fault → Cursor → Prop
  | behind {kind : Fault.Kind} {lexeme : Lexeme} {done : List Lexeme} {stopped : Cursor} :
      cursor.lexemes = done ++ lexeme :: stopped.lexemes → stopped.offset = lexeme.span.stop →
      LeftAt source cursor (.atSpan kind lexeme.span) stopped
  | atEnd {fault : Fault} {stopped : Cursor} :
      fault.span = none → stopped.rest = [] → stopped.offset = source.utf8ByteSize →
      LeftAt source cursor fault stopped

namespace Process

/-- Nothing is printed, and what is held stays. -/
structure Silent (before after : Process) : Prop where
  stdout : after.stdout = before.stdout
  capture : after.capture = before.capture

/-- Two processes that differ at most in how far they have read. -/
structure Untouched (before after : Process) : Prop extends Silent before after where
  frames : after.memory.frames = before.memory.frames
  events : after.events = before.events

/-- One line goes to standard output, or it is held behind what was held. -/
structure Prints (line : String) (before after : Process) : Prop where
  oneLine : '\n' ∉ line.toList
  goes :
    match before.capture.held with
    | none => after.stdout = before.stdout ++ (line ++ "\n") ∧ after.capture = before.capture
    | some held =>
        after.stdout = before.stdout ∧ after.capture.held = some (held ++ (line ++ "\n"))

end Process

/-- Two memories that differ at most in what the innermost frame binds a name to,
and there the second one has the value. -/
def Memory.Rebinds (name : String) (value : Int64) (before after : Memory) : Prop :=
  ∃ innermost changed outer, before.frames = innermost :: outer ∧ after.frames = changed :: outer ∧
    changed.get? name = some value ∧
    ∀ other, other ≠ name → changed.get? other = innermost.get? other

namespace Process

/-- `Performs before after statement`: what a statement does to a process, by its
form. -/
inductive Performs (before after : Process) : Statement → Prop
  | openScope : after.memory.frames = .empty :: before.memory.frames →
      Silent before after → Performs before after .openScope
  | closeScope {brace : Span} {innermost : Frame} :
      before.memory.frames = innermost :: after.memory.frames → after.memory.frames ≠ [] →
      Silent before after → Performs before after (.closeScope brace)
  | print {name : String} : after.memory.frames = before.memory.frames →
      Prints (shown (before.memory.read name)) before after →
      Performs before after (.print name)
  | assign {target operand : String} {value : Int64} :
      Literal.parse? operand = some value ∨
        Literal.parse? operand = none ∧ before.memory.read operand = some value →
      before.memory.Rebinds target value after.memory → Silent before after →
      Performs before after (.assign target operand)
  | skip {target operand : String} :
      Literal.parse? operand = none → before.memory.read operand = none →
      after.memory.frames = before.memory.frames → Silent before after →
      Performs before after (.assign target operand)

theorem Silent.advanced {effects : Effects} (nothing : effects.lines = []) (before : Process)
    (level : Log.Level) (behind : Cursor) (changed : Memory) :
    Silent before (before.advanced level behind changed effects) := by
  constructor <;> simp [Process.advanced, nothing]

theorem Prints.advanced {line : String} (oneLine : '\n' ∉ line.toList) (before : Process)
    (level : Log.Level) (behind : Cursor) (changed : Memory) (events : List Event) :
    Prints line before
      (before.advanced level behind changed { lines := [line], events := events }) := by
  refine ⟨oneLine, ?_⟩
  unfold Process.advanced
  rw [Text.unlines_singleton]
  obtain ⟨_, _, ⟨_ | held⟩, stdout, _⟩ := before
  · exact ⟨rfl, rfl⟩
  · exact ⟨String.append_empty, rfl⟩

end Process

theorem StopsAt.leftAt {source : String} {cursor stopped : Cursor} {fault : Fault}
    (h : StopsAt cursor fault stopped) (within : stopped.Within source) :
    LeftAt source cursor fault stopped := by
  cases h with
  | atEnd noSpan nothing => exact .atEnd noSpan nothing (within.offset_of_rest_nil nothing)
  | behind left read =>
      rw [Cursor.lexemes_of_next_some read] at left
      obtain ⟨done, whole⟩ := left
      exact .behind whole.symm (Cursor.offset_of_next read)

theorem Memory.rebinds_write {memory : Memory} (isOpen : 0 < memory.depth) (name : String)
    (value : Int64) : memory.Rebinds name value (memory.write name value).1 := by
  obtain ⟨frames⟩ := memory
  cases frames with
  | nil => exact absurd isOpen (Nat.lt_irrefl 0)
  | cons innermost outer =>
      refine ⟨innermost, innermost.insert name value, outer, rfl, rfl, by simp, ?_⟩
      intro other differs
      simp [differs]

theorem Memory.frames_closeScope {memory : Memory} (deep : 1 < memory.depth) :
    ∃ innermost, memory.frames = innermost :: memory.closeScope.2.frames ∧
      memory.closeScope.2.frames ≠ [] := by
  obtain ⟨frames⟩ := memory
  rcases frames with _ | ⟨innermost, _ | ⟨next, outer⟩⟩
  · exact absurd deep (Nat.not_lt_zero 1)
  · exact absurd deep (Nat.lt_irrefl 1)
  · exact ⟨innermost, rfl, List.cons_ne_nil next outer⟩

/-! ## One statement -/

namespace Process

/-- **Failure.** A statement that fails moves the cursor and changes nothing else. -/
theorem failed_carryOut {level : Log.Level} {source : String} {cursor : Cursor} {first : Lexeme}
    {before after : Process} {fault : Fault} (within : cursor.Within source)
    (fetched : cursor.next = (some first, before.cursor)) (isOpen : 0 < before.memory.depth)
    (failed : (carryOut first).runAt level before = (.error fault, after)) :
    Fails 0 (before.memory.depth - 1) cursor.lexemes fault ∧ Untouched before after ∧
      LeftAt source cursor fault after.cursor := by
  have behindFirst : before.cursor.Within source := by
    have kept := within.next
    rw [fetched] at kept
    exact kept
  have stillWithin := step_keeps (fun _ => Cursor.Within.next) first before.memory behindFirst
  obtain ⟨stopped, stepped, rfl⟩ := step_of_carryOut_error failed
  rw [stepped] at stillWithin
  exact ⟨fails_of_step isOpen fetched stepped, ⟨⟨rfl, rfl⟩, rfl, rfl⟩,
    (step_stopsAt fetched stepped).leftAt stillWithin⟩

/-- **Frame.** A statement that succeeds changes what its form allows and nothing
else. -/
theorem performs_carryOut {level : Log.Level} {first : Lexeme} {before after : Process}
    (isOpen : 0 < before.memory.depth)
    (succeeded : (carryOut first).runAt level before = (.ok (), after)) :
    ∃ statement words, statement.Written first words ∧
      before.cursor.lexemes = words ++ after.cursor.lexemes ∧
      Performs before after statement := by
  obtain ⟨changed, effects, behind, stepped, rfl⟩ := step_of_carryOut_ok succeeded
  obtain ⟨statement, reading, executed⟩ := step_eq_ok_iff.1 stepped
  obtain ⟨words, written, whole⟩ := written_of_read reading
  refine ⟨statement, words, written, whole, ?_⟩
  have silent (nothing : effects.lines = []) := Silent.advanced nothing before level behind changed
  cases exec_eq_ok_iff.1 executed with
  | print name => exact .print rfl (.advanced (isLine_shown _).1 before level behind _ [])
  | openScope => exact .openScope rfl (silent rfl)
  | closeScope brace deep =>
      obtain ⟨innermost, frames, still⟩ := Memory.frames_closeScope deep
      exact .closeScope frames still (silent rfl)
  | @write target operand value found =>
      exact .assign (operandValue_eq_some found) (Memory.rebinds_write isOpen target value)
        (silent rfl)
  | @skip target operand missing =>
      obtain ⟨literal, unset⟩ := Option.or_eq_none_iff.1 missing
      exact .skip literal unset rfl (silent rfl)

/-- What can be said of a statement whose first lexeme was read in a process, where
`before` is the process as the statement finds it. -/
structure Atomic (level : Log.Level) (source : String) (process : Process) (first : Lexeme)
    (before : Process) : Prop where
  partOfRun : loop level process =
    match (carryOut first).runAt level before with
    | (.error fault, after) => (.error fault, after)
    | (.ok (), after) => loop level after
  failed : ∀ fault after, (carryOut first).runAt level before = (.error fault, after) →
    Fails 0 (process.memory.depth - 1) process.cursor.lexemes fault ∧ Untouched before after ∧
      LeftAt source process.cursor fault after.cursor
  succeeded : ∀ after, (carryOut first).runAt level before = (.ok (), after) →
    ∃ statement words, statement.Written first words ∧
      before.cursor.lexemes = words ++ after.cursor.lexemes ∧ Performs before after statement

/-- **Atomicity.** A run carries out one statement after the other.  Whatever scopes
are open and whatever is held, a statement that fails leaves all frames and all
output as they were, and one that succeeds opens a scope, or closes the innermost
one, or prints one line, or binds its target in the innermost frame, or does
nothing. -/
theorem carryOut_atomic (level : Log.Level) (source : String) (process : Process)
    (first : Lexeme) (behind : Cursor) (within : process.cursor.Within source)
    (fetched : process.cursor.next = (some first, behind)) (isOpen : 0 < process.memory.depth) :
    Atomic level source process first (process.begun level first behind) := by
  have stillOpen : 0 < (process.begun level first behind).memory.depth := isOpen
  refine ⟨?_, ?_, ?_⟩
  · have begins : loop level process = _ := loop_of_next_some fetched
    rw [runAt_statement] at begins
    exact begins
  · intro fault after failed
    exact failed_carryOut within fetched stillOpen failed
  · intro after succeeded
    exact performs_carryOut stillOpen succeeded

/-- A process in which two frames bind a name, while text is held. -/
def shadowing (source : String) : Process where
  cursor := .ofSource source
  memory :=
    { frames := [Frame.empty.insert "x" 2, (Frame.empty.insert "x" 1).insert "y" 7] }
  capture := { held := some "5\n" }
  stdout := "4\n"
  events := []

/-- A copy is made in the inner one of the two frames, and without its operand not
at all. -/
theorem carryOut_atomic_copying :
    Atomic .warn "x = y" (shadowing "x = y")
        { token := .word "x", span := { start := 0, stop := 1 } }
        { shadowing "x = y" with cursor := { rest := " = y".toList, offset := 1 } } ∧
      (carryOut { token := .word "x", span := { start := 0, stop := 1 } }).runAt .warn
          { shadowing "x = y" with cursor := { rest := " = y".toList, offset := 1 } } =
        (.ok (),
         { shadowing "x = y" with
           cursor := { rest := [], offset := 5 }
           memory :=
             { frames := [Frame.empty.insert "x" 7, (Frame.empty.insert "x" 1).insert "y" 7] } }) ∧
      Atomic .warn "x = " (shadowing "x = ")
        { token := .word "x", span := { start := 0, stop := 1 } }
        { shadowing "x = " with cursor := { rest := " = ".toList, offset := 1 } } ∧
      (carryOut { token := .word "x", span := { start := 0, stop := 1 } }).runAt .warn
          { shadowing "x = " with cursor := { rest := " = ".toList, offset := 1 } } =
        (.error .endOfInput,
         { shadowing "x = " with cursor := { rest := [], offset := 4 } }) := by
  have isOpen (source : String) : 0 < (shadowing source).memory.depth := Nat.zero_lt_succ 1
  have within (source : String) : (shadowing source).cursor.Within source := .ofSource source
  refine ⟨?_, by rfl, ?_, by rfl⟩
  · exact carryOut_atomic .warn "x = y" (shadowing "x = y") _ _ (within _) (by decide) (isOpen _)
  · exact carryOut_atomic .warn "x = " (shadowing "x = ") _ _ (within _) (by decide) (isOpen _)

end Process

end ScopeLang
