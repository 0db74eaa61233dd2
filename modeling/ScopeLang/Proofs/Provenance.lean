import ScopeLang.Proofs.Observations
import ScopeLang.Proofs.Steps

/-!
# Where values come from

A script computes nothing.  A value enters the memory as a literal and is copied
from there, so whatever is held or printed was once written in the source.

* **One statement**: a statement leaves no value in any frame that was not
  introduced by it or by an earlier one (`Statement.grounded_of_exec`), and prints
  a line only if it is a `print` statement (`Statement.accounts_of_exec`).
* **A run**: the same holds of all statements from one point of an execution to
  another (`Advances.grounded`, `Advances.accounts`), and these statements are
  written one after the other in the source (`Advances.written`).
-/

namespace ScopeLang

open Statement

/-- One of some statements assigns a literal of the value. -/
def Statement.Introduces (statements : List Statement) (value : Int64) : Prop :=
  ∃ target operand, .assign target operand ∈ statements ∧ Literal.parse? operand = some value

/-- Every value of every frame was introduced by one of some statements. -/
def Memory.Grounded (memory : Memory) (statements : List Statement) : Prop :=
  ∀ frame ∈ memory.frames, ∀ name value, frame.get? name = some value →
    Introduces statements value

/-- What a `print` statement can show behind some others. -/
inductive Statement.CanShow (earlier : List Statement) : String → Prop
  | unset : CanShow earlier "null"
  | value {value : Int64} : Introduces earlier value → CanShow earlier (toString value.toInt)

/-- Whether a statement prints a line. -/
def Statement.prints : Statement → Bool
  | .print _ => true
  | _ => false

/-- `Accounts earlier statements lines`: behind the earlier ones, each of the
statements that prints has one of the lines, in order, and there are no others. -/
inductive Accounts : List Statement → List Statement → List String → Prop
  | nil {earlier : List Statement} : Accounts earlier [] []
  | print {earlier statements : List Statement} {name line : String} {lines : List String} :
      CanShow earlier line → Accounts (earlier ++ [.print name]) statements lines →
      Accounts earlier (.print name :: statements) (line :: lines)
  | silent {earlier statements : List Statement} {statement : Statement} {lines : List String} :
      statement.prints = false → Accounts (earlier ++ [statement]) statements lines →
      Accounts earlier (statement :: statements) lines

theorem Accounts.length {earlier statements : List Statement} {lines : List String}
    (h : Accounts earlier statements lines) : lines.length = statements.countP prints := by
  induction h with
  | nil => rfl
  | print _ _ ih =>
      rw [List.length_cons, ih, List.countP_cons]
      rfl
  | silent quiet _ ih => rw [ih, List.countP_cons, quiet]; rfl

/-! ## Values that are grounded -/

namespace Memory

theorem Grounded.mono {memory : Memory} {statements more : List Statement}
    (h : memory.Grounded statements) (within : statements ⊆ more) : memory.Grounded more := by
  intro frame mem name value bound
  obtain ⟨target, operand, assigned, literal⟩ := h frame mem name value bound
  exact ⟨target, operand, within assigned, literal⟩

theorem Grounded.read {memory : Memory} {statements : List Statement} (h : memory.Grounded statements)
    {name : String} {value : Int64} (found : memory.read name = some value) :
    Introduces statements value := by
  obtain ⟨frame, mem, bound⟩ := List.exists_of_findSome?_eq_some found
  exact h frame mem name value bound

theorem Grounded.openScope {memory : Memory} {statements : List Statement}
    (h : memory.Grounded statements) : memory.openScope.Grounded statements := by
  intro frame mem name value bound
  rcases List.mem_cons.1 mem with rfl | outer
  · rw [Frame.get?_empty] at bound
    cases bound
  · exact h frame outer name value bound

theorem Grounded.closeScope {memory : Memory} {statements : List Statement}
    (h : memory.Grounded statements) : memory.closeScope.2.Grounded statements := by
  obtain ⟨frames⟩ := memory
  cases frames with
  | nil => exact h
  | cons innermost outer => exact fun frame mem => h frame (List.mem_cons_of_mem _ mem)

theorem Grounded.write {memory : Memory} {statements : List Statement}
    (h : memory.Grounded statements) {value : Int64} (introduced : Introduces statements value)
    (name : String) : (memory.write name value).1.Grounded statements := by
  obtain ⟨frames⟩ := memory
  cases frames with
  | nil => exact h
  | cons innermost outer =>
      intro frame mem other found bound
      rcases List.mem_cons.1 mem with rfl | below
      · rw [Frame.get?_insert] at bound
        split at bound
        · cases bound
          exact introduced
        · exact h innermost List.mem_cons_self other found bound
      · exact h frame (List.mem_cons_of_mem _ below) other found bound

end Memory

/-! ## One statement -/

namespace Statement

theorem introduces_of_operandValue {earlier : List Statement} {memory : Memory}
    (grounded : memory.Grounded earlier) {target operand : String} {value : Int64}
    (found : operandValue operand memory = some value) :
    Introduces (earlier ++ [.assign target operand]) value := by
  rcases operandValue_eq_some found with literal | ⟨-, set⟩
  · exact ⟨target, operand, by simp, literal⟩
  · -- a copy: its value was introduced before
    obtain ⟨target, operand, assigned, literal⟩ := grounded.read set
    exact ⟨target, operand, List.mem_append_left _ assigned, literal⟩

theorem grounded_of_exec {statement : Statement} {earlier : List Statement}
    {memory changed : Memory} {effects : Effects}
    (h : statement.exec memory = .ok (changed, effects)) (grounded : memory.Grounded earlier) :
    changed.Grounded (earlier ++ [statement]) := by
  have kept := grounded.mono (List.subset_append_left earlier [statement])
  cases exec_eq_ok_iff.1 h with
  | print name => exact kept
  | openScope => exact kept.openScope
  | closeScope brace _ => exact kept.closeScope
  | write target found => exact kept.write (introduces_of_operandValue grounded found) target
  | skip target _ => exact kept

theorem canShow_of_read {earlier : List Statement} {memory : Memory}
    (grounded : memory.Grounded earlier) (name : String) :
    CanShow earlier (shown (memory.read name)) := by
  cases found : memory.read name with
  | none => exact .unset
  | some value =>
      show CanShow earlier (Literal.render value)
      rw [Literal.render_eq_toString]
      exact .value (grounded.read found)

theorem accounts_of_exec {statement : Statement} {earlier statements : List Statement}
    {memory changed : Memory} {effects : Effects} {lines : List String}
    (h : statement.exec memory = .ok (changed, effects)) (grounded : memory.Grounded earlier)
    (later : Accounts (earlier ++ [statement]) statements lines) :
    Accounts earlier (statement :: statements) (effects.lines ++ lines) := by
  cases exec_eq_ok_iff.1 h with
  | print name => exact .print (canShow_of_read grounded name) later
  | openScope => exact .silent rfl later
  | closeScope brace _ => exact .silent rfl later
  | write target _ => exact .silent rfl later
  | skip target _ => exact .silent rfl later

end Statement

/-! ## From one point of an execution to another -/

namespace Advances

variable {cursor stop : Cursor} {memory changed : Memory} {statements : List Statement}
  {effects : Effects}

theorem grounded (h : Advances cursor memory statements effects stop changed)
    {earlier : List Statement} (start : memory.Grounded earlier) :
    changed.Grounded (earlier ++ statements) := by
  induction h generalizing earlier with
  | here cursor memory =>
      rw [List.append_nil]
      exact start
  | @next _ _ _ _ _ _ _ _ statement statements _ _ _ _ executed _ ih =>
      rw [← List.singleton_append, ← List.append_assoc]
      exact ih (grounded_of_exec executed start)

theorem accounts (h : Advances cursor memory statements effects stop changed)
    {earlier : List Statement} (start : memory.Grounded earlier) :
    Accounts earlier statements effects.lines := by
  induction h generalizing earlier with
  | here cursor memory => exact .nil
  | next _ _ executed _ ih =>
      -- the record of its beginning adds no line to those of the statement
      have whole := accounts_of_exec executed start (ih (grounded_of_exec executed start))
      exact whole

/-- The statements that were carried out are those that stand between the two
points. -/
theorem written (h : Advances cursor memory statements effects stop changed) :
    ∃ done, WrittenAll statements done ∧ cursor.lexemes = done ++ stop.lexemes := by
  induction h with
  | here cursor memory => exact ⟨[], .nil, rfl⟩
  | @next _ _ _ _ _ _ _ first _ _ _ _ read reading _ _ ih =>
      obtain ⟨words, one, behind⟩ := written_of_read reading
      obtain ⟨done, others, later⟩ := ih
      refine ⟨first :: words ++ done, .cons one others, ?_⟩
      rw [Cursor.lexemes_of_next_some read, behind, later, List.cons_append, List.cons_append,
        List.append_assoc]

end Advances

/-! ## Runs -/

/-- What can be said where a run of a source stands that has carried out some
statements, printed some lines and left some lexemes. -/
structure Sourced (source : String) (statements : List Statement) (lines : List String)
    (left : List Lexeme) (memory : Memory) : Prop where
  /-- The statements stand in front of the lexemes that are left. -/
  written : ∃ done, WrittenAll statements done ∧ lexemes source = done ++ left
  values : memory.Grounded statements
  accounts : Accounts [] statements lines
  count : lines.length = statements.countP prints

theorem grounded_new : Memory.empty.openScope.Grounded [] :=
  Memory.Grounded.openScope fun _ mem => absurd mem List.not_mem_nil

theorem Advances.sourced {source : String} {stop : Cursor} {memory : Memory}
    {statements : List Statement} {effects : Effects}
    (h : Advances (.ofSource source) Memory.empty.openScope statements effects stop memory) :
    Sourced source statements effects.lines stop.lexemes memory := by
  have accounts := h.accounts grounded_new
  exact ⟨h.written, h.grounded grounded_new, accounts, accounts.length⟩

theorem Session.grounded_closing {stop : Cursor} {memory : Memory} {effects : Effects}
    {execution : Execution} {statements : List Statement}
    (h : Stops stop memory effects execution) (grounded : memory.Grounded statements) :
    (closing execution).Grounded statements := by
  cases h with
  | usedUp _ => exact grounded.closeScope
  | failed _ _ => exact grounded

theorem Stops.lexemes_eq_nil {stop : Cursor} {memory : Memory} {effects : Effects}
    {execution : Execution} (h : Stops stop memory effects execution)
    (fine : execution.fault = none) : stop.lexemes = [] := by
  cases h with
  | usedUp nothing => exact Cursor.lexemes_of_next_none nothing
  | failed _ _ => cases fine

theorem evaluate_eq_ok {source : String} {lines : List String}
    (h : (evaluate source).1 = .ok lines) :
    (course (lexemes source) Memory.empty.openScope).fault = none ∧
      (course (lexemes source) Memory.empty.openScope).effects.lines = lines := by
  rw [evaluate_eq] at h
  generalize course (lexemes source) Memory.empty.openScope = taken at h ⊢
  obtain ⟨fault, rest, memory, effects⟩ := taken
  cases fault with
  | some fault => cases h
  | none =>
      unfold Course.result at h
      dsimp only at h
      split at h
      · cases h
      · exact ⟨rfl, Except.ok.inj h⟩

/-- **Provenance.** At every point of a run, and at its end, each value of each frame
is that of a literal that some statement in front has assigned.  The lines that are
printed are one for each `print` statement that was carried out, in order: `null`,
or the decimal text of the value of such a literal.  A source that is evaluated
without a fault gives these lines, and all its statements were carried out. -/
theorem values_come_from_literals (source : String) :
    (∀ statements effects stop memory,
        Advances (.ofSource source) Memory.empty.openScope statements effects stop memory →
        Sourced source statements effects.lines stop.lexemes memory) ∧
      ∃ statements effects stop memory,
        Advances (.ofSource source) Memory.empty.openScope statements effects stop memory ∧
          Stops stop memory effects (execute (.ofSource source) Memory.empty.openScope) ∧
          (Session.ofSource source).run.2.memory.Grounded statements ∧
          Emits source effects.lines ∧
          ∀ lines, (evaluate source).1 = .ok lines →
            lines = effects.lines ∧ WrittenAll statements (lexemes source) := by
  refine ⟨fun _ _ _ _ advances => advances.sourced, ?_⟩
  obtain ⟨statements, effects, stop, memory, advances, stops⟩ :=
    execute_stops (.ofSource source) Memory.empty.openScope
  have agrees := course_execute (.ofSource source) Memory.empty.openScope
  have emitted : (course (lexemes source) Memory.empty.openScope).effects.lines = effects.lines :=
    (congrArg (·.effects.lines) agrees).symm.trans stops.lines
  refine ⟨statements, effects, stop, memory, advances, stops, ?_, emitted ▸ emits_course source, ?_⟩
  · rw [Session.run_memory]
    exact Session.grounded_closing stops advances.sourced.values
  intro lines succeeded
  obtain ⟨fine, rfl⟩ := evaluate_eq_ok succeeded
  refine ⟨emitted, ?_⟩
  obtain ⟨done, written, whole⟩ := advances.written
  have nothing := stops.lexemes_eq_nil ((congrArg Course.fault agrees).trans fine)
  rw [nothing, List.append_nil] at whole
  rw [← whole] at written
  exact written

end ScopeLang
