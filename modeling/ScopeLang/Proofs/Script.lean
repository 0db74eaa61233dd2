import ScopeLang.Execution

/-!
# Scripts as lists of lexemes

An execution reads its source through a cursor, but what it does depends only
on the lexemes that the cursor will still deliver.  The course of a script is
its execution on a list of lexemes.

* **One statement**: `Statement.CarriedOut` lists all that a statement can do
  (`Statement.exec_eq_ok_iff`).
* **Agreement**: an execution takes the course of the lexemes of its cursor
  (`course_execute`).
* **Whole statements**: `Statement.Written` says which lexemes make up a
  statement.  A list of lexemes `Passes` from one memory to another if it is
  carried out whatever comes behind it, and such lists can be put one after
  the other (`Passes.append`).
-/

namespace ScopeLang

namespace Effects

theorem append_assoc (first second third : Effects) :
    first ++ second ++ third = first ++ (second ++ third) := by
  show Effects.mk _ _ = Effects.mk _ _
  simp only [lines_append, events_append, List.append_assoc]

theorem append_empty (effects : Effects) : effects ++ .empty = effects := by
  show Effects.mk _ _ = effects
  simp [Effects.empty]

end Effects

namespace Statement

theorem exec_assign_of_some {operand : String} {memory : Memory} {value : Int64}
    (h : operandValue operand memory = some value) (target : String) :
    exec (.assign target operand) memory =
      .ok ((memory.write target value).1,
        { lines := [], events := (memory.write target value).2 }) := by
  simp only [exec, h]

theorem exec_assign_of_none {operand : String} {memory : Memory}
    (h : operandValue operand memory = none) (target : String) :
    exec (.assign target operand) memory =
      .ok (memory, { lines := [], events := [.assignmentSkipped target operand] }) := by
  simp only [exec, h]

/-- `CarriedOut memory statement changed effects`: what a statement does where it
does not fail. -/
inductive CarriedOut (memory : Memory) : Statement → Memory → Effects → Prop
  | print (name : String) :
      CarriedOut memory (.print name) memory
        { lines := [shown (memory.read name)], events := [] }
  | openScope :
      CarriedOut memory .openScope memory.openScope
        { lines := [], events := [.scopeOpened memory.openScope.depth] }
  | closeScope (brace : Span) : 1 < memory.depth →
      CarriedOut memory (.closeScope brace) memory.closeScope.2
        { lines := [], events := [.scopeClosed memory.closeScope.2.depth] }
  | write (target : String) {operand : String} {value : Int64} :
      operandValue operand memory = some value →
      CarriedOut memory (.assign target operand) (memory.write target value).1
        { lines := [], events := (memory.write target value).2 }
  | skip (target : String) {operand : String} : operandValue operand memory = none →
      CarriedOut memory (.assign target operand) memory
        { lines := [], events := [.assignmentSkipped target operand] }

/-- A value is that of a literal, and only without one that of a name. -/
theorem operandValue_eq_some {operand : String} {memory : Memory} {value : Int64}
    (h : operandValue operand memory = some value) :
    Literal.parse? operand = some value ∨
      Literal.parse? operand = none ∧ memory.read operand = some value := by
  unfold operandValue at h
  cases literal : Literal.parse? operand with
  | none =>
      rw [literal, Option.none_or] at h
      exact .inr ⟨rfl, h⟩
  | some other =>
      rw [literal, Option.some_or] at h
      exact .inl h

theorem exec_eq_ok_iff {statement : Statement} {memory changed : Memory} {effects : Effects} :
    statement.exec memory = .ok (changed, effects) ↔
      CarriedOut memory statement changed effects := by
  constructor
  · intro h
    cases statement with
    | print name =>
        cases h
        exact .print name
    | openScope =>
        cases h
        exact .openScope
    | closeScope brace =>
        simp only [exec] at h
        split at h
        · cases h
        · next deep =>
            cases h
            exact .closeScope brace (by omega)
    | assign target operand =>
        cases found : operandValue operand memory with
        | none =>
            rw [exec_assign_of_none found] at h
            cases h
            exact .skip target found
        | some value =>
            rw [exec_assign_of_some found] at h
            cases h
            exact .write target found
  · intro h
    cases h with
    | print name => rfl
    | openScope => rfl
    | closeScope brace deep => exact if_neg (by omega)
    | write target found => exact exec_assign_of_some found target
    | skip target missing => exact exec_assign_of_none missing target

/-! ## One statement at the front of some lexemes -/

/-- Take the statement that begins with `first` off the lexemes behind it. -/
def take (first : Lexeme) (rest : List Lexeme) : Except Fault Statement × List Lexeme :=
  match first.token, rest with
  | .closeBrace, rest => (.ok (.closeScope first.span), rest)
  | _, [] => (.error .endOfInput, [])
  | .print, name :: rest => (.ok (.print name.text), rest)
  | .scope, brace :: rest =>
      if brace.token = .openBrace then (.ok .openScope, rest)
      else (.error (.atSpan .missingBrace brace.span), rest)
  | target, operator :: rest =>
      if operator.token = .equals then
        match rest with
        | [] => (.error .endOfInput, [])
        | operand :: rest => (.ok (.assign target.text operand.text), rest)
      else (.error (.atSpan .missingEquals operator.span), rest)

theorem take_suffix (first : Lexeme) (rest : List Lexeme) : (take first rest).2 <:+ rest := by
  unfold take
  split
  · exact List.suffix_rfl
  · exact List.suffix_rfl
  · exact List.suffix_cons ..
  · split <;> exact List.suffix_cons ..
  · split
    · split
      · exact List.nil_suffix
      · exact (List.suffix_cons ..).trans (List.suffix_cons ..)
    · exact List.suffix_cons ..

/-- Take the statement that begins with `first` and carry it out. -/
def stepOn (first : Lexeme) (rest : List Lexeme) (memory : Memory) :
    Except Fault (Memory × Effects) × List Lexeme :=
  match take first rest with
  | (.ok statement, left) => (statement.exec memory, left)
  | (.error fault, left) => (.error fault, left)

theorem stepOn_suffix (first : Lexeme) (rest : List Lexeme) (memory : Memory) :
    (stepOn first rest memory).2 <:+ rest := by
  have suffix := take_suffix first rest
  unfold stepOn
  split <;> simp_all

end Statement

namespace Cursor

theorem lexemes_exhausted {cursor after : Cursor} (h : cursor.next = (none, after)) :
    after.lexemes = [] :=
  lexemes_of_next_none (next_of_rest_nil (rest_of_next_none h))

theorem expect_of_next_none {cursor after : Cursor} (h : cursor.next = (none, after)) :
    cursor.expect = (.error .endOfInput, after) := by
  unfold expect
  rw [h]

theorem expect_of_next_some {cursor after : Cursor} {lexeme : Lexeme}
    (h : cursor.next = (some lexeme, after)) : cursor.expect = (.ok lexeme, after) := by
  unfold expect
  rw [h]

end Cursor

namespace Statement

open Cursor

/-- Reading a statement through a cursor takes it off the cursor's lexemes. -/
theorem read_eq_take (first : Lexeme) (cursor : Cursor) :
    (read first cursor).1 = (take first cursor.lexemes).1 ∧
      (read first cursor).2.lexemes = (take first cursor.lexemes).2 := by
  rcases second : cursor.next with ⟨_ | lexeme, after⟩
  · have nothing := lexemes_exhausted second
    unfold read take
    rw [expect_of_next_none second, lexemes_of_next_none second]
    cases first.token <;> simp [nothing, lexemes_of_next_none second]
  · -- only an assignment reads on behind its second lexeme
    unfold read take
    rw [expect_of_next_some second, lexemes_of_next_some second]
    rcases third : after.next with ⟨_ | operand, last⟩
    · have nothing := lexemes_exhausted third
      have expected := expect_of_next_none third
      have none_left := lexemes_of_next_none third
      cases first.token <;> dsimp only <;> (try split) <;>
        simp [expected, none_left, nothing, lexemes_of_next_some second]
    · have expected := expect_of_next_some third
      have one_left := lexemes_of_next_some third
      cases first.token <;> dsimp only <;> (try split) <;>
        simp [expected, one_left, lexemes_of_next_some second]

theorem step_eq_stepOn (first : Lexeme) (cursor : Cursor) (memory : Memory) :
    (step first cursor memory).1 = (stepOn first cursor.lexemes memory).1 ∧
      (step first cursor memory).2.lexemes = (stepOn first cursor.lexemes memory).2 := by
  obtain ⟨same, left⟩ := read_eq_take first cursor
  unfold step stepOn
  rcases reading : read first cursor with ⟨_ | statement, after⟩ <;>
    rcases taking : take first cursor.lexemes with ⟨_ | other, rest⟩ <;>
    rw [reading, taking] at same left <;> simp_all

end Statement

/-! ## The course of a script -/

/-- How far some lexemes were carried out, and what came of it. -/
structure Course where
  fault : Option Fault
  /-- The lexemes that were not read. -/
  rest : List Lexeme
  memory : Memory
  effects : Effects

namespace Course

/-- A course with more effects in front. -/
def after (earlier : Effects) (course : Course) : Course :=
  { course with effects := earlier ++ course.effects }

theorem after_after (first second : Effects) (course : Course) :
    (course.after second).after first = course.after (first ++ second) := by
  unfold after
  rw [Effects.append_assoc]

end Course

/-- Carry out all statements of some lexemes. -/
def course (lexemes : List Lexeme) (memory : Memory) : Course :=
  match lexemes with
  | [] => { fault := none, rest := [], memory := memory, effects := .empty }
  | first :: rest =>
      match stepped : Statement.stepOn first rest memory with
      | (.error fault, left) =>
          { fault := some fault, rest := left, memory := memory,
            effects := Execution.begun first }
      | (.ok (changed, effects), left) =>
          have : left.length ≤ rest.length := by
            have suffix := Statement.stepOn_suffix first rest memory
            rw [stepped] at suffix
            exact suffix.length_le
          (course left changed).after (Execution.begun first ++ effects)
termination_by lexemes.length

@[simp] theorem course_nil (memory : Memory) :
    course [] memory = { fault := none, rest := [], memory := memory, effects := .empty } := by
  rw [course]

theorem course_of_step_error {first : Lexeme} {rest left : List Lexeme} {memory : Memory}
    {fault : Fault} (h : Statement.stepOn first rest memory = (.error fault, left)) :
    course (first :: rest) memory =
      { fault := some fault, rest := left, memory := memory,
        effects := Execution.begun first } := by
  rw [course]
  split <;> simp_all

theorem course_of_take_error {first : Lexeme} {rest left : List Lexeme} {fault : Fault}
    (h : Statement.take first rest = (.error fault, left)) (memory : Memory) :
    course (first :: rest) memory =
      { fault := some fault, rest := left, memory := memory,
        effects := Execution.begun first } := by
  apply course_of_step_error
  unfold Statement.stepOn
  rw [h]

theorem course_of_exec_error {first : Lexeme} {rest left : List Lexeme} {statement : Statement}
    {memory : Memory} {fault : Fault} (h : Statement.take first rest = (.ok statement, left))
    (failed : statement.exec memory = .error fault) :
    course (first :: rest) memory =
      { fault := some fault, rest := left, memory := memory,
        effects := Execution.begun first } := by
  apply course_of_step_error
  unfold Statement.stepOn
  rw [h, ← failed]

theorem course_of_step_ok {first : Lexeme} {rest left : List Lexeme} {memory changed : Memory}
    {effects : Effects}
    (h : Statement.stepOn first rest memory = (.ok (changed, effects), left)) :
    course (first :: rest) memory =
      (course left changed).after (Execution.begun first ++ effects) := by
  rw [course]
  split <;> simp_all

/-- What is left of some lexemes is their end. -/
theorem course_rest_suffix (lexemes : List Lexeme) (memory : Memory) :
    (course lexemes memory).rest <:+ lexemes := by
  fun_induction course lexemes memory with
  | case1 memory => exact List.suffix_rfl
  | case2 memory first rest fault left stepped =>
      have suffix := Statement.stepOn_suffix first rest memory
      rw [stepped] at suffix
      exact suffix.trans (List.suffix_cons ..)
  | case3 memory first rest changed effects left stepped _ ih =>
      have suffix := Statement.stepOn_suffix first rest memory
      rw [stepped] at suffix
      exact ih.trans (suffix.trans (List.suffix_cons ..))

/-- The course that an execution has taken. -/
def Execution.course (execution : Execution) : Course where
  fault := execution.fault
  rest := execution.cursor.lexemes
  memory := execution.memory
  effects := execution.effects

/-- **Agreement.** An execution takes the course of the lexemes that are left. -/
theorem course_execute (cursor : Cursor) (memory : Memory) :
    (execute cursor memory).course = course cursor.lexemes memory := by
  fun_induction execute cursor memory with
  | case1 cursor memory stopped read =>
      rw [Cursor.lexemes_of_next_none read, course_nil]
      unfold Execution.course
      rw [Cursor.lexemes_exhausted read]
  | case2 cursor memory first rest read fault stopped stepped =>
      obtain ⟨same, left⟩ := Statement.step_eq_stepOn first rest memory
      rw [stepped] at same left
      rw [Cursor.lexemes_of_next_some read, course_of_step_error (Prod.ext same.symm left.symm)]
      rfl
  | case3 cursor memory first rest read changed effects next stepped _ ih =>
      obtain ⟨same, left⟩ := Statement.step_eq_stepOn first rest memory
      rw [stepped] at same left
      rw [Cursor.lexemes_of_next_some read, course_of_step_ok (Prod.ext same.symm left.symm), ← ih]
      rfl

/-! ## Whole statements -/

/-- A token that begins no other statement than an assignment. -/
def Token.IsTarget (token : Token) : Prop :=
  token ≠ .print ∧ token ≠ .scope ∧ token ≠ .closeBrace

namespace Statement

/-- `Written statement first rest`: the lexeme `first` and those of `rest` make
up the statement. -/
inductive Written : Statement → Lexeme → List Lexeme → Prop
  | print {keyword name : Lexeme} :
      keyword.token = .print → Written (.print name.text) keyword [name]
  | openScope {keyword brace : Lexeme} :
      keyword.token = .scope → brace.token = .openBrace → Written .openScope keyword [brace]
  | closeScope {brace : Lexeme} :
      brace.token = .closeBrace → Written (.closeScope brace.span) brace []
  | assign {target equals operand : Lexeme} :
      target.token.IsTarget → equals.token = .equals →
      Written (.assign target.text operand.text) target [equals, operand]

/-- Behind a token that begins an assignment, an equals sign and an operand are
looked for. -/
theorem take_of_isTarget {first : Lexeme} (h : first.token.IsTarget) (rest : List Lexeme) :
    take first rest =
      match rest with
      | [] => (.error .endOfInput, [])
      | operator :: rest =>
          if operator.token = .equals then
            match rest with
            | [] => (.error .endOfInput, [])
            | operand :: rest => (.ok (.assign first.text operand.text), rest)
          else (.error (.atSpan .missingEquals operator.span), rest) := by
  obtain ⟨notPrint, notScope, notClose⟩ := h
  unfold take Lexeme.text
  cases token : first.token with
  | print => exact absurd token notPrint
  | scope => exact absurd token notScope
  | closeBrace => exact absurd token notClose
  | _ => cases rest <;> rfl

theorem Written.take {statement : Statement} {first : Lexeme} {rest : List Lexeme}
    (h : Written statement first rest) (more : List Lexeme) :
    Statement.take first (rest ++ more) = (.ok statement, more) := by
  cases h with
  | print hprint => simp [Statement.take, hprint]
  | openScope hscope hbrace => simp [Statement.take, hscope, hbrace]
  | closeScope hclose => simp [Statement.take, hclose]
  | assign htarget hequals => simp [take_of_isTarget htarget, hequals]

/-- A statement that was taken off some lexemes is made up of the first ones. -/
theorem written_of_take {first : Lexeme} {lexemes left : List Lexeme}
    {statement : Statement} (h : take first lexemes = (.ok statement, left)) :
    ∃ words, statement.Written first words ∧ lexemes = words ++ left := by
  by_cases isTarget : first.token.IsTarget
  · rw [take_of_isTarget isTarget] at h
    split at h
    · cases h
    · split at h
      · next equals =>
          split at h
          · cases h
          · cases h
            exact ⟨_, .assign isTarget equals, rfl⟩
      · cases h
  · unfold take at h
    split at h
    · next token =>
        cases h
        exact ⟨[], .closeScope token, rfl⟩
    · cases h
    · next token =>
        cases h
        exact ⟨_, .print token, rfl⟩
    · next token =>
        split at h
        · next brace =>
            cases h
            exact ⟨_, .openScope token brace, rfl⟩
        · cases h
    · next notClose notPrint notScope =>
        exact absurd ⟨notPrint, notScope, notClose⟩ isTarget

theorem written_of_read {first : Lexeme} {cursor behind : Cursor} {statement : Statement}
    (h : read first cursor = (.ok statement, behind)) :
    ∃ words, statement.Written first words ∧ cursor.lexemes = words ++ behind.lexemes := by
  obtain ⟨same, left⟩ := read_eq_take first cursor
  rw [h] at same left
  exact written_of_take (Prod.ext same.symm left.symm)

end Statement

/-- Some lexemes lead from one memory to another with some effects, whatever
comes behind them. -/
def Passes (lexemes : List Lexeme) (memory changed : Memory) (effects : Effects) : Prop :=
  ∀ more, course (lexemes ++ more) memory = (course more changed).after effects

namespace Passes

theorem nil (memory : Memory) : Passes [] memory memory .empty :=
  fun _ => rfl

theorem append {first second : List Lexeme} {memory middle changed : Memory}
    {effects further : Effects} (h : Passes first memory middle effects)
    (h' : Passes second middle changed further) :
    Passes (first ++ second) memory changed (effects ++ further) := by
  intro more
  rw [List.append_assoc, h, h', Course.after_after]

/-- A whole statement that can be carried out is passed. -/
theorem of_exec {statement : Statement} {first : Lexeme} {rest : List Lexeme}
    {memory changed : Memory} {effects : Effects}
    (written : statement.Written first rest)
    (h : statement.exec memory = .ok (changed, effects)) :
    Passes (first :: rest) memory changed (Execution.begun first ++ effects) := by
  intro more
  rw [List.cons_append]
  apply course_of_step_ok
  unfold Statement.stepOn
  rw [written.take, ← h]

/-- What is passed is all of the course where nothing comes behind. -/
theorem course_eq {lexemes : List Lexeme} {memory changed : Memory} {effects : Effects}
    (h : Passes lexemes memory changed effects) :
    course lexemes memory =
      { fault := none, rest := [], memory := changed, effects := effects } := by
  have whole := h []
  rw [List.append_nil, course_nil] at whole
  rw [whole, Course.after, Effects.append_empty]

end Passes

end ScopeLang
