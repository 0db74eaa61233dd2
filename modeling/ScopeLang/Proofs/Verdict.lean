import ScopeLang.Proofs.Runs
import ScopeLang.Proofs.Script
import ScopeLang.Request

/-!
# The verdict on a script

Which scripts are accepted, and which fault the others have, is decided by the
first statement that fails.  `Verdict` says so without running anything: it
takes the lexemes apart into whole statements and counts the scopes that they
open and close.

* **Depth**: as long as no brace closes more than was opened, statements are
  carried out and the depth of the memory follows the counts
  (`passes_of_balanced`), and the frames below stay as they are (`passes_above`).
* **Totality**: every list of lexemes has a verdict (`exists_verdict`).
* **Agreement**: every run comes to the verdict on its lexemes
  (`result_of_verdict`), so there is only one.
-/

namespace ScopeLang

namespace Statement

/-! ## Counting scopes -/

def opens : Statement → Bool
  | .openScope => true
  | _ => false

def closes : Statement → Bool
  | .closeScope _ => true
  | _ => false

/-- How many of some statements open a scope. -/
def opened (statements : List Statement) : Nat :=
  statements.countP opens

/-- How many of some statements close a scope. -/
def closed (statements : List Statement) : Nat :=
  statements.countP closes

/-- Beginning with `spare` scopes to close, no statement closes one too many. -/
def Balanced (spare : Nat) (statements : List Statement) : Prop :=
  ∀ front, front <+: statements → closed front ≤ spare + opened front

/-- The number of scopes that can be closed after a statement, if it can be
carried out where `spare` scopes can be closed. -/
def leaves (spare : Nat) : Statement → Option Nat
  | .openScope => some (spare + 1)
  | .closeScope _ =>
      match spare with
      | 0 => none
      | spare + 1 => some spare
  | _ => some spare

theorem count_of_leaves {statement : Statement} {spare left : Nat}
    (h : statement.leaves spare = some left) (statements : List Statement) :
    left + closed (statement :: statements) + opened statements =
      spare + opened (statement :: statements) + closed statements := by
  unfold closed opened
  rw [List.countP_cons, List.countP_cons]
  cases statement with
  | closeScope brace =>
      cases spare with
      | zero => cases h
      | succ spare =>
          cases h
          simp only [closes, opens, if_true, Bool.false_eq_true, if_false]
          omega
  | openScope =>
      cases h
      simp only [closes, opens, if_true, Bool.false_eq_true, if_false]
      omega
  | print name =>
      cases h
      simp only [closes, opens, Bool.false_eq_true, if_false]
      omega
  | assign target operand =>
      cases h
      simp only [closes, opens, Bool.false_eq_true, if_false]
      omega

theorem balanced_nil (spare : Nat) : Balanced spare [] := by
  intro front within
  rw [List.prefix_nil.1 within]
  exact Nat.zero_le _

theorem balanced_cons {statement : Statement} {statements : List Statement} {spare left : Nat}
    (h : statement.leaves spare = some left) (balanced : Balanced left statements) :
    Balanced spare (statement :: statements) := by
  intro front within
  rcases List.prefix_cons_iff.1 within with rfl | ⟨front, rfl, tail⟩
  · exact Nat.zero_le _
  · have count := count_of_leaves h front
    have le := balanced front tail
    omega

/-- The first of balanced statements can be carried out, and the others are
balanced behind it. -/
theorem leaves_of_balanced {statement : Statement} {statements : List Statement} {spare : Nat}
    (h : Balanced spare (statement :: statements)) :
    ∃ left, statement.leaves spare = some left ∧ Balanced left statements := by
  have first : ∃ left, statement.leaves spare = some left := by
    cases statement with
    | closeScope brace =>
        cases spare with
        | zero =>
            have le := h [.closeScope brace] (by simp)
            exact absurd le (by simp [closed, opened, closes, opens])
        | succ spare => exact ⟨spare, rfl⟩
    | openScope => exact ⟨spare + 1, rfl⟩
    | print name => exact ⟨spare, rfl⟩
    | assign target operand => exact ⟨spare, rfl⟩
  obtain ⟨left, leaves⟩ := first
  refine ⟨left, leaves, ?_⟩
  intro front within
  have count := count_of_leaves leaves front
  have le := h (statement :: front) (List.prefix_cons_inj _ |>.2 within)
  omega

/-- A statement is carried out if it can be.  It leaves the frames below those that
can be closed as they are. -/
theorem exec_above {statement : Statement} {spare left : Nat} {memory : Memory}
    {inner base : List Frame} (leaves : statement.leaves spare = some left)
    (frames : memory.frames = inner ++ base) (above : inner.length = spare + 1) :
    ∃ changed effects further, statement.exec memory = .ok (changed, effects) ∧
      changed.frames = further ++ base ∧ further.length = left + 1 := by
  cases inner with
  | nil => cases above
  | cons frame inner =>
      cases statement with
      | print name =>
          cases leaves
          exact ⟨memory, _, frame :: inner, rfl, frames, above⟩
      | openScope =>
          cases leaves
          exact ⟨memory.openScope, _, .empty :: frame :: inner, rfl,
            congrArg (Frame.empty :: ·) frames, congrArg Nat.succ above⟩
      | closeScope brace =>
          cases spare with
          | zero => cases leaves
          | succ spare =>
              cases leaves
              have deep : ¬ memory.depth ≤ 1 := by
                unfold Memory.depth
                rw [frames, List.length_append, above]
                omega
              refine ⟨memory.closeScope.2, _, inner, if_neg deep, ?_, Nat.succ.inj above⟩
              unfold Memory.closeScope
              rw [frames]
              rfl
      | assign target operand =>
          cases leaves
          cases found : operandValue operand memory with
          | none =>
              exact ⟨memory, _, frame :: inner, exec_assign_of_none found target, frames, above⟩
          | some value =>
              refine ⟨_, _, frame.insert target value :: inner, exec_assign_of_some found target,
                ?_, above⟩
              unfold Memory.write
              rw [frames]
              rfl

/-- The depth follows a statement that is carried out. -/
theorem exec_of_leaves {statement : Statement} {spare left : Nat} {memory : Memory}
    (h : statement.leaves spare = some left) (depth : memory.depth = spare + 1) :
    ∃ changed effects, statement.exec memory = .ok (changed, effects) ∧
      changed.depth = left + 1 := by
  obtain ⟨changed, effects, further, executed, frames, length⟩ :=
    exec_above h (List.append_nil memory.frames).symm depth
  refine ⟨changed, effects, executed, ?_⟩
  rw [Memory.depth, frames, List.append_nil, length]

/-! ## The statements of a script -/

/-- `WrittenAll statements lexemes`: the lexemes are those of the statements,
one after the other. -/
inductive WrittenAll : List Statement → List Lexeme → Prop
  | nil : WrittenAll [] []
  | cons {statement : Statement} {statements : List Statement} {first : Lexeme}
      {rest more : List Lexeme} :
      statement.Written first rest → WrittenAll statements more →
      WrittenAll (statement :: statements) (first :: rest ++ more)

/-- Lexemes that end inside a statement. -/
def Unfinished (lexemes : List Lexeme) : Prop :=
  ∃ (statement : Statement) (first : Lexeme) (front missing : List Lexeme),
    lexemes = first :: front ∧ missing ≠ [] ∧ statement.Written first (front ++ missing)

/-- `Fails used available lexemes fault`: the first statement of the lexemes has
the fault, where `used` of the `available` scopes have been closed. -/
inductive Fails (used available : Nat) : List Lexeme → Fault → Prop
  | strayBrace {brace : Lexeme} {rest : List Lexeme} :
      brace.token = .closeBrace → available < used + 1 →
      Fails used available (brace :: rest) (.atSpan .strayBrace brace.span)
  | missingBrace {keyword other : Lexeme} {rest : List Lexeme} :
      keyword.token = .scope → other.token ≠ .openBrace →
      Fails used available (keyword :: other :: rest) (.atSpan .missingBrace other.span)
  | missingEquals {target other : Lexeme} {rest : List Lexeme} :
      target.token.IsTarget → other.token ≠ .equals →
      Fails used available (target :: other :: rest) (.atSpan .missingEquals other.span)
  | endOfInput {lexemes : List Lexeme} :
      Unfinished lexemes → Fails used available lexemes .endOfInput

end Statement

open Statement

/-- The verdict on some lexemes where `depth` scopes were left open: the fault of
the first statement that fails, else a fault if a scope is still open. -/
inductive Verdict (depth : Nat) (lexemes : List Lexeme) : Except Fault Unit → Prop
  | fault {statements : List Statement} {done rest : List Lexeme} {fault : Fault} :
      lexemes = done ++ rest → WrittenAll statements done → Balanced depth statements →
      Fails (closed statements) (depth + opened statements) rest fault →
      Verdict depth lexemes (.error fault)
  | unclosed {statements : List Statement} :
      WrittenAll statements lexemes → Balanced depth statements →
      closed statements < depth + opened statements →
      Verdict depth lexemes (.error .unclosedScope)
  | ok {statements : List Statement} :
      WrittenAll statements lexemes → Balanced depth statements →
      closed statements = depth + opened statements →
      Verdict depth lexemes (.ok ())

/-! ## Every run comes to its verdict -/

theorem Statement.take_unfinished {statement : Statement} {first : Lexeme}
    {front missing : List Lexeme} (some_missing : missing ≠ [])
    (written : statement.Written first (front ++ missing)) :
    take first front = (.error .endOfInput, []) := by
  generalize whole : front ++ missing = rest at written
  -- by how many lexemes of the statement are there; with all of them none is missing
  cases written with
  | @print _ name keyword =>
      cases front with
      | nil => simp [take, keyword]
      | cons second front => simp_all
  | @openScope _ brace keyword _ =>
      cases front with
      | nil => simp [take, keyword]
      | cons second front => simp_all
  | closeScope _ => simp_all
  | @assign _ equals operand target isEquals =>
      rw [take_of_isTarget target]
      cases front with
      | nil => rfl
      | cons second front =>
          cases front with
          | nil =>
              have : second = equals := (List.cons.inj whole).1
              simp [this, isEquals]
          | cons third front => simp_all

/-- A statement that fails stops the course with its fault. -/
theorem fault_of_fails {used available : Nat} {lexemes : List Lexeme} {fault : Fault}
    {memory : Memory} (h : Fails used available lexemes fault)
    (depth : memory.depth + used = available + 1) :
    (course lexemes memory).fault = some fault := by
  cases h with
  | @strayBrace brace rest token tooMany =>
      -- the brace is read well, and closing the outermost scope is what fails
      have taken : take brace rest = (.ok (.closeScope brace.span), rest) := by
        simp [take, token]
      have failed : exec (.closeScope brace.span) memory = .error (.atSpan .strayBrace brace.span) :=
        if_pos (by omega)
      rw [course_of_exec_error taken failed]
  | @missingBrace keyword other rest token notBrace =>
      have taken : take keyword (other :: rest) =
          (.error (.atSpan .missingBrace other.span), rest) := by
        simp [take, token, notBrace]
      rw [course_of_take_error taken]
  | @missingEquals target other rest token notEquals =>
      have taken : take target (other :: rest) =
          (.error (.atSpan .missingEquals other.span), rest) := by
        simp [take_of_isTarget token, notEquals]
      rw [course_of_take_error taken]
  | endOfInput unfinished =>
      obtain ⟨statement, first, front, missing, rfl, some_missing, written⟩ := unfinished
      rw [course_of_take_error (take_unfinished some_missing written)]

/-- Balanced statements are carried out and leave the frames below those that they can
close as they are. -/
theorem passes_above {statements : List Statement} {lexemes : List Lexeme}
    (written : WrittenAll statements lexemes) {spare : Nat} (balanced : Balanced spare statements)
    {memory : Memory} {inner base : List Frame} (frames : memory.frames = inner ++ base)
    (above : inner.length = spare + 1) :
    ∃ changed effects further, Passes lexemes memory changed effects ∧
      changed.frames = further ++ base ∧
      further.length + closed statements = spare + opened statements + 1 := by
  induction written generalizing spare memory inner with
  | nil => exact ⟨memory, .empty, inner, Passes.nil memory, frames, above⟩
  | @cons statement statements first rest more one _ ih =>
      -- `left` scopes can be closed behind the first statement, which the others start from
      obtain ⟨left, leaves, later⟩ := leaves_of_balanced balanced
      obtain ⟨middle, effects, between, executed, frames, above⟩ := exec_above leaves frames above
      obtain ⟨changed, further, last, passes, frames, count⟩ := ih later frames above
      refine ⟨changed, _, last, (Passes.of_exec one executed).append passes, frames, ?_⟩
      have counts := count_of_leaves leaves statements
      omega

/-- The depth follows the counts of balanced statements. -/
theorem passes_of_balanced {statements : List Statement} {lexemes : List Lexeme}
    (written : WrittenAll statements lexemes) {spare : Nat} (balanced : Balanced spare statements)
    {memory : Memory} (depth : memory.depth = spare + 1) :
    ∃ changed effects, Passes lexemes memory changed effects ∧
      changed.depth + closed statements = spare + opened statements + 1 := by
  obtain ⟨changed, effects, further, passes, frames, count⟩ :=
    passes_above written balanced (List.append_nil memory.frames).symm depth
  refine ⟨changed, effects, passes, ?_⟩
  rw [Memory.depth, frames, List.append_nil, count]

/-- How a run ends that took a course. -/
def Course.result (course : Course) : Except Fault Unit :=
  match course.fault with
  | some fault => .error fault
  | none => if 1 < course.memory.depth then .error .unclosedScope else .ok ()

theorem result_of_passes {lexemes : List Lexeme} {memory changed : Memory} {effects : Effects}
    (h : Passes lexemes memory changed effects) :
    (course lexemes memory).result =
      if 1 < changed.depth then .error .unclosedScope else .ok () := by
  rw [h.course_eq]
  rfl

/-- **Agreement.** A course ends with the verdict on its lexemes. -/
theorem result_of_verdict {depth : Nat} {lexemes : List Lexeme} {result : Except Fault Unit}
    (h : Verdict depth lexemes result) {memory : Memory} (hmemory : memory.depth = depth + 1) :
    (course lexemes memory).result = result := by
  cases h with
  | fault whole written balanced fails =>
      obtain ⟨changed, effects, passes, count⟩ := passes_of_balanced written balanced hmemory
      rw [whole, passes]
      unfold Course.result Course.after
      rw [fault_of_fails fails count]
  | unclosed written balanced some_open =>
      obtain ⟨changed, effects, passes, count⟩ := passes_of_balanced written balanced hmemory
      rw [result_of_passes passes, if_pos (by omega)]
  | ok written balanced all_closed =>
      obtain ⟨changed, effects, passes, count⟩ := passes_of_balanced written balanced hmemory
      rw [result_of_passes passes, if_neg (by omega)]

/-! ## Every script has a verdict -/

/-- Of the scopes that have been closed and those that are available, only the
difference matters. -/
theorem Statement.Fails.shift {used available : Nat} {lexemes : List Lexeme} {fault : Fault}
    (h : Fails used available lexemes fault) {before total : Nat}
    (same : available + before = total + used) : Fails before total lexemes fault := by
  cases h with
  | strayBrace token tooMany => exact .strayBrace token (by omega)
  | missingBrace token other => exact .missingBrace token other
  | missingEquals token other => exact .missingEquals token other
  | endOfInput unfinished => exact .endOfInput unfinished

/-- The verdict on a script is that on what stands behind its first statement. -/
theorem Verdict.cons {statement : Statement} {first : Lexeme} {rest more : List Lexeme}
    {depth left : Nat} {result : Except Fault Unit} (written : statement.Written first rest)
    (leaves : statement.leaves depth = some left) (h : Verdict left more result) :
    Verdict depth (first :: rest ++ more) result := by
  cases h with
  | @fault statements done last fault whole later balanced fails =>
      have count := count_of_leaves leaves statements
      have cut : first :: rest ++ more = first :: rest ++ done ++ last := by
        rw [whole, List.append_assoc]
      -- both counts grow by what the first statement adds
      exact .fault cut (.cons written later) (balanced_cons leaves balanced)
        (fails.shift (by omega))
  | @unclosed statements later balanced some_open =>
      have count := count_of_leaves leaves statements
      exact .unclosed (.cons written later) (balanced_cons leaves balanced) (by omega)
  | @ok statements later balanced all_closed =>
      have count := count_of_leaves leaves statements
      exact .ok (.cons written later) (balanced_cons leaves balanced) (by omega)

theorem Verdict.of_fails {depth : Nat} {lexemes : List Lexeme} {fault : Fault}
    (h : Fails 0 depth lexemes fault) : Verdict depth lexemes (.error fault) :=
  .fault rfl .nil (balanced_nil depth) h

theorem unfinished_of_written {statement : Statement} {first : Lexeme}
    {front missing : List Lexeme} (written : statement.Written first (front ++ missing))
    (some_missing : missing ≠ []) : Unfinished (first :: front) :=
  ⟨statement, first, front, missing, rfl, some_missing, written⟩

/-- The first statement of some lexemes fails, or it is whole and can be carried
out. -/
theorem fails_or_written (depth : Nat) (first : Lexeme) (rest : List Lexeme) :
    (∃ fault, Fails 0 depth (first :: rest) fault) ∨
      ∃ (statement : Statement) (front more : List Lexeme) (left : Nat),
        rest = front ++ more ∧ statement.Written first front ∧
          statement.leaves depth = some left := by
  -- the lexemes `brace` and `equals` stand for what is missing at the end
  let brace : Lexeme := { token := .openBrace, span := first.span }
  let equals : Lexeme := { token := .equals, span := first.span }
  by_cases close : first.token = .closeBrace
  · cases depth with
    | zero => exact .inl ⟨_, .strayBrace close Nat.one_pos⟩
    | succ depth => exact .inr ⟨_, [], rest, depth, rfl, .closeScope close, rfl⟩
  by_cases print : first.token = .print
  · cases rest with
    | nil =>
        have written : Written (.print first.text) first ([] ++ [first]) := .print print
        exact .inl ⟨_, .endOfInput (unfinished_of_written written (by simp))⟩
    | cons name rest => exact .inr ⟨.print name.text, [name], rest, depth, rfl, .print print, rfl⟩
  by_cases scope : first.token = .scope
  · cases rest with
    | nil =>
        have written : Written .openScope first ([] ++ [brace]) := .openScope scope rfl
        exact .inl ⟨_, .endOfInput (unfinished_of_written written (by simp))⟩
    | cons other rest =>
        by_cases token : other.token = .openBrace
        · exact .inr ⟨.openScope, [other], rest, depth + 1, rfl, .openScope scope token, rfl⟩
        · exact .inl ⟨_, .missingBrace scope token⟩
  have target : first.token.IsTarget := ⟨print, scope, close⟩
  cases rest with
  | nil =>
      have written : Written (.assign first.text first.text) first ([] ++ [equals, first]) :=
        .assign target rfl
      exact .inl ⟨_, .endOfInput (unfinished_of_written written (by simp))⟩
  | cons other rest =>
      by_cases token : other.token = .equals
      · cases rest with
        | nil =>
            have written : Written (.assign first.text first.text) first ([other] ++ [first]) :=
              .assign target token
            exact .inl ⟨_, .endOfInput (unfinished_of_written written (by simp))⟩
        | cons operand rest =>
            exact .inr ⟨.assign first.text operand.text, [other, operand], rest, depth, rfl,
              .assign target token, rfl⟩
      · exact .inl ⟨_, .missingEquals target token⟩

/-- **Totality.** Every list of lexemes has a verdict. -/
theorem exists_verdict (depth : Nat) (lexemes : List Lexeme) :
    ∃ result, Verdict depth lexemes result := by
  match lexemes with
  | [] =>
      cases depth with
      | zero => exact ⟨_, .ok .nil (balanced_nil 0) rfl⟩
      | succ depth => exact ⟨_, .unclosed .nil (balanced_nil _) (Nat.zero_lt_succ _)⟩
  | first :: rest =>
      rcases fails_or_written depth first rest with
        ⟨fault, fails⟩ | ⟨statement, front, more, left, whole, written, leaves⟩
      · exact ⟨_, .of_fails fails⟩
      · have shorter : more.length < (first :: rest).length := by
          rw [whole, List.length_cons, List.length_append]
          omega
        obtain ⟨result, verdict⟩ := exists_verdict left more
        rw [whole]
        exact ⟨result, verdict.cons written leaves⟩
termination_by lexemes.length

/-- A statement fails for one of the known causes. -/
theorem Statement.fails_of_stepOn {first : Lexeme} {rest left : List Lexeme} {memory : Memory}
    {fault : Fault} {used available : Nat} (isOpen : 0 < memory.depth)
    (depth : memory.depth + used = available + 1)
    (h : stepOn first rest memory = (.error fault, left)) :
    Fails used available (first :: rest) fault := by
  have spare : memory.depth = memory.depth - 1 + 1 := by omega
  rcases fails_or_written (memory.depth - 1) first rest with
    ⟨other, fails⟩ | ⟨statement, front, more, _, whole, written, leaves⟩
  · have found := fault_of_fails fails spare
    rw [course_of_step_error h] at found
    cases found
    exact fails.shift (by omega)
  · -- a whole statement that can be carried out does not fail
    obtain ⟨changed, effects, executed, -⟩ := exec_of_leaves leaves spare
    unfold stepOn at h
    rw [whole, written.take] at h
    cases executed.symm.trans (Prod.mk.inj h).1

/-- A brace may close all open scopes but one. -/
theorem Statement.fails_of_step {cursor rest stopped : Cursor} {first : Lexeme} {memory : Memory}
    {fault : Fault} (isOpen : 0 < memory.depth) (fetched : cursor.next = (some first, rest))
    (h : step first rest memory = (.error fault, stopped)) :
    Fails 0 (memory.depth - 1) cursor.lexemes fault := by
  obtain ⟨same, left⟩ := step_eq_stepOn first rest memory
  rw [h] at same left
  rw [Cursor.lexemes_of_next_some fetched]
  exact fails_of_stepOn isOpen (by omega) (Prod.ext same.symm left.symm)

/-! ## Runs of a session -/

namespace Session

/-- A session after some requests, from the beginning of a source. -/
def after (source : String) (requests : List Request) : Session :=
  (trace respond (ofSource source) requests).2

theorem verdict_eq_result (execution : Execution) :
    verdict execution = execution.course.result := by
  unfold verdict Course.result Execution.course
  cases fault : execution.fault with
  | some fault => rfl
  | none =>
      have isOpen : (closing execution).isOpen = true ↔ 1 < execution.memory.depth := by
        rw [Memory.isOpen_iff, closing, fault]
        dsimp only
        rw [Memory.depth_closeScope]
        omega
      simp only [isOpen]

/-- What a run shows is that of the course of the lexemes left. -/
theorem run_report (session : Session) {taken : Course}
    (h : course session.cursor.lexemes session.memory.openScope = taken) :
    session.run.1 =
      { result := taken.result
        stdout := (session.capture.print (Text.unlines taken.effects.lines)).1
        events := taken.effects.events } := by
  rw [run_eq, ← h, ← course_execute, ← verdict_eq_result]
  rfl

theorem run_capture (session : Session) {taken : Course}
    (h : course session.cursor.lexemes session.memory.openScope = taken) :
    session.run.2.capture = (session.capture.print (Text.unlines taken.effects.lines)).2 := by
  rw [run_eq, ← h, ← course_execute]
  rfl

/-- The lexemes that are left to a session are the last ones of its source. -/
theorem lexemes_suffix (source : String) (requests : List Request) :
    (after source requests).cursor.lexemes <:+ lexemes source := by
  have keeps : ∀ (session : Session) (request : Request),
      session.cursor.lexemes <:+ lexemes source →
        (session.respond request).2.cursor.lexemes <:+ lexemes source := by
    intro session request suffix
    cases request with
    | startCapture => exact suffix
    | takeCapture => exact suffix
    | run =>
        have rest := course_rest_suffix session.cursor.lexemes session.memory.openScope
        rw [← course_execute] at rest
        show session.run.2.cursor.lexemes <:+ lexemes source
        rw [run_cursor]
        exact rest.trans suffix
  exact trace_invariant keeps List.suffix_rfl requests

/-- **Verdict.** After any requests, the lexemes left are the last ones of the
source, and a run ends as their verdict says, where the scopes that are still
open count as opened. -/
theorem run_result_iff_verdict (source : String) (requests : List Request)
    (result : Except Fault Unit) :
    (after source requests).cursor.lexemes <:+ lexemes source ∧
      ((after source requests).run.1.result = result ↔
        Verdict (after source requests).memory.depth (after source requests).cursor.lexemes
          result) := by
  refine ⟨lexemes_suffix source requests, ?_⟩
  generalize after source requests = session
  have ends : session.run.1.result =
      (course session.cursor.lexemes session.memory.openScope).result := by
    rw [run_result, ← course_execute]
    exact verdict_eq_result _
  have depth : session.memory.openScope.depth = session.memory.depth + 1 := rfl
  rw [ends]
  constructor
  · -- there is some verdict, and the run comes to it
    rintro rfl
    obtain ⟨result, verdict⟩ := exists_verdict session.memory.depth session.cursor.lexemes
    rw [result_of_verdict verdict depth]
    exact verdict
  · intro verdict
    exact result_of_verdict verdict depth

end Session

end ScopeLang
