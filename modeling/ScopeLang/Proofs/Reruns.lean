import ScopeLang.Proofs.Conservation
import ScopeLang.Proofs.Depth
import ScopeLang.Proofs.Stopping

/-!
# Running a session again

A run goes on where the last one stopped, and so a session comes to the end of
its source after finitely many runs.

* **Stopping**: a fault at a lexeme leaves the cursor right behind it, and every
  other run reads its source to the end (`Session.run_stopsAt`).
* **Progress**: a run that finds a lexeme reads one (`Session.exists_consumed`),
  so there is nothing left after as many runs as there are lexemes
  (`Session.length_lexemes_le`).
* **Rest**: where nothing is left, a run changes nothing, and it fails if a scope
  was left open (`Session.run_of_exhausted`).  One is left open by every run that
  fails (`Session.isOpen_run_iff`).
-/

namespace ScopeLang

open Statement

namespace Session

theorem trace_keeps {P : Cursor → Prop} (keeps : ∀ cursor, P cursor → P cursor.next.2)
    {session : Session} (start : P session.cursor)
    (requests : List Request) : P (trace respond session requests).2.cursor := by
  refine trace_invariant (P := fun session : Session => P session.cursor) ?_ start requests
  intro session request kept
  cases request with
  | startCapture => exact kept
  | takeCapture => exact kept
  | run =>
      show P session.run.2.cursor
      rw [run_cursor]
      exact execute_keeps keeps _ kept

/-! ## One run -/

theorem run_stopsAt (session : Session) :
    match session.run.1.result with
    | .ok _ => session.run.2.cursor.rest = []
    | .error fault => StopsAt session.cursor fault session.run.2.cursor := by
  have stops := execute_stopsAt session.cursor session.memory.openScope
  rw [run_result, run_cursor]
  unfold verdict
  split at stops
  · next none =>
      rw [none]
      dsimp only
      by_cases isOpen : (closing (execute session.cursor session.memory.openScope)).isOpen = true
      · rw [if_pos isOpen]
        exact .atEnd rfl stops
      · rw [if_neg isOpen]
        exact stops
  · next fault failed =>
      rw [failed]
      exact stops

/-- A run that finds a lexeme reads one. -/
theorem exists_consumed {session : Session} (h : session.cursor.lexemes ≠ []) :
    ∃ consumed, consumed ≠ [] ∧
      session.cursor.lexemes = consumed ++ session.run.2.cursor.lexemes := by
  rcases read : session.cursor.next with ⟨_ | first, rest⟩
  · exact absurd (Cursor.lexemes_of_next_none read) h
  · obtain ⟨others, whole⟩ := lexemes_suffix_of_next read session.memory.openScope
    refine ⟨first :: others, List.cons_ne_nil _ _, ?_⟩
    rw [Cursor.lexemes_of_next_some read, ← whole, run_cursor]
    rfl

/-- Where no lexeme is left, a run does nothing, and it fails if a scope is open. -/
theorem run_of_exhausted {session : Session} (h : session.cursor.lexemes = []) :
    session.run.1 =
        { result := if session.memory.isOpen then .error .unclosedScope else .ok ()
          stdout := ""
          events := [] } ∧
      session.run.2.memory = session.memory ∧ session.run.2.capture = session.capture ∧
      session.run.2.cursor.lexemes = [] := by
  obtain ⟨stopped, nothing⟩ := Cursor.exists_next_of_lexemes_nil h
  have executed := execute_of_next_none session.memory.openScope nothing
  have silent := session.capture.print_empty
  rw [run_eq, executed]
  refine ⟨?_, rfl, congrArg Prod.snd silent, Cursor.lexemes_exhausted nothing⟩
  show Report.mk _ (session.capture.print "").1 _ = _
  rw [silent]
  rfl

/-- A run leaves a scope open exactly if it fails. -/
theorem isOpen_run_iff (session : Session) :
    session.run.2.memory.isOpen = true ↔ session.run.1.result ≠ .ok () := by
  obtain ⟨statements, effects, stop, memory, advances, ends⟩ := session.keepsFrame.ends
  have standing := standing_of_advances advances
  rw [Memory.isOpen_iff]
  cases ends with
  | usedUp _ _ _ succeeds =>
      rw [Ne, succeeds]
      omega
  | failed _ _ failed left _ =>
      rw [failed, left]
      simp [standing.isOpen]

/-! ## Any number of runs -/

theorem length_lexemes_le (session : Session) (requests : List Request) :
    (trace respond session requests).2.cursor.lexemes.length ≤
      session.cursor.lexemes.length - requests.count .run := by
  induction requests generalizing session with
  | nil => simp
  | cons request requests ih =>
      have later := ih (session.respond request).2
      cases request with
      | startCapture => exact later
      | takeCapture => exact later
      | run =>
          have shorter :
              session.run.2.cursor.lexemes.length ≤ session.cursor.lexemes.length - 1 := by
            by_cases left : session.cursor.lexemes = []
            · simp [(run_of_exhausted left).2.2.2]
            · obtain ⟨consumed, some_read, whole⟩ := exists_consumed left
              have length := congrArg List.length whole
              have pos := List.length_pos_iff.2 some_read
              rw [List.length_append] at length
              omega
          rw [List.count_cons_self]
          refine Nat.le_trans later ?_
          show session.run.2.cursor.lexemes.length - _ ≤ _
          omega

/-- How a session runs after a first run that has left no lexeme. -/
structure Rests (first : Report Fault × Session) (session : Session) : Prop where
  prints : session.run.1.stdout = "" ∧ session.run.2.capture = session.capture
  records : session.run.1.events = []
  frames : session.memory = first.2.memory ∧ session.run.2.memory = first.2.memory
  result : session.run.1.result =
    match first.1.result with
    | .ok _ => .ok ()
    | .error _ => .error .unclosedScope

theorem rests_of_run {session : Session} (h : session.run.2.cursor.lexemes = [])
    (requests : List Request) : Rests session.run (trace respond session.run.2 requests).2 := by
  -- no request moves the cursor or the frames any more
  have keeps : ∀ (later : Session) (request : Request),
      later.cursor.lexemes = [] ∧ later.memory = session.run.2.memory →
        (later.respond request).2.cursor.lexemes = [] ∧
          (later.respond request).2.memory = session.run.2.memory := by
    rintro later request ⟨nothing, frames⟩
    cases request with
    | startCapture => exact ⟨nothing, frames⟩
    | takeCapture => exact ⟨nothing, frames⟩
    | run =>
        obtain ⟨-, same, -, still⟩ := run_of_exhausted nothing
        exact ⟨still, same.trans frames⟩
  have kept := trace_invariant keeps ⟨h, rfl⟩ requests
  generalize (trace respond session.run.2 requests).2 = later at kept
  obtain ⟨nothing, frames⟩ := kept
  obtain ⟨report, same, capture, -⟩ := run_of_exhausted nothing
  rw [frames] at report
  refine ⟨⟨by rw [report], capture⟩, by rw [report], ⟨frames, same.trans frames⟩, ?_⟩
  have left := isOpen_run_iff session
  rw [report]
  cases ended : session.run.1.result with
  | ok =>
      rw [ended] at left
      simpa using left
  | error fault =>
      rw [ended] at left
      simpa using left

/-- A run takes a course: it shows what the course brings forth, leaves the
lexemes that the course has not read, and closes a scope if there is no fault. -/
structure Takes (session : Session) (taken : Course) : Prop where
  result : session.run.1.result = taken.result
  stdout : session.run.1.stdout =
    (session.capture.print (Text.unlines taken.effects.lines)).1
  events : session.run.1.events = taken.effects.events
  rest : session.run.2.cursor.lexemes = taken.rest
  frames : session.run.2.memory.frames =
    if taken.fault.isSome then taken.memory.frames else taken.memory.frames.tail

theorem takes_course (session : Session) :
    Takes session (course session.cursor.lexemes session.memory.openScope) := by
  have report := session.run_report rfl
  refine ⟨congrArg Report.result report, congrArg Report.stdout report,
    congrArg Report.events report, ?_, ?_⟩
  · rw [← course_execute, run_cursor]
    rfl
  · rw [← course_execute]
    generalize executed : execute session.cursor session.memory.openScope = execution
    have left : session.run.2.memory = closing execution := by
      rw [run_memory, executed]
    obtain ⟨fault, cursor, ⟨frames⟩, effects⟩ := execution
    rw [left]
    cases fault with
    | some fault => rfl
    | none => cases frames <;> rfl

/-- What can be said of the runs of a session that has answered some requests. -/
structure Resumes (source : String) (requests : List Request) (session : Session) : Prop where
  /-- A fault at a lexeme leaves the cursor behind it, and the next run takes the
  course of the lexemes from there on, in a new scope above those that were left. -/
  located : ∀ fault span, session.run.1.result = .error fault → fault.span = some span →
    session.run.2.cursor.offset = span.stop ∧
      ∃ done lexeme left, lexemes source = done ++ lexeme :: left ∧ lexeme.span = span ∧
        session.run.2.cursor.lexemes = left ∧
        Takes session.run.2 (course left ⟨.empty :: session.run.2.memory.frames⟩)
  /-- Every other run reads the source to its end. -/
  ended : (∀ fault, session.run.1.result = .error fault → fault.span = none) →
    session.run.2.cursor.rest = [] ∧ session.run.2.cursor.offset = source.utf8ByteSize
  progress : session.cursor.lexemes ≠ [] → ∃ consumed, consumed ≠ [] ∧
    session.cursor.lexemes = consumed ++ session.run.2.cursor.lexemes
  usedUp : (lexemes source).length ≤ requests.count .run → session.cursor.lexemes = []
  rests : session.run.2.cursor.lexemes = [] →
    ∀ later, Rests session.run (trace respond session.run.2 later).2

theorem within_after (source : String) (requests : List Request) :
    (after source requests).cursor.Within source :=
  trace_keeps (fun _ => Cursor.Within.next) (Cursor.Within.ofSource source) requests

/-- **Reruns.** After any requests to a session, a run that fails at a lexeme
leaves all that stands behind it to the next run, and every other run leaves
nothing.  After as many runs as there are lexemes nothing is left, and from then
on every run does nothing and ends alike. -/
theorem reruns_resume (source : String) (requests : List Request) :
    Resumes source requests (after source requests) := by
  have bound : (after source requests).cursor.lexemes.length ≤ _ :=
    length_lexemes_le (ofSource source) requests
  have suffix := lexemes_suffix source requests
  have within := within_after source requests
  generalize after source requests = session at bound suffix within
  have stops := session.run_stopsAt
  refine ⟨?_, ?_, exists_consumed, ?_, rests_of_run⟩
  · intro fault span failed located
    rw [failed] at stops
    cases stops with
    | atEnd noSpan _ =>
        rw [noSpan] at located
        cases located
    | @behind before _ lexeme kind left read =>
        cases located
        rw [Cursor.lexemes_of_next_some read] at left
        obtain ⟨done, whole⟩ := left.trans suffix
        exact ⟨Cursor.offset_of_next read, done, lexeme, _, whole.symm, rfl, rfl,
          takes_course session.run.2⟩
  · intro unlocated
    have nothing : session.run.2.cursor.rest = [] := by
      split at stops
      · exact stops
      · next fault failed =>
          cases stops with
          | atEnd _ usedUp => exact usedUp
          | behind _ _ => cases unlocated _ failed
    have stillWithin : session.run.2.cursor.Within source := by
      rw [run_cursor]
      exact execute_keeps (fun _ => Cursor.Within.next) _ within
    exact ⟨nothing, stillWithin.offset_of_rest_nil nothing⟩
  · intro enough
    apply List.eq_nil_of_length_eq_zero
    have total : (ofSource source).cursor.lexemes.length = (lexemes source).length := rfl
    omega

end Session

end ScopeLang
