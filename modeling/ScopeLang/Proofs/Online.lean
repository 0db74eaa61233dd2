import ScopeLang.Proofs.Layout
import ScopeLang.Proofs.Observations

/-!
# Execution is online

What a run has done does not depend on what stands further on in its source.

* **Lexemes**: a text between whose parts no word goes across has the lexemes of
  the first part and then those of the second (`Cursor.lexemes_append`).
* **Statements**: a statement is taken off the lexemes in the same way whatever
  stands behind them, unless they end inside it (`Statement.take_append`).
* **Courses**: the effects of a course stand at the front of the effects of every
  longer one, and a fault at a lexeme stops both at the same place
  (`course_append`).
-/

namespace ScopeLang

open Text

/-! ## Lexemes of two texts in a row -/

/-- No word goes across from a text to the one behind it. -/
def Text.Apart (first second : List Char) : Prop :=
  (∀ c ∈ first.getLast?, isBlank c = true) ∨ EndsWord second

/-- A word of the first text ends within it. -/
theorem Text.Apart.endsWord {lead word rest second : List Char} (hword : IsWord word)
    (hrest : EndsWord rest) (apart : Apart (lead ++ (word ++ rest)) second) :
    EndsWord (rest ++ second) := by
  cases rest with
  | nil =>
      rcases apart with blank | ends
      · -- the last character would be a blank of the word
        rw [List.append_nil, List.getLast?_append, List.getLast?_eq_some_getLast hword.1,
          Option.some_or] at blank
        have notBlank := hword.2 _ (List.getLast_mem hword.1)
        rw [blank _ rfl] at notBlank
        exact absurd notBlank Bool.noConfusion
      · exact ends
  | cons c cs => exact hrest

theorem Text.Apart.behind {front rest second : List Char} (apart : Apart (front ++ rest) second) :
    Apart rest second := by
  cases rest with
  | nil => exact .inl fun c none => nomatch none
  | cons c cs =>
      rcases apart with blank | ends
      · rw [List.getLast?_append, List.getLast?_cons, Option.some_or] at blank
        rw [← List.getLast?_cons] at blank
        exact .inl blank
      · exact .inr ends

/-- **Lexemes.** The lexemes of two texts in a row are those of the one and then
those of the other. -/
theorem Cursor.lexemes_append {first second : List Char} (apart : Apart first second)
    (offset : Nat) :
    lexemes ⟨first ++ second, offset⟩ =
      lexemes ⟨first, offset⟩ ++ lexemes ⟨second, offset + byteSize first⟩ := by
  obtain ⟨words, layout⟩ := exists_layout first
  induction layout generalizing offset with
  | gap hgap =>
      rw [lexemes_of_gap hgap, lexemes_of_next_eq (next_gap_append hgap second offset)]
      rfl
  | @word lead word _ rest hlead hword hrest _ ih =>
      have behind : Apart rest second := by
        rw [← List.append_assoc] at apart
        exact apart.behind
      rw [List.append_assoc, List.append_assoc,
        lexemes_of_word hlead hword (apart.endsWord hword hrest),
        lexemes_of_word hlead hword hrest, ih behind]
      simp [Nat.add_assoc]

/-! ## One statement -/

namespace Statement

/-- **Statements.** More lexemes behind a statement stay behind it. -/
theorem take_append {first : Lexeme} {rest : List Lexeme}
    (h : (take first rest).1 ≠ .error .endOfInput) (more : List Lexeme) :
    take first (rest ++ more) = ((take first rest).1, (take first rest).2 ++ more) := by
  by_cases close : first.token = .closeBrace
  · simp [take, close]
  cases rest with
  | nil =>
      -- every other statement has a second lexeme
      refine absurd ?_ h
      unfold take
      split <;> simp_all
  | cons second rest =>
      by_cases print : first.token = .print
      · simp [take, print]
      by_cases scope : first.token = .scope
      · by_cases token : second.token = .openBrace <;> simp [take, scope, token]
      have target : first.token.IsTarget := ⟨print, scope, close⟩
      rw [take_of_isTarget target] at h ⊢
      rw [take_of_isTarget target]
      by_cases token : second.token = .equals
      · cases rest with
        | nil => simp [token] at h
        | cons operand rest => simp [token]
      · simp [token]

theorem stepOn_append {first : Lexeme} {rest : List Lexeme} {memory : Memory}
    (h : (stepOn first rest memory).1 ≠ .error .endOfInput) (more : List Lexeme) :
    stepOn first (rest ++ more) memory =
      ((stepOn first rest memory).1, (stepOn first rest memory).2 ++ more) := by
  have taken : (take first rest).1 ≠ .error .endOfInput := by
    intro atEnd
    apply h
    unfold stepOn
    split <;> simp_all
  have longer := take_append taken more
  unfold stepOn
  rcases taking : take first rest with ⟨fault | statement, left⟩
  · rw [taking] at longer
    rw [longer]
  · rw [taking] at longer
    rw [longer]

end Statement

/-! ## Courses -/

theorem Effects.empty_append (effects : Effects) : .empty ++ effects = effects := rfl

/-- The first thing that a course brings forth is the record of its first
statement. -/
theorem exists_begun_course (first : Lexeme) (rest : List Lexeme) (memory : Memory) :
    ∃ further, (course (first :: rest) memory).effects = Execution.begun first ++ further := by
  rcases stepped : Statement.stepOn first rest memory with ⟨_ | ⟨changed, effects⟩, left⟩
  · rw [course_of_step_error stepped]
    exact ⟨.empty, (Effects.append_empty _).symm⟩
  · rw [course_of_step_ok stepped]
    exact ⟨_, Effects.append_assoc ..⟩

/-- **Courses.** More lexemes add to the effects of a course.  A fault at a
lexeme stops the course before it comes to them. -/
theorem course_append (lexemes more : List Lexeme) (memory : Memory) :
    (∃ further, (course (lexemes ++ more) memory).effects =
        (course lexemes memory).effects ++ further) ∧
      ∀ fault, (course lexemes memory).fault = some fault → fault.span ≠ none →
        course (lexemes ++ more) memory =
          { course lexemes memory with rest := (course lexemes memory).rest ++ more } := by
  fun_induction course lexemes memory with
  | case1 memory =>
      refine ⟨⟨_, (Effects.empty_append _).symm⟩, ?_⟩
      intro fault none
      cases none
  | case2 memory first rest fault left stepped =>
      refine ⟨exists_begun_course first (rest ++ more) memory, ?_⟩
      rintro _ ⟨⟩ located
      -- the end of the input has no span, so the fault is another one
      have other : (Statement.stepOn first rest memory).1 ≠ .error .endOfInput := by
        rw [stepped]
        rintro ⟨⟩
        exact located rfl
      have longer := Statement.stepOn_append other more
      rw [stepped] at longer
      exact course_of_step_error longer
  | case3 memory first rest changed effects left stepped _ ih =>
      have fine : (Statement.stepOn first rest memory).1 ≠ .error .endOfInput := by
        rw [stepped]
        rintro ⟨⟩
      have longer := Statement.stepOn_append fine more
      rw [stepped] at longer
      rw [List.cons_append, course_of_step_ok longer]
      obtain ⟨⟨further, grown⟩, stops⟩ := ih
      constructor
      · refine ⟨further, ?_⟩
        show _ ++ (course (left ++ more) changed).effects = _ ++ (course left changed).effects ++ _
        rw [grown]
        exact (Effects.append_assoc _ _ _).symm
      · intro fault failed located
        rw [stops fault failed located]
        rfl

/-! ## Runs -/

theorem Event.render_append (style : Log.Style) (threshold : Log.Level)
    (events more : List Event) :
    render style threshold (events ++ more) =
      render style threshold events ++ render style threshold more := by
  unfold render
  rw [List.map_append, Log.render_append]

/-- A fault with a span is that of a statement. -/
theorem Course.fault_of_result {course : Course} {fault : Fault}
    (h : course.result = .error fault) (located : fault.span ≠ none) :
    course.fault = some fault := by
  unfold Course.result at h
  split at h
  · next failed =>
      cases h
      exact failed
  · split at h
    · cases h
      exact absurd rfl located
    · cases h

namespace Session

/-- A run that has gone on where another one stopped, both with their text
captured. -/
structure Continues (short long : Report Fault × Session) : Prop where
  output : ∃ saved more, short.2.takeCapture.1 = some saved ∧
    long.2.takeCapture.1 = some (saved ++ more)
  events : short.1.events <+: long.1.events
  log : ∀ style threshold, ∃ more, Event.render style threshold long.1.events =
    Event.render style threshold short.1.events ++ more
  /-- A fault at a lexeme stops both. -/
  stops : ∀ fault span, short.1.result = .error fault → fault.span = some span →
    long.1.result = .error fault ∧ long.2.takeCapture.1 = short.2.takeCapture.1 ∧
      long.1.events = short.1.events

/-- **Online.** Where no word goes across, a run of a longer source does all that
a run of its front does, and in the same order: text that follows adds to the
output and to the log, and a fault at a lexeme is the same. -/
theorem run_append_continues (first second : String)
    (apart : Text.Apart first.toList second.toList) :
    Continues (ofSource first).startCapture.run (ofSource (first ++ second)).startCapture.run := by
  have read : lexemes (first ++ second) =
      lexemes first ++ Cursor.lexemes ⟨second.toList, 0 + byteSize first.toList⟩ := by
    unfold lexemes Cursor.ofSource
    rw [String.toList_append]
    exact Cursor.lexemes_append apart 0
  generalize Cursor.lexemes ⟨second.toList, _⟩ = more at read
  obtain ⟨⟨further, grown⟩, stops⟩ :=
    course_append (lexemes first) more Memory.empty.openScope
  rw [← read] at grown stops
  have shortRun := run_report (ofSource first).startCapture rfl
  have longRun := run_report (ofSource (first ++ second)).startCapture rfl
  have shortSaved := takeCapture_run_startCapture first rfl
  have longSaved := takeCapture_run_startCapture (first ++ second) rfl
  have events : (ofSource first).startCapture.run.1.events <+:
      (ofSource (first ++ second)).startCapture.run.1.events := by
    rw [shortRun, longRun]
    exact ⟨further.events, (congrArg Effects.events grown).symm⟩
  refine ⟨⟨_, Text.unlines further.lines, shortSaved, ?_⟩, events, ?_, ?_⟩
  · rw [longSaved, grown, Effects.lines_append, Text.unlines_append]
  · intro style threshold
    obtain ⟨later, whole⟩ := events
    exact ⟨_, by rw [← whole, Event.render_append]⟩
  · intro fault span failed located
    rw [shortRun] at failed
    have atStatement := Course.fault_of_result failed (by simp [located])
    have same := stops fault atStatement (by simp [located])
    rw [longSaved, shortSaved, longRun, shortRun]
    show (course (lexemes (first ++ second)) Memory.empty.openScope).result = _ ∧ _ ∧
      (course (lexemes (first ++ second)) Memory.empty.openScope).effects.events = _
    rw [same]
    exact ⟨failed, rfl, rfl⟩

/-- A front that fails at a brace, after it has printed a line. -/
theorem run_append_continues_stray :
    Text.Apart "print é \x7d".toList "\u3000print".toList ∧
      (ofSource "print é \x7d").startCapture.run.1.result =
        .error (.atSpan .strayBrace { start := 9, stop := 10 }) ∧
      (ofSource ("print é \x7d" ++ "\u3000print")).startCapture.run.1.result =
        .error (.atSpan .strayBrace { start := 9, stop := 10 }) := by
  have apart : Text.Apart "print é \x7d".toList "\u3000print".toList := by
    refine .inr ?_
    rintro c ⟨⟩
    decide
  have failed : (ofSource "print é \x7d").startCapture.run.1.result =
      .error (.atSpan .strayBrace { start := 9, stop := 10 }) := by
    rw [run_result]
    exact congrArg verdict ((execute_of_step_ok rfl rfl).trans
      (congrArg (Execution.after _) (execute_of_step_error rfl rfl)))
  exact ⟨apart, failed, ((run_append_continues _ _ apart).stops _ _ failed rfl).1⟩

end Session

end ScopeLang
