import ScopeLang.Proofs.Depth
import ScopeLang.Proofs.Online
import ScopeLang.Proofs.Renaming

/-!
# Scripts that come to the same

Parts of a script that can be left out or exchanged, whatever stands in front of
them and behind them.

* **Words**: what some words do depends on what a memory shows and not on how it
  keeps it.  `Does` says which lines they print and what is shown afterwards
  (`does_of_passes`), and such steps can be put one after the other
  (`Does.append`).
* **Exchange**: two scripts that have come to show the same go on alike with the
  same words behind (`Does.runs_alike`).
* **Blocks**: the statements of a block leave all frames below its own as they are
  (`passes_above`), so behind it the memory is as it was (`exists_does_block`).
* **Assignments**: an assignment changes the innermost environment only
  (`does_assign`), so that laws of `Command.assigned` are laws of scripts.
-/

namespace ScopeLang

open Statement

/-! ## What words do -/

/-- `Does words seen lines later`: wherever the words stand and whatever comes behind
them, on a memory that shows the environments `seen` they are carried out, print
the lines and leave a memory that shows the environments `later`. -/
def Does (words : List String) (seen : List Environment) (lines : List String)
    (later : List Environment) : Prop :=
  ∀ lexemes memory, Command.Spelled words lexemes → memory.snapshots = seen →
    ∃ changed effects, Passes lexemes memory changed effects ∧ effects.lines = lines ∧
      changed.snapshots = later

theorem Does.append {words more : List String} {seen between later : List Environment}
    {lines further : List String} (h : Does words seen lines between)
    (h' : Does more between further later) :
    Does (words ++ more) seen (lines ++ further) later := by
  intro lexemes memory spelled start
  obtain ⟨first, second, rfl, spelledFirst, spelledSecond⟩ := spelled.append_inv
  obtain ⟨middle, effects, passes, printed, seenBetween⟩ := h first memory spelledFirst start
  obtain ⟨changed, others, passesLater, printedLater, seenLater⟩ :=
    h' second middle spelledSecond seenBetween
  refine ⟨changed, _, passes.append passesLater, ?_, seenLater⟩
  rw [Effects.lines_append, printed, printedLater]

theorem Command.Spelled.length {words : List String} {lexemes : List Lexeme}
    (h : Spelled words lexemes) : lexemes.length = words.length := by
  have lengths := congrArg List.length h
  rw [List.length_map, List.length_map] at lengths
  exact lengths

theorem Command.spelled_ofWord (words : List String) :
    Spelled words (words.map (Lexeme.ofWord · 0)) := by
  unfold Spelled
  rw [List.map_map]
  rfl

theorem Command.Spelled.respells {words : List String} {first second : List Lexeme}
    (h : Spelled words first) (h' : Spelled words second) : Respells .identity first second := by
  unfold Respells
  simp only [Token.rename_identity]
  exact h'.trans h.symm

/-- What statements do that meet no fault, they do whatever comes behind. -/
theorem passes_course {lexemes : List Lexeme} {memory : Memory}
    (h : (course lexemes memory).fault = none) :
    Passes lexemes memory (course lexemes memory).memory (course lexemes memory).effects := by
  fun_induction course lexemes memory with
  | case1 memory => exact Passes.nil memory
  | case2 memory first rest fault left stepped => cases h
  | case3 memory first rest changed effects left stepped _ ih =>
      have fine : (stepOn first rest memory).1 ≠ .error .endOfInput := by
        rw [stepped]
        rintro ⟨⟩
      intro more
      have longer := stepOn_append fine more
      rw [stepped] at longer
      rw [List.cons_append, course_of_step_ok longer, ih h more, Course.after_after]
      rfl

/-- **Words.** What some lexemes do on one memory, all lexemes with the same words do
on every memory that shows the same. -/
theorem does_of_passes {words : List String} {lexemes : List Lexeme} {memory changed : Memory}
    {effects : Effects} (spelled : Command.Spelled words lexemes) (isOpen : 0 < memory.depth)
    (passes : Passes lexemes memory changed effects) :
    Does words memory.snapshots effects.lines changed.snapshots := by
  intro others another spelledOther seen
  have alike := course_renamed (spelled.respells spelledOther)
    (Memory.Renamed.identity_iff.2 seen.symm) isOpen
  rw [passes.course_eq] at alike
  obtain ⟨lines, shown, faults⟩ := alike
  -- the lexemes meet no fault, and so neither do the others
  have fine : (course others another).fault = none := by
    generalize (course others another).fault = fault at faults
    cases faults
    rfl
  refine ⟨_, _, passes_course fine, lines.symm, ?_⟩
  exact (Memory.Renamed.identity_iff.1 shown).symm

/-! ## Runs that go on alike -/

theorem Does.emits {words lines : List String} {later : List Environment}
    (h : Does words Memory.empty.openScope.snapshots lines later) {source : String}
    (layout : Text.Layout words source.toList) : Emits source lines := by
  obtain ⟨changed, effects, passes, rfl, -⟩ := h _ _ (spelled_lexemes layout) rfl
  have emits := emits_course source
  rw [passes.course_eq] at emits
  exact emits

theorem result_course (source : String) :
    (Session.ofSource source).run.1.result =
      (course (lexemes source) Memory.empty.openScope).result :=
  congrArg Report.result (Session.run_report (.ofSource source) rfl)

/-- **Exchange.** Two scripts that have come to show the same go on alike with the
same words behind. -/
theorem Does.runs_alike {words others rest lines further : List String} {later : List Environment}
    (h : Does words Memory.empty.openScope.snapshots lines later)
    (h' : Does others Memory.empty.openScope.snapshots further later)
    (isOpen : 0 < later.length) {first second : String}
    (here : Text.Layout (words ++ rest) first.toList)
    (there : Text.Layout (others ++ rest) second.toList) :
    ∃ behind, Emits first (lines ++ behind) ∧ Emits second (further ++ behind) ∧
      EndsAlike ((lexemes first).drop words.length) ((lexemes second).drop others.length)
        (Session.ofSource first).run.1.result (Session.ofSource second).run.1.result := by
  obtain ⟨front, left, cut, spelled, spelledRest⟩ := (spelled_lexemes here).append_inv
  obtain ⟨frontOther, leftOther, cutOther, spelledOther, spelledRestOther⟩ :=
    (spelled_lexemes there).append_inv
  obtain ⟨reached, effects, passes, rfl, shown⟩ := h front _ spelled rfl
  obtain ⟨reachedOther, effectsOther, passesOther, rfl, shownOther⟩ :=
    h' frontOther _ spelledOther rfl
  have emits := emits_course first
  have emitsOther := emits_course second
  have stillOpen : 0 < reached.depth := by
    rw [← Memory.length_snapshots, shown]
    exact isOpen
  have alike := course_renamed (spelledRest.respells spelledRestOther)
    (Memory.Renamed.identity_iff.2 (shown.trans shownOther.symm)) stillOpen
  rw [cut, passes] at emits
  rw [cutOther, passesOther] at emitsOther
  refine ⟨(course left reached).effects.lines, emits, ?_, ?_⟩
  · rw [alike.lines]
    exact emitsOther
  · rw [result_course, result_course, cut, cutOther, passes, passesOther, ← spelled.length,
      ← spelledOther.length, List.drop_left, List.drop_left]
    exact alike.result

/-- All statements of a source are carried out by a new session.  Scopes may be
left open. -/
def Completes (source : String) : Prop :=
  (execute (.ofSource source) Memory.empty.openScope).fault = none

instance (source : String) : Decidable (Completes source) :=
  inferInstanceAs (Decidable (_ = none))

theorem depth_course_pos {memory : Memory} (isOpen : 0 < memory.depth) (lexemes : List Lexeme) :
    0 < (course lexemes memory).memory.depth := by
  fun_induction course lexemes memory with
  | case1 memory => exact isOpen
  | case2 memory first rest fault left stepped => exact isOpen
  | case3 memory first rest changed effects left stepped _ ih =>
      unfold stepOn at stepped
      split at stepped
      · exact ih (depth_of_exec (Prod.mk.inj stepped).1 isOpen).1
      · cases stepped

theorem Memory.snapshots_eq_cons {memory : Memory} (h : 0 < memory.depth) :
    memory.snapshots = memory.read :: memory.closeScope.2.snapshots := by
  obtain ⟨frames⟩ := memory
  cases frames with
  | nil => exact absurd h (Nat.lt_irrefl 0)
  | cons frame outer => rfl

theorem Completes.exists_does {source : String} (h : Completes source) {words : List String}
    (layout : Text.Layout words source.toList) :
    ∃ (lines : List String) (memory : Memory),
      Does words Memory.empty.openScope.snapshots lines memory.snapshots ∧ 0 < memory.depth := by
  have isOpen : 0 < Memory.empty.openScope.depth := Nat.one_pos
  have fine : (course (lexemes source) Memory.empty.openScope).fault = none :=
    (congrArg Course.fault (course_execute _ _)).symm.trans h
  exact ⟨_, _, does_of_passes (spelled_lexemes layout) isOpen (passes_course fine),
    depth_course_pos isOpen _⟩

/-! ## Blocks -/

/-- Words that are whole statements with scopes of their own: none closes a scope
that they have not opened, and all that they open are closed. -/
def Matched (words : List String) : Prop :=
  ∃ statements, WrittenAll statements (words.map (Lexeme.ofWord · 0)) ∧
    Balanced 0 statements ∧ closed statements = opened statements

/-- The words of a block. -/
def blockWords (body : List String) : List String :=
  ["scope", "\x7b"] ++ body ++ ["\x7d"]

/-- **Blocks.** A block leaves the memory as it was and prints what its statements
print. -/
theorem exists_does_block {body : List String} (matched : Matched body) {memory : Memory}
    (isOpen : 0 < memory.depth) :
    ∃ lines inside, Does (["scope", "\x7b"] ++ body) memory.snapshots lines inside ∧
      Does (blockWords body) memory.snapshots lines memory.snapshots := by
  obtain ⟨statements, written, balanced, counts⟩ := matched
  have frames : memory.openScope.frames = [.empty] ++ memory.frames := rfl
  obtain ⟨changed, effects, further, passes, frames, count⟩ :=
    passes_above written balanced frames rfl
  -- the frame of the block is the only one above those from before it
  obtain ⟨frame, rfl⟩ := List.length_eq_one_iff.1 (show further.length = 1 by omega)
  have outer : changed.closeScope.2 = memory := by
    unfold Memory.closeScope
    rw [frames]
    rfl
  have deep : ¬ changed.depth ≤ 1 := by
    have depth := Memory.depth_closeScope changed
    rw [outer] at depth
    omega
  have closes : exec (.closeScope (Lexeme.ofWord "\x7d" 0).span) changed =
      .ok (memory, { lines := [], events := [.scopeClosed memory.depth] }) := by
    simp only [exec, if_neg deep, outer]
  -- neither brace prints a line
  obtain ⟨opening, opens, quietOpening⟩ : ∃ effects,
      Passes (["scope", "\x7b"].map (Lexeme.ofWord · 0)) memory memory.openScope effects ∧
        effects.lines = [] :=
    ⟨_, Passes.of_exec (.openScope rfl rfl) rfl, rfl⟩
  obtain ⟨closing, closes, quietClosing⟩ : ∃ effects,
      Passes (["\x7d"].map (Lexeme.ofWord · 0)) changed memory effects ∧ effects.lines = [] :=
    ⟨_, Passes.of_exec (.closeScope rfl) closes, rfl⟩
  have entered := opens.append passes
  have left := entered.append closes
  rw [← List.map_append] at entered left
  rw [← List.map_append] at left
  have doesEntered := does_of_passes (Command.spelled_ofWord _) isOpen entered
  have doesLeft := does_of_passes (Command.spelled_ofWord _) isOpen left
  rw [Effects.lines_append, quietOpening, List.nil_append] at doesEntered
  rw [Effects.lines_append, Effects.lines_append, quietOpening, quietClosing, List.nil_append,
    List.append_nil] at doesLeft
  exact ⟨effects.lines, changed.snapshots, doesEntered, doesLeft⟩

/-- **No trace.** Behind statements that are carried out, and in front of any words, a
block whose scopes match adds the lines that it prints and nothing else: without
it the same lines come in front of it and behind it, and the script ends alike. -/
theorem block_leaves_no_trace (front body rest : List String) (matched : Matched body)
    {start inside whole direct : String}
    (atStart : Text.Layout front start.toList) (completes : Completes start)
    (atInside : Text.Layout (front ++ (["scope", "\x7b"] ++ body)) inside.toList)
    (atWhole : Text.Layout (front ++ blockWords body ++ rest) whole.toList)
    (atDirect : Text.Layout (front ++ rest) direct.toList) :
    ∃ before within behind, Emits start before ∧ Emits inside (before ++ within) ∧
      Emits direct (before ++ behind) ∧ Emits whole (before ++ within ++ behind) ∧
      EndsAlike ((lexemes whole).drop (front ++ blockWords body).length)
        ((lexemes direct).drop front.length) (Session.ofSource whole).run.1.result
        (Session.ofSource direct).run.1.result := by
  obtain ⟨before, memory, does, isOpen⟩ := completes.exists_does atStart
  obtain ⟨within, _, enters, leaves⟩ := exists_does_block matched isOpen
  obtain ⟨behind, emitsWhole, emitsDirect, ends⟩ :=
    (does.append leaves).runs_alike does (memory.length_snapshots ▸ isOpen) atWhole atDirect
  exact ⟨before, within, behind, does.emits atStart, (does.append enters).emits atInside,
    emitsDirect, emitsWhole, ends⟩

/-- A block with another one inside that both see a shadowed name, in a scope that is
left open and in front of a brace too many. -/
theorem block_leaves_no_trace_shadowing :
    Matched ["x", "=", "2", "scope", "\x7b", "print", "x", "\x7d"] ∧
      Completes "x = 1 scope \x7b" ∧
      ∃ before within behind, Emits "x = 1 scope \x7b" before ∧
        Emits "x = 1 scope \x7b scope \x7b x = 2 scope \x7b print x \x7d" (before ++ within) ∧
        Emits "x = 1 scope \x7b print x \x7d \x7d" (before ++ behind) ∧
        Emits "x = 1 scope \x7b\nscope \x7b x = 2 scope \x7b print x \x7d \x7d\nprint x \x7d \x7d"
          (before ++ within ++ behind) ∧
        EndsAlike
          ((lexemes
            "x = 1 scope \x7b\nscope \x7b x = 2 scope \x7b print x \x7d \x7d\nprint x \x7d \x7d"
            ).drop 16)
          ((lexemes "x = 1 scope \x7b print x \x7d \x7d").drop 5)
          (Session.ofSource
            "x = 1 scope \x7b\nscope \x7b x = 2 scope \x7b print x \x7d \x7d\nprint x \x7d \x7d"
            ).run.1.result
          (Session.ofSource "x = 1 scope \x7b print x \x7d \x7d").run.1.result := by
  have matched : Matched ["x", "=", "2", "scope", "\x7b", "print", "x", "\x7d"] := by
    refine ⟨_, .cons (.assign ?_ rfl) (.cons (.openScope rfl rfl) (.cons (.print rfl)
      (.cons (.closeScope rfl) .nil))), ?_, rfl⟩
    · exact ⟨by decide, by decide, by decide⟩
    · exact balanced_cons rfl (balanced_cons rfl (balanced_cons rfl (balanced_cons rfl
        (balanced_nil 0))))
  have completes : Completes "x = 1 scope \x7b" := by decide +kernel
  exact ⟨matched, completes, block_leaves_no_trace ["x", "=", "1", "scope", "\x7b"] _
    ["print", "x", "\x7d", "\x7d"] matched (by decide) completes (by decide) (by decide)
    (by decide)⟩

/-! ## Assignments -/

/-- **Assignments.** An assignment changes the innermost environment and nothing else. -/
theorem does_assign (target : Target) (operand : String) (environment : Environment)
    (outer : List Environment) :
    Does [target.text, "=", operand] (environment :: outer) []
      (Command.assigned environment target.text operand :: outer) := by
  intro lexemes memory spelled start
  obtain ⟨first, rest, rfl, hfirst, spelled⟩ := spelled.cons_inv
  obtain ⟨equals, rest, rfl, hequals, spelled⟩ := spelled.cons_inv
  obtain ⟨last, rest, rfl, hlast, spelled⟩ := spelled.cons_inv
  rw [spelled.nil_inv]
  have isOpen : 0 < memory.depth := by
    rw [← Memory.length_snapshots, start]
    exact Nat.zero_lt_succ _
  have innermost : memory.read = environment := by
    rw [← Memory.seen_snapshots, start]
    rfl
  obtain ⟨changed, effects, passes, lines, seen, below, stillOpen⟩ :=
    Command.simulates_assign last isOpen (hfirst ▸ target.isTarget) hequals
  rw [innermost, Command.text_of_token hfirst, Command.text_of_token hlast] at seen
  refine ⟨changed, effects, passes, lines, ?_⟩
  rw [Memory.snapshots_eq_cons stillOpen, seen, below, Memory.snapshots_closeScope, start]
  rfl

/-- A name that is assigned to itself keeps its value, or stays unset. -/
theorem Command.assigned_self (environment : Environment) {name : String}
    (noLiteral : Literal.parse? name = none) : assigned environment name name = environment := by
  rw [assigned_eq, noLiteral, Option.none_or]
  cases value : environment name with
  | none => rfl
  | some number =>
      funext other
      show (if other = name then some number else environment other) = environment other
      split
      · next same => rw [same, value]
      · rfl

theorem Environment.set_comm (environment : Environment) {first second : String}
    (differ : first ≠ second) (value other : Int64) :
    (environment.set first value).set second other =
      (environment.set second other).set first value := by
  funext name
  unfold set
  by_cases atFirst : name = first
  · have notSecond : name ≠ second := atFirst ▸ differ
    rw [if_neg notSecond, if_pos atFirst, if_pos atFirst]
  · rw [if_neg atFirst, if_neg atFirst]

/-- An operand that is a literal or another name has the same value behind an
assignment. -/
theorem Command.operand_assigned (environment : Environment) {operand target : String}
    (h : Literal.parse? operand ≠ none ∨ operand ≠ target) (other : String) :
    (Literal.parse? operand).or (assigned environment target other operand) =
      (Literal.parse? operand).or (environment operand) := by
  cases literal : Literal.parse? operand with
  | some value => rw [Option.some_or, Option.some_or]
  | none =>
      have differ : operand ≠ target := h.resolve_left fun isLiteral => isLiteral literal
      rw [Option.none_or, Option.none_or, assigned_eq]
      split
      · exact if_neg differ
      · rfl

theorem Command.assigned_comm (environment : Environment) {first second operand other : String}
    (differ : first ≠ second)
    (independent : Literal.parse? operand ≠ none ∨ operand ≠ second)
    (otherIndependent : Literal.parse? other ≠ none ∨ other ≠ first) :
    assigned (assigned environment first operand) second other =
      assigned (assigned environment second other) first operand := by
  rw [assigned_eq (assigned environment first operand),
    operand_assigned environment otherIndependent,
    assigned_eq (assigned environment second other), operand_assigned environment independent,
    assigned_eq environment first operand, assigned_eq environment second other]
  -- by which of the two operands have a value
  cases (Literal.parse? operand).or (environment operand) with
  | none => rfl
  | some value =>
      cases (Literal.parse? other).or (environment other) with
      | none => rfl
      | some number => exact Environment.set_comm environment differ value number

/-- Two sources print the same lines and end alike.  Places are compared from the
lexeme with the number `passed` of the one and `skipped` of the other on. -/
structure RunsAlike (first second : String) (passed skipped : Nat) : Prop where
  lines : ∃ lines, Emits first lines ∧ Emits second lines
  ends : EndsAlike ((lexemes first).drop passed) ((lexemes second).drop skipped)
    (Session.ofSource first).run.1.result (Session.ofSource second).run.1.result

/-- **Self-assignment.** Behind statements that are carried out, and in front of any
words, a name that is no literal can be assigned to itself: nothing of it shows,
whether the name has no value, or one of the innermost scope, or one of a scope
around it that is shadowed by the copy. -/
theorem self_assignment_unobservable (front rest : List String) (name : Target)
    (noLiteral : Literal.parse? name.text = none) {start long short : String}
    (atStart : Text.Layout front start.toList) (completes : Completes start)
    (atLong : Text.Layout (front ++ [name.text, "=", name.text] ++ rest) long.toList)
    (atShort : Text.Layout (front ++ rest) short.toList) :
    RunsAlike long short (front.length + 3) front.length := by
  obtain ⟨before, memory, does, isOpen⟩ := completes.exists_does atStart
  rw [Memory.snapshots_eq_cons isOpen] at does
  have assigns := does_assign name name.text memory.read memory.closeScope.2.snapshots
  rw [Command.assigned_self _ noLiteral] at assigns
  obtain ⟨behind, emitsLong, emitsShort, ends⟩ :=
    (does.append assigns).runs_alike does (Nat.zero_lt_succ _) atLong atShort
  rw [List.append_nil] at emitsLong
  rw [List.length_append] at ends
  exact ⟨⟨_, emitsLong, emitsShort⟩, ends⟩

/-- A copy of an outer name to itself, which is then assigned in the inner scope. -/
theorem self_assignment_unobservable_shadowing :
    Literal.parse? "x" = none ∧ Completes "x = 1 scope \x7b" ∧
      RunsAlike "x = 1 scope \x7b x = x print x x = 2 \x7d print x \x7d"
        "x = 1 scope \x7b\nprint x x = 2 \x7d\nprint x \x7d" 8 5 := by
  have noLiteral : Literal.parse? "x" = none := by decide
  have completes : Completes "x = 1 scope \x7b" := by decide +kernel
  let name : Target :=
    { text := "x", isWord := by decide, notPrint := by decide, notScope := by decide
      notBrace := by decide }
  exact ⟨noLiteral, completes, self_assignment_unobservable ["x", "=", "1", "scope", "\x7b"]
    ["print", "x", "x", "=", "2", "\x7d", "print", "x", "\x7d"] name noLiteral (by decide) completes
    (by decide) (by decide)⟩

/-- **Independent assignments.** Behind statements that are carried out, and in front of
any words, assignments to two names can change places if no operand is the name
that the other one assigns, unless it is a literal. -/
theorem independent_assignments_commute (front rest : List String) (first second : Target)
    (operand other : String) (differ : first.text ≠ second.text)
    (independent : Literal.parse? operand ≠ none ∨ operand ≠ second.text)
    (otherIndependent : Literal.parse? other ≠ none ∨ other ≠ first.text)
    {start one another : String}
    (atStart : Text.Layout front start.toList) (completes : Completes start)
    (atOne : Text.Layout
      (front ++ [first.text, "=", operand] ++ [second.text, "=", other] ++ rest) one.toList)
    (atAnother : Text.Layout
      (front ++ [second.text, "=", other] ++ [first.text, "=", operand] ++ rest) another.toList) :
    RunsAlike one another (front.length + 6) (front.length + 6) := by
  obtain ⟨before, memory, does, isOpen⟩ := completes.exists_does atStart
  rw [Memory.snapshots_eq_cons isOpen] at does
  have doesOne := (does.append (does_assign first operand _ _)).append
    (does_assign second other _ _)
  have doesAnother := (does.append (does_assign second other _ _)).append
    (does_assign first operand _ _)
  rw [← Command.assigned_comm _ differ independent otherIndependent] at doesAnother
  obtain ⟨behind, emitsOne, emitsAnother, ends⟩ :=
    doesOne.runs_alike doesAnother (Nat.zero_lt_succ _) atOne atAnother
  rw [List.length_append, List.length_append, List.length_append, List.length_append] at ends
  exact ⟨⟨_, emitsOne, emitsAnother⟩, ends⟩

/-- One operand is a literal that is also the name of a variable, and the other one a
name of an outer scope. -/
theorem independent_assignments_commute_literal :
    Literal.parse? "5" ≠ none ∧ Completes "y = 7 scope \x7b" ∧
      RunsAlike "y = 7 scope \x7b x = 5 5 = y print x print 5 \x7d print 5 \x7d"
        "y = 7 scope \x7b 5 = y x = 5 print x print 5 \x7d\nprint 5 \x7d" 11 11 := by
  have literal : Literal.parse? "5" ≠ none := by decide
  have completes : Completes "y = 7 scope \x7b" := by decide +kernel
  let x : Target :=
    { text := "x", isWord := by decide, notPrint := by decide, notScope := by decide
      notBrace := by decide }
  let five : Target :=
    { text := "5", isWord := by decide, notPrint := by decide, notScope := by decide
      notBrace := by decide }
  exact ⟨literal, completes, independent_assignments_commute ["y", "=", "7", "scope", "\x7b"]
    ["print", "x", "print", "5", "\x7d", "print", "5", "\x7d"] x five "5" "y" (by decide)
    (.inl literal) (.inr (by decide)) (by decide) completes (by decide) (by decide)⟩

end ScopeLang
