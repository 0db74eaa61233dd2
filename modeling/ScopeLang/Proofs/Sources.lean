import ScopeLang.CommandLine.Parse
import ScopeLang.Proofs.Blame
import ScopeLang.Proofs.Conservation

/-!
# The source of a run

A command line that is accepted names one input, so the name that a run shows is
that of the text that it runs.

* **Runs of a host**: a host shows what a session on the text shows that it has
  read, under the name of its options (`Host.run_report`), and a failure can
  always be shown with its place (`Host.exists_render_of_failed`).
* **One input**: the options of an accepted command line are those of one input
  (`CommandLine.exists_input_of_parse`), whose text is read under its own name
  (`CommandLine.reads_optionsOf`).
-/

namespace ScopeLang

/-! ## Runs of a host -/

namespace Host

/-- A run of a host under a name, on a text or on the error met in its place. -/
inductive RunsUnder (report : Report Failure) (name : String) : Except ReadError String → Prop
  | unreadable {error : ReadError} :
      report.result = .error (.unreadable name error) → report.stdout = "" → report.events = [] →
      RunsUnder report name (.error error)
  | ran {script : String} {events : List Event} :
      report.result = (Session.ofSource script).run.1.result.mapError (.faulty name script) →
      report.events = .loaded name script.utf8ByteSize :: events →
      (Event.loaded name script.utf8ByteSize).record =
        ⟨.info, "loaded " ++ name ++ " (" ++ toString script.utf8ByteSize ++ " bytes)"⟩ →
      (∀ other bytes, .loaded other bytes ∉ events) →
      RunsUnder report name (.ok script)

theorem run_of_fetch_error {host : Host} {world : World} {error : ReadError}
    (h : (world.fetch host.options.origin).1 = .error error) :
    (host.run world).1 =
      { result := .error (.unreadable host.options.sourceName error), stdout := "", events := [] } := by
  unfold run runAt
  rcases fetched : world.fetch host.options.origin with ⟨_ | script, later⟩
  · rw [fetched] at h
    cases h
    rfl
  · rw [fetched] at h
    cases h

theorem run_of_fetch_ok {host : Host} {world : World} {script : String}
    (h : (world.fetch host.options.origin).1 = .ok script) :
    (host.run world).1 = (host.runScriptAt .trace host.options.sourceName script).1 ∧
      (host.run world).2.1 = (host.runScriptAt .trace host.options.sourceName script).2 := by
  unfold run runAt
  rcases fetched : world.fetch host.options.origin with ⟨_ | other, later⟩
  · rw [fetched] at h
    cases h
  · rw [fetched] at h
    cases h
    exact ⟨rfl, rfl⟩

end Host

theorem Statement.not_loaded_of_exec {statement : Statement} {memory changed : Memory}
    {effects : Effects} (h : statement.exec memory = .ok (changed, effects)) (source : String)
    (bytes : Nat) : .loaded source bytes ∉ effects.events := by
  cases exec_eq_ok_iff.1 h with
  | print name => simp
  | openScope => simp
  | closeScope brace _ => simp
  | write target _ =>
      obtain ⟨frames⟩ := memory
      cases frames <;> simp [Memory.write]
  | skip target _ => simp

/-- No statement records that a script was loaded. -/
theorem not_loaded_of_execute (cursor : Cursor) (memory : Memory) (source : String) (bytes : Nat) :
    .loaded source bytes ∉ (execute cursor memory).effects.events := by
  fun_induction execute cursor memory with
  | case1 cursor memory stopped read => exact List.not_mem_nil
  | case2 cursor memory first rest read fault stopped stepped => simp [Execution.begun]
  | case3 cursor memory first rest read changed effects next stepped _ ih =>
      obtain ⟨statement, -, executed⟩ := Statement.step_eq_ok_iff.1 stepped
      have now := Statement.not_loaded_of_exec executed source bytes
      simp [Execution.after, Execution.begun, now, ih]

theorem Host.run_report (host : Host) (world : World) :
    RunsUnder (host.run world).1 host.options.sourceName (world.fetch host.options.origin).1 := by
  cases fetched : (world.fetch host.options.origin).1 with
  | error error =>
      have ran := run_of_fetch_error fetched
      exact .unreadable (by rw [ran]) (by rw [ran]) (by rw [ran])
  | ok script =>
      have ran := (run_of_fetch_ok fetched).1
      rw [runScriptAt_trace] at ran
      have result : (host.run world).1.result =
          (Session.ofSource script).run.1.result.mapError
            (.faulty host.options.sourceName script) := by
        rw [ran, Session.run_eq]
        rfl
      refine .ran result (by rw [ran]) rfl ?_
      exact not_loaded_of_execute (.ofSource script) Memory.empty.openScope

theorem Session.exists_render_of_failed {source : String} {fault : Fault}
    (failed : (ofSource source).run.1.result = .error fault) :
    ∃ text, fault.render source = .ok text := by
  rcases fault_blames failed with (rfl | rfl) | ⟨kind, lexeme, mem, rfl, -⟩
  · exact ⟨_, rfl⟩
  · exact ⟨_, rfl⟩
  · obtain ⟨before, column, text, marked⟩ := Fault.marked_of_mem mem kind
    exact ⟨_, marked.shown⟩

theorem Failure.render_faulty (name : String) {script : String} {fault : Fault} {text : String}
    (shown : fault.render script = .ok text) :
    (faulty name script fault).render = .ok (name ++ ": " ++ text) := by
  show (fault.render script).map _ = _
  rw [shown]
  rfl

/-- Every failure of a host can be shown. -/
theorem Host.exists_render_of_failed {host : Host} {world : World} {failure : Failure}
    (failed : (host.run world).1.result = .error failure) :
    ∃ text, failure.render = .ok text := by
  have runs := host.run_report world
  generalize world.fetch host.options.origin = fetched at runs
  obtain ⟨text, later⟩ := fetched
  cases runs with
  | unreadable unread _ _ =>
      rw [unread] at failed
      cases failed
      exact ⟨_, rfl⟩
  | @ran script _ result _ _ _ =>
      rw [result] at failed
      cases ended : (Session.ofSource script).run.1.result with
      | ok =>
          rw [ended] at failed
          cases failed
      | error fault =>
          rw [ended] at failed
          cases failed
          obtain ⟨text, shown⟩ := Session.exists_render_of_failed ended
          exact ⟨_, Failure.render_faulty host.options.sourceName shown⟩

/-! ## Options with one input -/

/-- `Reads world options name text`: the options name one input and no other,
which is shown under the name and holds the text. -/
inductive Options.Reads (world : World) : Options → String → Except ReadError String → Prop
  | inline (script : String) (verbosity : Nat) :
      Reads world { inline := some script, verbosity := verbosity } "<inline>" (.ok script)
  | stdin (verbosity : Nat) :
      Reads world { stdin := true, verbosity := verbosity } "<stdin>" (world.stdin >>= World.decode)
  | file (path : String) (verbosity : Nat) :
      Reads world { file := some path, verbosity := verbosity } path
        (world.readFile path >>= World.decode)

namespace Options.Reads

variable {world : World} {options : Options} {name : String} {text : Except ReadError String}

theorem one_input (h : Reads world options name text) :
    [options.inline.isSome, options.stdin, options.file.isSome].count true = 1 := by
  cases h <;> rfl

theorem sourceName (h : Reads world options name text) : options.sourceName = name := by
  cases h <;> rfl

theorem fetch (h : Reads world options name text) : (world.fetch options.origin).1 = text := by
  cases h <;> rfl

theorem origin_ne_nowhere (h : Reads world options name text) : options.origin ≠ .nowhere := by
  cases h <;> exact Origin.noConfusion

end Options.Reads

/-! ## Accepted command lines -/

namespace CommandLine

/-- The options with one input name that input. -/
theorem reads_optionsOf (input : Input) (verbosity : Nat) (world : World) :
    ∃ name text, (optionsOf [input] verbosity).Reads world name text := by
  cases input with
  | inline script => exact ⟨_, _, .inline script verbosity⟩
  | stdin => exact ⟨_, _, .stdin verbosity⟩
  | file path => exact ⟨_, _, .file path verbosity⟩

theorem exists_of_bind_eq_ok {ε α β : Type} {first : Except ε α} {second : α → Except ε β}
    {value : β} (h : (first >>= second) = .ok value) :
    ∃ middle, first = .ok middle ∧ second middle = .ok value := by
  cases first with
  | error error => cases h
  | ok middle => exact ⟨middle, rfl, h⟩

theorem eq_ok_of_mapError {ε δ α : Type} {result : Except ε α} {f : ε → δ} {value : α}
    (h : result.mapError f = .ok value) : result = .ok value := by
  cases result with
  | error error => cases h
  | ok other =>
      cases h
      rfl

theorem Progress.check_eq_ok_iff {progress : Progress} :
    progress.check = .ok () ↔ ∃ input, progress.given = [input] := by
  unfold check
  rcases progress.given with _ | ⟨first, _ | ⟨second, others⟩⟩ <;> simp

/-- Reading ends well exactly with one input: none is refused, and so are several. -/
theorem Progress.finish_eq_ok_iff {progress : Progress} {options : Options} :
    progress.finish = .ok options ↔
      ∃ settled input, progress.settle = .ok settled ∧ settled.given = [input] ∧
        options = optionsOf [input] settled.verbosity := by
  constructor
  · intro finished
    obtain ⟨settled, settles, rest⟩ := exists_of_bind_eq_ok finished
    obtain ⟨⟨⟩, checked, whole⟩ := exists_of_bind_eq_ok rest
    obtain ⟨input, given⟩ := check_eq_ok_iff.1 checked
    cases whole
    exact ⟨settled, input, settles, given, by rw [given]⟩
  · rintro ⟨settled, input, settles, given, rfl⟩
    have checked := check_eq_ok_iff.2 ⟨input, given⟩
    unfold finish
    rw [settles]
    show (settled.check >>= fun _ => pure (optionsOf settled.given _)) = _
    rw [checked, given]
    rfl

/-- An accepted command line names one input. -/
theorem exists_input_of_parse {arguments : List String} {options : Options}
    (h : parse arguments = .ok options) :
    ∃ (input : Input) (verbosity : Nat), options = optionsOf [input] verbosity := by
  obtain ⟨progress, -, finished⟩ := exists_of_bind_eq_ok h
  obtain ⟨settled, input, -, -, whole⟩ := Progress.finish_eq_ok_iff.1 finished
  exact ⟨input, settled.verbosity, whole⟩

theorem parse_of_parseCall {arguments : List String} {options : Options}
    (h : parseCall arguments = .ok options) : parse arguments.tail = .ok options := by
  cases arguments with
  | nil => exact eq_ok_of_mapError (f := (·, defaultName)) h
  | cons path arguments => exact eq_ok_of_mapError h

/-- **Sources.** An accepted command line names one input and no other.  What is
read is the text of that input, and a run on it appears under that input's name,
where the script is loaded and in every failure. -/
theorem parseCall_names_source (arguments : List String) (options : Options)
    (accepted : parseCall arguments = .ok options) (world : World) (capture : Capture) :
    [options.inline.isSome, options.stdin, options.file.isSome].count true = 1 ∧
      options.origin ≠ .nowhere ∧
      ∃ name text, options.Reads world name text ∧ options.sourceName = name ∧
        (world.fetch options.origin).1 = text ∧
        Host.RunsUnder ((Host.mk options capture).run world).1 name text := by
  obtain ⟨input, verbosity, whole⟩ := exists_input_of_parse (parse_of_parseCall accepted)
  obtain ⟨name, text, reads⟩ := reads_optionsOf input verbosity world
  rw [← whole] at reads
  refine ⟨reads.one_input, reads.origin_ne_nowhere, name, text, reads, reads.sourceName,
    reads.fetch, ?_⟩
  have runs := (Host.mk options capture).run_report world
  rw [reads.sourceName, reads.fetch] at runs
  exact runs

/-- A file that has the name of an option, behind the separator. -/
theorem parseCall_names_source_separator :
    parseCall ["scopescript", "-v", "--", "--stdin"] =
        .ok { file := some "--stdin", verbosity := 1 } ∧
      ∃ name text, Options.Reads { stdin := .ok .empty, readFile := fun _ => .ok "print x".toUTF8 }
          { file := some "--stdin", verbosity := 1 } name text ∧
        Options.sourceName { file := some "--stdin", verbosity := 1 } = name := by
  have accepted : parseCall ["scopescript", "-v", "--", "--stdin"] =
      .ok { file := some "--stdin", verbosity := 1 } := by
    rfl
  obtain ⟨-, -, name, text, reads, named, -⟩ := parseCall_names_source _ _ accepted
    { stdin := .ok .empty, readFile := fun _ => .ok "print x".toUTF8 } .off
  exact ⟨accepted, name, text, reads, named⟩

end CommandLine

end ScopeLang
