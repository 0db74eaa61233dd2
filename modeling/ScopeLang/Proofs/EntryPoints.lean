import ScopeLang.Proofs.Depth
import ScopeLang.Proofs.Items
import ScopeLang.Proofs.Observations
import ScopeLang.Proofs.Outcomes

/-!
# The ways to run a source

A source can be evaluated, run in a session, run by a host that was given it as
an argument or finds it in a file, and given to the program on the command line.
All of these print the same text and come to the same end.

* **Text**: what is printed is captured as a whole and comes back line by line
  (`evaluate_fst`, `Host.run_startCapture`).
* **Log**: no record of a run is a warning, so that by default nothing but the
  failure is written to standard error (`Program.shown_zero_eq_nil`).
-/

namespace ScopeLang

theorem evaluate_fst (source : String) :
    (evaluate source).1 =
      (Session.ofSource source).run.1.result.map fun _ => (Session.ofSource source).printed := by
  rw [evaluate_eq]
  unfold lexemes
  rw [← course_execute, ← Session.verdict_eq_result, Session.run_result]
  rfl

/-- What is printed is what the statements print that are carried out. -/
theorem Session.exists_advances_printed (source : String) :
    ∃ statements effects stop memory,
      Advances (.ofSource source) Memory.empty.openScope statements effects stop memory ∧
        Stops stop memory effects (execute (.ofSource source) Memory.empty.openScope) ∧
        (ofSource source).printed = effects.lines := by
  obtain ⟨statements, effects, stop, memory, advances, stops⟩ :=
    execute_stops (.ofSource source) Memory.empty.openScope
  exact ⟨statements, effects, stop, memory, advances, stops, stops.lines⟩

theorem Host.run_startCapture {options : Options} {world : World} {source : String}
    (fetched : (world.fetch options.origin).1 = .ok source) :
    ((ofOptions options).startCapture.run world).1.result =
        (Session.ofSource source).run.1.result.mapError (.faulty options.sourceName source) ∧
      ((ofOptions options).startCapture.run world).2.1.takeCapture.1 =
        some (Text.unlines (Session.ofSource source).printed) := by
  replace fetched :
      (world.fetch (ofOptions options).startCapture.options.origin).1 = .ok source := fetched
  obtain ⟨report, later⟩ := run_of_fetch_ok fetched
  rw [report, later, runScriptAt_trace, Session.run_result]
  refine ⟨rfl, ?_⟩
  show some ("" ++ _) = _
  rw [String.empty_append]

namespace CommandLine

theorem parse_inline (source : String) :
    parse ["--inline=" ++ source] = .ok { inline := some source } := by
  unfold parse
  rw [List.foldlM_cons]
  unfold Progress.read
  rw [Argument.ofText_inline]
  rfl

end CommandLine

namespace Program

/-- By default, no record of a run is shown. -/
theorem shown_zero_eq_nil (options : Options) (world : World) :
    Log.shown 0 ((Host.ofOptions options).run world).1.records = [] := by
  unfold Log.shown Report.records
  rw [List.filter_eq_nil_iff]
  intro record mem
  obtain ⟨event, happened, rfl⟩ := List.mem_map.1 mem
  cases event with
  | writeDropped name => exact absurd happened ((Host.ofOptions options).noWarning world name)
  | _ => exact Bool.false_ne_true

/-- A call on a source writes nothing but its failure to standard error. -/
theorem call_inline (program source : String) (world : World) {result : Except Failure Unit}
    {tail : String}
    (ended : (Session.ofSource source).run.1.result.mapError (.faulty "<inline>" source) = result)
    (ends : Ends result .plain tail) :
    call program ["--inline=" ++ source] world .plain =
      { status := exitStatus result
        stdout := Text.unlines (Session.ofSource source).printed
        stderr := tail } := by
  have quiet := shown_zero_eq_nil { inline := some source } world
  have report := (Host.run_of_fetch_ok (show (world.fetch (Host.ofOptions
    { inline := some source }).options.origin).1 = .ok source from rfl)).1
  rw [Host.runScriptAt_trace] at report
  replace ended : ((Host.ofOptions { inline := some source }).run world).1.result = result := by
    rw [← ended, report, Session.run_result]
    rfl
  rw [← ended] at ends ⊢
  rw [call_of_parse (CommandLine.parse_inline source)]
  refine (conclude_eq ends 0).trans ?_
  rw [quiet, report]
  show Outcome.mk _ _ ("" ++ tail) = _
  rw [String.empty_append]
  rfl

end Program

/-- What a session and two hosts have captured is the text. -/
structure AllCaptured (session : Session) (inline file : Host) (text : String) : Prop where
  bySession : session.takeCapture.1 = some text
  byInline : inline.takeCapture.1 = some text
  byFile : file.takeCapture.1 = some text

/-- All ways to run a source come to the same end with the same text, where
`path` is the name of the file that holds the source. -/
inductive AllAgree (source path : String) (evaluated : Except Fault (List String))
    (session : Report Fault × Session) (inline file : Report Failure × Host × World)
    (called : Outcome) : Prop
  | succeeded {lines : List String} :
      evaluated = .ok lines → session.1.result = .ok () → inline.1.result = .ok () →
      file.1.result = .ok () → AllCaptured session.2 inline.2.1 file.2.1 (Text.unlines lines) →
      called = { status := 0, stdout := Text.unlines lines, stderr := "" } →
      AllAgree source path evaluated session inline file called
  /-- All fail with the fault, after the statements in front of it were carried out. -/
  | failed {fault : Fault} {shown : String} {statements : List Statement} {effects : Effects}
      {stop : Cursor} {memory : Memory} :
      evaluated = .error fault → session.1.result = .error fault →
      inline.1.result = .error (.faulty "<inline>" source fault) →
      file.1.result = .error (.faulty path source fault) →
      Advances (.ofSource source) Memory.empty.openScope statements effects stop memory →
      Stops stop memory effects (execute (.ofSource source) Memory.empty.openScope) →
      AllCaptured session.2 inline.2.1 file.2.1 (Text.unlines effects.lines) →
      fault.render source = .ok shown →
      (Failure.faulty "<inline>" source fault).render = .ok ("<inline>: " ++ shown) →
      (Failure.faulty path source fault).render = .ok (path ++ ": " ++ shown) →
      called =
        { status := 1
          stdout := Text.unlines effects.lines
          stderr := "error: " ++ ("<inline>: " ++ shown) ++ "\n" } →
      AllAgree source path evaluated session inline file called

/-- **Entry points.** Evaluating a source, running it in a session, running it by
a host from an argument or from a file and calling the program on it all succeed
with the same lines, or all fail with the same fault after the same lines. -/
theorem entry_points_agree (source path program : String) (verbosity : Nat) (world disk : World)
    (stored : disk.readFile path = .ok source.toUTF8) :
    AllAgree source path (evaluate source).1 (Session.ofSource source).startCapture.run
      ((Host.ofOptions { inline := some source, verbosity := verbosity }).startCapture.run world)
      ((Host.ofOptions { file := some path, verbosity := verbosity }).startCapture.run disk)
      (Program.call program ["--inline=" ++ source] world .plain) := by
  have fetchedInline : (world.fetch (Options.origin
      { inline := some source, verbosity := verbosity })).1 = .ok source := rfl
  have fetchedFile : (disk.fetch (Options.origin
      { file := some path, verbosity := verbosity })).1 = .ok source := by
    show (disk.readFile path >>= World.decode) = _
    rw [stored]
    exact World.decode_toUTF8 source
  obtain ⟨inlineResult, inlineText⟩ := Host.run_startCapture fetchedInline
  obtain ⟨fileResult, fileText⟩ := Host.run_startCapture fetchedFile
  have evaluated := evaluate_fst source
  have sessionText : (Session.ofSource source).startCapture.run.2.takeCapture.1 =
      some (Text.unlines (Session.ofSource source).printed) :=
    Session.takeCapture_run_startCapture source (course_execute _ _).symm
  have captured := AllCaptured.mk sessionText inlineText fileText
  have sameEnd : (Session.ofSource source).startCapture.run.1.result =
      (Session.ofSource source).run.1.result := by
    rw [Session.run_result, Session.run_result]
    rfl
  cases ended : (Session.ofSource source).run.1.result with
  | ok =>
      rw [ended] at evaluated inlineResult fileResult
      refine .succeeded evaluated (sameEnd.trans ended) inlineResult fileResult captured ?_
      exact Program.call_inline program source world (by rw [ended]; rfl) (.ok .plain)
  | error fault =>
      rw [ended] at evaluated inlineResult fileResult
      obtain ⟨statements, effects, stop, memory, advances, stops, printed⟩ :=
        Session.exists_advances_printed source
      obtain ⟨shown, rendered⟩ := Session.exists_render_of_failed ended
      have inlineShown := Failure.render_faulty "<inline>" rendered
      rw [printed] at captured
      refine .failed evaluated (sameEnd.trans ended) inlineResult fileResult advances stops captured
        rendered inlineShown (Failure.render_faulty path rendered) ?_
      rw [← printed]
      exact Program.call_inline program source world (by rw [ended]; rfl)
        (.faulty .plain "<inline>" rendered)

/-- A script that fails after it has printed a line, in a file below a directory. -/
theorem entry_points_agree_stray :
    (World.ofDirectory .empty (Directory.empty.insert "a/é" "print é \x7d".toUTF8)).readFile "a/é" =
        .ok "print é \x7d".toUTF8 ∧
      AllAgree "print é \x7d" "a/é" (evaluate "print é \x7d").1
        (Session.ofSource "print é \x7d").startCapture.run
        ((Host.ofOptions { inline := some "print é \x7d", verbosity := 0 }).startCapture.run
          (World.ofDirectory .empty .empty))
        ((Host.ofOptions { file := some "a/é", verbosity := 0 }).startCapture.run
          (World.ofDirectory .empty (Directory.empty.insert "a/é" "print é \x7d".toUTF8)))
        (Program.call "scopescript" ["--inline=" ++ "print é \x7d"]
          (World.ofDirectory .empty .empty) .plain) := by
  have stored : (World.ofDirectory .empty
      (Directory.empty.insert "a/é" "print é \x7d".toUTF8)).readFile "a/é" =
      .ok "print é \x7d".toUTF8 := by
    rfl
  exact ⟨stored, entry_points_agree _ _ "scopescript" 0 (World.ofDirectory .empty .empty) _ stored⟩

end ScopeLang
