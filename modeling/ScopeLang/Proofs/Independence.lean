import ScopeLang.Proofs.Sources

/-!
# Runs of a host are independent

From one run to the next a host keeps its options and what it has captured.  No
variable, no open scope and no place in a script is carried over, and of the world
only standard input changes.

* **Reading**: bytes are read as the text that they are the bytes of, and refused if
  there is none (`World.decode_eq_ok_iff`, `World.decode_of_no_text`).
* **After requests**: the options and the files are those of the beginning, and
  standard input is there until the first run (`Host.fetch_after`).
* **One run**: a run does what a new session does on the script that it reads, or it
  reads none and does nothing (`Host.runsAfresh_of_fetch`), so that runs which find
  the same bytes are alike (`Host.RunsAfresh.alike`).
-/

namespace ScopeLang

/-- The bytes that a run finds, or why it finds none: those of the argument, else of
standard input, else of the file.  Standard input is empty after a run that has read
it. -/
def Options.found (options : Options) (world : World) (again : Bool) :
    Except ReadError ByteArray :=
  match options.inline with
  | some script => .ok script.toUTF8
  | none =>
      if options.stdin then (if again then world.stdin.map fun _ => .empty else world.stdin)
      else
        match options.file with
        | some path => world.readFile path
        | none => .ok .empty

/-- `Delivers text before stdout after`: a text goes to standard output, or it is held
behind what was held. -/
inductive Capture.Delivers (text : String) : Capture → String → Capture → Prop
  | printed : Delivers text ⟨none⟩ text ⟨none⟩
  | held (held : String) : Delivers text ⟨some held⟩ "" ⟨some (held ++ text)⟩

namespace Host

/-- A run that could read no script: it prints and records nothing, and the host
is as it was. -/
structure Unread (name : String) (host : Host) (report : Report Failure) (later : Host)
    (error : ReadError) : Prop where
  result : report.result = .error (.unreadable name error)
  stdout : report.stdout = ""
  records : report.records = []
  unchanged : later = host

/-- `RunsAfresh name host report later found`: what a run does with the bytes that it
finds. -/
inductive RunsAfresh (name : String) (host : Host) (report : Report Failure) (later : Host) :
    Except ReadError ByteArray → Prop
  /-- The bytes are a script, and the run is that of a new session on it. -/
  | ran {bytes : ByteArray} (script : String) : script.toUTF8 = bytes →
      report.result = (Session.ofSource script).run.1.result.mapError (.faulty name script) →
      report.records =
        ⟨.info, "loaded " ++ name ++ " (" ++ toString bytes.size ++ " bytes)"⟩ ::
          (Session.ofSource script).run.1.records →
      host.capture.Delivers (Session.ofSource script).run.1.stdout report.stdout later.capture →
      RunsAfresh name host report later (.ok bytes)
  | notText {bytes : ByteArray} : (∀ script : String, script.toUTF8 ≠ bytes) →
      Unread name host report later .notText → RunsAfresh name host report later (.ok bytes)
  | unreadable {error : ReadError} :
      Unread name host report later error → RunsAfresh name host report later (.error error)

/-- A host and its world after some requests. -/
def after (options : Options) (world : World) (requests : List Request) : Host × World :=
  (trace respond (ofOptions options, world) requests).2

end Host

/-! ## Reading -/

namespace World

theorem decode_eq_ok_iff {bytes : ByteArray} {text : String} :
    decode bytes = .ok text ↔ text.toUTF8 = bytes := by
  constructor
  · intro h
    unfold decode String.fromUTF8? at h
    by_cases valid : bytes.IsValidUTF8
    · rw [dif_pos valid] at h
      cases h
      rfl
    · rw [dif_neg valid] at h
      cases h
  · rintro rfl
    exact decode_toUTF8 text

theorem decode_of_no_text {bytes : ByteArray} (h : ∀ text : String, text.toUTF8 ≠ bytes) :
    decode bytes = .error .notText := by
  cases decoded : decode bytes with
  | ok text => exact absurd (decode_eq_ok_iff.1 decoded) (h text)
  | error error =>
      unfold decode at decoded
      split at decoded
      · cases decoded
      · exact decoded.symm

end World

theorem Capture.delivers_print (capture : Capture) (text : String) :
    capture.Delivers text (capture.print text).1 (capture.print text).2 := by
  obtain ⟨_ | held⟩ := capture
  · exact .printed
  · exact .held held

/-- What is not captured is seen on standard output. -/
theorem Capture.Delivers.stdout_eq {text stdout : String} {capture : Capture}
    (h : Capture.off.Delivers text stdout capture) : stdout = text := by
  cases h
  rfl

namespace Host

/-! ## After some requests -/

/-- What requests leave of a host and its world. -/
structure Remains (options : Options) (world : World) (again : Prop) (state : Host × World) :
    Prop where
  kept : state.1.options = options
  files : state.2.readFile = world.readFile
  /-- Standard input is used up by a run that reads it. -/
  stdin : options.origin = .standardInput →
    (again → state.2.stdin = world.stdin.map fun _ => .empty) ∧
      (¬ again → state.2.stdin = world.stdin)

theorem run_options (host : Host) (world : World) :
    (host.run world).2.1.options = host.options := by
  unfold run runAt
  rcases world.fetch host.options.origin with ⟨error | script, later⟩ <;> rfl

theorem run_world (host : Host) (world : World) :
    (host.run world).2.2 = (world.fetch host.options.origin).2 := by
  unfold run runAt
  rcases world.fetch host.options.origin with ⟨error | script, later⟩ <;> rfl

theorem fetch_files (world : World) (origin : Origin) :
    (world.fetch origin).2.readFile = world.readFile := by
  cases origin <;> rfl

theorem remains_trace (host : Host) (world : World) (requests : List Request) :
    Remains host.options world (.run ∈ requests) (trace respond (host, world) requests).2 := by
  induction requests generalizing host world with
  | nil => exact ⟨rfl, rfl, fun _ => ⟨fun none => absurd none List.not_mem_nil, fun _ => rfl⟩⟩
  | cons request requests ih =>
      cases request with
      | startCapture =>
          have same : (.run ∈ .startCapture :: requests) = (.run ∈ requests) := by simp
          rw [same]
          exact ih host.startCapture world
      | takeCapture =>
          have same : (.run ∈ .takeCapture :: requests) = (.run ∈ requests) := by simp
          rw [same]
          exact ih host.takeCapture.2 world
      | run =>
          obtain ⟨kept, files, stdin⟩ := ih (host.run world).2.1 (host.run world).2.2
          rw [run_options] at kept stdin
          refine ⟨kept, files.trans ?_, fun isStdin => ⟨fun _ => ?_, fun none => by simp at none⟩⟩
          · rw [run_world, fetch_files]
          -- the run has emptied standard input, and no later one fills it
          · have emptied : (host.run world).2.2.stdin = world.stdin.map fun _ => .empty := by
              rw [run_world, isStdin]
              rfl
            obtain ⟨used, untouched⟩ := stdin isStdin
            by_cases again : .run ∈ requests
            · refine (used again).trans ?_
              rw [emptied]
              cases world.stdin <;> rfl
            · exact (untouched again).trans emptied

/-- What a run reads after some requests. -/
theorem fetch_after (options : Options) (world : World) (requests : List Request) :
    ((after options world requests).2.fetch (after options world requests).1.options.origin).1 =
      options.found world (.run ∈ requests) >>= World.decode := by
  obtain ⟨kept, files, stdin⟩ := remains_trace (ofOptions options) world requests
  replace kept : (after options world requests).1.options = options := kept
  replace files : (after options world requests).2.readFile = world.readFile := files
  replace stdin : options.origin = .standardInput →
      (.run ∈ requests → (after options world requests).2.stdin = world.stdin.map fun _ => .empty) ∧
        (.run ∉ requests → (after options world requests).2.stdin = world.stdin) := stdin
  generalize after options world requests = state at kept files stdin
  rw [kept]
  obtain ⟨_ | script, isStdin, verbosity, path⟩ := options
  · cases isStdin with
    | true =>
        obtain ⟨used, untouched⟩ := stdin rfl
        show (state.2.stdin >>= World.decode) = _
        by_cases again : .run ∈ requests
        · simp [Options.found, used again, again]
        · simp [Options.found, untouched again, again]
    | false =>
        cases path with
        | none => exact (World.decode_toUTF8 "").symm
        | some path =>
            show (state.2.readFile path >>= World.decode) = _
            rw [files]
            rfl
  · exact (World.decode_toUTF8 script).symm

/-! ## One run -/

theorem unread_of_fetch {host : Host} {world : World} {error : ReadError}
    (h : (world.fetch host.options.origin).1 = .error error) :
    Unread host.options.sourceName host (host.run world).1 (host.run world).2.1 error := by
  have report := run_of_fetch_error h
  have same : (host.run world).2.1 = host := by
    unfold run runAt
    rcases fetched : world.fetch host.options.origin with ⟨other | script, later⟩
    · rfl
    · rw [fetched] at h
      cases h
  rw [report, same]
  exact ⟨rfl, rfl, rfl, rfl⟩

/-- **One run.** A run is that of a new session on the script that it reads. -/
theorem runsAfresh_of_fetch {host : Host} {world : World} {found : Except ReadError ByteArray}
    (h : (world.fetch host.options.origin).1 = found >>= World.decode) :
    RunsAfresh host.options.sourceName host (host.run world).1 (host.run world).2.1 found := by
  cases found with
  | error error => exact .unreadable (unread_of_fetch h)
  | ok bytes =>
      replace h : (world.fetch host.options.origin).1 = World.decode bytes := h
      by_cases isText : ∃ script : String, script.toUTF8 = bytes
      · obtain ⟨script, rfl⟩ := isText
        rw [World.decode_toUTF8] at h
        obtain ⟨report, later⟩ := run_of_fetch_ok h
        rw [report, later, runScriptAt_trace]
        refine .ran script rfl ?_ ?_ ?_
        all_goals rw [Session.run_eq]
        · rfl
        · rfl
        · exact host.capture.delivers_print _
      · have noText : ∀ script : String, script.toUTF8 ≠ bytes := not_exists.1 isText
        rw [World.decode_of_no_text noText] at h
        exact .notText noText (unread_of_fetch h)

/-- Two runs show the same, wherever each delivers its text. -/
structure SameRun (host : Host) (report : Report Failure) (later : Host)
    (first : Report Failure) : Prop where
  result : report.result = first.result
  records : report.records = first.records
  text : host.capture.Delivers first.stdout report.stdout later.capture

theorem Unread.delivers {name : String} {host later : Host} {report : Report Failure}
    {error : ReadError} (h : Unread name host report later error) :
    host.capture.Delivers "" report.stdout later.capture := by
  have silent := host.capture.delivers_print ""
  rw [Capture.print_empty] at silent
  rw [h.stdout, h.unchanged]
  exact silent

theorem RunsAfresh.alike {name : String} {host later other : Host}
    {report first : Report Failure} {found : Except ReadError ByteArray} {options : Options}
    (h : RunsAfresh name host report later found)
    (h' : RunsAfresh name (ofOptions options) first other found) :
    SameRun host report later first := by
  cases h with
  | ran script isScript result records text =>
      cases h' with
      | ran again isAgain result' records' text' =>
          have decoded := World.decode_eq_ok_iff.2 isScript
          cases decoded.symm.trans (World.decode_eq_ok_iff.2 isAgain)
          refine ⟨result.trans result'.symm, records.trans records'.symm, ?_⟩
          rw [text'.stdout_eq]
          exact text
      | notText noText _ => exact absurd isScript (noText script)
  | notText noText unread =>
      cases h' with
      | ran again isAgain _ _ _ => exact absurd isAgain (noText again)
      | notText _ unread' =>
          refine ⟨unread.result.trans unread'.result.symm,
            unread.records.trans unread'.records.symm, ?_⟩
          rw [unread'.stdout]
          exact unread.delivers
  | unreadable unread =>
      cases h' with
      | unreadable unread' =>
          refine ⟨unread.result.trans unread'.result.symm,
            unread.records.trans unread'.records.symm, ?_⟩
          rw [unread'.stdout]
          exact unread.delivers

theorem found_eq_of_not_stdin {options : Options} (h : options.inline ≠ none ∨ options.stdin = false)
    (world : World) (again : Bool) : options.found world again = options.found world false := by
  obtain ⟨_ | script, isStdin, verbosity, path⟩ := options
  · rcases h with given | rfl
    · exact absurd rfl given
    · rfl
  · rfl

theorem run_new (options : Options) (world : World) :
    RunsAfresh options.sourceName (ofOptions options) ((ofOptions options).run world).1
      ((ofOptions options).run world).2.1 (options.found world false) := by
  have fetched := fetch_after options world []
  exact runsAfresh_of_fetch fetched

end Host

theorem Session.run_empty :
    (ofSource "").run.1 = { result := .ok (), stdout := "", events := [] } := by
  have nothing : (Cursor.ofSource "").next = (none, .ofSource "") := Cursor.next_of_rest_nil rfl
  rw [run_eq, show (ofSource "").cursor = .ofSource "" from rfl, execute_of_next_none _ nothing]
  rfl

namespace Host

/-- A run that finds no bytes does nothing but record that it has read them. -/
theorem RunsAfresh.empty {name : String} {host later : Host} {report : Report Failure}
    (h : RunsAfresh name host report later (.ok .empty)) :
    report.result = .ok () ∧
      report.records = [⟨.info, "loaded " ++ name ++ " (0 bytes)"⟩] ∧
      host.capture.Delivers "" report.stdout later.capture := by
  have isEmpty : World.decode .empty = .ok "" := World.decode_toUTF8 ""
  cases h with
  | ran script isScript result records text =>
      cases isEmpty.symm.trans (World.decode_eq_ok_iff.2 isScript)
      rw [Session.run_empty] at result records text
      refine ⟨result, ?_, text⟩
      rw [records, String.append_assoc, String.append_assoc]
      rfl
  | notText noText _ => exact absurd rfl (noText "")

/-- What can be said of a run after some requests. -/
structure Independent (options : Options) (world : World) (earlier : List Request)
    (state : Host × World) : Prop where
  afresh : RunsAfresh options.sourceName state.1 (state.1.run state.2).1 (state.1.run state.2).2.1
    (options.found world (.run ∈ earlier))
  /-- A script that is an argument or in a file gives the same run each time. -/
  alike : options.inline ≠ none ∨ options.stdin = false →
    SameRun state.1 (state.1.run state.2).1 (state.1.run state.2).2.1
      ((ofOptions options).run world).1
  /-- Standard input is read to its end by the first run. -/
  usedUp : options.inline = none → options.stdin = true →
    (.run ∉ earlier → state.2.stdin = world.stdin) ∧
      ∀ bytes, world.stdin = .ok bytes → (state.1.run state.2).2.2.stdin = .ok .empty
  /-- Later runs find it empty. -/
  later : options.inline = none → options.stdin = true → ∀ bytes, world.stdin = .ok bytes →
    .run ∈ earlier →
    (state.1.run state.2).1.result = .ok () ∧
      (state.1.run state.2).1.records =
        [⟨.info, "loaded " ++ options.sourceName ++ " (0 bytes)"⟩] ∧
      state.1.capture.Delivers "" (state.1.run state.2).1.stdout (state.1.run state.2).2.1.capture

/-- **Independence.** Among any requests to a host, a run does what a new session does
on the script that the run reads, after whatever runs came before, and records the
number of bytes that were read.  A run that can read no script fails with the name of
its source and leaves everything as it was.  Runs on an argument or a file are all
alike.  Of runs on standard input the first one finds all bytes and the others none,
so that they run an empty script. -/
theorem runs_independent (options : Options) (world : World) (earlier more : List Request) :
    (responses options world (earlier ++ .run :: more))[earlier.length]? =
        some (.ran ((after options world earlier).1.run (after options world earlier).2).1) ∧
      Independent options world earlier (after options world earlier) := by
  have answered : (responses options world (earlier ++ .run :: more))[earlier.length]? =
      some (.ran ((after options world earlier).1.run (after options world earlier).2).1) := by
    unfold responses
    rw [trace_append, List.getElem?_append_right (by simp), length_trace, Nat.sub_self]
    rfl
  have fetched := fetch_after options world earlier
  obtain ⟨kept, -, stdin⟩ := remains_trace (ofOptions options) world earlier
  replace kept : (after options world earlier).1.options = options := kept
  have afresh := runsAfresh_of_fetch fetched
  rw [kept] at afresh
  refine ⟨answered, afresh, ?_, ?_, ?_⟩
  · intro notStdin
    rw [found_eq_of_not_stdin notStdin] at afresh
    exact afresh.alike (run_new options world)
  · intro noInline isStdin
    have origin : options.origin = .standardInput := by
      simp only [Options.origin, noInline, isStdin]
    refine ⟨(stdin origin).2, fun bytes whole => ?_⟩
    rw [run_world, kept, origin]
    show (after options world earlier).2.stdin.map _ = _
    by_cases again : .run ∈ earlier
    · rw [show (after options world earlier).2.stdin = _ from (stdin origin).1 again, whole]
      rfl
    · rw [show (after options world earlier).2.stdin = _ from (stdin origin).2 again, whole]
      rfl
  · intro noInline isStdin bytes whole again
    have nothing : options.found world (.run ∈ earlier) = .ok .empty := by
      simp only [Options.found, noInline, isStdin, again, decide_true, if_true, whole]
      rfl
    rw [nothing] at afresh
    exact afresh.empty

end Host

end ScopeLang
