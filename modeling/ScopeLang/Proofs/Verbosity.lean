import ScopeLang.Proofs.Outcomes

/-!
# Verbosity and the log

How much is recorded, and in which style, is seen on standard error and nowhere
else.

* **Command lines**: with more requests for verbosity in front, the arguments are
  read in the same way, and only the verbosity grows (`CommandLine.parse_louder`).
* **Runs**: a run at some verbosity comes to the same end with the same text, and
  writes those records of the run at the finest level that are shown
  (`Host.runAt_verbosity`).
* **Calls**: so calls differ in the lines of the log and in nothing else
  (`Program.verbosity_only_logs`).
-/

namespace ScopeLang

/-- Options with more verbosity, up to the largest that is told apart. -/
def Options.louder (more : Nat) (options : Options) : Options :=
  { options with verbosity := min CommandLine.maxVerbosity (options.verbosity + more) }

/-! ## Command lines -/

namespace CommandLine

theorem min_maxVerbosity_succ (verbosity more : Nat) :
    min maxVerbosity (min maxVerbosity (verbosity + more) + 1) =
      min maxVerbosity (min maxVerbosity (verbosity + 1) + more) := by
  omega

namespace Progress

/-- The same progress with more verbosity. -/
def louder (more : Nat) (progress : Progress) : Progress :=
  { progress with verbosity := min maxVerbosity (progress.verbosity + more) }

variable (more : Nat) (progress : Progress)

theorem give_louder (input : Input) :
    (progress.louder more).give input = (progress.give input).map (louder more) := by
  have has : (progress.louder more).has input = progress.has input := rfl
  unfold give
  rw [has]
  cases progress.has input <;> rfl

theorem settle_louder :
    (progress.louder more).settle = progress.settle.map (louder more) := by
  obtain ⟨given, verbosity, pending, trailing⟩ := progress
  cases pending with
  | idle => rfl
  | awaiting => rfl
  | holding input => exact give_louder more ⟨given, verbosity, .idle, trailing⟩ input

theorem throwSwitch_louder (switch : Switch) :
    (progress.louder more).throwSwitch switch =
      (progress.throwSwitch switch).map (louder more) := by
  unfold throwSwitch
  rw [settle_louder]
  cases progress.settle with
  | error reply => rfl
  | ok settled =>
      cases switch with
      | stdin => exact give_louder more settled .stdin
      | verbose =>
          refine congrArg Except.ok ?_
          unfold louder
          simp only [min_maxVerbosity_succ]
      | help => rfl
      | version => rfl

theorem readCluster_louder (letters : List Char) :
    (progress.louder more).readCluster letters =
      (progress.readCluster letters).map (louder more) := by
  induction letters generalizing progress with
  | nil => rfl
  | cons letter rest ih =>
      by_cases inline : letter = 'i'
      · subst inline
        simp only [readCluster]
        rw [settle_louder]
        cases progress.settle with
        | error reply => rfl
        | ok settled =>
            show Except.bind (.ok (settled.louder more)) _ = (Except.bind (.ok settled) _).map _
            simp only [Except.bind]
            split
            · rfl
            · exact give_louder more settled _
            · exact give_louder more settled _
      · rw [readCluster.eq_3 _ _ _ inline, readCluster.eq_3 _ _ _ inline]
        cases Switch.ofLetter? letter with
        | none => rfl
        | some switch =>
            dsimp only
            rw [throwSwitch_louder]
            cases progress.throwSwitch switch with
            | error reply => rfl
            | ok thrown => exact ih thrown

theorem readPath_louder (path : String) :
    (progress.louder more).readPath path = (progress.readPath path).map (louder more) := by
  have has : (progress.louder more).hasPath = progress.hasPath := rfl
  unfold readPath
  rw [has, settle_louder]
  cases progress.hasPath with
  | true => rfl
  | false => cases progress.settle <;> rfl

variable {more progress}

-- what is said of an unknown option or a value depends on the verbosity, so this is
-- about arguments that are accepted
theorem readLong_louder {name : String} {value : Option String} {after : Progress}
    (h : progress.readLong name value = .ok after) :
    (progress.louder more).readLong name value = .ok (after.louder more) := by
  unfold readLong at h ⊢
  split at h
  · next inline =>
      rw [if_pos inline, settle_louder]
      obtain ⟨settled, settles, given⟩ := exists_of_bind_eq_ok h
      rw [settles]
      cases value with
      | none =>
          cases given
          rfl
      | some script =>
          replace given : settled.give (.inline script) = .ok after := given
          show (settled.louder more).give _ = _
          rw [give_louder, given]
          rfl
  · next other =>
      rw [if_neg other]
      split at h
      · next switch known =>
          show (progress.louder more).throwSwitch switch = _
          rw [throwSwitch_louder, h]
          rfl
      · cases h
      · cases h

theorem read_louder {text : String} {after : Progress} (h : progress.read text = .ok after) :
    (progress.louder more).read text = .ok (after.louder more) := by
  have mapped : ∀ {result : Except Reply Progress}, result = .ok after →
      result.map (louder more) = .ok (after.louder more) := by
    rintro _ rfl
    rfl
  have trailing : (progress.louder more).trailing = progress.trailing := rfl
  have pending : (progress.louder more).pending = progress.pending := rfl
  unfold read at h ⊢
  rw [trailing, pending]
  split at h
  · next plain =>
      rw [if_pos plain, readPath_louder]
      exact mapped h
  · next plain =>
      rw [if_neg plain]
      split at h
      · cases h
        rfl
      · exact readLong_louder h
      · rw [readCluster_louder]
        exact mapped h
      · split at h
        · cases h
          rfl
        · rw [readPath_louder]
          exact mapped h

theorem foldlM_read_louder {arguments : List String} {after : Progress}
    (h : arguments.foldlM read progress = .ok after) :
    arguments.foldlM read (progress.louder more) = .ok (after.louder more) := by
  induction arguments generalizing progress with
  | nil =>
      cases h
      rfl
  | cons argument arguments ih =>
      rw [List.foldlM_cons] at h ⊢
      obtain ⟨next, reads, others⟩ := exists_of_bind_eq_ok h
      rw [read_louder reads]
      exact ih others

theorem finish_louder {options : Options} (h : progress.finish = .ok options) :
    (progress.louder more).finish = .ok (options.louder more) := by
  obtain ⟨settled, input, settles, given, rfl⟩ := finish_eq_ok_iff.1 h
  refine finish_eq_ok_iff.2 ⟨settled.louder more, input, ?_, given, ?_⟩
  · rw [settle_louder, settles]
    rfl
  · cases input <;> rfl

theorem louder_succ : (progress.louder more).louder 1 = progress.louder (more + 1) := by
  unfold louder
  simp only [Progress.mk.injEq, true_and, and_true]
  omega

end Progress

/-- A request for verbosity where no input is held. -/
theorem read_verbose (more : Nat) :
    (Progress.louder more {}).read "-v" = .ok (Progress.louder (more + 1) {}) := by
  rw [← Progress.louder_succ]
  rfl

theorem foldlM_read_verbose (more : Nat) :
    (List.replicate more "-v").foldlM Progress.read {} = .ok (Progress.louder more {}) := by
  induction more with
  | zero => rfl
  | succ more ih =>
      rw [List.replicate_succ', List.foldlM_append, ih]
      show ["-v"].foldlM Progress.read (Progress.louder more {}) = _
      rw [List.foldlM_cons, read_verbose]
      rfl

/-- More requests for verbosity in front of an accepted command line. -/
theorem parse_louder {arguments : List String} {options : Options}
    (h : parse arguments = .ok options) (more : Nat) :
    parse (List.replicate more "-v" ++ arguments) = .ok (options.louder more) := by
  unfold parse at h ⊢
  obtain ⟨progress, reads, finishes⟩ := exists_of_bind_eq_ok h
  rw [List.foldlM_append, foldlM_read_verbose]
  show (arguments.foldlM Progress.read (Progress.louder more {}) >>= _) = _
  rw [Progress.foldlM_read_louder reads]
  exact Progress.finish_louder finishes

end CommandLine

/-! ## Runs and their logs -/

theorem Host.run_verbosity (options : Options) (verbosity : Nat) (world : World) :
    ((ofOptions { options with verbosity := verbosity }).run world).1 =
      ((ofOptions options).run world).1 := by
  have origin : Options.origin { options with verbosity := verbosity } = options.origin := rfl
  unfold run runAt
  dsimp only [ofOptions]
  rw [origin]
  rcases world.fetch options.origin with ⟨error | script, later⟩ <;> rfl

/-- **Runs.** The run that the options with some verbosity lead to. -/
theorem Host.runAt_verbosity (options : Options) (verbosity : Nat) (world : World) :
    ((ofOptions { options with verbosity := verbosity }).runAt (.ofVerbosity verbosity) world).1 =
      ((ofOptions options).run world).1.upTo (.ofVerbosity verbosity) := by
  rw [runAt_eq_upTo, run_verbosity]

namespace Program

/-- The records of a run at the finest level. -/
def records (options : Options) (world : World) : List Log.Record :=
  ((Host.ofOptions options).runAt .trace world).1.records

/-- What more verbosity and another style do to a call of the program. -/
structure OnlyLogs (program : String) (arguments : List String) (world : World)
    (options : Options) : Prop where
  parsed : ∀ more, CommandLine.parse (List.replicate more "-v" ++ arguments) =
    .ok (options.louder more)
  stdout : ∀ more style,
    (call program (List.replicate more "-v" ++ arguments) world style).stdout =
      (call program arguments world .plain).stdout
  status : ∀ more style,
    (call program (List.replicate more "-v" ++ arguments) world style).status =
      (call program arguments world .plain).status
  /-- On standard error are the lines of the records at the finest level that the
  verbosity shows, in order, and then that of the failure. -/
  stderr : ∀ more style, ∃ tail,
    Ends ((Host.ofOptions options).runAt .trace world).1.result style tail ∧
      (call program (List.replicate more "-v" ++ arguments) world style).stderr =
        String.join ((Log.shown (min 255 (options.verbosity + more)) (records options world)).map
          (Log.lineOf style)) ++ tail
  /-- A run at some verbosity writes the records that it shows, and these as they are. -/
  contents : ∀ verbosity, ((Host.ofOptions { options with verbosity := verbosity }).runAt
      (Options.threshold { options with verbosity := verbosity }) world).1.records =
    Log.shown verbosity (records options world)
  finest : ∀ verbosity, 3 ≤ verbosity →
    Log.shown verbosity (records options world) = records options world
  increasing : ∀ v w, v ≤ w →
    (Log.shown v (records options world)).Sublist (Log.shown w (records options world))

/-- **Verbosity.** More requests for verbosity in front of an accepted command
line, and another style, change nothing but the log: standard output and the
exit status stay, and standard error shows more or fewer of the same records. -/
theorem verbosity_only_logs (program : String) (arguments : List String) (world : World)
    (options : Options) (accepted : CommandLine.parse arguments = .ok options) :
    OnlyLogs program arguments world options := by
  have louder := CommandLine.parse_louder accepted
  have calls : ∀ more style, call program (List.replicate more "-v" ++ arguments) world style =
      conclude style (.ofVerbosity (min 255 (options.verbosity + more)))
        ((Host.ofOptions options).run world).1 := by
    intro more style
    rw [call_of_parse (louder more)]
    exact congrArg (conclude style _) (Host.run_verbosity options _ world)
  have plain : call program arguments world .plain =
      conclude .plain (.ofVerbosity options.verbosity) ((Host.ofOptions options).run world).1 :=
    call_of_parse accepted program world .plain
  obtain ⟨plainTail, plainEnds⟩ := exists_ends options world .plain
  refine ⟨louder, ?_, ?_, ?_, ?_, ?_, ?_⟩
  · intro more style
    obtain ⟨tail, ends⟩ := exists_ends options world style
    rw [calls, plain, conclude_eq ends, conclude_eq plainEnds]
  · intro more style
    obtain ⟨tail, ends⟩ := exists_ends options world style
    rw [calls, plain, conclude_eq ends, conclude_eq plainEnds]
  · intro more style
    obtain ⟨tail, ends⟩ := exists_ends options world style
    refine ⟨tail, ends, ?_⟩
    rw [calls, conclude_eq ends]
    rfl
  · intro verbosity
    refine (congrArg Report.records (Host.runAt_verbosity options verbosity world)).trans ?_
    unfold Report.records Report.upTo
    dsimp only
    rw [Event.map_record_passing, Log.visible_eq_shown]
    rfl
  · intro verbosity enough
    obtain ⟨further, rfl⟩ := Nat.exists_eq_add_of_le' enough
    exact Log.shown_three_add further _
  · intro v w le
    exact Log.shown_sublist le _

/-- A script that assigns nothing and then fails, at three verbosities and in both
styles. -/
theorem verbosity_only_logs_stray :
    CommandLine.parse ["-vi", "y = z \x7d"] =
        .ok { inline := some "y = z \x7d", verbosity := 1 } ∧
      (call "scopescript" ["-vi", "y = z \x7d"] (.ofDirectory .empty .empty) .plain).stderr =
        "INFO: loaded <inline> (7 bytes)\n" ++
        "error: <inline>: unmatched closing brace (line 1, column 7)\ny = z \x7d\n      ^\n" ∧
      (call "scopescript" ["-v", "-vi", "y = z \x7d"] (.ofDirectory .empty .empty) .plain).stderr =
        "INFO: loaded <inline> (7 bytes)\n" ++
        "DEBUG: `z` is unset, assignment to `y` skipped\n" ++
        "error: <inline>: unmatched closing brace (line 1, column 7)\ny = z \x7d\n      ^\n" ∧
      (call "scopescript" ["-v", "-v", "-vi", "y = z \x7d"] (.ofDirectory .empty .empty)
          .coloured).stderr =
        "\x1b[1m\x1b[38;5;2minfo\x1b[m: loaded <inline> (7 bytes)\n" ++
        "\x1b[1m\x1b[38;5;7mtrace\x1b[m: statement `y` at byte 0\n" ++
        "\x1b[1m\x1b[38;5;6mdebug\x1b[m: `z` is unset, assignment to `y` skipped\n" ++
        "\x1b[1m\x1b[38;5;7mtrace\x1b[m: statement `\x7d` at byte 6\n" ++
        "\x1b[1m\x1b[38;5;1merror\x1b[m: <inline>: unmatched closing brace " ++
        "(line 1, column 7)\ny = z \x7d\n      ^\n" := by
  have accepted : CommandLine.parse ["-vi", "y = z \x7d"] =
      .ok { inline := some "y = z \x7d", verbosity := 1 } := by
    rfl
  have executed : execute (.ofSource "y = z \x7d") Memory.empty.openScope =
      { fault := some (.atSpan .strayBrace { start := 6, stop := 7 })
        cursor := { rest := [], offset := 7 }
        memory := Memory.empty.openScope
        effects :=
          { lines := []
            events :=
              [.statement "y" 0, .assignmentSkipped "y" "z", .statement "\x7d" 6] } } := by
    rw [execute_of_step_ok rfl rfl, execute_of_step_error rfl rfl]
    rfl
  have traced : ((Host.ofOptions { inline := some "y = z \x7d", verbosity := 1 }).run
      (.ofDirectory .empty .empty)).1 =
      { result := .error (.faulty "<inline>" "y = z \x7d"
          (.atSpan .strayBrace { start := 6, stop := 7 }))
        stdout := ""
        events := [.loaded "<inline>" 7, .statement "y" 0, .assignmentSkipped "y" "z",
          .statement "\x7d" 6] } := by
    rw [(Host.run_of_fetch_ok rfl).1, Host.runScriptAt_trace]
    unfold Session.perform Session.printed
    dsimp only [Session.ofSource]
    rw [executed]
    rfl
  have logs := verbosity_only_logs "scopescript" _ (.ofDirectory .empty .empty) _ accepted
  have lines : ∀ more style, (call "scopescript"
      (List.replicate more "-v" ++ ["-vi", "y = z \x7d"]) (.ofDirectory .empty .empty)
        style).stderr =
      String.join ((Log.shown (min 255 (1 + more))
        ([.loaded "<inline>" 7, .statement "y" 0, .assignmentSkipped "y" "z",
          .statement "\x7d" 6].map Event.record)).map (Log.lineOf style)) ++
        (errorWord style ++ ": " ++ ("<inline>" ++ ": " ++
          "unmatched closing brace (line 1, column 7)\ny = z \x7d\n      ^") ++ "\n") := by
    intro more style
    obtain ⟨tail, ends, text⟩ := logs.stderr more style
    unfold records at text
    unfold Host.run at traced
    rw [traced] at ends text
    cases ends with
    | faulty _ _ rendered =>
        cases rendered
        exact text
  exact ⟨accepted, lines 0 .plain, lines 1 .plain, (lines 2 .coloured).trans (by decide +kernel)⟩

end Program

end ScopeLang
