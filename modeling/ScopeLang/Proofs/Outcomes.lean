import Mathlib.Data.List.Basic
import ScopeLang.Proofs.Sources

/-!
# The outcome of a call

What a call of the program writes to standard error: a line for each record that
the verbosity shows, and a line for the failure.

* **Lines**: the words in front of a record are those of its level and the style
  (`Log.render_eq_lineOf`).
* **Levels**: a verbosity shows warnings, and one level more for each step
  (`Log.visible_eq_shown`); a larger one shows no less (`Log.shown_sublist`).
* **Outcomes**: standard error is the log and then the failure
  (`Program.conclude_eq`), and every run has an end that can be shown
  (`Program.exists_ends`).
-/

namespace ScopeLang

/-! ## The log -/

namespace Log

/-- What stands in front of the message of a record. -/
def label : Style → Level → String
  | .plain, .error => "ERROR: "
  | .plain, .warn => "WARN: "
  | .plain, .info => "INFO: "
  | .plain, .debug => "DEBUG: "
  | .plain, .trace => "TRACE: "
  | .coloured, .error => "\x1b[1m\x1b[38;5;1merror\x1b[m: "
  | .coloured, .warn => "\x1b[1m\x1b[38;5;3mwarn\x1b[m: "
  | .coloured, .info => "\x1b[1m\x1b[38;5;2minfo\x1b[m: "
  | .coloured, .debug => "\x1b[1m\x1b[38;5;6mdebug\x1b[m: "
  | .coloured, .trace => "\x1b[1m\x1b[38;5;7mtrace\x1b[m: "

/-- The line of a record, with its end. -/
def lineOf (style : Style) (record : Record) : String :=
  label style record.level ++ record.message ++ "\n"

/-- The levels that a verbosity shows. -/
def levelsAt : Nat → List Level
  | 0 => [.error, .warn]
  | 1 => [.error, .warn, .info]
  | 2 => [.error, .warn, .info, .debug]
  | _ => [.error, .warn, .info, .debug, .trace]

/-- The records that a verbosity shows, in order. -/
def shown (verbosity : Nat) (records : List Record) : List Record :=
  records.filter (·.level ∈ levelsAt verbosity)

/-- **Lines.** A record is written with the words of its level. -/
theorem render_eq_lineOf (style : Style) (record : Record) :
    record.render style = lineOf style record := by
  obtain ⟨level, message⟩ := record
  have words : level.render style ++ ": " = label style level := by
    cases style <;> cases level <;> rfl
  show level.render style ++ ": " ++ message ++ "\n" = _
  rw [words]
  rfl

theorem text_eq_join (style : Style) (records : List Record) :
    text style records = String.join (records.map (lineOf style)) := by
  apply String.toList_injective
  unfold text
  rw [String.toList_ofList, String.toList_join, List.flatMap_map]
  simp only [render_eq_lineOf]

/-- **Levels.** What passes the threshold of a verbosity is what it shows. -/
theorem visible_eq_shown (verbosity : Nat) (records : List Record) :
    visible (.ofVerbosity verbosity) records = shown verbosity records := by
  have same (level : Level) :
      level.passes (.ofVerbosity verbosity) = decide (level ∈ levelsAt verbosity) := by
    match verbosity with
    | 0 | 1 | 2 | _ + 3 => cases level <;> rfl
  unfold visible shown
  simp only [same]

theorem levelsAt_three_add (verbosity : Nat) (level : Level) :
    level ∈ levelsAt (verbosity + 3) := by
  cases level <;> simp [levelsAt]

/-- From the third step on, every record is shown. -/
theorem shown_three_add (verbosity : Nat) (records : List Record) :
    shown (verbosity + 3) records = records := by
  apply List.filter_eq_self.2
  intro record _
  exact decide_eq_true (levelsAt_three_add verbosity record.level)

/-- A record that is shown at some verbosity is shown at every larger one. -/
theorem shown_sublist {v w : Nat} (h : v ≤ w) (records : List Record) :
    (shown v records).Sublist (shown w records) := by
  have larger : levelsAt v ⊆ levelsAt w := by
    match v, w, h with
    | _, w + 3, _ => exact fun level _ => levelsAt_three_add w level
    | 0, 0, _ | 0, 1, _ | 0, 2, _ | 1, 1, _ | 1, 2, _ | 2, 2, _ => decide
  apply List.monotone_filter_right
  intro record isShown
  exact decide_eq_true (larger (of_decide_eq_true isShown))

end Log

namespace Program

/-! ## The end -/

/-- The word in front of a failure. -/
def errorWord : Log.Style → String
  | .plain => "error"
  | .coloured => "\x1b[1m\x1b[38;5;1merror\x1b[m"

/-- `Ends result style tail`: what stands behind the log of a run. -/
inductive Ends : Except Failure Unit → Log.Style → String → Prop
  | ok (style : Log.Style) : Ends (.ok ()) style ""
  | unreadable (style : Log.Style) (name : String) (error : ReadError) :
      Ends (.error (.unreadable name error)) style
        (errorWord style ++ ": " ++ ("unable to read " ++ name ++ ": " ++ error.message) ++ "\n")
  | faulty (style : Log.Style) (name : String) {script text : String} {fault : Fault} :
      fault.render script = .ok text →
      Ends (.error (.faulty name script fault)) style
        (errorWord style ++ ": " ++ (name ++ ": " ++ text) ++ "\n")

/-- The exit status of a run. -/
def exitStatus : Except Failure Unit → Nat
  | .ok _ => 0
  | .error _ => 1

theorem failureLine_eq {failure : Failure} {text : String} (shown : failure.render = .ok text)
    (style : Log.Style) : failureLine style failure = errorWord style ++ ": " ++ text ++ "\n" := by
  unfold failureLine
  rw [shown]
  cases style <;> rfl

theorem exists_ends (options : Options) (world : World) (style : Log.Style) :
    ∃ tail, Ends ((Host.ofOptions options).run world).1.result style tail := by
  cases ended : ((Host.ofOptions options).run world).1.result with
  | ok => exact ⟨"", .ok style⟩
  | error failure =>
      obtain ⟨text, shown⟩ := Host.exists_render_of_failed ended
      cases failure with
      | unreadable name error => exact ⟨_, .unreadable style name error⟩
      | faulty name script fault =>
          cases rendered : fault.render script with
          | ok text => exact ⟨_, .faulty style name rendered⟩
          | error misaligned =>
              rw [Failure.render, rendered] at shown
              cases shown

/-- **Outcomes.** A run shows its text, a line for each record that is shown, and
then its failure. -/
theorem conclude_eq {report : Report Failure} {style : Log.Style} {tail : String}
    (ends : Ends report.result style tail) (verbosity : Nat) :
    conclude style (.ofVerbosity verbosity) report =
      { status := exitStatus report.result
        stdout := report.stdout
        stderr := String.join ((Log.shown verbosity report.records).map (Log.lineOf style)) ++
          tail } := by
  obtain ⟨result, stdout, events⟩ := report
  unfold conclude Report.upTo Report.records finish
  dsimp only
  rw [Event.map_record_passing, Log.visible_eq_shown, Log.text_eq_join]
  cases ends with
  | ok =>
      rw [String.append_empty]
      rfl
  | unreadable _ name error =>
      rw [← @failureLine_eq (.unreadable name error) _ rfl]
      rfl
  | faulty _ name shown =>
      rw [← failureLine_eq (Failure.render_faulty name shown)]
      rfl

end Program

end ScopeLang
