import ScopeLang.Log
import ScopeLang.Text.Decimal

/-!
# Events of a run

What happens during a run and is worth a record, with the level and the words
of that record.
-/

namespace ScopeLang

/-- Something that happened while a script was loaded or executed. -/
inductive Event where
  /-- A value was written while no scope was open. -/
  | writeDropped (name : String)
  /-- A script was read. -/
  | loaded (source : String) (bytes : Nat)
  /-- A statement begins with the word `first` at byte `start`. -/
  | statement (first : String) (start : Nat)
  /-- A scope was opened, and `depth` are open now. -/
  | scopeOpened (depth : Nat)
  /-- A scope was closed, and `depth` are open now. -/
  | scopeClosed (depth : Nat)
  /-- An assignment had no value to assign. -/
  | assignmentSkipped (target operand : String)
deriving DecidableEq, Repr

namespace Event

/-- How much an event matters. -/
def level : Event → Log.Level
  | .writeDropped _ => .warn
  | .loaded _ _ => .info
  | .statement _ _ => .trace
  | .scopeOpened _ => .debug
  | .scopeClosed _ => .debug
  | .assignmentSkipped _ _ => .debug

/-- What the log says of an event. -/
def message : Event → String
  | .writeDropped name => "write to `" ++ name ++ "` with no open scope was dropped"
  | .loaded source bytes => "loaded " ++ source ++ " (" ++ Text.decimal bytes ++ " bytes)"
  | .statement first start =>
      "statement `" ++ first ++ "` at byte " ++ Text.decimal start
  | .scopeOpened depth => "opened scope, depth " ++ Text.decimal depth
  | .scopeClosed depth => "closed scope, depth " ++ Text.decimal depth
  | .assignmentSkipped target operand =>
      "`" ++ operand ++ "` is unset, assignment to `" ++ target ++ "` skipped"

/-- The events that a log of some level lets through, in order. -/
def passing (threshold : Log.Level) (events : List Event) : List Event :=
  events.filter (·.level.passes threshold)

/-- The record of an event. -/
def record (event : Event) : Log.Record where
  level := event.level
  message := event.message

/-- The log text of some events. -/
def render (style : Log.Style) (threshold : Log.Level) (events : List Event) : String :=
  Log.render style threshold (events.map record)

@[simp] theorem passing_nil (threshold : Log.Level) : passing threshold [] = [] := rfl

@[simp] theorem passing_append (threshold : Log.Level) (events more : List Event) :
    passing threshold (events ++ more) = passing threshold events ++ passing threshold more :=
  List.filter_append ..

/-- The finest log lets everything through. -/
@[simp] theorem passing_trace (events : List Event) : passing .trace events = events := by
  apply List.filter_eq_self.2
  intro event _
  cases event <;> rfl

/-- The records of the events that pass are the records that pass. -/
theorem map_record_passing (threshold : Log.Level) (events : List Event) :
    (passing threshold events).map record = Log.visible threshold (events.map record) := by
  unfold passing Log.visible
  rw [List.filter_map]
  rfl

end Event

end ScopeLang
