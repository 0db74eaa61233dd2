/-!
# Log records

A record has a level and a message.  A record passes a threshold if its level
is no more detailed, and the records that pass are written in order, each on a
line, with the level in capitals or, for a terminal, in colour.
-/

namespace ScopeLang.Log

/-- How much a record matters, from failures to the finest detail. -/
inductive Level where
  | error
  | warn
  | info
  | debug
  | trace
deriving DecidableEq, Repr

/-- What a run has to say beside its output. -/
structure Record where
  level : Level
  message : String
deriving DecidableEq, Repr

/-- How a level is written. -/
inductive Style where
  /-- The level in capitals. -/
  | plain
  /-- The level in small letters, bold and in the level's colour. -/
  | coloured
deriving DecidableEq, Repr

namespace Level

/-- The place of a level, counted from failures to the finest detail. -/
def rank : Level → Nat
  | .error => 1
  | .warn => 2
  | .info => 3
  | .debug => 4
  | .trace => 5

/-- Whether records of a level pass a threshold. -/
def passes (level threshold : Level) : Bool :=
  level.rank ≤ threshold.rank

/-- The threshold for a verbosity: warnings, and one more level for each step. -/
def ofVerbosity : Nat → Level
  | 0 => .warn
  | 1 => .info
  | 2 => .debug
  | _ => .trace

/-- The name of a level in capitals. -/
def upper : Level → String
  | .error => "ERROR"
  | .warn => "WARN"
  | .info => "INFO"
  | .debug => "DEBUG"
  | .trace => "TRACE"

/-- The name of a level in small letters. -/
def lower : Level → String
  | .error => "error"
  | .warn => "warn"
  | .info => "info"
  | .debug => "debug"
  | .trace => "trace"

/-- The number of a level's colour in the terminal's palette of 256. -/
def colour : Level → String
  | .error => "1"
  | .warn => "3"
  | .info => "2"
  | .debug => "6"
  | .trace => "7"

/-- The name of a level in a style. -/
def render (style : Style) (level : Level) : String :=
  match style with
  | .plain => level.upper
  | .coloured => "\x1b[1m\x1b[38;5;" ++ level.colour ++ "m" ++ level.lower ++ "\x1b[m"

end Level

/-- A record on a line of its own. -/
def Record.render (style : Style) (record : Record) : String :=
  record.level.render style ++ ": " ++ record.message ++ "\n"

/-- The records that pass a threshold, in order. -/
def visible (threshold : Level) (records : List Record) : List Record :=
  records.filter (·.level.passes threshold)

/-- The text of some records. -/
def text (style : Style) (records : List Record) : String :=
  String.ofList (records.flatMap fun record => (record.render style).toList)

/-- The text of the records that pass a threshold. -/
def render (style : Style) (threshold : Level) (records : List Record) : String :=
  text style (visible threshold records)

@[simp] theorem visible_append (threshold : Level) (records more : List Record) :
    visible threshold (records ++ more) = visible threshold records ++ visible threshold more :=
  List.filter_append ..

/-- At the finest level all records are visible. -/
theorem visible_trace (records : List Record) : visible .trace records = records := by
  unfold visible
  rw [List.filter_eq_self]
  intro record _
  cases record.level <;> rfl

/-- The text of two logs one after the other is the text of both together. -/
theorem render_append (style : Style) (threshold : Level) (records more : List Record) :
    render style threshold (records ++ more) =
      render style threshold records ++ render style threshold more := by
  apply String.toList_injective
  simp [render, text]

end ScopeLang.Log
