import ScopeLang.Memory.Operation

/-!
# Memories as stacks of environments

A memory keeps for each scope only what was written in it.  Seen from outside
it is a stack of whole environments: opening a scope copies the innermost
environment, writing changes that copy only, and closing drops it.

* **Refinement**: a memory does what the stack of its environments does, one
  operation at a time (`step_snapshots`), and hence in every sequence of
  operations.
* **Closed frames**: the frame of an open scope binds each name to what was
  last written to it while that scope was innermost
  (`get?_eq_lastWrite`).
-/

namespace ScopeLang

/-- The values of all names, `none` for a name that is not set. -/
abbrev Environment := String → Option Int64

namespace Environment

/-- No name is set. -/
def unset : Environment := fun _ => none

/-- Set one name and leave all others. -/
def set (environment : Environment) (name : String) (value : Int64) : Environment :=
  fun other => if other = name then some value else environment other

end Environment

/-! ## The machine of snapshots -/

namespace Snapshots

open Memory (Operation)

/-- What an operation hands out, of a closed frame only whether there was one. -/
inductive Result where
  | done
  | closed (some : Bool)
  | found (value : Option Int64)
deriving DecidableEq

/-- What can be seen of an operation. -/
structure View where
  result : Result
  depth : Nat
  isOpen : Bool
  records : List Log.Record
deriving DecidableEq

/-- The innermost environment, in which nothing is set if there is none. -/
def seen : List Environment → Environment
  | [] => .unset
  | top :: _ => top

def view (snapshots : List Environment) (result : Result) (records : List Log.Record) :
    View × List Environment :=
  ({ result := result, depth := snapshots.length, isOpen := 0 < snapshots.length,
     records := records }, snapshots)

/-- Carry out an operation on a stack of environments. -/
def step (snapshots : List Environment) : Operation → View × List Environment
  | .openScope => view (seen snapshots :: snapshots) .done []
  | .closeScope => view snapshots.tail (.closed !snapshots.isEmpty) []
  | .read name => view snapshots (.found (seen snapshots name)) []
  | .write name value =>
      match snapshots with
      | [] =>
          view [] .done
            [⟨.warn, "write to `" ++ name ++ "` with no open scope was dropped"⟩]
      | top :: outer => view (top.set name value :: outer) .done []

/-- What can be seen of operations one after the other, from the empty stack. -/
def views (operations : List Operation) : List View :=
  (trace step [] operations).1

end Snapshots

namespace Memory

/-! ## Refinement -/

/-- The environments that frames give rise to: each frame is laid over all
frames outside of it. -/
def overlays : List Frame → List Environment
  | [] => []
  | frame :: outer => (⟨frame :: outer⟩ : Memory).read :: overlays outer

/-- The stack of environments that a memory stands for. -/
def snapshots (memory : Memory) : List Environment :=
  overlays memory.frames

@[simp] theorem length_snapshots (memory : Memory) : memory.snapshots.length = memory.depth := by
  obtain ⟨frames⟩ := memory
  show (overlays frames).length = frames.length
  induction frames with
  | nil => rfl
  | cons frame outer ih => rw [overlays, List.length_cons, ih, List.length_cons]

@[simp] theorem seen_snapshots (memory : Memory) : Snapshots.seen memory.snapshots = memory.read := by
  obtain ⟨frames⟩ := memory
  cases frames <;> rfl

theorem snapshots_openScope (memory : Memory) :
    memory.openScope.snapshots = memory.read :: memory.snapshots := rfl

theorem snapshots_closeScope (memory : Memory) :
    memory.closeScope.2.snapshots = memory.snapshots.tail := by
  obtain ⟨frames⟩ := memory
  cases frames <;> rfl

theorem snapshots_write {memory : Memory} (h : 0 < memory.depth) (name : String) (value : Int64) :
    (memory.write name value).1.snapshots =
      Environment.set memory.read name value :: memory.snapshots.tail := by
  have top : (memory.write name value).1.read = Environment.set memory.read name value := by
    funext other
    exact read_write h name other value
  obtain ⟨frames⟩ := memory
  cases frames with
  | nil => exact absurd h (Nat.lt_irrefl 0)
  | cons frame outer => exact congrArg (· :: overlays outer) top

/-- What the machine of snapshots hands out for a result. -/
def Result.view : Result → Snapshots.Result
  | .done => .done
  | .closed frame => .closed frame.isSome
  | .found value => .found value

/-- What the machine of snapshots shows of an operation. -/
def Observation.view (observation : Observation) : Snapshots.View where
  result := observation.result.view
  depth := observation.depth
  isOpen := observation.isOpen
  records := observation.events.map Event.record

theorem view_observe (memory : Memory) (result : Result) (events : List Event) :
    Snapshots.view memory.snapshots result.view (events.map Event.record) =
      ((memory.observe result events).1.view, (memory.observe result events).2.snapshots) := by
  have isOpen : memory.isOpen = decide (0 < memory.depth) := by
    rw [Bool.eq_iff_iff, isOpen_iff, decide_eq_true_iff]
  unfold Snapshots.view
  rw [length_snapshots, ← isOpen]
  rfl

theorem isSome_closeScope (memory : Memory) :
    memory.closeScope.1.isSome = !memory.snapshots.isEmpty := by
  obtain ⟨frames⟩ := memory
  cases frames <;> rfl

/-- **One operation.** A memory does what the stack of its environments does. -/
theorem step_snapshots (memory : Memory) (operation : Operation) :
    Snapshots.step memory.snapshots operation =
      ((memory.perform operation).1.view, (memory.perform operation).2.snapshots) := by
  cases operation with
  | openScope =>
      unfold Snapshots.step perform
      rw [seen_snapshots, ← snapshots_openScope]
      exact view_observe memory.openScope .done []
  | closeScope =>
      unfold Snapshots.step perform
      rw [← isSome_closeScope, ← snapshots_closeScope]
      exact view_observe memory.closeScope.2 (.closed memory.closeScope.1) []
  | read name =>
      unfold Snapshots.step perform
      rw [seen_snapshots]
      exact view_observe memory (.found (memory.read name)) []
  | write name value =>
      obtain ⟨frames⟩ := memory
      cases frames with
      | nil => rfl
      | cons frame outer =>
          -- only the innermost environment changes, the others lie below it
          have isOpen : 0 < depth ⟨frame :: outer⟩ := Nat.zero_lt_succ _
          show Snapshots.view (Environment.set (read ⟨frame :: outer⟩) name value ::
            (snapshots ⟨frame :: outer⟩).tail) .done [] = _
          rw [← snapshots_write isOpen]
          exact view_observe _ .done []

/-! ## What a closed frame holds -/

/-- The memory after some operations, from one without open scope. -/
def after (operations : List Operation) : Memory :=
  (trace perform .empty operations).2

theorem after_append (operations : List Operation) (operation : Operation) :
    after (operations ++ [operation]) = ((after operations).perform operation).2 := by
  unfold after
  rw [trace_append]
  rfl

/-- The value that was last written to a name while the scope at `level`,
counted outwards from the innermost one, was itself innermost.  The past is
gone through from the latest operation back. -/
def lastWrite (name : String) : Nat → List Operation → Option Int64
  | _, [] => none
  | level, .read _ :: past => lastWrite name level past
  | level, .closeScope :: past => lastWrite name (level + 1) past
  | 0, .openScope :: _ => none
  | level + 1, .openScope :: past => lastWrite name level past
  | 0, .write other value :: past =>
      if name = other then some value else lastWrite name 0 past
  | level + 1, .write _ _ :: past => lastWrite name (level + 1) past

theorem getElem?_closeScope (memory : Memory) (level : Nat) :
    memory.closeScope.2.frames[level]? = memory.frames[level + 1]? := by
  obtain ⟨frames⟩ := memory
  cases frames <;> rfl

theorem getElem?_write_zero (memory : Memory) (name : String) (value : Int64) :
    (memory.write name value).1.frames[0]? = memory.frames[0]?.map (·.insert name value) := by
  obtain ⟨frames⟩ := memory
  cases frames <;> rfl

theorem getElem?_write_succ (memory : Memory) (name : String) (value : Int64) (level : Nat) :
    (memory.write name value).1.frames[level + 1]? = memory.frames[level + 1]? := by
  obtain ⟨frames⟩ := memory
  cases frames <;> rfl

/-- The frame of a scope binds what was written while the scope was innermost. -/
theorem get?_eq_lastWrite (past : List Operation) {level : Nat} {frame : Frame}
    (h : (after past.reverse).frames[level]? = some frame) (name : String) :
    frame.get? name = lastWrite name level past := by
  induction past generalizing level frame with
  | nil => exact absurd h (by simp [after, empty])
  | cons operation past ih =>
      rw [List.reverse_cons, after_append] at h
      -- before a scope was closed the one at `level` stood one further out,
      -- and before one was opened one further in
      cases operation with
      | read other => exact ih h
      | closeScope => exact ih ((getElem?_closeScope _ level).symm.trans h)
      | openScope =>
          cases level with
          | zero =>
              cases h
              rfl
          | succ level => exact ih h
      | write other value =>
          cases level with
          | zero =>
              have mapped := (getElem?_write_zero _ other value).symm.trans h
              obtain ⟨inner, found, rfl⟩ := Option.map_eq_some_iff.1 mapped
              rw [Frame.get?_insert, ih found]
              rfl
          | succ level => exact ih ((getElem?_write_succ _ other value level).symm.trans h)

end Memory

/-- The bindings of a frame are what it binds. -/
theorem Frame.mem_bindings_iff {frame : Frame} {name : String} {value : Int64} :
    (name, value) ∈ frame.bindings ↔ frame.get? name = some value := by
  obtain ⟨bindings, sorted⟩ := frame
  show _ ↔ Frame.lookup name bindings = some value
  induction bindings with
  | nil => simp [Frame.lookup]
  | cons first rest ih =>
      obtain ⟨other, old⟩ := first
      obtain ⟨below, sorted⟩ := List.pairwise_cons.1 sorted
      unfold Frame.lookup
      split
      · next eq =>
          subst eq
          -- the name is not bound again further on, since the names increase
          have once : (name, value) ∉ rest := fun mem =>
            String.lt_irrefl name (below (name, value) mem)
          simp [once, eq_comm]
      · next ne => simp [ne, ih sorted]

theorem Frame.nodup_names (frame : Frame) : (frame.bindings.map Prod.fst).Nodup := by
  refine List.pairwise_map.2 (frame.sorted.imp ?_)
  intro a b lt eq
  exact String.lt_irrefl _ (eq ▸ lt)

namespace Memory

/-- **Snapshots.** Every sequence of operations shows the same on a memory as on
a stack of whole environments.  Closing a scope after it hands out each name
that was written while the scope was innermost, once and with its last value;
where no scope is open it hands out nothing and changes nothing. -/
theorem refines_snapshots (operations : List Operation) :
    (observations operations).map Observation.view = Snapshots.views operations ∧
      ((after operations).depth = 0 ∧
          (after operations).closeScope = (none, after operations) ∨
        ∃ frame, (after operations).closeScope.1 = some frame ∧
          (frame.bindings.map Prod.fst).Nodup ∧
          ∀ name value, (name, value) ∈ frame.bindings ↔
            lastWrite name 0 operations.reverse = some value) := by
  constructor
  · have mapped := trace_map step_snapshots .empty operations
    exact (congrArg Prod.fst mapped).symm
  · unfold closeScope depth
    cases left : (after operations).frames with
    | nil => exact .inl ⟨rfl, rfl⟩
    | cons frame outer =>
        refine .inr ⟨frame, rfl, frame.nodup_names, ?_⟩
        intro name value
        have top : (after operations.reverse.reverse).frames[0]? = some frame := by
          rw [List.reverse_reverse, left]
          rfl
        rw [Frame.mem_bindings_iff, get?_eq_lastWrite _ top]

end Memory

end ScopeLang
