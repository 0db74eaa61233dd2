import ScopeLang.Event
import ScopeLang.Frame

/-!
# Scoped memory

A memory is a stack of frames, innermost first.  A name is read from the
innermost frame that binds it, and written only to the innermost frame, so a
frame that is closed takes its writes with it.
-/

namespace ScopeLang

/-- The open scopes with their variables, innermost first. -/
structure Memory where
  frames : List Frame
deriving DecidableEq

namespace Memory

/-- A memory without an open scope. -/
def empty : Memory where
  frames := []

/-- Open a scope without variables of its own. -/
def openScope (memory : Memory) : Memory where
  frames := .empty :: memory.frames

/-- Close the innermost scope and hand out its variables.  Where no scope is
open, nothing happens. -/
def closeScope (memory : Memory) : Option Frame × Memory :=
  match memory.frames with
  | [] => (none, memory)
  | frame :: outer => (some frame, ⟨outer⟩)

/-- The value of a name: that of the innermost frame that binds it. -/
def read (memory : Memory) (name : String) : Option Int64 :=
  memory.frames.findSome? (·.get? name)

/-- Bind a name in the innermost frame.  Where no scope is open, the value is
dropped and a warning given. -/
def write (memory : Memory) (name : String) (value : Int64) : Memory × List Event :=
  match memory.frames with
  | [] => (memory, [.writeDropped name])
  | frame :: outer => (⟨frame.insert name value :: outer⟩, [])

/-- The number of open scopes. -/
def depth (memory : Memory) : Nat :=
  memory.frames.length

/-- Whether a scope is open. -/
def isOpen (memory : Memory) : Bool :=
  !memory.frames.isEmpty

/-! ## Each operation on reads and depth -/

@[simp] theorem depth_empty : empty.depth = 0 := rfl

@[simp] theorem read_empty (name : String) : empty.read name = none := rfl

@[simp] theorem depth_openScope (memory : Memory) : memory.openScope.depth = memory.depth + 1 :=
  rfl

/-- A new scope sees what was seen before. -/
@[simp] theorem read_openScope (memory : Memory) (name : String) :
    memory.openScope.read name = memory.read name := rfl

/-- Closing a scope that was just opened changes nothing. -/
@[simp] theorem closeScope_openScope (memory : Memory) :
    memory.openScope.closeScope = (some .empty, memory) := rfl

@[simp] theorem depth_closeScope (memory : Memory) :
    memory.closeScope.2.depth = memory.depth - 1 := by
  obtain ⟨frames⟩ := memory
  cases frames <;> rfl

@[simp] theorem depth_write (memory : Memory) (name : String) (value : Int64) :
    (memory.write name value).1.depth = memory.depth := by
  obtain ⟨frames⟩ := memory
  cases frames <;> rfl

/-- A scope is open exactly when the depth is not zero. -/
theorem isOpen_iff (memory : Memory) : memory.isOpen = true ↔ 0 < memory.depth := by
  obtain ⟨frames⟩ := memory
  cases frames <;> simp [isOpen, depth]

/-- While a scope is open, what was written is read back and no other name changes. -/
theorem read_write {memory : Memory} (h : 0 < memory.depth) (name other : String)
    (value : Int64) :
    (memory.write name value).1.read other =
      if other = name then some value else memory.read other := by
  obtain ⟨frames⟩ := memory
  cases frames with
  | nil => simp [depth] at h
  | cons frame outer =>
      by_cases e : other = name <;> simp [write, read, List.findSome?_cons, e]

/-- While a scope is open, no write is dropped. -/
theorem events_write {memory : Memory} (h : 0 < memory.depth) (name : String) (value : Int64) :
    (memory.write name value).2 = [] := by
  obtain ⟨frames⟩ := memory
  cases frames with
  | nil => simp [depth] at h
  | cons => rfl

end Memory

end ScopeLang
