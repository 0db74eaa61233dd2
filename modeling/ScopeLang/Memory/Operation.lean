import ScopeLang.Memory
import ScopeLang.Trace

/-!
# Operations on a memory

The operations of a memory as data, and what can be observed of each: its
result, how deep the memory is afterwards and what was recorded.
-/

namespace ScopeLang.Memory

/-- Something to do with a memory. -/
inductive Operation where
  | openScope
  | closeScope
  | read (name : String)
  | write (name : String) (value : Int64)
deriving DecidableEq, Repr

/-- What an operation hands out. -/
inductive Result where
  /-- Nothing. -/
  | done
  /-- The frame that was closed, if one was. -/
  | closed (frame : Option Frame)
  /-- The value that was read, if there is one. -/
  | found (value : Option Int64)
deriving DecidableEq

/-- What can be observed of an operation. -/
structure Observation where
  result : Result
  /-- The number of open scopes afterwards. -/
  depth : Nat
  /-- Whether a scope is open afterwards. -/
  isOpen : Bool
  events : List Event
deriving DecidableEq

/-- Observe a memory after an operation. -/
def observe (memory : Memory) (result : Result) (events : List Event) : Observation × Memory :=
  ({ result := result, depth := memory.depth, isOpen := memory.isOpen, events := events }, memory)

/-- Carry out an operation. -/
def perform (memory : Memory) : Operation → Observation × Memory
  | .openScope => memory.openScope.observe .done []
  | .closeScope => memory.closeScope.2.observe (.closed memory.closeScope.1) []
  | .read name => memory.observe (.found (memory.read name)) []
  | .write name value =>
      (memory.write name value).1.observe .done (memory.write name value).2

/-- Carry out operations one after the other, from a memory without open scope. -/
def observations (operations : List Operation) : List Observation :=
  (trace perform .empty operations).1

end ScopeLang.Memory
