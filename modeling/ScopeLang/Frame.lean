/-!
# Frames of variables

A frame holds the variables that were assigned while one scope was innermost.
Its bindings stand in increasing order of their names, each name once, so a
frame is determined by what it binds and lists its bindings sorted.
`Frame.get?_insert` says what each name is bound to after an assignment.
-/

namespace ScopeLang

/-- A binding of a name to a value. -/
abbrev Binding := String × Int64

/-- The variables of one scope, sorted by name. -/
structure Frame where
  /-- The bindings, in increasing order of their names. -/
  bindings : List Binding
  /-- Each name stands once, in its place. -/
  sorted : bindings.Pairwise fun a b => a.1 < b.1
deriving DecidableEq

namespace Frame

/-- A frame without variables. -/
def empty : Frame where
  bindings := []
  sorted := .nil

/-- The value of a name in a list of bindings. -/
def lookup (name : String) : List Binding → Option Int64
  | [] => none
  | (other, value) :: rest => if name = other then some value else lookup name rest

/-- The value of a name in this frame. -/
def get? (frame : Frame) (name : String) : Option Int64 :=
  lookup name frame.bindings

/-- Bind a name in a sorted list of bindings. -/
def bind (name : String) (value : Int64) : List Binding → List Binding
  | [] => [(name, value)]
  | (other, old) :: rest =>
      if name < other then (name, value) :: (other, old) :: rest
      else if name = other then (name, value) :: rest
      else (other, old) :: bind name value rest

/-! ## Binding keeps the order -/

/-- Of two different names one is smaller. -/
private theorem lt_of_not_lt_of_ne {a b : String} (hlt : ¬ a < b) (hne : a ≠ b) : b < a := by
  rcases Decidable.em (b < a) with h | h
  · exact h
  · exact absurd (String.le_antisymm h hlt) hne

/-- A binding of the new list is the new one or an old one. -/
private theorem mem_bind {name : String} {value : Int64} {b : Binding} {bs : List Binding}
    (h : b ∈ bind name value bs) : b = (name, value) ∨ b ∈ bs := by
  induction bs with
  | nil => simpa [bind] using h
  | cons first rest ih =>
      obtain ⟨other, old⟩ := first
      unfold bind at h
      split at h
      · simpa using h
      · split at h
        · rcases List.mem_cons.1 h with rfl | tail
          · exact .inl rfl
          · exact .inr (List.mem_cons_of_mem _ tail)
        · rcases List.mem_cons.1 h with rfl | tail
          · exact .inr List.mem_cons_self
          · exact (ih tail).imp id (List.mem_cons_of_mem _)

/-- Binding a name in a sorted list keeps it sorted. -/
theorem pairwise_bind (name : String) (value : Int64) {bs : List Binding}
    (h : bs.Pairwise fun a b => a.1 < b.1) :
    (bind name value bs).Pairwise fun a b => a.1 < b.1 := by
  induction bs with
  | nil => simp [bind]
  | cons first rest ih =>
      obtain ⟨other, old⟩ := first
      obtain ⟨head, tail⟩ := List.pairwise_cons.1 h
      unfold bind
      split
      · next lt =>
          refine List.pairwise_cons.2 ⟨?_, h⟩
          intro b mem
          rcases List.mem_cons.1 mem with rfl | mem
          · exact lt
          · exact String.lt_trans lt (head b mem)
      · next notLt =>
          split
          · next eq => exact List.pairwise_cons.2 ⟨eq ▸ head, tail⟩
          · next ne =>
              refine List.pairwise_cons.2 ⟨?_, ih tail⟩
              intro b mem
              rcases mem_bind mem with rfl | mem
              · exact lt_of_not_lt_of_ne notLt ne
              · exact head b mem

/-- Bind a name, in place of what it was bound to. -/
def insert (frame : Frame) (name : String) (value : Int64) : Frame where
  bindings := bind name value frame.bindings
  sorted := pairwise_bind name value frame.sorted

/-! ## What a frame binds -/

@[simp] theorem get?_empty (name : String) : empty.get? name = none := rfl

private theorem lookup_bind (name other : String) (value : Int64) (bs : List Binding) :
    lookup other (bind name value bs) = if other = name then some value else lookup other bs := by
  induction bs with
  | nil => rfl
  | cons first rest ih =>
      obtain ⟨key, old⟩ := first
      unfold bind
      split
      · rfl
      · split
        · next eq => by_cases h : other = name <;> simp [lookup, h, ← eq]
        · next ne =>
            by_cases h : other = key
            · have : key ≠ name := fun e => ne e.symm
              simp [lookup, h, this]
            · simp [lookup, h, ih]

/-- After an assignment the name has the new value, and every other name what it had. -/
@[simp] theorem get?_insert (frame : Frame) (name other : String) (value : Int64) :
    (frame.insert name value).get? other =
      if other = name then some value else frame.get? other :=
  lookup_bind name other value frame.bindings

end Frame

end ScopeLang
