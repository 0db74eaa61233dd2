/-!
# Capturing printed text

Printed text goes to standard output unless it is being captured; then it is
held until it is taken.
-/

namespace ScopeLang

/-- The text that is being held back, if any is. -/
structure Capture where
  held : Option String
deriving DecidableEq, Repr

namespace Capture

/-- Nothing is being captured. -/
def off : Capture where
  held := none

/-- Begin to capture.  What is already held stays. -/
def start (capture : Capture) : Capture where
  held := some (capture.held.getD "")

/-- Hand out what is held and stop capturing. -/
def take (capture : Capture) : Option String × Capture :=
  (capture.held, off)

/-- Print a text: the part that goes to standard output, and what is held then. -/
def print (capture : Capture) (text : String) : String × Capture :=
  match capture.held with
  | none => (text, capture)
  | some held => ("", ⟨some (held ++ text)⟩)

/-- Whether text is being captured. -/
def isOn (capture : Capture) : Bool :=
  capture.held.isSome

/-- Add a text that was captured elsewhere, if any was, to what is held. -/
def add (capture : Capture) (text : Option String) : Capture :=
  match capture.held, text with
  | some held, some text => ⟨some (held ++ text)⟩
  | _, _ => capture

/-- Printing no text changes nothing. -/
@[simp] theorem print_empty (capture : Capture) : capture.print "" = ("", capture) := by
  obtain ⟨held⟩ := capture
  cases held with
  | none => rfl
  | some held =>
      show ("", Capture.mk (some (held ++ ""))) = _
      rw [String.append_empty]

/-- Printing two texts one after the other is printing them together. -/
theorem print_append (capture : Capture) (first second : String) :
    capture.print (first ++ second) =
      ((capture.print first).1 ++ ((capture.print first).2.print second).1,
        ((capture.print first).2.print second).2) := by
  obtain ⟨held⟩ := capture
  cases held with
  | none => rfl
  | some held =>
      show ("", Capture.mk (some (held ++ (first ++ second)))) =
        ("" ++ "", Capture.mk (some (held ++ first ++ second)))
      rw [String.append_assoc, String.append_empty]

@[simp] theorem print_off (text : String) : off.print text = (text, off) := rfl

end Capture

end ScopeLang
