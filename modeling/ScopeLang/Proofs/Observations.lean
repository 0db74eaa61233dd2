import ScopeLang.Proofs.Printing

/-!
# What a source shows

* **Lines**: a run prints the same lines whether its text is captured or not
  (`emits_course`).
* **Ends**: two runs end alike if both succeed, or if both fail in the same way at
  the same lexeme (`EndsAlike`).
-/

namespace ScopeLang

/-! ## Lines -/

/-- `Emits source lines`: a new session that is run once on the source prints the
lines, whether its text is captured or not. -/
structure Emits (source : String) (lines : List String) : Prop where
  captured : (Session.ofSource source).startCapture.run.2.takeCapture.1 =
    some (Text.unlines lines)
  uncaptured : (Session.ofSource source).run.1.stdout = Text.unlines lines
  wholeLines : ∀ line ∈ lines, Text.IsLine line

/-- What is captured is the text of all lines. -/
theorem Session.takeCapture_run_startCapture (source : String) {taken : Course}
    (h : course (lexemes source) Memory.empty.openScope = taken) :
    (ofSource source).startCapture.run.2.takeCapture.1 =
      some (Text.unlines taken.effects.lines) := by
  show (ofSource source).startCapture.run.2.capture.held = _
  rw [run_capture (ofSource source).startCapture h]
  show some ("" ++ _) = _
  rw [String.empty_append]

theorem emits_course (source : String) :
    Emits source (course (lexemes source) Memory.empty.openScope).effects.lines := by
  refine ⟨Session.takeCapture_run_startCapture source rfl, ?_, ?_⟩
  · rw [Session.run_report (.ofSource source) rfl]
    rfl
  · exact isLine_of_mem_course _ _

/-! ## Ends -/

/-- Two spans that stand at the same index of two lists of lexemes. -/
def SamePlace (first second : List Lexeme) (span other : Span) : Prop :=
  ∃ index : Nat, first[index]?.map Lexeme.span = some span ∧
    second[index]?.map Lexeme.span = some other

theorem SamePlace.head (lexeme other : Lexeme) (rest more : List Lexeme) :
    SamePlace (lexeme :: rest) (other :: more) lexeme.span other.span :=
  ⟨0, rfl, rfl⟩

theorem SamePlace.second (before lexeme start other : Lexeme) (rest more : List Lexeme) :
    SamePlace (before :: lexeme :: rest) (start :: other :: more) lexeme.span other.span :=
  ⟨1, rfl, rfl⟩

theorem SamePlace.of_drop {first second : List Lexeme} {count : Nat} {span other : Span}
    (h : SamePlace (first.drop count) (second.drop count) span other) :
    SamePlace first second span other := by
  obtain ⟨index, here, there⟩ := h
  rw [List.getElem?_drop] at here there
  exact ⟨count + index, here, there⟩

/-- Two faults of one kind: both have no place, or both have the same one. -/
structure Fault.Matches (first second : List Lexeme) (fault other : Fault) : Prop where
  kind : fault.kind = other.kind
  place : Option.Rel (SamePlace first second) fault.span other.span

theorem Fault.matches_endOfInput (first second : List Lexeme) :
    endOfInput.Matches first second endOfInput :=
  ⟨rfl, .none⟩

theorem Fault.matches_atSpan (kind : Fault.Kind) {first second : List Lexeme} {span other : Span}
    (h : SamePlace first second span other) :
    (atSpan kind span).Matches first second (atSpan kind other) :=
  ⟨rfl, .some h⟩

theorem Fault.Matches.of_drop {first second : List Lexeme} {count : Nat} {fault other : Fault}
    (h : fault.Matches (first.drop count) (second.drop count) other) :
    fault.Matches first second other := by
  obtain ⟨kind, span⟩ := fault
  obtain ⟨_, place⟩ := other
  obtain ⟨same, places⟩ := h
  cases places with
  | none => exact ⟨same, .none⟩
  | some places => exact ⟨same, .some places.of_drop⟩

/-- `EndsAlike first second ended other`: both results are the same, or faults that
match at the lexemes of the two sources. -/
inductive EndsAlike {α : Type} (first second : List Lexeme) :
    Except Fault α → Except Fault α → Prop
  | ok (value : α) : EndsAlike first second (.ok value) (.ok value)
  | error {fault other : Fault} : fault.Matches first second other →
      EndsAlike first second (.error fault) (.error other)

theorem EndsAlike.map {α β : Type} {first second : List Lexeme} {ended other : Except Fault α}
    (h : EndsAlike first second ended other) (f : α → β) :
    EndsAlike first second (ended.map f) (other.map f) := by
  cases h with
  | ok value => exact .ok (f value)
  | error faults => exact .error faults

end ScopeLang
