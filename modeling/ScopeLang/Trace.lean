/-!
# Traces of a machine

A machine answers one input at a time and may change its state as it does.  Its
trace on a list of inputs is the list of its answers and the state at the end.
-/

namespace ScopeLang

variable {σ α β : Type}

/-- Feed inputs to a machine one after the other. -/
def trace (step : σ → α → β × σ) (state : σ) : List α → List β × σ
  | [] => ([], state)
  | input :: inputs =>
      let answered := step state input
      let rest := trace step answered.2 inputs
      (answered.1 :: rest.1, rest.2)

@[simp] theorem trace_nil (step : σ → α → β × σ) (state : σ) :
    trace step state [] = ([], state) := rfl

@[simp] theorem trace_cons (step : σ → α → β × σ) (state : σ) (input : α) (inputs : List α) :
    trace step state (input :: inputs) =
      ((step state input).1 :: (trace step (step state input).2 inputs).1,
        (trace step (step state input).2 inputs).2) := rfl

/-- Each input has one answer. -/
@[simp] theorem length_trace (step : σ → α → β × σ) (state : σ) (inputs : List α) :
    (trace step state inputs).1.length = inputs.length := by
  induction inputs generalizing state with
  | nil => rfl
  | cons input inputs ih => simp [ih]

/-- More inputs are answered from where the first left off. -/
theorem trace_append (step : σ → α → β × σ) (state : σ) (inputs more : List α) :
    trace step state (inputs ++ more) =
      ((trace step state inputs).1 ++ (trace step (trace step state inputs).2 more).1,
        (trace step (trace step state inputs).2 more).2) := by
  induction inputs generalizing state with
  | nil => rfl
  | cons input inputs ih => simp [ih]

/-- Where each step of one machine is a step of another seen through two maps,
so is each trace. -/
theorem trace_map {τ γ : Type} {step : σ → α → β × σ} {other : τ → α → γ × τ} {f : σ → τ}
    {g : β → γ}
    (maps : ∀ state input, other (f state) input =
      (g (step state input).1, f (step state input).2))
    (state : σ) (inputs : List α) :
    trace other (f state) inputs =
      ((trace step state inputs).1.map g, f (trace step state inputs).2) := by
  induction inputs generalizing state with
  | nil => rfl
  | cons input inputs ih => simp [maps, ih]

/-- What every step keeps, a trace keeps. -/
theorem trace_invariant {step : σ → α → β × σ} {P : σ → Prop}
    (keeps : ∀ state input, P state → P (step state input).2) {state : σ} (start : P state)
    (inputs : List α) : P (trace step state inputs).2 := by
  induction inputs generalizing state with
  | nil => exact start
  | cons input inputs ih => exact ih (keeps state input start)

end ScopeLang
