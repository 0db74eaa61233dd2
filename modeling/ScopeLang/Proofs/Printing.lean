import ScopeLang.Proofs.Verdict

/-!
# What a script prints

Every printed line is a decimal number or `null`.  It has no line end of its
own, so the lines of a script come back unchanged from the text in which they
were captured, and evaluating a source gives the lines of its course
(`evaluate_eq`).
-/

namespace ScopeLang

/-- A line that is the same after it was written to a text and read back. -/
def Text.IsLine (line : String) : Prop :=
  '\n' ∉ line.toList ∧ line.toList.getLast? ≠ some '\r'

theorem Text.isLine_of_forall {line : String}
    (h : ∀ c ∈ line.toList, c ≠ '\n' ∧ c ≠ '\r') : IsLine line := by
  refine ⟨fun feed => (h '\n' feed).1 rfl, fun last => ?_⟩
  exact (h '\r' (List.mem_of_getLast? last)).2 rfl

/-- A value is written as the decimal numeral of its number. -/
theorem Literal.render_eq_toString (value : Int64) : render value = toString value.toInt := by
  unfold render Text.decimal
  cases value.toInt with
  | ofNat n => rfl
  | negSucc n => exact if_pos (Int.negSucc_lt_zero n)

namespace Statement

theorem isLine_shown (value : Option Int64) : Text.IsLine (shown value) := by
  apply Text.isLine_of_forall
  intro c mem
  cases value with
  | none =>
      have letter : c = 'n' ∨ c = 'u' ∨ c = 'l' := by simpa [shown] using mem
      rcases letter with rfl | rfl | rfl <;> decide
  | some value =>
      have digit_or_minus : c.isDigit = true ∨ c = '-' := by
        simp only [shown, Literal.render] at mem
        split at mem
        · rw [String.toList_append] at mem
          rcases List.mem_append.1 mem with minus | digit
          · exact .inr (by simpa using minus)
          · exact .inl (Text.isDigit_of_mem_decimal digit)
        · exact .inl (Text.isDigit_of_mem_decimal mem)
      rcases digit_or_minus with digit | rfl
      · constructor <;> rintro rfl <;> exact absurd digit (by decide)
      · decide

theorem isLine_of_exec {statement : Statement} {memory changed : Memory} {effects : Effects}
    (h : statement.exec memory = .ok (changed, effects)) :
    ∀ line ∈ effects.lines, Text.IsLine line := by
  intro line mem
  cases exec_eq_ok_iff.1 h with
  | print name =>
      rw [List.mem_singleton.1 mem]
      exact isLine_shown _
  | openScope => exact absurd mem List.not_mem_nil
  | closeScope brace _ => exact absurd mem List.not_mem_nil
  | write target _ => exact absurd mem List.not_mem_nil
  | skip target _ => exact absurd mem List.not_mem_nil

end Statement

theorem isLine_of_mem_course (lexemes : List Lexeme) (memory : Memory) :
    ∀ line ∈ (course lexemes memory).effects.lines, Text.IsLine line := by
  fun_induction course lexemes memory with
  | case1 memory => exact fun line mem => absurd mem List.not_mem_nil
  | case2 memory first rest fault left stepped =>
      exact fun line mem => absurd mem List.not_mem_nil
  | case3 memory first rest changed effects left stepped _ ih =>
      intro line mem
      rcases List.mem_append.1 mem with now | later
      · -- the record of the statement prints nothing
        replace now : line ∈ effects.lines := by simpa [Execution.begun] using now
        unfold Statement.stepOn at stepped
        split at stepped
        · exact Statement.isLine_of_exec (Prod.mk.inj stepped).1 line now
        · cases stepped
      · exact ih line later

/-- Evaluating a source gives the lines of its course, if that ends well. -/
theorem evaluate_eq (source : String) :
    evaluate source =
      ((course (lexemes source) Memory.empty.openScope).result.map
          fun _ => (course (lexemes source) Memory.empty.openScope).effects.lines,
        (course (lexemes source) Memory.empty.openScope).effects.events) := by
  have back := Text.linesOf_unlines _
    (isLine_of_mem_course (lexemes source) Memory.empty.openScope)
  unfold lexemes at back ⊢
  rw [← course_execute] at back ⊢
  unfold evaluate
  rw [Session.run_eq]
  show ((Session.verdict (execute (.ofSource source) Memory.empty.openScope)).map fun _ =>
      (Text.linesOf ("" ++ Text.unlines _).toList).map String.ofList, _) = _
  rw [Session.verdict_eq_result, String.empty_append]
  exact congrArg (fun lines => (Except.map (fun _ => lines) _, _)) back

/-- A source whose statements are all carried out, and that leaves no scope open,
evaluates to the lines that they print. -/
theorem evaluate_of_passes {source : String} {changed : Memory} {effects : Effects}
    (h : Passes (lexemes source) Memory.empty.openScope changed effects)
    (shallow : changed.depth ≤ 1) : (evaluate source).1 = .ok effects.lines := by
  rw [evaluate_eq, result_of_passes h, if_neg (by omega), h.course_eq]
  rfl

end ScopeLang
