import ScopeLang.Proofs.Lexing
import ScopeLang.Proofs.Script

/-!
# Where a fault stops

Reading goes from lexeme to lexeme, so what every read keeps, statements and
executions keep.  A fault leaves the cursor right behind the lexeme at fault, or at
the end of the source (`Statement.step_stopsAt`, `execute_stopsAt`).
-/

namespace ScopeLang

open Statement

namespace Cursor

theorem expect_eq_ok {cursor behind : Cursor} {lexeme : Lexeme}
    (h : cursor.expect = (.ok lexeme, behind)) : cursor.next = (some lexeme, behind) := by
  unfold expect at h
  split at h
  · next read =>
      cases h
      exact read
  · cases h

theorem expect_eq_error {cursor behind : Cursor} {fault : Fault}
    (h : cursor.expect = (.error fault, behind)) : fault = .endOfInput ∧ behind.rest = [] := by
  unfold expect at h
  split at h
  · cases h
  · next read =>
      cases h
      exact ⟨rfl, rest_of_next_none read⟩

theorem expect_snd (cursor : Cursor) : cursor.expect.2 = cursor.next.2 := by
  unfold expect
  split <;> simp_all

/-- A read delivers one of the lexemes that are left, or none. -/
theorem lexemes_next_suffix (cursor : Cursor) : cursor.next.2.lexemes <:+ cursor.lexemes := by
  rcases read : cursor.next with ⟨_ | lexeme, behind⟩
  · rw [lexemes_exhausted read]
    exact List.nil_suffix
  · rw [lexemes_of_next_some read]
    exact List.suffix_cons ..

theorem offset_of_next {cursor behind : Cursor} {lexeme : Lexeme}
    (h : cursor.next = (some lexeme, behind)) : behind.offset = lexeme.span.stop := by
  unfold next at h
  dsimp only at h
  split at h
  · cases h
  · cases h
    rfl

theorem exists_next_of_lexemes_nil {cursor : Cursor} (h : cursor.lexemes = []) :
    ∃ stopped, cursor.next = (none, stopped) := by
  rcases read : cursor.next with ⟨_ | lexeme, behind⟩
  · exact ⟨behind, rfl⟩
  · rw [lexemes_of_next_some read] at h
    cases h

theorem Within.offset_of_rest_nil {source : String} {cursor : Cursor}
    (within : cursor.Within source) (h : cursor.rest = []) :
    cursor.offset = source.utf8ByteSize := by
  obtain ⟨before, whole, size⟩ := within
  rw [h, List.append_nil] at whole
  rw [size, ← whole, Text.byteSize_toList]

end Cursor

/-! ## What every read keeps -/

section Keeps

variable {P : Cursor → Prop} (keeps : ∀ cursor, P cursor → P cursor.next.2)

include keeps

theorem Statement.read_keeps (first : Lexeme) {cursor : Cursor} (start : P cursor) :
    P (read first cursor).2 := by
  have one : P cursor.expect.2 := cursor.expect_snd ▸ keeps cursor start
  unfold read
  split
  · split <;> simp_all
  · split
    · split <;> simp_all
    · simp_all
  · exact start
  · split
    · next operator behind expected =>
        rw [expected] at one
        have two : P behind.expect.2 := behind.expect_snd ▸ keeps behind one
        split
        · split <;> simp_all
        · exact one
    · simp_all

theorem Statement.step_keeps (first : Lexeme) {cursor : Cursor} (memory : Memory)
    (start : P cursor) : P (step first cursor memory).2 := by
  have kept := read_keeps keeps first start
  unfold step
  split <;> simp_all

theorem execute_keeps {cursor : Cursor} (memory : Memory) (start : P cursor) :
    P (execute cursor memory).cursor := by
  fun_induction execute cursor memory with
  | case1 cursor memory stopped read =>
      have kept := keeps cursor start
      rw [read] at kept
      exact kept
  | case2 cursor memory first rest read fault stopped stepped =>
      have behind := keeps cursor start
      rw [read] at behind
      have kept := step_keeps keeps first memory behind
      rw [stepped] at kept
      exact kept
  | case3 cursor memory first rest read changed effects next stepped _ ih =>
      have behind := keeps cursor start
      rw [read] at behind
      have kept := step_keeps keeps first memory behind
      rw [stepped] at kept
      exact ih kept

end Keeps

theorem lexemes_suffix_of_next {cursor rest : Cursor} {first : Lexeme}
    (read : cursor.next = (some first, rest)) (memory : Memory) :
    (execute cursor memory).cursor.lexemes <:+ rest.lexemes := by
  have keeps : ∀ c : Cursor, c.lexemes <:+ rest.lexemes → c.next.2.lexemes <:+ rest.lexemes :=
    fun c suffix => c.lexemes_next_suffix.trans suffix
  have stepped := step_keeps keeps first memory List.suffix_rfl
  rcases step : Statement.step first rest memory with ⟨fault | ⟨changed, effects⟩, behind⟩
  · rw [execute_of_step_error read step]
    rw [step] at stepped
    exact stepped
  · rw [execute_of_step_ok read step]
    rw [step] at stepped
    exact execute_keeps keeps changed stepped

/-! ## Where a fault stops -/

/-- `StopsAt cursor fault stopped`: reading on from the cursor, a fault has left
it at `stopped`. -/
inductive StopsAt (cursor : Cursor) : Fault → Cursor → Prop
  /-- The source has ended. -/
  | atEnd {fault : Fault} {stopped : Cursor} :
      fault.span = none → stopped.rest = [] → StopsAt cursor fault stopped
  /-- The lexeme that was read last is to blame. -/
  | behind {before stopped : Cursor} {lexeme : Lexeme} {kind : Fault.Kind} :
      before.lexemes <:+ cursor.lexemes → before.next = (some lexeme, stopped) →
      StopsAt cursor (.atSpan kind lexeme.span) stopped

theorem StopsAt.mono {cursor earlier stopped : Cursor} {fault : Fault}
    (h : StopsAt cursor fault stopped) (suffix : cursor.lexemes <:+ earlier.lexemes) :
    StopsAt earlier fault stopped := by
  cases h with
  | atEnd noSpan nothing => exact .atEnd noSpan nothing
  | behind within read => exact .behind (within.trans suffix) read

theorem StopsAt.of_expect {cursor stopped : Cursor} {fault : Fault} (start : Cursor)
    (h : cursor.expect = (.error fault, stopped)) : StopsAt start fault stopped := by
  obtain ⟨rfl, nothing⟩ := Cursor.expect_eq_error h
  exact .atEnd rfl nothing

namespace Statement

theorem read_stopsAt {first : Lexeme} {cursor stopped : Cursor} {fault : Fault}
    (h : read first cursor = (.error fault, stopped)) : StopsAt cursor fault stopped := by
  unfold read at h
  split at h
  · split at h
    · cases h
    · next expected =>
        cases h
        exact .of_expect cursor expected
  · split at h
    · next expected =>
        split at h
        · cases h
        · cases h
          exact .behind List.suffix_rfl (Cursor.expect_eq_ok expected)
    · next expected =>
        cases h
        exact .of_expect cursor expected
  · cases h
  · split at h
    · next expected =>
        split at h
        · split at h
          · cases h
          · next last =>
              cases h
              exact .of_expect cursor last
        · cases h
          exact .behind List.suffix_rfl (Cursor.expect_eq_ok expected)
    · next expected =>
        cases h
        exact .of_expect cursor expected

theorem exec_eq_error {statement : Statement} {memory : Memory} {fault : Fault}
    (h : statement.exec memory = .error fault) :
    ∃ brace, statement = .closeScope brace ∧ fault = .atSpan .strayBrace brace := by
  cases statement with
  | closeScope brace =>
      simp only [exec] at h
      split at h
      · cases h
        exact ⟨brace, rfl, rfl⟩
      · cases h
  | assign target operand =>
      simp only [exec] at h
      split at h <;> cases h
  | print name => cases h
  | openScope => cases h

theorem read_eq_closeScope {first : Lexeme} {cursor stopped : Cursor} {brace : Span}
    (h : read first cursor = (.ok (.closeScope brace), stopped)) :
    brace = first.span ∧ stopped = cursor := by
  unfold read at h
  split at h
  · split at h <;> cases h
  · split at h
    · split at h <;> cases h
    · cases h
  · cases h
    exact ⟨rfl, rfl⟩
  · split at h
    · split at h
      · split at h <;> cases h
      · cases h
    · cases h

theorem step_stopsAt {cursor rest stopped : Cursor} {first : Lexeme} {memory : Memory}
    {fault : Fault} (reads : cursor.next = (some first, rest))
    (h : step first rest memory = (.error fault, stopped)) : StopsAt cursor fault stopped := by
  have within : rest.lexemes <:+ cursor.lexemes := by
    rw [Cursor.lexemes_of_next_some reads]
    exact List.suffix_cons ..
  unfold step at h
  split at h
  · next statement behind reading =>
      -- only a brace that was read well can fail, and it is the last lexeme that was read
      obtain ⟨failed, rfl⟩ := Prod.mk.inj h
      obtain ⟨brace, rfl, rfl⟩ := exec_eq_error failed
      obtain ⟨rfl, rfl⟩ := read_eq_closeScope reading
      exact .behind List.suffix_rfl reads
  · next reading =>
      cases h
      exact (read_stopsAt reading).mono within

end Statement

/-- An execution without a fault reads its source to the end, and one with a
fault stops at it. -/
theorem execute_stopsAt (cursor : Cursor) (memory : Memory) :
    match (execute cursor memory).fault with
    | none => (execute cursor memory).cursor.rest = []
    | some fault => StopsAt cursor fault (execute cursor memory).cursor := by
  fun_induction execute cursor memory with
  | case1 cursor memory stopped read => exact Cursor.rest_of_next_none read
  | case2 cursor memory first rest read fault stopped stepped => exact step_stopsAt read stepped
  | case3 cursor memory first rest read changed effects next stepped _ ih =>
      have suffix : next.lexemes <:+ cursor.lexemes := by
        have left := stepOn_suffix first rest.lexemes memory
        rw [← (step_eq_stepOn first rest memory).2, stepped] at left
        rw [Cursor.lexemes_of_next_some read]
        exact left.trans (List.suffix_cons ..)
      show match (execute next changed).fault with
        | none => (execute next changed).cursor.rest = []
        | some fault => StopsAt cursor fault (execute next changed).cursor
      split at ih
      · next none => simpa [none] using ih
      · next fault failed => simpa [failed] using ih.mono suffix

end ScopeLang
