import Mathlib.Data.List.Chain
import ScopeLang.Proofs.Depth
import ScopeLang.Proofs.Lexing

/-!
# The log as an account of a run

The finest log of a run tells which statements were begun, at which byte, and what
came of those that open or close a scope or have nothing to assign.  `Recounts` says
what it has to tell, from the lexemes of the source and without a look at any record.

* **One statement**: a statement that is carried out leaves the remark that is due,
  or none (`Statement.exists_remark`).
* **A course**: the records of a course are those of the entries that recount its
  lexemes (`exists_recounts`).
* **Depths**: from one remark on a scope to the next the depth changes by one, and it
  ends as the memory does (`Recounts.nested`).
-/

namespace ScopeLang

open Statement

/-! ## What there is to tell -/

/-- What the log adds to the beginning of a statement. -/
inductive Remark where
  | opened (depth : Nat)
  | closed (depth : Nat)
  | skipped (target operand : String)

def Remark.record : Remark → Log.Record
  | .opened depth => ⟨.debug, "opened scope, depth " ++ toString depth⟩
  | .closed depth => ⟨.debug, "closed scope, depth " ++ toString depth⟩
  | .skipped target operand =>
      ⟨.debug, "`" ++ operand ++ "` is unset, assignment to `" ++ target ++ "` skipped"⟩

/-- The depth that a remark tells, if it is one on a scope. -/
def Remark.depth? : Remark → Option Nat
  | .opened depth => some depth
  | .closed depth => some depth
  | .skipped _ _ => none

/-- What the log tells of one statement. -/
structure Entry where
  first : Lexeme
  remark : Option Remark

namespace Entry

/-- The record of the beginning, and right behind it that of the remark. -/
def records (entry : Entry) : List Log.Record :=
  ⟨.trace, "statement `" ++ entry.first.text ++ "` at byte " ++ toString entry.first.span.start⟩ ::
    entry.remark.toList.map Remark.record

/-- The depths that some entries tell, in order. -/
def depths (entries : List Entry) : List Nat :=
  entries.filterMap fun entry => entry.remark.bind Remark.depth?

end Entry

/-- `Remarks earlier memory statement remark`: what is to be remarked on a statement
that was carried out on the memory behind the earlier ones.  The depth is one more
than the number of scopes that are opened and not closed then. -/
inductive Remarks (earlier : List Statement) (memory : Memory) :
    Statement → Option Remark → Prop
  | print (name : String) : Remarks earlier memory (.print name) none
  | openScope {depth : Nat} :
      depth + closed (earlier ++ [.openScope]) = opened (earlier ++ [.openScope]) + 1 →
      Remarks earlier memory .openScope (some (.opened depth))
  | closeScope {depth : Nat} {brace : Span} :
      depth + closed (earlier ++ [.closeScope brace]) =
        opened (earlier ++ [.closeScope brace]) + 1 →
      Remarks earlier memory (.closeScope brace) (some (.closed depth))
  | assign {target operand : String} :
      Literal.parse? operand ≠ none ∨ memory.read operand ≠ none →
      Remarks earlier memory (.assign target operand) none
  | skip {target operand : String} :
      Literal.parse? operand = none → memory.read operand = none →
      Remarks earlier memory (.assign target operand) (some (.skipped target operand))

/-- `Recounts earlier memory lexemes entries final`: the entries tell of the statements
that the lexemes consist of, from the memory that the earlier ones have left, until
the lexemes are used up or a statement fails and the memory is the final one. -/
inductive Recounts : List Statement → Memory → List Lexeme → List Entry → Memory → Prop
  | usedUp {earlier : List Statement} {memory : Memory} : Recounts earlier memory [] [] memory
  | failed {earlier : List Statement} {memory : Memory} {first : Lexeme} {rest : List Lexeme}
      {fault : Fault} :
      Fails (closed earlier) (opened earlier) (first :: rest) fault →
      Recounts earlier memory (first :: rest) [⟨first, none⟩] memory
  | next {earlier : List Statement} {memory changed final : Memory} {first : Lexeme}
      {words rest : List Lexeme} {statement : Statement} {effects : Effects}
      {remark : Option Remark} {entries : List Entry} :
      statement.Written first words → CarriedOut memory statement changed effects →
      Remarks earlier memory statement remark →
      Recounts (earlier ++ [statement]) changed rest entries final →
      Recounts earlier memory (first :: words ++ rest) (⟨first, remark⟩ :: entries) final

/-! ## One statement -/

namespace Statement

/-- The depth follows the scopes that are opened and closed. -/
theorem count_of_exec {earlier : List Statement} {statement : Statement}
    {memory changed : Memory} {effects : Effects}
    (h : statement.exec memory = .ok (changed, effects)) (isOpen : 0 < memory.depth)
    (count : memory.depth + closed earlier = opened earlier + 1) :
    0 < changed.depth ∧
      changed.depth + closed (earlier ++ [statement]) = opened (earlier ++ [statement]) + 1 := by
  obtain ⟨stillOpen, one⟩ := depth_of_exec h isOpen
  rw [closed_append, opened_append]
  exact ⟨stillOpen, by omega⟩

/-- **One statement.** What a statement records is the remark that is due on it. -/
theorem exists_remark {earlier : List Statement} {statement : Statement}
    {memory changed : Memory} {effects : Effects}
    (h : statement.exec memory = .ok (changed, effects)) (isOpen : 0 < memory.depth)
    (count : memory.depth + closed earlier = opened earlier + 1) :
    ∃ remark, Remarks earlier memory statement remark ∧
      effects.events.map Event.record = remark.toList.map Remark.record := by
  have counted := (count_of_exec h isOpen count).2
  cases exec_eq_ok_iff.1 h with
  | print name => exact ⟨none, .print name, rfl⟩
  | openScope => exact ⟨_, .openScope counted, rfl⟩
  | closeScope brace _ => exact ⟨_, .closeScope counted, rfl⟩
  | @write target operand value found =>
      refine ⟨none, .assign ?_, by rw [Memory.events_write isOpen]; rfl⟩
      rcases operandValue_eq_some found with literal | ⟨-, set⟩
      · exact .inl (by simp [literal])
      · exact .inr (by simp [set])
  | @skip target operand missing =>
      obtain ⟨literal, unset⟩ := Option.or_eq_none_iff.1 missing
      exact ⟨_, .skip literal unset, rfl⟩

end Statement

/-! ## A course -/

/-- **A course.** The records of a course are those of the entries that recount it. -/
theorem exists_recounts (lexemes : List Lexeme) (memory : Memory) {earlier : List Statement}
    (isOpen : 0 < memory.depth) (count : memory.depth + closed earlier = opened earlier + 1) :
    ∃ entries, Recounts earlier memory lexemes entries (course lexemes memory).memory ∧
      (course lexemes memory).effects.events.map Event.record =
        entries.flatMap Entry.records := by
  fun_induction course lexemes memory generalizing earlier with
  | case1 memory => exact ⟨[], .usedUp, rfl⟩
  | case2 memory first rest fault left stepped =>
      exact ⟨[⟨first, none⟩], .failed (fails_of_stepOn isOpen count stepped), rfl⟩
  | case3 memory first rest changed effects left stepped _ ih =>
      unfold stepOn at stepped
      split at stepped
      · next statement more taken =>
          obtain ⟨executed, rfl⟩ := Prod.mk.inj stepped
          obtain ⟨words, written, whole⟩ := written_of_take taken
          obtain ⟨remark, due, recorded⟩ := exists_remark executed isOpen count
          obtain ⟨stillOpen, counted⟩ := count_of_exec executed isOpen count
          obtain ⟨entries, recounts, later⟩ := ih stillOpen counted
          refine ⟨⟨first, remark⟩ :: entries, ?_, ?_⟩
          · rw [whole]
            exact .next written (exec_eq_ok_iff.1 executed) due recounts
          · show Event.record (.statement first.text first.span.start) ::
                (effects.events ++ (course more changed).effects.events).map Event.record = _
            rw [List.map_append, recorded, later]
            rfl
      · cases stepped

/-! ## Depths -/

/-- `Nested start depths final`: one after the other, beginning with `start`, the
depths differ by one, none of them is zero, and the last one is `final`. -/
structure Nested (start : Nat) (depths : List Nat) (final : Nat) : Prop where
  steps : (start :: depths).IsChain fun depth next => next = depth + 1 ∨ depth = next + 1
  positive : ∀ depth ∈ depths, 1 ≤ depth
  last : depths.getLastD start = final

theorem Nested.nil (depth : Nat) : Nested depth [] depth where
  steps := .singleton depth
  positive := by simp
  last := rfl

theorem Nested.cons {start next final : Nat} {depths : List Nat}
    (step : next = start + 1 ∨ start = next + 1) (positive : 0 < next)
    (h : Nested next depths final) : Nested start (next :: depths) final where
  steps := .cons_cons step h.steps
  positive := List.forall_mem_cons.2 ⟨positive, h.positive⟩
  last := (List.getLastD_cons ..).trans h.last

/-- A remark that tells a depth tells that behind the statement, which is one more or
less than before; without such a remark the depth stays. -/
theorem Remarks.depth {earlier : List Statement} {memory changed : Memory}
    {statement : Statement} {remark : Option Remark}
    (h : Remarks earlier memory statement remark)
    (one : changed.depth + closed [statement] = memory.depth + opened [statement])
    (counted : changed.depth + closed (earlier ++ [statement]) =
      opened (earlier ++ [statement]) + 1) :
    remark.bind Remark.depth? = none ∧ changed.depth = memory.depth ∨
      remark.bind Remark.depth? = some changed.depth ∧
        (changed.depth = memory.depth + 1 ∨ memory.depth = changed.depth + 1) := by
  cases h with
  | print name => exact .inl ⟨rfl, one⟩
  | openScope told => exact .inr ⟨congrArg some (by omega), .inl one⟩
  | closeScope told => exact .inr ⟨congrArg some (by omega), .inr one.symm⟩
  | assign found => exact .inl ⟨rfl, one⟩
  | skip literal unset => exact .inl ⟨rfl, one⟩

/-- **Depths.** The depths that are told lead from that of the memory at the beginning
to that at the end. -/
theorem Recounts.nested {earlier : List Statement} {memory final : Memory}
    {lexemes : List Lexeme} {entries : List Entry}
    (h : Recounts earlier memory lexemes entries final) (isOpen : 0 < memory.depth)
    (count : memory.depth + closed earlier = opened earlier + 1) :
    Nested memory.depth (Entry.depths entries) final.depth := by
  induction h with
  | usedUp => exact .nil _
  | failed _ => exact .nil _
  | @next earlier memory changed final first words rest statement effects remark entries
      _ done due _ ih =>
      have executed := exec_eq_ok_iff.2 done
      have one := (depth_of_exec executed isOpen).2
      obtain ⟨stillOpen, counted⟩ := count_of_exec executed isOpen count
      have later := ih stillOpen counted
      rcases due.depth one counted with ⟨untold, same⟩ | ⟨told, step⟩
      · have skipped : Entry.depths (⟨first, remark⟩ :: entries) = Entry.depths entries :=
          List.filterMap_cons_none untold
        rw [skipped, ← same]
        exact later
      · have first_told : Entry.depths (⟨first, remark⟩ :: entries) =
            changed.depth :: Entry.depths entries :=
          List.filterMap_cons_some told
        rw [first_told]
        exact later.cons step stillOpen

/-! ## A run -/

/-- Each entry tells of a lexeme, and the order is that of the lexemes. -/
theorem Recounts.firsts_sublist {earlier : List Statement} {memory final : Memory}
    {lexemes : List Lexeme} {entries : List Entry}
    (h : Recounts earlier memory lexemes entries final) :
    (entries.map Entry.first).Sublist lexemes := by
  induction h with
  | usedUp => exact .slnil
  | @failed _ _ first rest _ _ => exact (List.nil_sublist rest).cons_cons first
  | @next _ _ _ _ first words rest _ _ _ _ _ _ _ _ ih =>
      exact (ih.trans (List.sublist_append_right words rest)).cons_cons first

/-- The starts of the lexemes increase. -/
theorem Spells.starts_increasing {source : String} {lexemes : List Lexeme}
    (h : Spells source lexemes) : lexemes.Pairwise (·.span.start < ·.span.start) := by
  refine (List.pairwise_flatMap.1 h.increasing).2.imp ?_
  intro first second before
  exact before _ List.mem_cons_self _ List.mem_cons_self

/-- A course that ends well has closed all scopes but the outermost. -/
theorem Course.depth_of_result_ok {course : Course} (h : course.result = .ok ()) :
    course.memory.depth ≤ 1 := by
  unfold result at h
  split at h
  · cases h
  · split at h
    · cases h
    · next shallow => exact Nat.le_of_not_lt shallow

/-- `Faithful source log result entries`: the log of a run of the source consists of the
records of the entries, and what they tell is right. -/
structure Faithful (source : String) (log : List Log.Record) (result : Except Fault Unit)
    (entries : List Entry) : Prop where
  told : log = entries.flatMap Entry.records
  firsts : (entries.map Entry.first).Sublist (lexemes source)
  increasing : entries.Pairwise (·.first.span.start < ·.first.span.start)
  bytes : ∀ entry ∈ entries,
    source.toByteArray.extract entry.first.span.start entry.first.span.stop =
      entry.first.text.toByteArray
  steps : (1 :: Entry.depths entries).IsChain fun depth next => next = depth + 1 ∨ depth = next + 1
  positive : ∀ depth ∈ Entry.depths entries, 1 ≤ depth
  last : result = .ok () → ∀ depth ∈ (Entry.depths entries).getLast?, depth = 1

/-- **The log.** The finest log of the first run of a session recounts the statements
that the lexemes of its source consist of, up to the first that fails. -/
theorem log_recounts_run (source : String) (capture : Capture) :
    ∃ entries final,
      Recounts [] Memory.empty.openScope (lexemes source) entries final ∧
      Faithful source
        (Log.visible .trace
          (({ Session.ofSource source with capture := capture } : Session).run.1.events.map
            Event.record))
        ({ Session.ofSource source with capture := capture } : Session).run.1.result entries := by
  have isOpen : 0 < Memory.empty.openScope.depth := Nat.one_pos
  have count : Memory.empty.openScope.depth + closed [] = opened [] + 1 := rfl
  obtain ⟨entries, recounts, recorded⟩ := exists_recounts (lexemes source) _ isOpen count
  have spells := spells_lexemes source
  have nested := recounts.nested isOpen count
  have firsts := recounts.firsts_sublist
  refine ⟨entries, _, recounts, ?_⟩
  rw [Session.run_report _ rfl, Log.visible_trace]
  refine ⟨recorded, firsts, ?_, ?_, nested.steps, nested.positive, ?_⟩
  · exact (spells.starts_increasing.sublist firsts).of_map Entry.first fun _ _ before => before
  · intro entry mem
    exact spells.bytes _ (firsts.subset (List.mem_map_of_mem mem))
  · intro ended depth told
    have atLeast := nested.positive depth (List.mem_of_getLast? told)
    have last := nested.last
    rw [List.getLastD_eq_getLast?, told, Option.getD_some] at last
    have atMost : (course (lexemes source) Memory.empty.openScope).memory.depth ≤ 1 :=
      Course.depth_of_result_ok ended
    omega

end ScopeLang
