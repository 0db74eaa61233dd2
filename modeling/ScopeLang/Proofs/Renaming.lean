import Mathlib.Logic.Equiv.Basic
import ScopeLang.Proofs.Blocks
import ScopeLang.Proofs.Observations

/-!
# Layouts and names do not matter

Two sources that differ in their blanks and in the names of their variables do
the same, each at its own lexemes.

* **Renamings**: a `Renaming` maps words to words, no two to the same one, and
  keeps the reserved words and the values of literals.
* **Memories**: one memory is another one renamed if each of its environments
  gives to the new name of a variable what the other gives to the old one.  Every
  operation keeps this (`Memory.Renamed.read`, `Memory.Renamed.write`).
* **Statements**: renamed lexemes are taken apart into renamed statements
  (`Statement.take_renamed`), which do the same on a renamed memory
  (`Statement.Renamed.exec`).
* **Courses**: hence they print the same lines and fail at the same lexeme, or
  not at all (`course_renamed`).
-/

namespace ScopeLang

/-! ## Renamings -/

theorem Word.ext {word other : Word} (h : word.text = other.text) : word = other := by
  obtain ⟨text, isWord⟩ := word
  obtain ⟨_, _⟩ := other
  cases h
  rfl

theorem Word.exists_or_not (text : String) :
    (∃ word : Word, word.text = text) ∨ ¬ Text.IsWord text.toList := by
  by_cases isWord : Text.IsWord text.toList
  · exact .inl ⟨⟨text, isWord⟩, rfl⟩
  · exact .inr isWord

instance : DecidableEq Word :=
  fun word other => decidable_of_iff (word.text = other.text) ⟨Word.ext, congrArg Word.text⟩

/-- A map of words that tells all words apart and keeps what a script knows of
them: which ones are reserved, and the values of literals. -/
structure Renaming where
  apply : Word → Word
  injective : Function.Injective apply
  reserved : ∀ word, word.text ∈ reservedWords → apply word = word
  literal : ∀ word, Literal.parse? (apply word).text = Literal.parse? word.text

namespace Renaming

/-- Every word keeps its name. -/
def identity : Renaming where
  apply := id
  injective := Function.injective_id
  reserved := fun _ _ => rfl
  literal := fun _ => rfl

/-- Two words that are not reserved and have the same value, or both none, change
places. -/
def swap (word other : Word) (notReserved : word.text ∉ reservedWords)
    (otherNotReserved : other.text ∉ reservedWords)
    (sameValue : Literal.parse? word.text = Literal.parse? other.text) : Renaming where
  apply := Equiv.swap word other
  injective := (Equiv.swap word other).injective
  reserved := by
    intro third isReserved
    apply Equiv.swap_apply_of_ne_of_ne
    · rintro rfl
      exact notReserved isReserved
    · rintro rfl
      exact otherNotReserved isReserved
  literal := by
    intro third
    by_cases first : third = word
    · rw [first, Equiv.swap_apply_left, sameValue]
    by_cases second : third = other
    · rw [second, Equiv.swap_apply_right, sameValue]
    · rw [Equiv.swap_apply_of_ne_of_ne first second]

variable (naming : Renaming)

/-- The new name of a text, which is itself where the text is no word. -/
def onText (text : String) : String :=
  if isWord : Text.IsWord text.toList then (naming.apply ⟨text, isWord⟩).text else text

@[simp] theorem onText_word (word : Word) : naming.onText word.text = (naming.apply word).text :=
  dif_pos word.isWord

theorem onText_of_not_isWord {text : String} (h : ¬ Text.IsWord text.toList) :
    naming.onText text = text :=
  dif_neg h

theorem onText_injective : Function.Injective naming.onText := by
  intro text other same
  rcases Word.exists_or_not text with ⟨word, rfl⟩ | notWord <;>
    rcases Word.exists_or_not other with ⟨another, rfl⟩ | notAnother
  · rw [onText_word, onText_word] at same
    exact congrArg Word.text (naming.injective (Word.ext same))
  · -- the new name of a word is a word
    rw [onText_word, naming.onText_of_not_isWord notAnother] at same
    exact absurd (same ▸ (naming.apply word).isWord) notAnother
  · rw [onText_word, naming.onText_of_not_isWord notWord] at same
    exact absurd (same ▸ (naming.apply another).isWord) notWord
  · rw [naming.onText_of_not_isWord notWord, naming.onText_of_not_isWord notAnother] at same
    exact same

theorem onText_reserved {text : String} (h : text ∈ reservedWords) :
    naming.onText text = text := by
  rcases Word.exists_or_not text with ⟨word, rfl⟩ | notWord
  · rw [onText_word, naming.reserved word h]
  · exact naming.onText_of_not_isWord notWord

theorem parse?_onText (text : String) :
    Literal.parse? (naming.onText text) = Literal.parse? text := by
  rcases Word.exists_or_not text with ⟨word, rfl⟩ | notWord
  · rw [onText_word, naming.literal]
  · rw [naming.onText_of_not_isWord notWord]

@[simp] theorem onText_identity (text : String) : identity.onText text = text := by
  rcases Word.exists_or_not text with ⟨word, rfl⟩ | notWord
  · exact identity.onText_word word
  · exact identity.onText_of_not_isWord notWord

end Renaming

/-! ## Renamed lexemes -/

/-- A token with its new name.  Reserved tokens stay. -/
def Token.rename (naming : Renaming) : Token → Token
  | .word text => .word (naming.onText text)
  | token => token

namespace Token

variable (naming : Renaming)

theorem text_rename (token : Token) : (token.rename naming).text = naming.onText token.text := by
  have kept : ∀ text ∈ reservedWords, text = naming.onText text :=
    fun _ isReserved => (naming.onText_reserved isReserved).symm
  cases token with
  | word text => rfl
  | print => exact kept "print" (by decide)
  | scope => exact kept "scope" (by decide)
  | openBrace => exact kept "\x7b" (by decide)
  | closeBrace => exact kept "\x7d" (by decide)
  | equals => exact kept "=" (by decide)

theorem ofText_onText (text : String) :
    ofText (naming.onText text) = (ofText text).rename naming := by
  by_cases isReserved : text ∈ reservedWords
  · rw [naming.onText_reserved isReserved]
    simp only [reservedWords, List.mem_cons, List.not_mem_nil, or_false] at isReserved
    rcases isReserved with rfl | rfl | rfl | rfl | rfl <;> rfl
  · -- only a reserved word has the name of one, since such a name is its own new name
    have notReserved : naming.onText text ∉ reservedWords := by
      intro named
      rw [naming.onText_injective (naming.onText_reserved named)] at named
      exact isReserved named
    rw [ofText_of_not_mem isReserved, ofText_of_not_mem notReserved]
    rfl

/-- Renaming keeps reserved tokens and gives no others. -/
theorem rename_eq_iff (token kept : Token) (h : ∀ text, kept ≠ .word text) :
    token.rename naming = kept ↔ token = kept := by
  cases token with
  | word text =>
      exact ⟨fun same => absurd same.symm (h _), fun same => absurd same.symm (h _)⟩
  | _ => exact Iff.rfl

@[simp] theorem rename_identity (token : Token) : token.rename .identity = token := by
  cases token with
  | word text => exact congrArg Token.word (Renaming.onText_identity text)
  | _ => rfl

end Token

/-- `Respells naming first second`: the second lexemes are the first ones with new
names, wherever they stand in their sources. -/
def Respells (naming : Renaming) (first second : List Lexeme) : Prop :=
  second.map Lexeme.token = first.map fun lexeme => lexeme.token.rename naming

namespace Respells

variable {naming : Renaming} {first second : List Lexeme}

theorem drop (h : Respells naming first second) (count : Nat) :
    Respells naming (first.drop count) (second.drop count) := by
  unfold Respells at h ⊢
  rw [List.map_drop, h, List.map_drop]

theorem nil_inv (h : Respells naming [] second) : second = [] :=
  List.map_eq_nil_iff.1 h

theorem cons_inv {lexeme : Lexeme} {rest : List Lexeme}
    (h : Respells naming (lexeme :: rest) second) :
    ∃ other more, second = other :: more ∧ other.token = lexeme.token.rename naming ∧
      Respells naming rest more :=
  List.map_eq_cons_iff.1 h

theorem text {lexeme other : Lexeme} (h : other.token = lexeme.token.rename naming) :
    other.text = naming.onText lexeme.text := by
  unfold Lexeme.text
  rw [h, Token.text_rename]

end Respells

/-! ## Renamed memories -/

/-- The values of all names, asked for by their new names. -/
def Environment.under (naming : Renaming) (environment : Environment) : Environment :=
  fun name => environment (naming.onText name)

theorem Environment.under_set (naming : Renaming) (environment : Environment) (name : String)
    (value : Int64) :
    (environment.set (naming.onText name) value).under naming =
      (environment.under naming).set name value := by
  funext other
  unfold under set
  by_cases same : other = name
  · rw [if_pos same, if_pos (congrArg naming.onText same)]
  · rw [if_neg same, if_neg fun renamed => same (naming.onText_injective renamed)]

namespace Memory

/-- `Renamed naming memory other`: in every open scope the second memory shows for new
names what the first one shows for old ones. -/
def Renamed (naming : Renaming) (memory other : Memory) : Prop :=
  memory.snapshots = other.snapshots.map (Environment.under naming)

namespace Renamed

variable {naming : Renaming} {memory other : Memory}

theorem empty (naming : Renaming) : Renamed naming .empty .empty := rfl

theorem identity_iff : Renamed .identity memory other ↔ memory.snapshots = other.snapshots := by
  have same : Environment.under .identity = id := by
    funext environment name
    exact congrArg environment (Renaming.onText_identity name)
  unfold Renamed
  rw [same, List.map_id]

theorem depth (h : Renamed naming memory other) : memory.depth = other.depth := by
  have lengths := congrArg List.length h
  rw [List.length_map, length_snapshots, length_snapshots] at lengths
  exact lengths

theorem read_eq (h : Renamed naming memory other) :
    memory.read = Environment.under naming other.read := by
  rw [← seen_snapshots memory, ← seen_snapshots other, h]
  cases other.snapshots <;> rfl

theorem read (h : Renamed naming memory other) (name : String) :
    other.read (naming.onText name) = memory.read name := by
  rw [h.read_eq]
  rfl

theorem openScope (h : Renamed naming memory other) :
    Renamed naming memory.openScope other.openScope := by
  unfold Renamed
  rw [snapshots_openScope, snapshots_openScope, List.map_cons, h.read_eq, ← h]

theorem closeScope (h : Renamed naming memory other) :
    Renamed naming memory.closeScope.2 other.closeScope.2 := by
  unfold Renamed
  rw [snapshots_closeScope, snapshots_closeScope, h, List.map_tail]

theorem write (h : Renamed naming memory other) (isOpen : 0 < memory.depth) (name : String)
    (value : Int64) :
    Renamed naming (memory.write name value).1 (other.write (naming.onText name) value).1 := by
  have otherOpen : 0 < other.depth := by
    rw [← h.depth]
    exact isOpen
  unfold Renamed
  rw [snapshots_write isOpen, snapshots_write otherOpen, List.map_cons, Environment.under_set,
    h.read_eq, h, List.map_tail]

end Renamed

end Memory

/-! ## Renamed statements -/

namespace Statement

/-- `Renamed naming first second statement other`: the second statement is the first
one with new names.  Braces stand at the same place of the two sources. -/
inductive Renamed (naming : Renaming) (first second : List Lexeme) : Statement → Statement → Prop
  | print (name : String) :
      Renamed naming first second (.print name) (.print (naming.onText name))
  | openScope : Renamed naming first second .openScope .openScope
  | closeScope {brace other : Span} : SamePlace first second brace other →
      Renamed naming first second (.closeScope brace) (.closeScope other)
  | assign (target operand : String) :
      Renamed naming first second (.assign target operand)
        (.assign (naming.onText target) (naming.onText operand))

/-- `TakesAlike naming first second taken other`: from the beginnings of two lists a
statement and the renamed one were taken, with equally many lexemes, or matching
faults were met. -/
inductive TakesAlike (naming : Renaming) (first second : List Lexeme) :
    Except Fault Statement × List Lexeme → Except Fault Statement × List Lexeme → Prop
  | ok {statement other : Statement} (count : Nat) :
      Renamed naming first second statement other →
      TakesAlike naming first second (.ok statement, first.drop count)
        (.ok other, second.drop count)
  | error {fault other : Fault} {left more : List Lexeme} : fault.Matches first second other →
      TakesAlike naming first second (.error fault, left) (.error other, more)

theorem take_nil {first : Lexeme} (h : first.token ≠ .closeBrace) :
    take first [] = (.error .endOfInput, []) := by
  unfold take
  split <;> simp_all

/-- **Statements.** Renamed lexemes begin with a renamed statement. -/
theorem take_renamed {naming : Renaming} {lexeme other : Lexeme} {rest more : List Lexeme}
    (head : other.token = lexeme.token.rename naming) (tail : Respells naming rest more) :
    TakesAlike naming (lexeme :: rest) (other :: more) (take lexeme rest) (take other more) := by
  -- both lexemes begin a statement of the same form
  have kept : ∀ token, (∀ text, token ≠ .word text) →
      (other.token = token ↔ lexeme.token = token) := by
    intro token isReserved
    rw [head, Token.rename_eq_iff naming _ token isReserved]
  by_cases close : lexeme.token = .closeBrace
  · have otherClose := (kept .closeBrace (by simp)).2 close
    simp only [take, close, otherClose]
    exact .ok 1 (.closeScope (.head lexeme other rest more))
  have otherNotClose : other.token ≠ .closeBrace := mt (kept .closeBrace (by simp)).1 close
  cases rest with
  | nil =>
      rw [tail.nil_inv, take_nil close, take_nil otherNotClose]
      exact .error (Fault.matches_endOfInput _ _)
  | cons second rest =>
      obtain ⟨third, more, rfl, token, tail⟩ := tail.cons_inv
      by_cases print : lexeme.token = .print
      · have otherPrint := (kept .print (by simp)).2 print
        simp only [take, print, otherPrint]
        rw [Respells.text token]
        exact .ok 2 (.print second.text)
      by_cases scope : lexeme.token = .scope
      · have otherScope := (kept .scope (by simp)).2 scope
        have sameBrace := Token.rename_eq_iff naming second.token .openBrace (by simp)
        simp only [take, scope, otherScope, token, sameBrace]
        split
        · exact .ok 2 .openScope
        · exact .error (Fault.matches_atSpan _ (.second _ _ _ _ _ _))
      have target : lexeme.token.IsTarget := ⟨print, scope, close⟩
      have otherTarget : other.token.IsTarget :=
        ⟨mt (kept .print (by simp)).1 print, mt (kept .scope (by simp)).1 scope, otherNotClose⟩
      have sameSign := Token.rename_eq_iff naming second.token .equals (by simp)
      rw [take_of_isTarget target, take_of_isTarget otherTarget]
      simp only [token, sameSign]
      split
      · cases rest with
        | nil =>
            rw [tail.nil_inv]
            exact .error (Fault.matches_endOfInput _ _)
        | cons operand rest =>
            obtain ⟨last, more, rfl, value, -⟩ := tail.cons_inv
            simp only
            rw [Respells.text head, Respells.text value]
            exact .ok 3 (.assign lexeme.text operand.text)
      · exact .error (Fault.matches_atSpan _ (.second _ _ _ _ _ _))

/-- `StepsAlike naming first second done other`: the statements at the beginnings of
two lists have left a memory and the renamed one and have printed the same, and
equally many lexemes were read, or they have failed with matching faults. -/
inductive StepsAlike (naming : Renaming) (first second : List Lexeme) :
    Except Fault (Memory × Effects) × List Lexeme →
      Except Fault (Memory × Effects) × List Lexeme → Prop
  | ok {changed other : Memory} {effects further : Effects} (count : Nat) :
      changed.Renamed naming other → 0 < changed.depth → effects.lines = further.lines →
      StepsAlike naming first second (.ok (changed, effects), first.drop count)
        (.ok (other, further), second.drop count)
  | error {fault other : Fault} {left more : List Lexeme} : fault.Matches first second other →
      StepsAlike naming first second (.error fault, left) (.error other, more)

theorem operandValue_renamed {naming : Renaming} {memory other : Memory}
    (h : memory.Renamed naming other) (operand : String) :
    operandValue (naming.onText operand) other = operandValue operand memory := by
  unfold operandValue
  rw [naming.parse?_onText, h.read]

/-- A renamed statement does on a renamed memory what the statement does. -/
theorem Renamed.exec {naming : Renaming} {first second : List Lexeme} {statement other : Statement}
    {memory another : Memory} (h : Renamed naming first second statement other)
    (memories : memory.Renamed naming another) (isOpen : 0 < memory.depth) (count : Nat) :
    StepsAlike naming first second (statement.exec memory, first.drop count)
      (other.exec another, second.drop count) := by
  cases h with
  | print name =>
      refine .ok count memories isOpen ?_
      rw [memories.read]
  | openScope => exact .ok count memories.openScope (Nat.zero_lt_succ _) rfl
  | closeScope same =>
      simp only [Statement.exec, ← memories.depth]
      split
      · exact .error (Fault.matches_atSpan _ same)
      · refine .ok count memories.closeScope ?_ rfl
        rw [Memory.depth_closeScope]
        omega
  | assign target operand =>
      have value := operandValue_renamed memories operand
      cases found : operandValue operand memory with
      | none =>
          rw [exec_assign_of_none found, exec_assign_of_none (value.trans found)]
          exact .ok count memories isOpen rfl
      | some number =>
          rw [exec_assign_of_some found, exec_assign_of_some (value.trans found)]
          refine .ok count (memories.write isOpen target number) ?_ rfl
          rw [Memory.depth_write]
          exact isOpen

theorem stepOn_renamed {naming : Renaming} {lexeme other : Lexeme} {rest more : List Lexeme}
    {memory another : Memory} (head : other.token = lexeme.token.rename naming)
    (tail : Respells naming rest more) (memories : memory.Renamed naming another)
    (isOpen : 0 < memory.depth) :
    StepsAlike naming (lexeme :: rest) (other :: more) (stepOn lexeme rest memory)
      (stepOn other more another) := by
  have taken := take_renamed head tail
  unfold stepOn
  generalize take lexeme rest = here at taken ⊢
  generalize take other more = there at taken ⊢
  cases taken with
  | ok count statements => exact statements.exec memories isOpen count
  | error faults => exact .error faults

end Statement

/-! ## Renamed scripts -/

/-- `CoursesAlike naming first second taken other`: two courses have printed the same,
have left a memory and the renamed one, and have stopped without a fault or with
matching ones. -/
structure CoursesAlike (naming : Renaming) (first second : List Lexeme) (taken other : Course) :
    Prop where
  lines : taken.effects.lines = other.effects.lines
  memory : taken.memory.Renamed naming other.memory
  fault : Option.Rel (Fault.Matches first second) taken.fault other.fault

/-- Courses that run alike behind some lexemes run alike with the effects in front. -/
theorem CoursesAlike.after {naming : Renaming} {lexeme other : Lexeme} {rest more : List Lexeme}
    {count : Nat} {taken further : Course} {effects others : Effects}
    (h : CoursesAlike naming ((lexeme :: rest).drop count) ((other :: more).drop count) taken further)
    (printed : effects.lines = others.lines) :
    CoursesAlike naming (lexeme :: rest) (other :: more)
      (taken.after (Execution.begun lexeme ++ effects))
      (further.after (Execution.begun other ++ others)) := by
  obtain ⟨lines, memory, fault⟩ := h
  refine ⟨?_, memory, ?_⟩
  · show [] ++ effects.lines ++ taken.effects.lines = [] ++ others.lines ++ further.effects.lines
    rw [printed, lines]
  · show Option.Rel _ taken.fault further.fault
    generalize taken.fault = here at fault ⊢
    generalize further.fault = there at fault ⊢
    cases fault with
    | none => exact .none
    | some faults => exact .some faults.of_drop

/-- **Courses.** Renamed lexemes take the same course on a renamed memory. -/
theorem course_renamed {naming : Renaming} {first second : List Lexeme} {memory another : Memory}
    (lexemes : Respells naming first second) (memories : memory.Renamed naming another)
    (isOpen : 0 < memory.depth) :
    CoursesAlike naming first second (course first memory) (course second another) := by
  fun_induction course first memory generalizing second another with
  | case1 memory =>
      rw [lexemes.nil_inv, course_nil]
      exact ⟨rfl, memories, .none⟩
  | case2 memory lexeme rest fault left stepped =>
      obtain ⟨other, more, rfl, head, tail⟩ := lexemes.cons_inv
      have steps := Statement.stepOn_renamed head tail memories isOpen
      rw [stepped] at steps
      generalize otherStepped : Statement.stepOn other more another = done at steps
      cases steps with
      | error faults =>
          rw [course_of_step_error otherStepped]
          exact ⟨rfl, memories, .some faults⟩
  | case3 memory lexeme rest changed effects left stepped _ ih =>
      obtain ⟨other, more, rfl, head, tail⟩ := lexemes.cons_inv
      have steps := Statement.stepOn_renamed head tail memories isOpen
      rw [stepped] at steps
      generalize otherStepped : Statement.stepOn other more another = done at steps
      cases steps with
      | ok count renamed stillOpen printed =>
          rw [course_of_step_ok otherStepped]
          exact (ih (lexemes.drop count) renamed stillOpen).after printed

/-- Courses that run alike end alike. -/
theorem CoursesAlike.result {naming : Renaming} {first second : List Lexeme} {taken other : Course}
    (h : CoursesAlike naming first second taken other) :
    EndsAlike first second taken.result other.result := by
  obtain ⟨-, memory, fault⟩ := h
  unfold Course.result
  rw [memory.depth]
  generalize taken.fault = here at fault
  generalize other.fault = there at fault
  cases fault with
  | some faults => exact .error faults
  | none =>
      dsimp only
      split
      · exact .error ⟨rfl, .none⟩
      · exact .ok ()

theorem respells_lexemes {naming : Renaming} {words : List Word} {first second : String}
    (layout : Text.Layout (words.map Word.text) first.toList)
    (renamed : Text.Layout (words.map fun word => (naming.apply word).text) second.toList) :
    Respells naming (lexemes first) (lexemes second) := by
  have here := spelled_lexemes layout
  have there := spelled_lexemes renamed
  unfold Command.Spelled at here there
  unfold Respells
  have tokens : (lexemes first).map (fun lexeme => lexeme.token.rename naming) =
      ((lexemes first).map Lexeme.token).map (Token.rename naming) := by
    rw [List.map_map]
    rfl
  rw [there, tokens, here, List.map_map, List.map_map, List.map_map]
  apply List.map_congr_left
  intro word _
  show Token.ofText (naming.apply word).text = (Token.ofText word.text).rename naming
  rw [← naming.onText_word, Token.ofText_onText]

/-- **Names and layouts.** Two sources whose words are the same up to a renaming,
with any blanks between them, evaluate to the same lines or fail with the same
kind of fault at the lexeme with the same number, and print the same until then. -/
theorem evaluate_renamed (naming : Renaming) (words : List Word) {first second : String}
    (layout : Text.Layout (words.map Word.text) first.toList)
    (renamed : Text.Layout (words.map fun word => (naming.apply word).text) second.toList) :
    EndsAlike (lexemes first) (lexemes second) (evaluate first).1 (evaluate second).1 ∧
      ∃ lines, Emits first lines ∧ Emits second lines := by
  have alike := course_renamed (respells_lexemes layout renamed)
    (Memory.Renamed.empty naming).openScope (Nat.zero_lt_succ _)
  have printed := emits_course second
  rw [← alike.lines] at printed
  refine ⟨?_, _, emits_course first, printed⟩
  rw [evaluate_eq, evaluate_eq, ← alike.lines]
  exact alike.result.map _

/-- Two names that are literals of the same value, one of which has been assigned, in
front of a brace too many. -/
theorem evaluate_renamed_sevens :
    Text.Layout ["7", "=", "5", "print", "7", "\x7d"] "7 = 5 print 7 \x7d".toList ∧
      Text.Layout ["007", "=", "5", "print", "007", "\x7d"]
        "\u3000007 =\t5\nprint 007\n\x7d".toList ∧
      EndsAlike (lexemes "7 = 5 print 7 \x7d") (lexemes "\u3000007 =\t5\nprint 007\n\x7d")
        (evaluate "7 = 5 print 7 \x7d").1 (evaluate "\u3000007 =\t5\nprint 007\n\x7d").1 ∧
      ∃ lines, Emits "7 = 5 print 7 \x7d" lines ∧
        Emits "\u3000007 =\t5\nprint 007\n\x7d" lines := by
  let seven : Word := { text := "7", isWord := by decide }
  let padded : Word := { text := "007", isWord := by decide }
  let words : List Word :=
    [seven, { text := "=", isWord := by decide }, { text := "5", isWord := by decide },
      { text := "print", isWord := by decide }, seven, { text := "\x7d", isWord := by decide }]
  exact ⟨by decide, by decide, evaluate_renamed
    (.swap seven padded (by decide) (by decide) (by decide)) words (by decide) (by decide)⟩

end ScopeLang
