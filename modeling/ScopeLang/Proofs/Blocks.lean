import ScopeLang.Proofs.Environment
import ScopeLang.Proofs.Layout
import ScopeLang.Proofs.Printing

/-!
# Block-structured programs

Scripts are flat, but their braces nest.  A program here is a tree: its blocks
hold programs again, and it is evaluated on environments, a block on a copy of
the environment around it.

* **Simulation**: the words of a program do on a memory what the program does on
  the environment that the memory shows, and leave all outer frames alone
  (`Command.simulates`, `Command.simulatesAll`).
* **Evaluation**: a source that lays out the words of a program evaluates to the
  lines of the program (`evaluate_layout`).
-/

namespace ScopeLang

/-- A word as it can stand in a source. -/
structure Word where
  text : String
  isWord : Text.IsWord text.toList

/-- A word that begins an assignment. -/
structure Target extends Word where
  notPrint : text ≠ "print"
  notScope : text ≠ "scope"
  notBrace : text ≠ "\x7d"

theorem Target.isTarget (target : Target) : (Token.ofText target.text).IsTarget := by
  refine ⟨?_, ?_, ?_⟩ <;> intro token
  · exact target.notPrint (Token.ofText_injective (token.trans (by decide)))
  · exact target.notScope (Token.ofText_injective (token.trans (by decide)))
  · exact target.notBrace (Token.ofText_injective (token.trans (by decide)))

/-- A statement of a program.  A block holds a program of its own. -/
inductive Command where
  | print (name : Word)
  | assign (target : Target) (operand : Word)
  | block (body : List Command)

namespace Command

mutual

/-- The words of a statement. -/
def words : Command → List String
  | .print name => ["print", name.text]
  | .assign target operand => [target.text, "=", operand.text]
  | .block body => "scope" :: "\x7b" :: (wordsAll body ++ ["\x7d"])

/-- The words of a program. -/
def wordsAll : List Command → List String
  | [] => []
  | command :: rest => command.words ++ wordsAll rest

end

/-- The text that is printed for a name. -/
def textOf (environment : Environment) (name : String) : String :=
  match environment name with
  | some value => toString value.toInt
  | none => "null"

/-- Give a name the value of a literal, else that of another name, if it has one. -/
def assigned (environment : Environment) (target operand : String) : Environment :=
  match Literal.parse? operand with
  | some value => environment.set target value
  | none =>
      match environment operand with
      | some value => environment.set target value
      | none => environment

mutual

/-- The lines that a statement prints, and the environment behind it. -/
def eval (environment : Environment) : Command → List String × Environment
  | .print name => ([textOf environment name.text], environment)
  | .assign target operand => ([], assigned environment target.text operand.text)
  | .block body => ((evalAll environment body).1, environment)

/-- The lines that a program prints, and the environment behind it. -/
def evalAll (environment : Environment) : List Command → List String × Environment
  | [] => ([], environment)
  | command :: rest =>
      let first := command.eval environment
      let later := evalAll first.2 rest
      (first.1 ++ later.1, later.2)

end

/-! ## Simulation -/

/-- Lexemes that were read from some words. -/
def Spelled (words : List String) (lexemes : List Lexeme) : Prop :=
  lexemes.map Lexeme.token = words.map Token.ofText

/-- Some lexemes print the lines of an outcome and leave its environment in the
innermost scope.  All outer scopes stay as they are. -/
def Simulates (lexemes : List Lexeme) (memory : Memory) (outcome : List String × Environment) :
    Prop :=
  ∃ changed effects, Passes lexemes memory changed effects ∧ effects.lines = outcome.1 ∧
    changed.read = outcome.2 ∧ changed.closeScope.2 = memory.closeScope.2 ∧ 0 < changed.depth

theorem text_of_token {lexeme : Lexeme} {word : String} (h : lexeme.token = .ofText word) :
    lexeme.text = word := by
  rw [Lexeme.text, h, Token.text_ofText]

theorem shown_read (memory : Memory) (name : String) :
    Statement.shown (memory.read name) = textOf memory.read name := by
  unfold Statement.shown textOf
  cases memory.read name with
  | none => rfl
  | some value => exact Literal.render_eq_toString value

theorem Simulates.nil {memory : Memory} (h : 0 < memory.depth) :
    Simulates [] memory ([], memory.read) :=
  ⟨memory, .empty, Passes.nil memory, rfl, rfl, rfl, h⟩

theorem simulates_print {keyword : Lexeme} (operand : Lexeme) {memory : Memory}
    (h : 0 < memory.depth) (hkeyword : keyword.token = .print) :
    Simulates [keyword, operand] memory ([textOf memory.read operand.text], memory.read) := by
  refine ⟨memory, _, Passes.of_exec (.print hkeyword) rfl, ?_, rfl, rfl, h⟩
  exact congrArg (· :: []) (shown_read memory operand.text)

theorem closeScope_write (memory : Memory) (name : String) (value : Int64) :
    (memory.write name value).1.closeScope.2 = memory.closeScope.2 := by
  obtain ⟨frames⟩ := memory
  cases frames <;> rfl

theorem assigned_eq (environment : Environment) (target operand : String) :
    assigned environment target operand =
      match (Literal.parse? operand).or (environment operand) with
      | some value => environment.set target value
      | none => environment := by
  unfold assigned
  cases Literal.parse? operand <;> rfl

theorem simulates_assign {target equals : Lexeme} (operand : Lexeme) {memory : Memory}
    (h : 0 < memory.depth) (htarget : target.token.IsTarget) (hequals : equals.token = .equals) :
    Simulates [target, equals, operand] memory
      ([], assigned memory.read target.text operand.text) := by
  rw [assigned_eq]
  cases found : Statement.operandValue operand.text memory with
  | none =>
      have skipped := Statement.exec_assign_of_none found target.text
      refine ⟨memory, _, Passes.of_exec (.assign htarget hequals) skipped, rfl, ?_, rfl, h⟩
      rw [show (Literal.parse? operand.text).or (memory.read operand.text) = none from found]
  | some value =>
      have written := Statement.exec_assign_of_some found target.text
      refine ⟨_, _, Passes.of_exec (.assign htarget hequals) written, rfl, ?_, ?_, ?_⟩
      · rw [show (Literal.parse? operand.text).or (memory.read operand.text) = some value from found]
        funext name
        exact Memory.read_write h target.text name value
      · exact closeScope_write memory target.text value
      · rw [Memory.depth_write]
        exact h

/-- What is done inside a block is gone behind it, apart from its lines. -/
theorem simulates_block {keyword opening closing : Lexeme} {inner : List Lexeme}
    {memory : Memory} {outcome : List String × Environment} (h : 0 < memory.depth)
    (hkeyword : keyword.token = .scope) (hopening : opening.token = .openBrace)
    (hclosing : closing.token = .closeBrace) (body : Simulates inner memory.openScope outcome) :
    Simulates ([keyword, opening] ++ (inner ++ [closing])) memory (outcome.1, memory.read) := by
  obtain ⟨changed, effects, passes, lines, -, outer, isOpen⟩ := body
  -- below the frame of the block lies the memory from before it, which has a frame
  replace outer : changed.closeScope.2 = memory := outer
  have deep : ¬ changed.depth ≤ 1 := by
    have depth := Memory.depth_closeScope changed
    rw [outer] at depth
    omega
  have closes : Statement.exec (.closeScope closing.span) changed =
      .ok (memory, { lines := [], events := [.scopeClosed memory.depth] }) := by
    simp only [Statement.exec, if_neg deep, outer]
  have opened : Passes [keyword, opening] memory memory.openScope _ :=
    Passes.of_exec (.openScope hkeyword hopening) rfl
  have closed := Passes.of_exec (.closeScope hclosing) closes
  refine ⟨memory, _, opened.append (passes.append closed), ?_, rfl, rfl, h⟩
  simp [Execution.begun, lines]

theorem Simulates.append {first second : List Lexeme} {memory : Memory}
    {outcome later : List String × Environment} (h : Simulates first memory outcome)
    (h' : ∀ changed : Memory, 0 < changed.depth → changed.read = outcome.2 →
      Simulates second changed later) :
    Simulates (first ++ second) memory (outcome.1 ++ later.1, later.2) := by
  obtain ⟨middle, effects, passes, lines, seen, outer, isOpen⟩ := h
  obtain ⟨changed, further, passes', lines', seen', outer', isOpen'⟩ := h' middle isOpen seen
  refine ⟨changed, _, passes.append passes', ?_, seen', outer'.trans outer, isOpen'⟩
  rw [Effects.lines_append, lines, lines']

theorem Spelled.append_inv {words more : List String} {lexemes : List Lexeme}
    (h : Spelled (words ++ more) lexemes) :
    ∃ first second, lexemes = first ++ second ∧ Spelled words first ∧ Spelled more second := by
  unfold Spelled at h
  rw [List.map_append] at h
  exact List.map_eq_append_iff.1 h

theorem Spelled.cons_inv {word : String} {more : List String} {lexemes : List Lexeme}
    (h : Spelled (word :: more) lexemes) :
    ∃ first second, lexemes = first :: second ∧ first.token = .ofText word ∧
      Spelled more second :=
  List.map_eq_cons_iff.1 h

theorem Spelled.nil_inv {lexemes : List Lexeme} (h : Spelled [] lexemes) : lexemes = [] :=
  List.map_eq_nil_iff.1 h

mutual

/-- The words of a statement do on a memory what the statement does on its
environment. -/
theorem simulates (command : Command) {lexemes : List Lexeme} {memory : Memory}
    (spelled : Spelled command.words lexemes) (h : 0 < memory.depth) :
    Simulates lexemes memory (command.eval memory.read) := by
  cases command with
  | print name =>
      obtain ⟨keyword, rest, rfl, hkeyword, spelled⟩ := spelled.cons_inv
      obtain ⟨operand, rest, rfl, hname, spelled⟩ := spelled.cons_inv
      rw [spelled.nil_inv]
      have printed := simulates_print operand h hkeyword
      rw [text_of_token hname] at printed
      exact printed
  | assign target operand =>
      obtain ⟨first, rest, rfl, hfirst, spelled⟩ := spelled.cons_inv
      obtain ⟨equals, rest, rfl, hequals, spelled⟩ := spelled.cons_inv
      obtain ⟨last, rest, rfl, hlast, spelled⟩ := spelled.cons_inv
      rw [spelled.nil_inv]
      have assigned := simulates_assign last h (hfirst ▸ target.isTarget) hequals
      rw [text_of_token hfirst, text_of_token hlast] at assigned
      exact assigned
  | block body =>
      obtain ⟨keyword, rest, rfl, hkeyword, spelled⟩ := spelled.cons_inv
      obtain ⟨opening, rest, rfl, hopening, spelled⟩ := spelled.cons_inv
      obtain ⟨inner, rest, rfl, hinner, spelled⟩ := spelled.append_inv
      obtain ⟨closing, rest, rfl, hclosing, spelled⟩ := spelled.cons_inv
      rw [spelled.nil_inv]
      exact simulates_block h hkeyword hopening hclosing
        (simulatesAll body hinner (Nat.zero_lt_succ _))

/-- The words of a program do on a memory what the program does on its
environment. -/
theorem simulatesAll (program : List Command) {lexemes : List Lexeme} {memory : Memory}
    (spelled : Spelled (wordsAll program) lexemes) (h : 0 < memory.depth) :
    Simulates lexemes memory (evalAll memory.read program) := by
  cases program with
  | nil =>
      rw [spelled.nil_inv]
      exact .nil h
  | cons command rest =>
      obtain ⟨first, second, rfl, hfirst, hsecond⟩ := spelled.append_inv
      refine (simulates command hfirst h).append ?_
      intro changed isOpen seen
      -- the rest starts from the environment that the first statement leaves
      have later := simulatesAll rest hsecond isOpen
      rw [seen] at later
      exact later

end

end Command

theorem spelled_lexemes {words : List String} {source : String}
    (h : Text.Layout words source.toList) : Command.Spelled words (lexemes source) := by
  unfold Command.Spelled
  rw [← layout_iff_lexemes.1 h, List.map_map]
  apply List.map_congr_left
  intro lexeme mem
  exact Cursor.token_of_mem_lexemes mem

/-- **Evaluation.** A source that lays out the words of a program, with any
blanks, evaluates to the lines that the program prints when no name is set. -/
theorem evaluate_layout (program : List Command) (source : String)
    (layout : Text.Layout (Command.wordsAll program) source.toList) :
    (evaluate source).1 = .ok (Command.evalAll .unset program).1 := by
  have isOpen : 0 < Memory.empty.openScope.depth := Nat.one_pos
  obtain ⟨changed, effects, passes, lines, -, outer, -⟩ :=
    Command.simulatesAll program (spelled_lexemes layout) isOpen
  -- the frames outside of the outermost scope are as before: there are none
  have shallow : ¬ 1 < changed.depth := by
    have depth := Memory.depth_closeScope changed
    rw [outer, Memory.closeScope_openScope, Memory.depth_empty] at depth
    omega
  have printed : (course (lexemes source) Memory.empty.openScope).effects.lines =
      (Command.evalAll .unset program).1 := by
    have whole := passes []
    rw [List.append_nil, course_nil] at whole
    rw [whole]
    show (effects ++ Effects.empty).lines = _
    rw [Effects.lines_append, lines]
    exact List.append_nil _
  rw [evaluate_eq, result_of_passes passes, if_neg shallow, printed]
  rfl

/-- A block that shadows a name and sets another one. -/
def shadowing : List Command :=
  let x : Word := { text := "x", isWord := by decide }
  let y : Word := { text := "y", isWord := by decide }
  let setX : Target := { x with notPrint := by decide, notScope := by decide, notBrace := by decide }
  let setY : Target := { y with notPrint := by decide, notScope := by decide, notBrace := by decide }
  [.assign setX { text := "1", isWord := by decide },
   .block [.assign setX { text := "2", isWord := by decide }, .print x, .assign setY x],
   .print x, .print y]

/-- Behind the block the first name has its old value and the second one none. -/
theorem evaluate_layout_shadowing :
    Text.Layout (Command.wordsAll shadowing)
        "x = 1\nscope \x7b x\t=  2 print x y = x \x7d\u3000print x print y ".toList ∧
      (evaluate "x = 1\nscope \x7b x\t=  2 print x y = x \x7d\u3000print x print y ").1 =
        .ok ["2", "1", "null"] :=
  ⟨by decide, (evaluate_layout shadowing _ (by decide)).trans (congrArg Except.ok (by decide))⟩

end ScopeLang
