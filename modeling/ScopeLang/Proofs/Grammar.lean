import ScopeLang.Proofs.Blocks

/-!
# The grammar of scripts

A script is a sequence of statements of four forms, with places for names and literals
in them.  The strict grammar has no reserved word in such a place.  A run follows the
lenient one: it takes any word behind `print` and behind an equals sign, and in front of
an equals sign any word that begins no other statement.

* **Statements**: the forms that the lenient grammar derives are those of the statements
  that the lexemes are made of (`derives_of_writtenAll`, `exists_writtenAll`).
* **One way**: lexemes are taken apart into statements in one way only
  (`Statement.WrittenAll.unique`, `Grammar.derives_unique`).
* **Names**: what the lenient grammar derives, the strict one does if no reserved word
  stands for a name, and not otherwise (`Grammar.strict_iff`).
-/

namespace ScopeLang

open Statement

/-! ## Forms and grammars -/

/-- The form of a statement, with the words that stand for names and literals. -/
inductive Form where
  | print (name : String)
  | openScope
  | closeScope
  | assign (target operand : String)
deriving DecidableEq

namespace Form

def tokens : Form → List Token
  | .print name => [.print, .ofText name]
  | .openScope => [.scope, .openBrace]
  | .closeScope => [.closeBrace]
  | .assign target operand => [.ofText target, .equals, .ofText operand]

/-- The words that stand for names and literals. -/
def names : Form → List String
  | .print name => [name]
  | .openScope => []
  | .closeScope => []
  | .assign target operand => [target, operand]

/-- No form closes a scope that was not opened, and in the end all are closed. -/
structure Paired (forms : List Form) : Prop where
  opened : ∀ front, front <+: forms → front.count .closeScope ≤ front.count .openScope
  closed : forms.count .closeScope = forms.count .openScope

end Form

/-- Which words may stand for names and literals: behind `print`, in front of an equals
sign and behind it. -/
structure Grammar where
  printed : String → Prop
  target : String → Prop
  operand : String → Prop

namespace Grammar

/-- The forms of a grammar's statements. -/
inductive Admits (grammar : Grammar) : Form → Prop
  | print {name : String} : grammar.printed name → Admits grammar (.print name)
  | openScope : Admits grammar .openScope
  | closeScope : Admits grammar .closeScope
  | assign {target operand : String} : grammar.target target → grammar.operand operand →
      Admits grammar (.assign target operand)

/-- `Derives grammar forms tokens`: the tokens are those of statements of the grammar,
one after the other, with these forms. -/
structure Derives (grammar : Grammar) (forms : List Form) (tokens : List Token) : Prop where
  admits : ∀ form ∈ forms, grammar.Admits form
  spells : forms.flatMap Form.tokens = tokens

/-- A name is a word that is not reserved, and an operand is a literal or a name. -/
def strict : Grammar where
  printed word := word ∉ reservedWords
  target word := word ∉ reservedWords
  operand word := Literal.parse? word ≠ none ∨ word ∉ reservedWords

/-- Every word is printed or assigned, to every word that begins no other statement. -/
def lenient : Grammar where
  printed _ := True
  target word := (Token.ofText word).IsTarget
  operand _ := True

end Grammar

/-- The tokens of a source. -/
def tokens (source : String) : List Token :=
  (lexemes source).map Lexeme.token

/-! ## Statements -/

namespace Statement

/-- The form of a statement. -/
def form : Statement → Form
  | .print name => .print name
  | .openScope => .openScope
  | .closeScope _ => .closeScope
  | .assign target operand => .assign target operand

/-- The form of a statement has the tokens of its lexemes. -/
theorem Written.form {statement : Statement} {first : Lexeme} {rest : List Lexeme}
    (h : statement.Written first rest)
    (read : ∀ lexeme ∈ first :: rest, lexeme.token = .ofText lexeme.text) :
    Grammar.lenient.Admits statement.form ∧
      statement.form.tokens = (first :: rest).map Lexeme.token := by
  cases h with
  | @print keyword name token =>
      have isName := read name (by simp)
      exact ⟨.print trivial, by simp [Statement.form, Form.tokens, token, ← isName]⟩
  | openScope token brace =>
      exact ⟨.openScope, by simp [Statement.form, Form.tokens, token, brace]⟩
  | closeScope token => exact ⟨.closeScope, by simp [Statement.form, Form.tokens, token]⟩
  | @assign _ equals operand isTarget token =>
      have isName := read first (by simp)
      have isOperand := read operand (by simp)
      rw [isName] at isTarget
      exact ⟨.assign isTarget trivial,
        by simp [Statement.form, Form.tokens, token, ← isName, ← isOperand]⟩

/-- Lexemes with the tokens of a form make up a statement of this form. -/
theorem exists_written {form : Form} (admitted : Grammar.lenient.Admits form)
    {lexemes : List Lexeme} (spelled : lexemes.map Lexeme.token = form.tokens) :
    ∃ statement first rest, lexemes = first :: rest ∧ Written statement first rest ∧
      statement.form = form := by
  cases admitted with
  | print _ =>
      simp only [Form.tokens, List.map_eq_cons_iff, List.map_eq_nil_iff] at spelled
      obtain ⟨keyword, _, rfl, isPrint, name, _, rfl, isName, rfl⟩ := spelled
      rw [← Command.text_of_token isName]
      exact ⟨.print name.text, keyword, _, rfl, .print isPrint, rfl⟩
  | openScope =>
      simp only [Form.tokens, List.map_eq_cons_iff, List.map_eq_nil_iff] at spelled
      obtain ⟨keyword, _, rfl, isScope, brace, _, rfl, isBrace, rfl⟩ := spelled
      exact ⟨.openScope, keyword, _, rfl, .openScope isScope isBrace, rfl⟩
  | closeScope =>
      simp only [Form.tokens, List.map_eq_cons_iff, List.map_eq_nil_iff] at spelled
      obtain ⟨brace, _, rfl, isBrace, rfl⟩ := spelled
      exact ⟨.closeScope brace.span, brace, _, rfl, .closeScope isBrace, rfl⟩
  | assign isTarget _ =>
      simp only [Form.tokens, List.map_eq_cons_iff, List.map_eq_nil_iff] at spelled
      obtain ⟨target, _, rfl, isName, equals, _, rfl, isEquals, operand, _, rfl, isOperand, rfl⟩ :=
        spelled
      replace isTarget : target.token.IsTarget := isName ▸ isTarget
      rw [← Command.text_of_token isName, ← Command.text_of_token isOperand]
      exact ⟨.assign target.text operand.text, target, _, rfl, .assign isTarget isEquals, rfl⟩

/-- There is only one way to take lexemes apart into statements. -/
theorem WrittenAll.unique {statements others : List Statement} {lexemes : List Lexeme}
    (h : WrittenAll statements lexemes) (h' : WrittenAll others lexemes) :
    statements = others := by
  induction h generalizing others with
  | nil =>
      cases h'
      rfl
  | @cons statement statements first rest more written _ ih =>
      generalize whole : first :: rest ++ more = lexemes at h'
      cases h' with
      | nil => cases whole
      | @cons other others _ words left writtenOther later =>
          obtain ⟨rfl, same⟩ : first = _ ∧ rest ++ more = words ++ left := List.cons.inj whole
          -- both are what is taken off the lexemes
          have taken := written.take more
          rw [same, writtenOther.take] at taken
          cases taken
          rw [ih later]

end Statement

/-- Statements are derived from the tokens that they were read from. -/
theorem derives_of_writtenAll {statements : List Statement} {lexemes : List Lexeme}
    (h : WrittenAll statements lexemes)
    (read : ∀ lexeme ∈ lexemes, lexeme.token = .ofText lexeme.text) :
    Grammar.lenient.Derives (statements.map form) (lexemes.map Lexeme.token) := by
  induction h with
  | nil => exact ⟨by simp, rfl⟩
  | @cons statement statements first rest more written _ ih =>
      obtain ⟨admitted, spelled⟩ := written.form fun l mem => read l (List.mem_append_left _ mem)
      obtain ⟨others, further⟩ := ih fun l mem => read l (List.mem_append_right _ mem)
      refine ⟨List.forall_mem_cons.2 ⟨admitted, others⟩, ?_⟩
      rw [List.map_cons, List.flatMap_cons, spelled, further, List.map_append]

/-- Lexemes whose tokens are derived are made of statements. -/
theorem exists_writtenAll {forms : List Form} {lexemes : List Lexeme}
    (h : Grammar.lenient.Derives forms (lexemes.map Lexeme.token)) :
    ∃ statements, WrittenAll statements lexemes ∧ statements.map form = forms := by
  induction forms generalizing lexemes with
  | nil =>
      have nothing : lexemes = [] := List.map_eq_nil_iff.1 h.spells.symm
      exact ⟨[], nothing ▸ .nil, rfl⟩
  | cons form forms ih =>
      obtain ⟨admitted, others⟩ := List.forall_mem_cons.1 h.admits
      obtain ⟨front, more, rfl, spelled, further⟩ := List.map_eq_append_iff.1 h.spells.symm
      obtain ⟨statement, first, rest, rfl, written, rfl⟩ := exists_written admitted spelled
      obtain ⟨statements, writtenAll, rfl⟩ := ih ⟨others, further.symm⟩
      exact ⟨statement :: statements, .cons written writtenAll, rfl⟩

theorem count_form_openScope (statements : List Statement) :
    (statements.map form).count .openScope = opened statements := by
  rw [List.count, List.countP_map]
  refine List.countP_congr fun statement _ => ?_
  cases statement <;> simp [form, opens]

theorem count_form_closeScope (statements : List Statement) :
    (statements.map form).count .closeScope = closed statements := by
  rw [List.count, List.countP_map]
  refine List.countP_congr fun statement _ => ?_
  cases statement <;> simp [form, closes]

/-- The forms of statements are paired if the statements close what they open. -/
theorem paired_form_iff (statements : List Statement) :
    Form.Paired (statements.map form) ↔
      Balanced 0 statements ∧ closed statements = 0 + opened statements := by
  constructor
  · rintro ⟨inOrder, atEnd⟩
    rw [count_form_openScope, count_form_closeScope] at atEnd
    refine ⟨?_, by omega⟩
    intro front within
    have le := inOrder _ (within.map form)
    rw [count_form_openScope, count_form_closeScope] at le
    omega
  · rintro ⟨balanced, all⟩
    refine ⟨?_, by rw [count_form_openScope, count_form_closeScope]; omega⟩
    intro front within
    obtain ⟨early, withinAll, rfl⟩ := List.prefix_map_iff.1 within
    have le := balanced early withinAll
    rw [count_form_openScope, count_form_closeScope]
    omega

/-! ## Names -/

namespace Grammar

/-- **One way.** No two lists of forms are derived from the same tokens. -/
theorem derives_unique {forms others : List Form} {lexemes : List Lexeme}
    (h : lenient.Derives forms (lexemes.map Lexeme.token))
    (h' : lenient.Derives others (lexemes.map Lexeme.token)) : forms = others := by
  obtain ⟨statements, written, rfl⟩ := exists_writtenAll h
  obtain ⟨_, writtenOther, rfl⟩ := exists_writtenAll h'
  rw [written.unique writtenOther]

theorem parse?_reserved : ∀ word ∈ reservedWords, Literal.parse? word = none := by
  decide

theorem strict_admits_iff {form : Form} :
    strict.Admits form ↔ ∀ name ∈ form.names, name ∉ reservedWords := by
  constructor
  · intro h
    cases h with
    | print isName => exact List.forall_mem_singleton.2 isName
    | openScope => exact List.forall_mem_nil _
    | closeScope => exact List.forall_mem_nil _
    | @assign target operand isName value =>
        have notReserved : operand ∉ reservedWords := by
          rcases value with literal | isName
          · exact fun reserved => literal (parse?_reserved operand reserved)
          · exact isName
        exact List.forall_mem_cons.2 ⟨isName, List.forall_mem_singleton.2 notReserved⟩
  · intro h
    cases form with
    | print name => exact .print (h name List.mem_cons_self)
    | openScope => exact .openScope
    | closeScope => exact .closeScope
    | assign target operand =>
        exact .assign (h target (by simp [Form.names])) (.inr (h operand (by simp [Form.names])))

theorem Admits.lenient {form : Form} (h : strict.Admits form) : lenient.Admits form := by
  cases h with
  | print _ => exact .print trivial
  | openScope => exact .openScope
  | closeScope => exact .closeScope
  | @assign target operand isName _ =>
      have isTarget : (Token.ofText target).IsTarget := by
        rw [Token.ofText_of_not_mem isName]
        exact ⟨nofun, nofun, nofun⟩
      exact .assign isTarget trivial

/-- **Names.** The strict grammar derives the same forms, where it derives any. -/
theorem strict_iff {forms : List Form} {lexemes : List Lexeme}
    (h : lenient.Derives forms (lexemes.map Lexeme.token)) :
    (∃ others, strict.Derives others (lexemes.map Lexeme.token)) ↔
      ∀ form ∈ forms, ∀ name ∈ form.names, name ∉ reservedWords := by
  constructor
  · rintro ⟨others, admitted, spelled⟩
    have same := derives_unique h ⟨fun form mem => (admitted form mem).lenient, spelled⟩
    intro form mem
    exact strict_admits_iff.1 (admitted form (same ▸ mem))
  · intro names
    exact ⟨forms, fun form mem => strict_admits_iff.2 (names form mem), h.spells⟩

end Grammar

/-! ## Evaluation -/

theorem evaluate_ok_iff_result (source : String) :
    (∃ lines, (evaluate source).1 = .ok lines) ↔
      (course (lexemes source) Memory.empty.openScope).result = .ok () := by
  rw [evaluate_eq]
  cases (course (lexemes source) Memory.empty.openScope).result with
  | ok => exact ⟨fun _ => rfl, fun _ => ⟨_, rfl⟩⟩
  | error fault => exact ⟨nofun, nofun⟩

/-- What is evaluated without a fault is derived from the lenient grammar. -/
theorem derives_of_evaluate_ok {source : String} {lines : List String}
    (h : (evaluate source).1 = .ok lines) :
    ∃ forms, Grammar.lenient.Derives forms (tokens source) ∧ Form.Paired forms := by
  obtain ⟨result, verdict⟩ := exists_verdict 0 (lexemes source)
  have ends : (course (lexemes source) Memory.empty.openScope).result = result :=
    result_of_verdict verdict rfl
  rw [(evaluate_ok_iff_result source).1 ⟨lines, h⟩] at ends
  subst ends
  cases verdict with
  | @ok statements written balanced all =>
      refine ⟨statements.map form, derives_of_writtenAll written ?_, ?_⟩
      · exact fun lexeme mem => Cursor.token_of_mem_lexemes mem
      · exact (paired_form_iff statements).2 ⟨balanced, all⟩

/-- What the lenient grammar derives is evaluated without a fault, if the scopes are
closed. -/
theorem evaluate_ok_of_derives {source : String} {forms : List Form}
    (h : Grammar.lenient.Derives forms (tokens source)) (paired : Form.Paired forms) :
    ∃ lines, (evaluate source).1 = .ok lines := by
  obtain ⟨statements, written, rfl⟩ := exists_writtenAll h
  obtain ⟨balanced, all⟩ := (paired_form_iff statements).1 paired
  exact (evaluate_ok_iff_result source).2 (result_of_verdict (.ok written balanced all) rfl)

/-- **Grammar.** The sources that are evaluated without a fault are those that the
lenient grammar derives and whose scopes are closed.  Of all that the lenient grammar
derives, the strict one derives what has no reserved word for a name. -/
theorem evaluate_ok_iff_derives (source : String) :
    ((∃ lines, (evaluate source).1 = .ok lines) ↔
        ∃ forms, Grammar.lenient.Derives forms (tokens source) ∧ Form.Paired forms) ∧
      ∀ forms, Grammar.lenient.Derives forms (tokens source) →
        ((∃ others, Grammar.strict.Derives others (tokens source)) ↔
          ∀ form ∈ forms, ∀ name ∈ form.names, name ∉ reservedWords) := by
  refine ⟨⟨?_, ?_⟩, fun forms => Grammar.strict_iff⟩
  · rintro ⟨lines, succeeded⟩
    exact derives_of_evaluate_ok succeeded
  · rintro ⟨forms, derived, paired⟩
    exact evaluate_ok_of_derives derived paired

/-- A statement with a place for a name opens and closes no scope. -/
theorem Form.paired_of_names {form : Form} {name : String} (mem : name ∈ form.names) :
    Paired [form] := by
  have noOpen : .openScope ∉ [form] := by
    intro opens
    rw [← List.mem_singleton.1 opens] at mem
    exact absurd mem List.not_mem_nil
  have noClose : .closeScope ∉ [form] := by
    intro closes
    rw [← List.mem_singleton.1 closes] at mem
    exact absurd mem List.not_mem_nil
  refine ⟨?_, ?_⟩
  · intro front within
    rw [List.count_eq_zero_of_not_mem fun closes => noClose (within.subset closes)]
    exact Nat.zero_le _
  · rw [List.count_eq_zero_of_not_mem noOpen, List.count_eq_zero_of_not_mem noClose]

/-- A source that lays out the words of one form. -/
theorem derives_of_layout {source : String} {words : List String} {form : Form}
    (admitted : Grammar.lenient.Admits form) (layout : Text.Layout words source.toList)
    (spelled : form.tokens = words.map Token.ofText) :
    Grammar.lenient.Derives [form] (tokens source) := by
  refine ⟨List.forall_mem_singleton.2 admitted, ?_⟩
  rw [List.flatMap_singleton, spelled]
  exact (spelled_lexemes layout).symm

/-- One statement with a reserved word for a name is no sentence of the strict grammar,
and yet it is carried out. -/
theorem evaluate_ok_of_reserved {source : String} {form : Form} {name : String}
    (h : Grammar.lenient.Derives [form] (tokens source)) (mem : name ∈ form.names)
    (reserved : name ∈ reservedWords) :
    (∃ lines, (evaluate source).1 = .ok lines) ∧
      ¬ ∃ forms, Grammar.strict.Derives forms (tokens source) := by
  refine ⟨evaluate_ok_of_derives h (Form.paired_of_names mem), ?_⟩
  intro derived
  exact (Grammar.strict_iff h).1 derived form List.mem_cons_self name mem reserved

/-- In each of the three places for names a reserved word is accepted. -/
theorem reserved_names_accepted :
    ((∃ lines, (evaluate "print \x7d").1 = .ok lines) ∧
        ¬ ∃ forms, Grammar.strict.Derives forms (tokens "print \x7d")) ∧
      ((∃ lines, (evaluate "\x7b = 1").1 = .ok lines) ∧
        ¬ ∃ forms, Grammar.strict.Derives forms (tokens "\x7b = 1")) ∧
      ((∃ lines, (evaluate "x = \x7d").1 = .ok lines) ∧
        ¬ ∃ forms, Grammar.strict.Derives forms (tokens "x = \x7d")) := by
  have printed : Grammar.lenient.Derives [.print "\x7d"] (tokens "print \x7d") :=
    derives_of_layout (.print trivial) (by decide : Text.Layout ["print", "\x7d"] _) rfl
  have assigned : Grammar.lenient.Derives [.assign "\x7b" "1"] (tokens "\x7b = 1") :=
    derives_of_layout (.assign ⟨by decide, by decide, by decide⟩ trivial)
      (by decide : Text.Layout ["\x7b", "=", "1"] _) rfl
  have copied : Grammar.lenient.Derives [.assign "x" "\x7d"] (tokens "x = \x7d") :=
    derives_of_layout (.assign ⟨by decide, by decide, by decide⟩ trivial)
      (by decide : Text.Layout ["x", "=", "\x7d"] _) rfl
  exact ⟨evaluate_ok_of_reserved printed (by decide) (by decide : "\x7d" ∈ reservedWords),
    evaluate_ok_of_reserved assigned (by decide) (by decide : "\x7b" ∈ reservedWords),
    evaluate_ok_of_reserved copied (by decide) (by decide : "\x7d" ∈ reservedWords)⟩

end ScopeLang
