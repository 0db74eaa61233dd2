import ScopeLang.Proofs.Excerpts
import ScopeLang.Proofs.Lexing
import ScopeLang.Proofs.Verdict

/-!
# The word that is to blame

A run fails at a word of its source or at the end of it.

* **Blame**: a fault with a span has the span of a word of the source, and a
  word that the fault can be about (`Session.fault_blames`).
* **Marking**: such a fault is shown with the line of the word, and the carets
  stand below the word and below nothing else (`Fault.marked_of_mem`).

Both hold in every text because no word holds a blank: a line end would stop
it, so that it lies within one line and is not trimmed with the line's end.
-/

namespace ScopeLang

open Text Statement

/-- What the word of a fault can be. -/
def Fault.Kind.Blames : Fault.Kind → String → Prop
  | .missingBrace, word => word ≠ "\x7b"
  | .missingEquals, word => word ≠ "="
  | .strayBrace, word => word = "\x7d"
  | .endOfInput, _ => False
  | .unclosedScope, _ => False

/-! ## Which word is to blame -/

theorem Session.verdict_run (session : Session) :
    Verdict session.memory.depth session.cursor.lexemes session.run.1.result := by
  obtain ⟨result, verdict⟩ := exists_verdict session.memory.depth session.cursor.lexemes
  rw [session.run_report rfl]
  show Verdict _ _ (course session.cursor.lexemes session.memory.openScope).result
  rw [result_of_verdict verdict (Memory.depth_openScope session.memory)]
  exact verdict

theorem Lexeme.text_ne {lexeme : Lexeme} (read : lexeme.token = .ofText lexeme.text)
    {word : String} (other : lexeme.token ≠ .ofText word) : lexeme.text ≠ word := by
  rintro rfl
  exact other read

theorem Statement.Fails.exists_blamed {used available : Nat} {lexemes : List Lexeme} {fault : Fault}
    (h : Fails used available lexemes fault) (read : ∀ l ∈ lexemes, l.token = .ofText l.text) :
    fault = .endOfInput ∨
      ∃ kind, ∃ l ∈ lexemes, fault = .atSpan kind l.span ∧ kind.Blames l.text := by
  cases h with
  | @strayBrace brace rest token _ =>
      refine .inr ⟨.strayBrace, brace, List.mem_cons_self, rfl, ?_⟩
      show brace.token.text = "\x7d"
      rw [token]
      rfl
  | @missingBrace keyword other rest _ token =>
      have mem : other ∈ keyword :: other :: rest := by simp
      exact .inr ⟨.missingBrace, other, mem, rfl, Lexeme.text_ne (read other mem) token⟩
  | @missingEquals target other rest _ token =>
      have mem : other ∈ target :: other :: rest := by simp
      exact .inr ⟨.missingEquals, other, mem, rfl, Lexeme.text_ne (read other mem) token⟩
  | endOfInput _ => exact .inl rfl

/-- A run fails at the end of its lexemes or at one of them. -/
theorem Session.fault_blames {session : Session} {fault : Fault}
    (failed : session.run.1.result = .error fault) :
    (fault = .endOfInput ∨ fault = .unclosedScope) ∨
      ∃ kind, ∃ l ∈ session.cursor.lexemes, fault = .atSpan kind l.span ∧ kind.Blames l.text := by
  have verdict := session.verdict_run
  rw [failed] at verdict
  cases verdict with
  | @fault statements done rest _ whole _ _ fails =>
      have within : ∀ l ∈ rest, l ∈ session.cursor.lexemes := by
        intro l mem
        rw [whole]
        exact List.mem_append_right _ mem
      rcases fails.exists_blamed fun l mem => Cursor.token_of_mem_lexemes (within l mem) with
        atEnd | ⟨kind, l, mem, blamed⟩
      · exact .inl (.inl atEnd)
      · exact .inr ⟨kind, l, within l mem, blamed⟩
  | unclosed _ _ _ => exact .inl (.inr rfl)

/-! ## How it is shown -/

/-- The line around a word holds the word, and no line end. -/
theorem Text.exists_line_around {word : List Char} (h : IsWord word) (before after : List Char) :
    ∃ tail, trimLineEnd (lineStart before ++ lineRest (word ++ after)) =
        lineStart before ++ (word ++ tail) ∧
      '\n' ∉ lineStart before ++ (word ++ tail) := by
  have noFeed : '\n' ∉ word := by
    intro mem
    have blank := h.2 _ mem
    rw [isBlank_newline] at blank
    exact Bool.false_ne_true blank.symm
  -- the last character in front of the tail is one of the word, which a line end is not
  have last : ∀ c ∈ (lineStart before ++ word).getLast?, c ≠ '\r' ∧ c ≠ '\n' := by
    intro c mem
    rw [List.getLast?_append, List.getLast?_eq_some_getLast h.1, Option.some_or] at mem
    have notBlank := h.2 c (Option.mem_some.1 mem ▸ List.getLast_mem h.1)
    constructor <;> rintro rfl <;> exact absurd notBlank (by decide)
  refine ⟨trimLineEnd (lineRest after), ?_, ?_⟩
  · rw [lineRest_append noFeed, ← List.append_assoc, trimLineEnd_append _ last, List.append_assoc]
  · simp only [List.mem_append, not_or]
    refine ⟨not_mem_lineStart before, noFeed, ?_⟩
    intro mem
    exact not_mem_lineRest after (mem_of_mem_trimLineEnd mem)

namespace Fault

/-- A fault is shown with the line `text` of the source, and with carets below
the lexeme, which starts in the given column behind the text `before`. -/
structure Marked (source : String) (fault : Fault) (lexeme : Lexeme) (before : List Char)
    (column : Nat) (text : String) : Prop where
  place : ∃ after, source.toList = before ++ (lexeme.text.toList ++ after)
  start : lexeme.span.start = byteSize before
  column_eq : column = (lineStart before).length + 1
  shown : fault.render source = .ok (fault.message ++
    " (line " ++ toString (before.count '\n' + 1) ++ ", column " ++ toString column ++ ")\n" ++
    text ++ "\n" ++
    String.ofList (List.replicate (column - 1) ' ') ++
    String.ofList (List.replicate lexeme.text.length '^'))
  oneLine : '\n' ∉ text.toList
  /-- What stands above the carets is the lexeme. -/
  above : (text.toList.drop (column - 1)).take lexeme.text.length = lexeme.text.toList

/-- **Marking.** A fault at a lexeme of a source is shown with carets below it. -/
theorem marked_of_mem {source : String} {lexeme : Lexeme} (h : lexeme ∈ lexemes source)
    (kind : Kind) :
    ∃ before column text, (atSpan kind lexeme.span).Marked source lexeme before column text := by
  obtain ⟨before, after, whole, isWord, start, stop⟩ := Cursor.exists_place h
  rw [Nat.zero_add] at start
  rw [start] at stop
  have span : lexeme.span =
      { start := byteSize before, stop := byteSize before + byteSize lexeme.text.toList } := by
    rw [← stop, ← start]
  have more : lexeme.text.toList ++ after ≠ [] := by simp [isWord.1]
  obtain ⟨tail, line, oneLine⟩ := exists_line_around isWord before after
  refine ⟨before, (lineStart before).length + 1,
    String.ofList (lineStart before ++ (lexeme.text.toList ++ tail)), ⟨after, whole⟩, start, rfl,
    ?_, ?_, ?_⟩
  · unfold render
    simp only [atSpan, span]
    rw [Span.excerpt_of_append whole more, Span.width_of_append whole isWord.1]
    show Except.ok (mark _ _ _) = _
    unfold mark Span.excerptOf
    rw [line]
    rfl
  · rw [String.toList_ofList]
    exact oneLine
  · rw [String.toList_ofList, Nat.add_sub_cancel, List.drop_left]
    exact List.take_left

end Fault

namespace Session

/-- **Located faults.** A run that fails, after any requests, fails at the end of
the source and shows its bare message, or it fails at a lexeme of the source
that is to blame, and shows the line of that lexeme with the lexeme marked. -/
theorem run_fault_located (source : String) (requests : List Request) (fault : Fault)
    (failed : (after source requests).run.1.result = .error fault) :
    (fault.span = none ∧ (fault.kind = .endOfInput ∨ fault.kind = .unclosedScope) ∧
        fault.render source = .ok fault.message) ∨
      ∃ lexeme ∈ lexemes source, fault.span = some lexeme.span ∧
        fault.kind.Blames lexeme.text ∧
        ∃ before column text, fault.Marked source lexeme before column text := by
  rcases fault_blames failed with (rfl | rfl) | ⟨kind, lexeme, mem, rfl, blames⟩
  · exact .inl ⟨rfl, .inl rfl, rfl⟩
  · exact .inl ⟨rfl, .inr rfl, rfl⟩
  · have inSource := (lexemes_suffix source requests).subset mem
    exact .inr ⟨lexeme, inSource, rfl, blames, Fault.marked_of_mem inSource kind⟩

/-- A word behind wide blanks and letters, on a line that ends in a carriage
return. -/
theorem run_fault_located_wide :
    (after "x = ä\r\n\u3000öö é z\r\n" []).run.1.result =
        .error (.atSpan .missingEquals { start := 16, stop := 18 }) ∧
      ∃ lexeme ∈ lexemes "x = ä\r\n\u3000öö é z\r\n",
        some { start := 16, stop := 18 } = some lexeme.span ∧ lexeme.text ≠ "=" ∧
        ∃ before column text,
          (Fault.atSpan .missingEquals { start := 16, stop := 18 }).Marked
            "x = ä\r\n\u3000öö é z\r\n" lexeme before column text := by
  have failed : (after "x = ä\r\n\u3000öö é z\r\n" []).run.1.result =
      .error (.atSpan .missingEquals { start := 16, stop := 18 }) := by
    rw [run_result]
    -- the first statement assigns nothing, the second one fails
    exact congrArg verdict ((execute_of_step_ok rfl rfl).trans
      (congrArg (Execution.after _) (execute_of_step_error rfl rfl)))
  refine ⟨failed, (run_fault_located _ [] _ failed).resolve_left ?_⟩
  rintro ⟨noSpan, -⟩
  cases noSpan

end Session

end ScopeLang
