import ScopeLang.Token.Cursor

/-!
# Layouts of words

A text is a layout of some words if it holds them in order, with at least one
blank between any two of them and any blanks around them.

* **Existence**: every text is a layout of some words (`exists_layout`), so a
  fact about all texts can be shown by induction on their layouts.
* **Pieces**: the words of a layout are the non-empty pieces between its blanks
  (`layout_iff_pieces`), so layouts can be decided.
* **Reading**: a cursor at a layout delivers its words
  (`Cursor.lexemes_of_gap`, `Cursor.lexemes_of_word`), so the words of a text
  are unique (`layout_iff_lexemes`) and do not depend on the blanks.
-/

namespace ScopeLang

namespace Text

/-- A run of blanks, possibly empty. -/
def IsGap (gap : List Char) : Prop :=
  ∀ c ∈ gap, isBlank c = true

theorem IsGap.not_mem {gap : List Char} (h : IsGap gap) {c : Char} (notBlank : isBlank c = false) :
    c ∉ gap := by
  intro mem
  have blank := h c mem
  rw [notBlank] at blank
  exact Bool.false_ne_true blank

theorem IsWord.byteSize_pos {word : List Char} (h : IsWord word) : 0 < byteSize word := by
  apply Nat.pos_of_ne_zero
  intro zero
  exact h.1 (byteSize_eq_zero_iff.1 zero)

/-- A text that does not go on with the word before it: it is empty or begins
with a blank. -/
def EndsWord (text : List Char) : Prop :=
  ∀ c ∈ text.head?, isBlank c = true

/-- `Layout words text`: the text consists of the words, in order, and blanks. -/
inductive Layout : List String → List Char → Prop
  | gap {gap : List Char} : IsGap gap → Layout [] gap
  | word {lead : List Char} {word : String} {words : List String} {rest : List Char} :
      IsGap lead → IsWord word.toList → EndsWord rest → Layout words rest →
      Layout (word :: words) (lead ++ (word.toList ++ rest))

theorem not_endsWord_word {word rest : List Char} (h : IsWord word) : ¬ EndsWord (word ++ rest) := by
  obtain ⟨nonempty, noBlank⟩ := h
  intro ends
  cases word with
  | nil => exact absurd rfl nonempty
  | cons c cs =>
      have blank : isBlank c = true := ends c (by simp)
      rw [noBlank c List.mem_cons_self] at blank
      exact Bool.false_ne_true blank

theorem endsWord_dropWhile (text : List Char) : EndsWord (text.dropWhile (!isBlank ·)) := by
  intro c head
  have stopped := List.head?_dropWhile_not (!isBlank ·) text
  rw [Option.mem_def.1 head] at stopped
  simpa using stopped

theorem isGap_takeWhile (text : List Char) : IsGap (text.takeWhile isBlank) :=
  List.all_eq_true.1 List.all_takeWhile

/-- A text that is not blank throughout has a first word. -/
theorem exists_first_word {text : List Char} (h : ¬ IsGap text) :
    ∃ (lead : List Char) (word : String) (rest : List Char),
      IsGap lead ∧ IsWord word.toList ∧ EndsWord rest ∧ text = lead ++ (word.toList ++ rest) := by
  cases after : text.dropWhile isBlank with
  | nil =>
      have whole := List.takeWhile_append_dropWhile (p := isBlank) (l := text)
      rw [after, List.append_nil] at whole
      exact absurd (whole ▸ isGap_takeWhile text) h
  | cons c cs =>
      have notBlank : isBlank c = false := by
        have stopped := List.head?_dropWhile_not isBlank text
        rw [after] at stopped
        simpa using stopped
      refine ⟨text.takeWhile isBlank, String.ofList ((c :: cs).takeWhile (!isBlank ·)),
        (c :: cs).dropWhile (!isBlank ·), isGap_takeWhile text, ⟨?_, ?_⟩,
        endsWord_dropWhile (c :: cs), ?_⟩
      · simp [notBlank]
      · intro d mem
        rw [String.toList_ofList] at mem
        simpa using List.all_eq_true.1 (List.all_takeWhile (p := (!isBlank ·))) d mem
      · rw [String.toList_ofList, List.takeWhile_append_dropWhile, ← after,
          List.takeWhile_append_dropWhile]

/-- Every text is a layout of some words. -/
theorem exists_layout (text : List Char) : ∃ words, Layout words text := by
  by_cases blank : IsGap text
  · exact ⟨[], .gap blank⟩
  · obtain ⟨lead, word, rest, hlead, hword, hrest, rfl⟩ := exists_first_word blank
    -- the recursion is on what stands behind the first word
    have shorter : rest.length < (lead ++ (word.toList ++ rest)).length := by
      have := List.length_pos_iff.2 hword.1
      simp only [List.length_append]
      omega
    obtain ⟨words, hwords⟩ := exists_layout rest
    exact ⟨word :: words, .word hlead hword hrest hwords⟩
termination_by text.length

/-! ## The pieces between blanks -/

/-- The non-empty pieces of a text between its blanks. -/
def pieces (text : List Char) : List (List Char) :=
  (text.splitOnP isBlank).filter fun piece => !piece.isEmpty

theorem pieces_cons_blank {c : Char} (h : isBlank c = true) (text : List Char) :
    pieces (c :: text) = pieces text := by
  unfold pieces
  rw [List.splitOnP_cons_eq_if_modifyHead, if_pos h]
  rfl

theorem pieces_gap_append {gap : List Char} (h : IsGap gap) (text : List Char) :
    pieces (gap ++ text) = pieces text := by
  induction gap with
  | nil => rfl
  | cons c cs ih =>
      rw [List.cons_append, pieces_cons_blank (h c List.mem_cons_self)]
      exact ih fun d mem => h d (List.mem_cons_of_mem _ mem)

theorem pieces_word_append {word rest : List Char} (hword : IsWord word)
    (hrest : EndsWord rest) : pieces (word ++ rest) = word :: pieces rest := by
  have kept : word.isEmpty = false := by simpa using hword.1
  cases rest with
  | nil =>
      unfold pieces
      rw [List.append_nil, List.splitOnP_eq_singleton hword.2]
      simp [kept]
  | cons c cs =>
      have blank : isBlank c = true := hrest c (by simp)
      rw [pieces_cons_blank blank]
      unfold pieces
      rw [List.splitOnP_append_cons_of_forall_mem hword.2 c blank]
      simp [kept]

theorem Layout.words_eq_pieces {words : List String} {text : List Char}
    (h : Layout words text) : words.map String.toList = pieces text := by
  induction h with
  | @gap gap hgap =>
      have passed := pieces_gap_append hgap []
      rw [List.append_nil] at passed
      rw [passed]
      rfl
  | word hlead hword hrest _ ih =>
      rw [pieces_gap_append hlead, pieces_word_append hword hrest, List.map_cons, ih]

/-- The words of a layout are the pieces between its blanks. -/
theorem layout_iff_pieces {words : List String} {text : List Char} :
    Layout words text ↔ words.map String.toList = pieces text := by
  constructor
  · exact Layout.words_eq_pieces
  · intro same
    obtain ⟨others, layout⟩ := exists_layout text
    rw [← layout.words_eq_pieces] at same
    rw [List.map_inj_right (fun _ _ => String.toList_injective) |>.1 same]
    exact layout

instance (words : List String) (text : List Char) : Decidable (Layout words text) :=
  decidable_of_iff _ layout_iff_pieces.symm

end Text

/-- The lexeme of a word that starts at a byte. -/
def Lexeme.ofWord (word : String) (start : Nat) : Lexeme where
  token := .ofText word
  span := { start := start, stop := start + Text.byteSize word.toList }

@[simp] theorem Lexeme.text_ofWord (word : String) (start : Nat) :
    (Lexeme.ofWord word start).text = word :=
  Token.text_ofText word

namespace Cursor

open Text

/-! ## What one read does -/

/-- Blanks in front are passed over. -/
theorem next_gap_append {gap : List Char} (h : IsGap gap) (text : List Char) (offset : Nat) :
    next ⟨gap ++ text, offset⟩ = next ⟨text, offset + byteSize gap⟩ := by
  have skipped : skipBlanks ⟨gap ++ text, offset⟩ = skipBlanks ⟨text, offset + byteSize gap⟩ := by
    simp only [skipBlanks, List.dropWhile_append_of_pos h, List.takeWhile_append_of_pos h,
      byteSize_append, Nat.add_assoc]
  unfold next
  rw [skipped]

theorem next_of_gap {gap : List Char} (h : IsGap gap) (offset : Nat) :
    next ⟨gap, offset⟩ = (none, ⟨[], offset + byteSize gap⟩) := by
  have passed := next_gap_append h [] offset
  rw [List.append_nil] at passed
  rw [passed]
  exact next_of_rest_nil rfl

theorem next_of_word {word : String} {rest : List Char} (hword : IsWord word.toList)
    (hrest : EndsWord rest) (offset : Nat) :
    next ⟨word.toList ++ rest, offset⟩ =
      (some (.ofWord word offset), ⟨rest, offset + byteSize word.toList⟩) := by
  have inside : ∀ c ∈ word.toList, (!isBlank c) = true := by
    intro c mem
    rw [hword.2 c mem]
    rfl
  have outside : rest.takeWhile (!isBlank ·) = [] ∧ rest.dropWhile (!isBlank ·) = rest := by
    cases rest with
    | nil => exact ⟨rfl, rfl⟩
    | cons c cs =>
        have blank : isBlank c = true := hrest c (by simp)
        simp [blank]
  have taken : (word.toList ++ rest).takeWhile (!isBlank ·) = word.toList := by
    rw [List.takeWhile_append_of_pos inside, outside.1, List.append_nil]
  have dropped : (word.toList ++ rest).dropWhile (!isBlank ·) = rest := by
    rw [List.dropWhile_append_of_pos inside, outside.2]
  -- the first character of the word stops the search for blanks
  have atWord : skipBlanks ⟨word.toList ++ rest, offset⟩ = ⟨word.toList ++ rest, offset⟩ := by
    cases chars : word.toList with
    | nil => exact absurd chars hword.1
    | cons c cs =>
        have notBlank : isBlank c = false := hword.2 c (by rw [chars]; exact List.mem_cons_self)
        simp [skipBlanks, notBlank]
  unfold next
  simp only [atWord, skipWord, taken, dropped]
  split
  · next none => exact absurd none hword.1
  · simp [Lexeme.ofWord]

/-! ## The lexemes of a layout -/

theorem lexemes_of_next_eq {cursor other : Cursor} (h : cursor.next = other.next) :
    cursor.lexemes = other.lexemes := by
  cases read : other.next with
  | mk lexeme? after =>
      cases lexeme? with
      | none => rw [lexemes_of_next_none (h.trans read), lexemes_of_next_none read]
      | some lexeme => rw [lexemes_of_next_some (h.trans read), lexemes_of_next_some read]

theorem lexemes_of_gap {gap : List Char} (h : IsGap gap) (offset : Nat) :
    lexemes ⟨gap, offset⟩ = [] :=
  lexemes_of_next_none (next_of_gap h offset)

theorem lexemes_of_word {lead rest : List Char} {word : String} (hlead : IsGap lead)
    (hword : IsWord word.toList) (hrest : EndsWord rest) (offset : Nat) :
    lexemes ⟨lead ++ (word.toList ++ rest), offset⟩ =
      .ofWord word (offset + byteSize lead) ::
        lexemes ⟨rest, offset + byteSize lead + byteSize word.toList⟩ := by
  rw [lexemes_of_next_eq (next_gap_append hlead _ offset)]
  exact lexemes_of_next_some (next_of_word hword hrest _)

/-- A cursor at a layout delivers its words. -/
theorem text_lexemes {words : List String} {text : List Char} (h : Layout words text)
    (offset : Nat) : (lexemes ⟨text, offset⟩).map Lexeme.text = words := by
  induction h generalizing offset with
  | gap hgap => rw [lexemes_of_gap hgap, List.map_nil]
  | word hlead hword hrest _ ih =>
      rw [lexemes_of_word hlead hword hrest, List.map_cons, ih, Lexeme.text_ofWord]

/-- A lexeme that a cursor delivers has the token of its text. -/
theorem token_of_mem_lexemes {cursor : Cursor} {lexeme : Lexeme} (h : lexeme ∈ cursor.lexemes) :
    lexeme.token = .ofText lexeme.text := by
  obtain ⟨text, offset⟩ := cursor
  obtain ⟨words, layout⟩ := exists_layout text
  induction layout generalizing offset with
  | gap hgap =>
      rw [lexemes_of_gap hgap] at h
      exact absurd h List.not_mem_nil
  | word hlead hword hrest _ ih =>
      rw [lexemes_of_word hlead hword hrest] at h
      rcases List.mem_cons.1 h with rfl | later
      · rw [Lexeme.text_ofWord]
        rfl
      · exact ih _ later

end Cursor

/-- A source is a layout of exactly the words that are read from it. -/
theorem layout_iff_lexemes {words : List String} {source : String} :
    Text.Layout words source.toList ↔ (lexemes source).map Lexeme.text = words := by
  constructor
  · intro layout
    exact Cursor.text_lexemes layout 0
  · intro read
    obtain ⟨others, layout⟩ := Text.exists_layout source.toList
    have same : (lexemes source).map Lexeme.text = others := Cursor.text_lexemes layout 0
    rw [← read, same]
    exact layout

end ScopeLang
