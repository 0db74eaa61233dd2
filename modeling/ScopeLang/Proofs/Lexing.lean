import ScopeLang.Proofs.Layout

/-!
# Exact lexing

The lexemes of a source are the maximal runs of non-blank characters, each
with the bytes that it takes up.

* **Words**: the texts of the lexemes are the non-empty pieces between blanks
  (`Text.layout_iff_pieces`).
* **Places**: every lexeme stands where its span says (`Cursor.exists_place`),
  spans follow each other with a gap between them (`Cursor.pairwise_bounds`),
  and no other character than a blank lies outside (`Cursor.exists_cover`).
* **Reads**: every read starts and stops between two characters
  (`Cursor.Within.next`), and the `n`-th read delivers the `n`-th lexeme
  (`Cursor.next_afterReads`).
-/

namespace ScopeLang

namespace Text

/-! ## Bytes of a source -/

/-- A byte offset that does not lie inside a character. -/
def IsBoundary (source : String) (offset : Nat) : Prop :=
  (String.Pos.Raw.mk offset).IsValid source

theorem isBoundary_of_append {source : String} {before after : List Char}
    (h : source.toList = before ++ after) : IsBoundary source (byteSize before) := by
  refine String.Pos.Raw.isValid_iff_exists_append.2
    ⟨String.ofList before, String.ofList after, ?_, ?_⟩
  · rw [← String.ofList_append, ← h, String.ofList_toList]
  · have size := byteSize_toList (String.ofList before)
    rw [String.toList_ofList] at size
    rw [size]
    rfl

theorem size_toByteArray_ofList (cs : List Char) :
    (String.ofList cs).toByteArray.size = byteSize cs := by
  rw [String.size_toByteArray, ← byteSize_toList, String.toList_ofList]

/-- The bytes of a part of a source are those between the part's ends. -/
theorem extract_toByteArray {source : String} {before part after : List Char}
    (h : source.toList = before ++ (part ++ after)) :
    source.toByteArray.extract (byteSize before) (byteSize before + byteSize part) =
      (String.ofList part).toByteArray := by
  have whole : source = String.ofList before ++ (String.ofList part ++ String.ofList after) := by
    rw [← String.ofList_append, ← String.ofList_append, ← h, String.ofList_toList]
  have first := size_toByteArray_ofList before
  have second := size_toByteArray_ofList part
  rw [whole, String.toByteArray_append, String.toByteArray_append]
  rw [← Nat.add_zero (byteSize before), Nat.add_assoc, Nat.zero_add,
    ByteArray.extract_append_size_add' first.symm]
  exact ByteArray.extract_append_eq_left second.symm

/-- A character of two texts in a row stands in the first or in the second. -/
theorem cons_of_append_eq {first second before after : List Char} {c : Char}
    (h : first ++ second = before ++ c :: after) :
    (∃ behind, first = before ++ c :: behind) ∨
      ∃ between, before = first ++ between ∧ second = between ++ c :: after := by
  rcases List.append_eq_append_iff.1 h with ⟨between, rfl, rfl⟩ | ⟨behind, rfl, hsecond⟩
  · exact .inr ⟨between, rfl, rfl⟩
  · cases behind with
    | nil => exact .inr ⟨[], by simp, hsecond.symm⟩
    | cons d ds =>
        obtain ⟨rfl, -⟩ := List.cons.inj hsecond
        exact .inl ⟨ds, rfl⟩

end Text

open Text

namespace Cursor

/-! ## The place of a lexeme -/

/-- A lexeme is a word of the text, and its span says where it stands. -/
theorem exists_place {text : List Char} {offset : Nat} {lexeme : Lexeme}
    (h : lexeme ∈ lexemes ⟨text, offset⟩) :
    ∃ before after, text = before ++ (lexeme.text.toList ++ after) ∧
      IsWord lexeme.text.toList ∧ lexeme.span.start = offset + byteSize before ∧
      lexeme.span.stop = lexeme.span.start + byteSize lexeme.text.toList := by
  obtain ⟨words, layout⟩ := exists_layout text
  induction layout generalizing offset with
  | gap hgap =>
      rw [lexemes_of_gap hgap] at h
      exact absurd h List.not_mem_nil
  | @word lead word _ rest hlead hword hrest _ ih =>
      rw [lexemes_of_word hlead hword hrest] at h
      rcases List.mem_cons.1 h with rfl | later
      · rw [Lexeme.text_ofWord]
        exact ⟨lead, rest, rfl, hword, rfl, rfl⟩
      · obtain ⟨before, after, whole, isWord, start, stop⟩ := ih later
        refine ⟨lead ++ (word.toList ++ before), after, ?_, isWord, ?_, stop⟩
        · rw [whole, List.append_assoc, List.append_assoc]
        · rw [start, byteSize_append, byteSize_append]
          omega

theorem bounds_of_mem {text : List Char} {offset : Nat} {lexeme : Lexeme}
    (h : lexeme ∈ lexemes ⟨text, offset⟩) :
    offset ≤ lexeme.span.start ∧ lexeme.span.start < lexeme.span.stop ∧
      lexeme.span.stop ≤ offset + byteSize text := by
  obtain ⟨before, after, whole, isWord, start, stop⟩ := exists_place h
  have size := isWord.byteSize_pos
  rw [stop, start, whole, byteSize_append, byteSize_append]
  omega

/-- Behind a word, the next lexeme does not start at once. -/
theorem offset_lt_start {text : List Char} {offset : Nat} {lexeme : Lexeme}
    (ends : EndsWord text) (h : lexeme ∈ lexemes ⟨text, offset⟩) :
    offset < lexeme.span.start := by
  obtain ⟨before, after, whole, isWord, start, -⟩ := exists_place h
  have moved : byteSize before ≠ 0 := by
    intro zero
    rw [byteSize_eq_zero_iff.1 zero, List.nil_append] at whole
    exact not_endsWord_word isWord (whole ▸ ends)
  omega

/-- The starts and stops of the lexemes increase from one to the next. -/
theorem pairwise_bounds (text : List Char) (offset : Nat) :
    ((lexemes ⟨text, offset⟩).flatMap fun l => [l.span.start, l.span.stop]).Pairwise
      (· < ·) := by
  obtain ⟨words, layout⟩ := exists_layout text
  induction layout generalizing offset with
  | gap hgap =>
      rw [lexemes_of_gap hgap]
      exact .nil
  | @word lead word _ rest hlead hword hrest _ ih =>
      rw [lexemes_of_word hlead hword hrest, List.flatMap_cons]
      have size := hword.byteSize_pos
      -- no bound behind the word lies at its end: a blank stands there, or nothing
      have later : ∀ bound ∈ (lexemes ⟨rest, offset + byteSize lead + byteSize word.toList⟩).flatMap
          (fun l => [l.span.start, l.span.stop]),
          offset + byteSize lead + byteSize word.toList < bound := by
        intro bound mem
        obtain ⟨l, hl, hbound⟩ := List.mem_flatMap.1 mem
        have start := offset_lt_start hrest hl
        have stop := (bounds_of_mem hl).2.1
        simp only [List.mem_cons, List.not_mem_nil, or_false] at hbound
        rcases hbound with rfl | rfl <;> omega
      refine List.pairwise_cons.2 ⟨?_, List.pairwise_cons.2 ⟨later, ih _⟩⟩
      intro bound mem
      show offset + byteSize lead < bound
      rcases List.mem_cons.1 mem with rfl | mem
      · show offset + byteSize lead < offset + byteSize lead + byteSize word.toList
        omega
      · have := later bound mem
        omega

/-- A character that is not blank lies in the span of a lexeme. -/
theorem exists_cover {text before after : List Char} {c : Char} (offset : Nat)
    (h : text = before ++ c :: after) (notBlank : isBlank c = false) :
    ∃ l ∈ lexemes ⟨text, offset⟩, l.span.start ≤ offset + byteSize before ∧
      offset + byteSize before < l.span.stop := by
  obtain ⟨words, layout⟩ := exists_layout text
  induction layout generalizing offset before with
  | @gap gap hgap =>
      have inGap : c ∈ gap := by
        rw [h]
        exact List.mem_append_right _ List.mem_cons_self
      exact absurd inGap (hgap.not_mem notBlank)
  | @word lead word _ rest hlead hword hrest _ ih =>
      rw [lexemes_of_word hlead hword hrest]
      -- the character stands in the blanks in front, in the word, or behind it
      rcases cons_of_append_eq h with ⟨behind, inLead⟩ | ⟨inner, rfl, inner_eq⟩
      · have inGap : c ∈ lead := by
          rw [inLead]
          exact List.mem_append_right _ List.mem_cons_self
        exact absurd inGap (hlead.not_mem notBlank)
      · rcases cons_of_append_eq inner_eq with ⟨behind, inWord⟩ | ⟨outer, rfl, outer_eq⟩
        · refine ⟨_, List.mem_cons_self, ?_⟩
          have size := congrArg byteSize inWord
          have pos := c.utf8Size_pos
          rw [byteSize_append, byteSize_cons] at size
          show offset + byteSize lead ≤ offset + _ ∧
            offset + _ < offset + byteSize lead + byteSize word.toList
          rw [byteSize_append]
          omega
        · obtain ⟨l, mem, cover⟩ := ih _ outer_eq
          refine ⟨l, List.mem_cons_of_mem _ mem, ?_⟩
          rw [byteSize_append, byteSize_append]
          omega

/-! ## Reads one after the other -/

/-- A cursor of a source: its offset counts the bytes before the characters
that are left. -/
def Within (source : String) (cursor : Cursor) : Prop :=
  ∃ before, source.toList = before ++ cursor.rest ∧ cursor.offset = byteSize before

theorem Within.ofSource (source : String) : Within source (.ofSource source) :=
  ⟨[], rfl, rfl⟩

private theorem Within.passing {source : String} {cursor : Cursor} (h : Within source cursor)
    (p : Char → Bool) :
    Within source
      ⟨cursor.rest.dropWhile p, cursor.offset + byteSize (cursor.rest.takeWhile p)⟩ := by
  obtain ⟨before, whole, size⟩ := h
  refine ⟨before ++ cursor.rest.takeWhile p, ?_, ?_⟩
  · rw [List.append_assoc, List.takeWhile_append_dropWhile, whole]
  · rw [byteSize_append, ← size]

theorem Within.skipBlanks {source : String} {cursor : Cursor} (h : Within source cursor) :
    Within source cursor.skipBlanks :=
  h.passing isBlank

/-- A read leads from a place between two characters to another one. -/
theorem Within.next {source : String} {cursor : Cursor} (h : Within source cursor) :
    Within source cursor.next.2 := by
  unfold Cursor.next
  dsimp only
  split
  · exact h.skipBlanks
  · exact h.skipBlanks.passing (!isBlank ·)

/-- The cursor after some reads. -/
def afterReads : Nat → Cursor → Cursor
  | 0, cursor => cursor
  | n + 1, cursor => afterReads n cursor.next.2

theorem Within.afterReads {source : String} {cursor : Cursor} (h : Within source cursor)
    (n : Nat) : Within source (cursor.afterReads n) := by
  induction n generalizing cursor with
  | zero => exact h
  | succ n ih => exact ih h.next

/-- The lexemes of a cursor are what its reads deliver. -/
theorem next_afterReads (cursor : Cursor) (n : Nat) :
    (cursor.afterReads n).next.1 = cursor.lexemes[n]? := by
  induction n generalizing cursor with
  | zero =>
      cases read : cursor.next with
      | mk lexeme? after =>
          show cursor.next.1 = _
          cases lexeme? with
          | none => rw [read, lexemes_of_next_none read, List.getElem?_nil]
          | some lexeme => rw [read, lexemes_of_next_some read, List.getElem?_cons_zero]
  | succ n ih =>
      show (cursor.next.2.afterReads n).next.1 = _
      rw [ih]
      cases read : cursor.next with
      | mk lexeme? after =>
          cases lexeme? with
          | none =>
              -- nothing is left, so that all later reads find nothing either
              have stays := next_of_rest_nil (rest_of_next_none read)
              rw [lexemes_of_next_none read, lexemes_of_next_none stays]
              rfl
          | some lexeme => rw [lexemes_of_next_some read, List.getElem?_cons_succ]

/-- A cursor that cuts no character of a source apart: its offset lies between
two characters, and the bytes from there on are those of the characters left. -/
def Aligned (source : String) (cursor : Cursor) : Prop :=
  IsBoundary source cursor.offset ∧
    source.toByteArray.extract cursor.offset source.utf8ByteSize =
      (String.ofList cursor.rest).toByteArray

theorem Within.aligned {source : String} {cursor : Cursor} (h : Within source cursor) :
    Aligned source cursor := by
  obtain ⟨before, whole, size⟩ := h
  have cut : source.toList = before ++ (cursor.rest ++ []) := by
    rw [List.append_nil, whole]
  have total : source.utf8ByteSize = byteSize before + byteSize cursor.rest := by
    rw [← byteSize_toList, whole, byteSize_append]
  unfold Aligned
  rw [size, total]
  exact ⟨isBoundary_of_append whole, extract_toByteArray cut⟩

end Cursor

/-! ## Exactness -/

/-- Some lexemes are exactly the words of a source, each in its place. -/
structure Spells (source : String) (lexemes : List Lexeme) : Prop where
  /-- The texts are the maximal runs of characters other than blanks. -/
  words : (lexemes.map fun l => l.text.toList) = pieces source.toList
  /-- Together with blanks, the texts make up the source. -/
  layout : Layout (lexemes.map Lexeme.text) source.toList
  increasing : (lexemes.flatMap fun l => [l.span.start, l.span.stop]).Pairwise (· < ·)
  inside : ∀ l ∈ lexemes, l.span.stop ≤ source.utf8ByteSize
  boundary : ∀ l ∈ lexemes, IsBoundary source l.span.start ∧ IsBoundary source l.span.stop
  bytes : ∀ l ∈ lexemes,
    source.toByteArray.extract l.span.start l.span.stop = l.text.toByteArray
  /-- A character outside of all spans is blank. -/
  outside : ∀ before c after, source.toList = before ++ c :: after →
    (∀ l ∈ lexemes, byteSize before < l.span.start ∨ l.span.stop ≤ byteSize before) →
    isBlank c = true

theorem spells_lexemes (source : String) : Spells source (lexemes source) := by
  have layout : Layout ((lexemes source).map Lexeme.text) source.toList :=
    layout_iff_lexemes.2 rfl
  refine ⟨?_, layout, Cursor.pairwise_bounds source.toList 0, ?_, ?_, ?_, ?_⟩
  · rw [← layout_iff_pieces.1 layout, List.map_map]
    rfl
  · intro l mem
    have bound := (Cursor.bounds_of_mem mem).2.2
    rw [byteSize_toList] at bound
    omega
  · intro l mem
    obtain ⟨before, after, whole, -, start, stop⟩ := Cursor.exists_place mem
    have behind : source.toList = (before ++ l.text.toList) ++ after := by
      rw [List.append_assoc, whole]
    rw [stop, start, Nat.zero_add, ← byteSize_append]
    exact ⟨isBoundary_of_append whole, isBoundary_of_append behind⟩
  · intro l mem
    obtain ⟨before, after, whole, -, start, stop⟩ := Cursor.exists_place mem
    rw [stop, start, Nat.zero_add, extract_toByteArray whole, String.ofList_toList]
  · intro before c after whole uncovered
    cases blank : isBlank c with
    | true => rfl
    | false =>
        obtain ⟨l, mem, cover⟩ := Cursor.exists_cover 0 whole blank
        have := uncovered l mem
        omega

/-- **Exact lexing.** The lexemes of a source are its words, each in its place.
The `n`-th read delivers the `n`-th of them, and none from the end of the list
on; it cuts no character apart, neither where it starts nor where its word does. -/
theorem lexemes_exact (source : String) :
    Spells source (lexemes source) ∧
      ∀ n, ((Cursor.ofSource source).afterReads n).next.1 = (lexemes source)[n]? ∧
        Cursor.Aligned source ((Cursor.ofSource source).afterReads n) ∧
        Cursor.Aligned source ((Cursor.ofSource source).afterReads n).skipBlanks := by
  refine ⟨spells_lexemes source, fun n => ⟨Cursor.next_afterReads _ n, ?_, ?_⟩⟩
  · exact ((Cursor.Within.ofSource source).afterReads n).aligned
  · exact ((Cursor.Within.ofSource source).afterReads n).skipBlanks.aligned

end ScopeLang
