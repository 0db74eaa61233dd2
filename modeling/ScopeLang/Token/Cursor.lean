import ScopeLang.Text.Blank
import ScopeLang.Token

/-!
# Reading tokens one at a time

A `Cursor` is a place in a source: the characters still to be read and the
number of bytes before them.  `next` skips blanks and reads the longest run of
other characters.  `lexemes` is the view of a cursor as all the lexemes that
it will still deliver.
-/

namespace ScopeLang

/-- A place in a source. -/
structure Cursor where
  /-- The characters still to be read. -/
  rest : List Char
  /-- The number of bytes already passed. -/
  offset : Nat
deriving DecidableEq, Repr

namespace Cursor

open Text

/-- The beginning of a source. -/
def ofSource (source : String) : Cursor where
  rest := source.toList
  offset := 0

/-- Move past the blanks in front of the next word. -/
def skipBlanks (cursor : Cursor) : Cursor where
  rest := cursor.rest.dropWhile isBlank
  offset := cursor.offset + byteSize (cursor.rest.takeWhile isBlank)

/-- Move past a run of non-blank characters. -/
def skipWord (cursor : Cursor) : Cursor where
  rest := cursor.rest.dropWhile (!isBlank ·)
  offset := cursor.offset + byteSize (cursor.rest.takeWhile (!isBlank ·))

/-- Read the next lexeme.  Where there is none, the cursor ends up behind the
last character. -/
def next (cursor : Cursor) : Option Lexeme × Cursor :=
  let first := cursor.skipBlanks
  match first.rest.takeWhile (!isBlank ·) with
  | [] => (none, first)
  | word =>
      (some
        { token := .ofText (String.ofList word)
          span := { start := first.offset, stop := first.skipWord.offset } },
        first.skipWord)

/-! ## Progress -/

private theorem length_dropWhile_le (p : Char → Bool) (cs : List Char) :
    (cs.dropWhile p).length ≤ cs.length :=
  (List.dropWhile_sublist p).length_le

private theorem length_dropWhile_lt {p : Char → Bool} {cs : List Char}
    (h : cs.takeWhile p ≠ []) : (cs.dropWhile p).length < cs.length := by
  have split := congrArg List.length (List.takeWhile_append_dropWhile (p := p) (l := cs))
  have pos := List.length_pos_iff.2 h
  rw [List.length_append] at split
  omega

/-- Reading never moves a cursor back. -/
theorem next_length_le (cursor : Cursor) : cursor.next.2.rest.length ≤ cursor.rest.length := by
  have blanks : cursor.skipBlanks.rest.length ≤ cursor.rest.length := length_dropWhile_le ..
  have word : cursor.skipBlanks.skipWord.rest.length ≤ cursor.skipBlanks.rest.length :=
    length_dropWhile_le ..
  unfold next
  dsimp only
  split <;> dsimp only <;> omega

/-- A lexeme that was read leaves less to read. -/
theorem next_length_lt {cursor after : Cursor} {lexeme : Lexeme}
    (h : cursor.next = (some lexeme, after)) : after.rest.length < cursor.rest.length := by
  have blanks : cursor.skipBlanks.rest.length ≤ cursor.rest.length := length_dropWhile_le ..
  unfold next at h
  dsimp only at h
  split at h
  · simp at h
  · next nonempty =>
      have word : cursor.skipBlanks.skipWord.rest.length < cursor.skipBlanks.rest.length :=
        length_dropWhile_lt nonempty
      simp only [Prod.mk.injEq] at h
      rw [← h.2]
      omega

/-- Where no lexeme is left, nothing is left to read. -/
theorem rest_of_next_none {cursor after : Cursor} (h : cursor.next = (none, after)) :
    after.rest = [] := by
  unfold next at h
  dsimp only at h
  split at h
  · next noWord =>
      simp only [Prod.mk.injEq, true_and] at h
      rw [← h]
      cases first : cursor.skipBlanks.rest with
      | nil => rfl
      | cons c cs =>
          rw [first, List.takeWhile_cons] at noWord
          have blank : isBlank c = true := by
            cases hc : isBlank c
            · simp [hc] at noWord
            · rfl
          have notBlank := List.head?_dropWhile_not isBlank cursor.rest
          rw [show cursor.rest.dropWhile isBlank = c :: cs from first] at notBlank
          simp [blank] at notBlank
  · simp at h

/-- All lexemes that a cursor will still deliver. -/
def lexemes (cursor : Cursor) : List Lexeme :=
  match read : cursor.next with
  | (none, _) => []
  | (some lexeme, after) =>
      have := next_length_lt read
      lexeme :: after.lexemes
termination_by cursor.rest.length

/-- The cursor after all lexemes were read and no more was found. -/
def exhaust (cursor : Cursor) : Cursor :=
  match read : cursor.next with
  | (none, after) => after
  | (some _, after) =>
      have := next_length_lt read
      after.exhaust
termination_by cursor.rest.length

/-- A cursor that delivers no lexeme has none. -/
theorem lexemes_of_next_none {cursor after : Cursor} (h : cursor.next = (none, after)) :
    cursor.lexemes = [] := by
  rw [lexemes]
  split <;> simp_all

/-- The lexemes of a cursor are the one it delivers next and those after it. -/
theorem lexemes_of_next_some {cursor after : Cursor} {lexeme : Lexeme}
    (h : cursor.next = (some lexeme, after)) : cursor.lexemes = lexeme :: after.lexemes := by
  rw [lexemes]
  split <;> simp_all

/-- An exhausted cursor has nothing left to read. -/
@[simp] theorem rest_exhaust (cursor : Cursor) : cursor.exhaust.rest = [] := by
  fun_induction exhaust cursor with
  | case1 cursor after read => exact rest_of_next_none read
  | case2 cursor lexeme after read _ ih => exact ih

/-- Where nothing is left to read, no lexeme is found and the cursor stays. -/
theorem next_of_rest_nil {cursor : Cursor} (h : cursor.rest = []) :
    cursor.next = (none, cursor) := by
  obtain ⟨rest, offset⟩ := cursor
  cases h
  rfl

end Cursor

/-- The lexemes of a source, in order. -/
def lexemes (source : String) : List Lexeme :=
  (Cursor.ofSource source).lexemes

end ScopeLang
