import ScopeLang.Proofs.Excerpts
import ScopeLang.Proofs.Lexing

/-!
# Places in a source

Every byte offset is resolved, whether it lies in a source, inside one of its
characters or beyond its end.

* **Cuts**: an offset lies between two characters exactly if the source can be
  cut there (`Text.isBoundary_iff_cut`), and only there an excerpt is found
  (`Span.exists_cut_of_excerpt`).
* **Lines**: the excerpt at a cut is read off the line around it, which ends at
  the next line feeds on both sides (`Span.excerpt_eq_some_iff`).
* **Order**: a later cut has a larger line number, or the same and a larger
  column (`Span.excerptOf_before`).
-/

namespace ScopeLang

namespace Text

/-! ## Cuts -/

/-- The text can be cut so that the first part has the given number of bytes. -/
def Cuts (text : List Char) (offset : Nat) (before after : List Char) : Prop :=
  text = before ++ after ∧ byteSize before = offset

theorem isBoundary_iff_cut {source : String} {offset : Nat} :
    IsBoundary source offset ↔ ∃ before after, Cuts source.toList offset before after := by
  constructor
  · intro valid
    obtain ⟨first, second, whole, size⟩ := String.Pos.Raw.isValid_iff_exists_append.1 valid
    refine ⟨first.toList, second.toList, ?_, ?_⟩
    · rw [whole, String.toList_append]
    · rw [byteSize_toList]
      exact (congrArg String.Pos.Raw.byteIdx size).symm
  · rintro ⟨before, after, whole, rfl⟩
    exact isBoundary_of_append whole

/-- Behind a cut inside a text, characters are left. -/
theorem Cuts.after_ne_nil {text before after : List Char} {offset : Nat}
    (h : Cuts text offset before after) (inside : offset < byteSize text) : after ≠ [] := by
  rintro rfl
  obtain ⟨whole, size⟩ := h
  rw [whole, List.append_nil] at inside
  omega

/-- Of two cuts, the later one has more characters in front of it. -/
theorem Cuts.exists_between {text before after before' after' : List Char} {offset offset' : Nat}
    (h : Cuts text offset before after) (h' : Cuts text offset' before' after')
    (lt : offset < offset') : ∃ between, between ≠ [] ∧ before' = before ++ between := by
  obtain ⟨whole, rfl⟩ := h
  obtain ⟨whole', rfl⟩ := h'
  rcases List.append_eq_append_iff.1 (whole.symm.trans whole') with
    ⟨between, longer, -⟩ | ⟨between, shorter, -⟩
  · refine ⟨between, ?_, longer⟩
    rintro rfl
    rw [longer, List.append_nil] at lt
    omega
  · rw [shorter, byteSize_append] at lt
    omega

/-! ## The line around a cut -/

theorem lineStart_append {text : List Char} (noFeed : '\n' ∉ text) (front : List Char) :
    lineStart (front ++ text) = lineStart front ++ text := by
  rw [lineStart_eq, List.reverse_append, lineRest_append (by simpa using noFeed),
    List.reverse_append, List.reverse_reverse, ← lineStart_eq]

/-- The text in front of a line is empty or ends in a line feed. -/
def BeginsLine (above : List Char) : Prop :=
  ∀ c ∈ above.getLast?, c = '\n'

/-- The text behind a line is empty or begins with a line feed. -/
def EndsLine (below : List Char) : Prop :=
  ∀ c ∈ below.head?, c = '\n'

theorem lineStart_of_beginsLine {above here : List Char} (begins : BeginsLine above)
    (noFeed : '\n' ∉ here) : lineStart (above ++ here) = here := by
  have nothing : lineStart above = [] := by
    rcases List.eq_nil_or_concat above with rfl | ⟨front, c, rfl⟩
    · rfl
    · have feed : c = '\n' := begins c (by simp)
      rw [feed, List.concat_eq_append]
      exact lineStart_feed front []
  rw [lineStart_append noFeed, nothing, List.nil_append]

theorem lineRest_of_endsLine {there below : List Char} (ends : EndsLine below)
    (noFeed : '\n' ∉ there) : lineRest (there ++ below) = there := by
  cases below with
  | nil => rw [List.append_nil, lineRest_noFeed noFeed]
  | cons c below =>
      have feed : c = '\n' := ends c (by simp)
      rw [feed, lineRest_feed noFeed]

theorem exists_endsLine (after : List Char) :
    ∃ below, after = lineRest after ++ below ∧ EndsLine below := by
  refine ⟨after.dropWhile (· ≠ '\n'), List.takeWhile_append_dropWhile.symm, ?_⟩
  intro c head
  have stopped := List.head?_dropWhile_not (· ≠ '\n') after
  rw [Option.mem_def.1 head] at stopped
  simpa using stopped

theorem exists_beginsLine (before : List Char) :
    ∃ above, before = above ++ lineStart before ∧ BeginsLine above := by
  obtain ⟨below, whole, ends⟩ := exists_endsLine before.reverse
  refine ⟨below.reverse, ?_, ?_⟩
  · rw [lineStart_eq, ← List.reverse_append, ← whole, List.reverse_reverse]
  · intro c last
    rw [List.getLast?_reverse] at last
    exact ends c last

theorem trimLineEnd_returns (count : Nat) : trimLineEnd (List.replicate count '\r') = [] := by
  simp [trimLineEnd]

/-- A line is trimmed by the carriage returns at its end. -/
theorem trimLineEnd_eq_iff {line text : List Char} (noFeed : '\n' ∉ line) :
    trimLineEnd line = text ↔
      ∃ returns, line = text ++ List.replicate returns '\r' ∧ text.getLast? ≠ some '\r' := by
  constructor
  · rintro rfl
    have ending : ∀ c ∈ line.reverse.takeWhile (fun c => c = '\r' || c = '\n'), c = '\r' := by
      intro c mem
      have isEnd := List.all_eq_true.1 List.all_takeWhile c mem
      have inLine : c ∈ line := List.mem_reverse.1 ((List.takeWhile_sublist _).subset mem)
      have other : c ≠ '\n' := fun feed => noFeed (feed ▸ inLine)
      simpa [other] using isEnd
    refine ⟨(line.reverse.takeWhile fun c => c = '\r' || c = '\n').length, ?_, ?_⟩
    · have whole := congrArg List.reverse (List.takeWhile_append_dropWhile
        (p := fun c => c = '\r' || c = '\n') (l := line.reverse))
      rw [List.reverse_append, List.reverse_reverse, List.eq_replicate_of_mem ending,
        List.reverse_replicate] at whole
      exact whole.symm
    · intro last
      have stopped := List.head?_dropWhile_not (fun c => c = '\r' || c = '\n') line.reverse
      rw [← List.getLast?_reverse, ← trimLineEnd, last] at stopped
      simp at stopped
  · rintro ⟨returns, rfl, last⟩
    have other : ∀ c ∈ text.getLast?, c ≠ '\r' ∧ c ≠ '\n' := by
      intro c mem
      have inText : c ∈ text := List.mem_of_getLast? mem
      constructor
      · rintro rfl
        exact last mem
      · rintro rfl
        exact noFeed (List.mem_append_left _ inText)
    rw [trimLineEnd_append _ other, trimLineEnd_returns, List.append_nil]

end Text

namespace Span

open Text

/-! ## The excerpt at every offset -/

theorem locate_eq_none_iff {start number : Nat} {lines : List (List Char)} :
    locate start number lines = .ok none ↔ byteSize lines.flatten ≤ start := by
  fun_induction locate start number lines with
  | case1 start number => simp
  | case2 start number line rest inside before after cut =>
      simp only [List.flatten_cons, byteSize_append]
      constructor
      · intro found
        cases found
      · intro beyond
        omega
  | case3 start number line rest inside cut =>
      simp only [List.flatten_cons, byteSize_append]
      constructor
      · intro found
        cases found
      · intro beyond
        omega
  | case4 start number line rest beyond ih =>
      rw [ih, List.flatten_cons, byteSize_append]
      omega

theorem exists_cut_of_locate {start number : Nat} {lines : List (List Char)} {place : Excerpt}
    (h : locate start number lines = .ok (some place)) :
    ∃ before after, Cuts lines.flatten start before after := by
  fun_induction locate start number lines with
  | case1 => cases h
  | case2 start number line rest inside before after cut =>
      obtain ⟨whole, size⟩ := eq_append_of_splitAtByte cut
      refine ⟨before, after ++ rest.flatten, ?_, size⟩
      rw [List.flatten_cons, whole, List.append_assoc]
  | case3 => cases h
  | case4 start number line rest beyond ih =>
      obtain ⟨before, after, whole, size⟩ := ih h
      refine ⟨line ++ before, after, ?_, ?_⟩
      · rw [List.flatten_cons, whole, List.append_assoc]
      · rw [byteSize_append, size]
        omega

variable {source : String} {span : Span}

theorem excerpt_eq_none_iff :
    span.excerpt source = .ok none ↔ source.utf8ByteSize ≤ span.start := by
  unfold excerpt
  rw [locate_eq_none_iff, flatten_linesWithEnds, byteSize_toList]

theorem exists_cut_of_excerpt {place : Excerpt} (h : span.excerpt source = .ok (some place)) :
    ∃ before after, Cuts source.toList span.start before after := by
  have cut := exists_cut_of_locate h
  rw [flatten_linesWithEnds] at cut
  exact cut

/-- At a cut inside a source there is the excerpt that is read off both sides. -/
theorem excerpt_of_cuts {before after : List Char}
    (h : Cuts source.toList span.start before after) (some : after ≠ []) :
    span.excerpt source = .ok (.some (excerptOf before after)) := by
  obtain ⟨start, stop⟩ := span
  obtain ⟨whole, rfl⟩ := h
  exact excerpt_of_append whole some stop

theorem start_lt_of_excerpt {place : Excerpt} (h : span.excerpt source = .ok (some place)) :
    span.start < source.utf8ByteSize := by
  apply Nat.lt_of_not_le
  intro beyond
  rw [excerpt_eq_none_iff.2 beyond] at h
  cases h

/-- An excerpt is that of a cut inside the source. -/
theorem exists_excerptOf {place : Excerpt} (h : span.excerpt source = .ok (some place)) :
    ∃ before after, Cuts source.toList span.start before after ∧ after ≠ [] ∧
      place = excerptOf before after := by
  obtain ⟨before, after, cut⟩ := exists_cut_of_excerpt h
  have inside := start_lt_of_excerpt h
  rw [← byteSize_toList] at inside
  have more := cut.after_ne_nil inside
  rw [excerpt_of_cuts cut more] at h
  cases h
  exact ⟨before, after, cut, more, rfl⟩

theorem exists_excerpt_iff :
    (∃ place, span.excerpt source = .ok (some place)) ↔
      span.start < source.utf8ByteSize ∧ IsBoundary source span.start := by
  rw [isBoundary_iff_cut]
  constructor
  · rintro ⟨place, found⟩
    exact ⟨start_lt_of_excerpt found, exists_cut_of_excerpt found⟩
  · rintro ⟨inside, before, after, cut⟩
    rw [← byteSize_toList] at inside
    exact ⟨_, excerpt_of_cuts cut (cut.after_ne_nil inside)⟩

theorem excerpt_eq_error_iff :
    span.excerpt source = .error .insideCharacter ↔
      span.start < source.utf8ByteSize ∧ ¬ IsBoundary source span.start := by
  constructor
  · intro failed
    have inside : span.start < source.utf8ByteSize := by
      apply Nat.lt_of_not_le
      intro beyond
      cases failed.symm.trans (excerpt_eq_none_iff.2 beyond)
    refine ⟨inside, ?_⟩
    intro aligned
    obtain ⟨place, found⟩ := exists_excerpt_iff.2 ⟨inside, aligned⟩
    cases failed.symm.trans found
  · rintro ⟨inside, cutOff⟩
    cases resolved : span.excerpt source with
    | error misaligned => rfl
    | ok place? =>
        cases place? with
        | none =>
            have beyond := excerpt_eq_none_iff.1 resolved
            omega
        | some place => exact absurd (exists_excerpt_iff.1 ⟨place, resolved⟩).2 cutOff

/-! ## What the excerpt says -/

/-- The source around an offset: `here` and `there` are the parts of its line in
front of the offset and behind it, between the lines `above` and `below`. -/
structure Around (source : String) (start : Nat) (above here there below : List Char) : Prop where
  whole : source.toList = above ++ (here ++ (there ++ below))
  size : byteSize (above ++ here) = start
  inside : there ++ below ≠ []
  begins : BeginsLine above
  ends : EndsLine below
  oneLine : '\n' ∉ here ++ there

/-- `Places source start place`: the line number counts the line feeds in front of
the offset, the column the characters of its line in front of it, and the text is
that line without the carriage returns at its end. -/
def Places (source : String) (start : Nat) (place : Excerpt) : Prop :=
  ∃ above here there below, Around source start above here there below ∧
    place.line = (above ++ here).count '\n' + 1 ∧ place.column = here.length + 1 ∧
    ∃ returns, here ++ there = place.text.toList ++ List.replicate returns '\r' ∧
      place.text.toList.getLast? ≠ some '\r'

/-- Around every cut inside a source there is a line. -/
theorem Around.of_cuts {start : Nat} {before after : List Char}
    (h : Cuts source.toList start before after) (some : after ≠ []) :
    ∃ above below, before = above ++ lineStart before ∧ after = lineRest after ++ below ∧
      Around source start above (lineStart before) (lineRest after) below := by
  obtain ⟨above, front, begins⟩ := exists_beginsLine before
  obtain ⟨below, back, ends⟩ := exists_endsLine after
  have oneLine : '\n' ∉ lineStart before ++ lineRest after := by
    simp [not_mem_lineStart, not_mem_lineRest]
  refine ⟨above, below, front, back, ?_, ?_, ?_, begins, ends, oneLine⟩
  · rw [← List.append_assoc, ← front, ← back]
    exact h.1
  · rw [← front]
    exact h.2
  · rw [← back]
    exact some

/-- **Lines.** The excerpt at an offset is the one of the line around it. -/
theorem excerpt_eq_some_iff {place : Excerpt} :
    span.excerpt source = .ok (some place) ↔ Places source span.start place := by
  constructor
  · intro found
    obtain ⟨before, after, cut, more, rfl⟩ := exists_excerptOf found
    obtain ⟨above, below, front, back, around⟩ := Around.of_cuts cut more
    refine ⟨above, lineStart before, lineRest after, below, around, ?_, rfl, ?_⟩
    · rw [← front]
      rfl
    · simpa [excerptOf] using (trimLineEnd_eq_iff around.oneLine).1 rfl
  · rintro ⟨above, here, there, below, around, line, column, trimmed⟩
    obtain ⟨noFeedHere, noFeedThere⟩ : '\n' ∉ here ∧ '\n' ∉ there := by
      simpa using around.oneLine
    have start := lineStart_of_beginsLine around.begins noFeedHere
    have rest := lineRest_of_endsLine around.ends noFeedThere
    have text := (trimLineEnd_eq_iff around.oneLine).2 trimmed
    have cut : Cuts source.toList span.start (above ++ here) (there ++ below) := by
      refine ⟨?_, around.size⟩
      rw [around.whole, List.append_assoc]
    rw [excerpt_of_cuts cut around.inside]
    obtain ⟨number, offset, shown⟩ := place
    simp only [excerptOf, start, rest, text, String.ofList_toList] at line column ⊢
    rw [line, column]

end Span

/-! ## The order of places -/

/-- Places come in the order of their lines, and in a line in that of their
columns. -/
def Excerpt.Before (place other : Excerpt) : Prop :=
  place.line < other.line ∨ (place.line = other.line ∧ place.column < other.column)

namespace Span

variable {source : String} {span : Span}

/-- **Order.** More characters in front lead to a later place. -/
theorem excerptOf_before (before after after' : List Char) {between : List Char}
    (some : between ≠ []) :
    (excerptOf before after).Before (excerptOf (before ++ between) after') := by
  by_cases feed : '\n' ∈ between
  · left
    have more := List.count_pos_iff.2 feed
    simp only [excerptOf, List.count_append]
    omega
  · right
    have pos := List.length_pos_iff.2 some
    have none := List.count_eq_zero.2 feed
    simp only [excerptOf, List.count_append, Text.lineStart_append feed, List.length_append]
    omega

theorem before_of_start_lt {later : Span} {place other : Excerpt}
    (lt : span.start < later.start) (found : span.excerpt source = .ok (some place))
    (found' : later.excerpt source = .ok (some other)) : place.Before other := by
  obtain ⟨before, after, cut, -, rfl⟩ := exists_excerptOf found
  obtain ⟨before', after', cut', -, rfl⟩ := exists_excerptOf found'
  obtain ⟨between, some, rfl⟩ := cut.exists_between cut' lt
  exact excerptOf_before before after after' some

/-- No two offsets have the same line and column. -/
theorem start_eq_of_place_eq {later : Span} {place other : Excerpt}
    (found : span.excerpt source = .ok (some place))
    (found' : later.excerpt source = .ok (some other)) (line : place.line = other.line)
    (column : place.column = other.column) : span.start = later.start := by
  rcases Nat.lt_trichotomy span.start later.start with lt | same | gt
  · rcases before_of_start_lt lt found found' with above | ⟨-, left⟩ <;> omega
  · exact same
  · rcases before_of_start_lt gt found' found with above | ⟨-, left⟩ <;> omega

end Span

/-- A fault cannot be shown exactly where the start of its span has no excerpt. -/
theorem Fault.render_eq_error_iff (kind : Fault.Kind) (span : Span) (source : String) :
    (Fault.atSpan kind span).render source = .error .insideCharacter ↔
      span.excerpt source = .error .insideCharacter := by
  unfold Fault.render Fault.atSpan
  dsimp only
  split <;> simp_all

/-- How an offset is resolved in a source. -/
structure Resolves (source : String) (span : Span) : Prop where
  beyond : span.excerpt source = .ok none ↔ source.utf8ByteSize ≤ span.start
  insideCharacter : span.excerpt source = .error .insideCharacter ↔
    span.start < source.utf8ByteSize ∧ ¬ Text.IsBoundary source span.start
  aligned : (∃ place, span.excerpt source = .ok (some place)) ↔
    span.start < source.utf8ByteSize ∧ Text.IsBoundary source span.start
  place : ∀ place, span.excerpt source = .ok (some place) ↔
    Span.Places source span.start place
  /-- Columns count from 1, so that one less is a number of blanks. -/
  column : ∀ place, span.excerpt source = .ok (some place) → 1 ≤ place.column
  increasing : ∀ (later : Span) (place other : Excerpt), span.start < later.start →
    span.excerpt source = .ok (some place) → later.excerpt source = .ok (some other) →
    place.Before other
  injective : ∀ (other : Span) (place place' : Excerpt), span.excerpt source = .ok (some place) →
    other.excerpt source = .ok (some place') → place.line = place'.line →
    place.column = place'.column → span.start = other.start
  /-- A fault with the span, whatever its end, fails to be shown where the start
  has no excerpt. -/
  render : ∀ kind stop,
    (Fault.atSpan kind { span with stop := stop }).render source = .error .insideCharacter ↔
      span.excerpt source = .error .insideCharacter

/-- **Places.** An offset has no excerpt exactly if it lies at the end of the
source or beyond, and it is an error exactly inside a character.  Elsewhere the
excerpt tells the line and the column of the offset and the text of the line, and
later offsets have later places. -/
theorem excerpt_resolves (source : String) (span : Span) : Resolves source span := by
  refine ⟨Span.excerpt_eq_none_iff, Span.excerpt_eq_error_iff, Span.exists_excerpt_iff,
    fun _ => Span.excerpt_eq_some_iff, ?_, ?_, ?_, ?_⟩
  · intro place found
    exact (Span.locate_pos found).2
  · intro later place other lt found found'
    exact Span.before_of_start_lt lt found found'
  · intro other place place' found found' line column
    exact Span.start_eq_of_place_eq found found' line column
  · intro kind stop
    exact Fault.render_eq_error_iff kind { span with stop := stop } source

/-- On a line feed, inside a character and at the end of a source. -/
example : Span.excerpt "aäb\n\r\n" { start := 4, stop := 9 } =
      .ok (some { line := 1, column := 4, text := "aäb" }) ∧
    Span.excerpt "aäb\n\r\n" { start := 2, stop := 2 } = .error .insideCharacter ∧
    Span.excerpt "aäb\n\r\n" { start := 7, stop := 0 } = .ok none :=
  ⟨rfl, rfl, rfl⟩

end ScopeLang
