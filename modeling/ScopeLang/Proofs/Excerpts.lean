import ScopeLang.Fault

/-!
# Excerpts of a source

The excerpt at a byte offset is found by going through the lines of the source.
Here it is said without that search, from the text in front of the offset and
the text behind it.

* **Place**: the line number counts the line feeds in front, the column the
  characters behind the last of them, and the text is what surrounds the offset
  up to a line feed on both sides (`Span.excerpt_of_append`).
* **Width**: a span of a part of the source is as wide as that part
  (`Span.width_of_append`).
-/

namespace ScopeLang

namespace Text

/-! ## The line around an offset -/

/-- The end of a text behind its last line feed. -/
def lineStart (text : List Char) : List Char :=
  (text.reverse.takeWhile (· ≠ '\n')).reverse

/-- The beginning of a text in front of its first line feed. -/
def lineRest (text : List Char) : List Char :=
  text.takeWhile (· ≠ '\n')

theorem lineRest_append {front : List Char} (h : '\n' ∉ front) (text : List Char) :
    lineRest (front ++ text) = front ++ lineRest text := by
  apply List.takeWhile_append_of_pos
  intro c mem
  have : c ≠ '\n' := fun feed => h (feed ▸ mem)
  simpa using this

theorem lineRest_noFeed {text : List Char} (h : '\n' ∉ text) : lineRest text = text := by
  have whole := lineRest_append h []
  rwa [List.append_nil, show lineRest [] = [] from rfl, List.append_nil] at whole

theorem lineRest_feed {front : List Char} (h : '\n' ∉ front) (text : List Char) :
    lineRest (front ++ '\n' :: text) = front := by
  rw [lineRest_append h]
  simp [lineRest]

theorem not_mem_lineRest (text : List Char) : '\n' ∉ lineRest text := by
  intro mem
  have stays := List.all_eq_true.1 List.all_takeWhile _ mem
  simp at stays

theorem lineStart_eq (text : List Char) : lineStart text = (lineRest text.reverse).reverse :=
  rfl

theorem lineStart_noFeed {text : List Char} (h : '\n' ∉ text) : lineStart text = text := by
  rw [lineStart_eq, lineRest_noFeed (by simpa using h), List.reverse_reverse]

theorem not_mem_lineStart (text : List Char) : '\n' ∉ lineStart text := by
  rw [lineStart_eq, List.mem_reverse]
  exact not_mem_lineRest _

/-- The line behind a line feed has nothing of what stands in front of it. -/
theorem lineStart_feed (front text : List Char) :
    lineStart (front ++ '\n' :: text) = lineStart text := by
  unfold lineStart
  rw [List.reverse_append, List.reverse_cons, List.append_assoc, List.takeWhile_append]
  split
  · next whole =>
      rw [(List.takeWhile_prefix _).eq_of_length whole]
      simp
  · rfl

/-! ## Lines without their ends -/

theorem trimLineEnd_feed (line : List Char) : trimLineEnd (line ++ ['\n']) = trimLineEnd line := by
  simp [trimLineEnd]

theorem mem_of_mem_trimLineEnd {line : List Char} {c : Char} (h : c ∈ trimLineEnd line) :
    c ∈ line := by
  unfold trimLineEnd at h
  exact List.mem_reverse.1 ((List.dropWhile_sublist _).subset (List.mem_reverse.1 h))

/-- Nothing is dropped from a text that ends in another character than a line
end. -/
theorem trimLineEnd_append {front : List Char} (back : List Char)
    (h : ∀ c ∈ front.getLast?, c ≠ '\r' ∧ c ≠ '\n') :
    trimLineEnd (front ++ back) = front ++ trimLineEnd back := by
  have stays : front.reverse.dropWhile (fun c => c = '\r' || c = '\n') = front.reverse := by
    rw [← List.head?_reverse] at h
    cases chars : front.reverse with
    | nil => rfl
    | cons c cs =>
        have other := h c (by rw [chars]; rfl)
        simp [other.1, other.2]
  unfold trimLineEnd
  rw [List.reverse_append, List.dropWhile_append, stays]
  split
  · next gone => simp [List.isEmpty_iff.1 gone]
  · rw [List.reverse_append, List.reverse_reverse]

theorem linesWithEnds_noFeed {text : List Char} (some : text ≠ []) (h : '\n' ∉ text) :
    linesWithEnds text = [text] := by
  induction text with
  | nil => exact absurd rfl some
  | cons c cs ih =>
      have other : c ≠ '\n' := fun feed => h (feed ▸ List.mem_cons_self)
      cases cs with
      | nil => simp [linesWithEnds, other]
      | cons d ds =>
          have rest := ih (by simp) fun mem => h (List.mem_cons_of_mem _ mem)
          rw [linesWithEnds, if_neg other, rest]

/-- The first line of a text goes on to its first line feed. -/
theorem exists_first_line {front text : List Char} (noFeed : '\n' ∉ front) (some : text ≠ []) :
    ∃ tail rest, linesWithEnds (front ++ text) = (front ++ tail) :: rest ∧ tail ≠ [] ∧
      (tail = lineRest text ∨ tail = lineRest text ++ ['\n']) := by
  by_cases feed : '\n' ∈ text
  · obtain ⟨ahead, rest, rfl, noFeed'⟩ := List.eq_append_cons_of_mem feed
    have inner : '\n' ∉ front ++ ahead := by simp [noFeed, noFeed']
    refine ⟨ahead ++ ['\n'], linesWithEnds rest, ?_, by simp, ?_⟩
    · rw [← List.append_assoc, linesWithEnds_line _ _ inner, List.append_assoc]
    · rw [lineRest_feed noFeed']
      exact .inr rfl
  · refine ⟨text, [], linesWithEnds_noFeed (by simp [some]) (by simp [noFeed, feed]), some, ?_⟩
    exact .inl (lineRest_noFeed feed).symm

theorem slice_of_append (before part after : List Char) :
    slice (before ++ (part ++ after)) (byteSize before) (byteSize before + byteSize part) =
      some part := by
  have inOrder : guard (byteSize before ≤ byteSize before + byteSize part) = some () :=
    if_pos (Nat.le_add_right ..)
  unfold slice
  rw [inOrder, splitAtByte_append, Nat.add_sub_cancel_left]
  simp

end Text

namespace Span

open Text

/-! ## The excerpt at an offset -/

/-- The excerpt of a source between a text in front of an offset and one behind
it. -/
def excerptOf (before after : List Char) : Excerpt where
  line := before.count '\n' + 1
  column := (lineStart before).length + 1
  text := String.ofList (trimLineEnd (lineStart before ++ lineRest after))

/-- An offset in the first line is found there. -/
theorem locate_first_line {before after : List Char} (noFeed : '\n' ∉ before) (some : after ≠ [])
    (number : Nat) :
    locate (byteSize before) number (linesWithEnds (before ++ after)) =
      .ok (.some { excerptOf before after with line := number }) := by
  obtain ⟨tail, rest, lines, nonempty, ending⟩ := exists_first_line noFeed some
  have inside : byteSize before < byteSize (before ++ tail) := by
    have := mt byteSize_eq_zero_iff.1 nonempty
    rw [byteSize_append]
    omega
  have trimmed : trimLineEnd (before ++ tail) = trimLineEnd (before ++ lineRest after) := by
    rcases ending with rfl | rfl
    · rfl
    · rw [← List.append_assoc, trimLineEnd_feed]
  rw [lines, locate, if_pos inside, splitAtByte_append]
  simp only [excerptOf, lineStart_noFeed noFeed, trimmed]

/-- Going through the lines, the excerpt of an offset is found. -/
theorem locate_append (before : List Char) {after : List Char} (some : after ≠ []) (number : Nat) :
    locate (byteSize before) number (linesWithEnds (before ++ after)) =
      .ok (.some { excerptOf before after with line := before.count '\n' + number }) := by
  by_cases feed : '\n' ∈ before
  · -- the first line ends in front of the offset, and the search goes on behind it
    obtain ⟨line, behind, rfl, noFeed⟩ := List.eq_append_cons_of_mem feed
    have size : byteSize (line ++ '\n' :: behind) =
        byteSize (line ++ ['\n']) + byteSize behind := by
      simp [Nat.add_assoc]
    have count : (line ++ '\n' :: behind).count '\n' = behind.count '\n' + 1 := by
      simp [List.count_eq_zero.2 noFeed]
    have found := locate_append behind some (number + 1)
    rw [List.append_assoc, List.cons_append, linesWithEnds_line _ _ noFeed, locate,
      if_neg (by omega), size, Nat.add_sub_cancel_left, found, count]
    simp only [excerptOf, lineStart_feed]
    rw [Nat.add_right_comm, Nat.add_assoc]
  · have none_before : before.count '\n' = 0 := List.count_eq_zero.2 feed
    rw [locate_first_line feed some, none_before, Nat.zero_add]
termination_by before.length

/-- **Place.** The excerpt of a span that starts inside a source is read off the
texts in front of its start and behind it. -/
theorem excerpt_of_append {source : String} {before after : List Char}
    (h : source.toList = before ++ after) (some : after ≠ []) (stop : Nat) :
    excerpt source { start := byteSize before, stop := stop } =
      .ok (.some (excerptOf before after)) := by
  unfold excerpt
  rw [h, locate_append before some]
  rfl

/-- **Width.** A span marks as many characters as it covers. -/
theorem width_of_append {source : String} {before part after : List Char}
    (h : source.toList = before ++ (part ++ after)) (some : part ≠ []) :
    width source { start := byteSize before, stop := byteSize before + byteSize part } =
      part.length := by
  have pos := List.length_pos_iff.2 some
  unfold width
  rw [h, slice_of_append]
  exact Nat.max_eq_right pos

end Span

end ScopeLang
