/-!
# Lines of a text

Two ways to cut a text into lines.  `linesWithEnds` keeps every character: a
line ends after its line feed, and the lines concatenate to the text.
`linesOf` drops the line ends, as a reader of printed output expects.
-/

namespace ScopeLang.Text

/-- Cut a text after every line feed.  The empty text has no line, and a text
that ends in a line feed has no empty last line. -/
def linesWithEnds : List Char → List (List Char)
  | [] => []
  | c :: cs =>
      if c = '\n' then [c] :: linesWithEnds cs
      else
        match linesWithEnds cs with
        | [] => [[c]]
        | line :: rest => (c :: line) :: rest

/-- Drop all line feeds and carriage returns at the end of a line. -/
def trimLineEnd (line : List Char) : List Char :=
  (line.reverse.dropWhile fun c => c = '\r' || c = '\n').reverse

/-- Drop the line feed at the end of a line, and with it one carriage return. -/
def dropLineEnd (line : List Char) : List Char :=
  match line.reverse with
  | '\n' :: '\r' :: front => front.reverse
  | '\n' :: front => front.reverse
  | _ => line

/-- The lines of a text without their ends. -/
def linesOf (cs : List Char) : List (List Char) :=
  (linesWithEnds cs).map dropLineEnd

/-- The text of some lines, each with a line feed after it. -/
def unlines (lines : List String) : String :=
  String.ofList (lines.flatMap fun line => line.toList ++ ['\n'])

@[simp] theorem unlines_nil : unlines [] = "" := rfl

@[simp] theorem toList_unlines (lines : List String) :
    (unlines lines).toList = lines.flatMap fun line => line.toList ++ ['\n'] :=
  String.toList_ofList

@[simp] theorem unlines_singleton (line : String) : unlines [line] = line ++ "\n" := by
  apply String.toList_injective
  simp

/-- Writing two lists of lines one after the other is writing them together. -/
theorem unlines_append (lines more : List String) :
    unlines (lines ++ more) = unlines lines ++ unlines more := by
  apply String.toList_injective
  simp

@[simp] theorem linesWithEnds_nil : linesWithEnds [] = [] := rfl

/-- No character is lost. -/
theorem flatten_linesWithEnds (cs : List Char) : (linesWithEnds cs).flatten = cs := by
  fun_induction linesWithEnds cs with
  | case1 => rfl
  | case2 cs ih => simp [ih]
  | case3 c cs _ hnil ih => simp_all
  | case4 c cs _ line rest hcons ih => simp_all

/-- A line of characters other than a line feed, closed by a line feed, is the
first line of the text. -/
theorem linesWithEnds_line (line rest : List Char) (h : '\n' ∉ line) :
    linesWithEnds (line ++ '\n' :: rest) = (line ++ ['\n']) :: linesWithEnds rest := by
  induction line with
  | nil => simp [linesWithEnds]
  | cons c cs ih =>
      have hc : c ≠ '\n' := fun e => h (by simp [e])
      have hcs : '\n' ∉ cs := fun m => h (List.mem_cons_of_mem _ m)
      simp [linesWithEnds, hc, ih hcs]

/-- A line feed is dropped, and nothing else unless a carriage return precedes it. -/
theorem dropLineEnd_append {line : List Char} (h : line.getLast? ≠ some '\r') :
    dropLineEnd (line ++ ['\n']) = line := by
  unfold dropLineEnd
  rw [List.reverse_append]
  split
  · next front heq =>
      have last : line.reverse = '\r' :: front := by simpa using heq
      rw [← List.head?_reverse, last] at h
      simp at h
  · next front _ heq =>
      have whole : line.reverse = front := by simpa using heq
      rw [← whole, List.reverse_reverse]
  · next no => simp at no

/-- Lines that hold no line end come back from the text in which they are written. -/
theorem linesOf_unlines (lines : List String)
    (h : ∀ line ∈ lines, '\n' ∉ line.toList ∧ line.toList.getLast? ≠ some '\r') :
    (linesOf (unlines lines).toList).map String.ofList = lines := by
  induction lines with
  | nil => rfl
  | cons line lines ih =>
      obtain ⟨noFeed, noReturn⟩ := h line List.mem_cons_self
      have rest := ih fun other mem => h other (List.mem_cons_of_mem _ mem)
      have split : (unlines (line :: lines)).toList =
          line.toList ++ '\n' :: (unlines lines).toList := by
        simp
      rw [split, linesOf, linesWithEnds_line _ _ noFeed]
      simp only [List.map_cons, dropLineEnd_append noReturn, String.ofList_toList]
      exact congrArg (line :: ·) rest

end ScopeLang.Text
