/-!
# Byte offsets in a text

Offsets count the bytes of a text's UTF-8 form, while texts are lists of
characters.  `splitAtByte` is the bridge: it cuts a text at a byte offset and
refuses an offset that lies inside a character or beyond the end.
-/

namespace ScopeLang.Text

/-- The number of bytes of a text in UTF-8. -/
def byteSize : List Char → Nat
  | [] => 0
  | c :: cs => c.utf8Size + byteSize cs

/-- Cut a text so that the first part has exactly `offset` bytes. -/
def splitAtByte : Nat → List Char → Option (List Char × List Char)
  | 0, cs => some ([], cs)
  | _ + 1, [] => none
  | offset + 1, c :: cs =>
      if c.utf8Size ≤ offset + 1 then
        (splitAtByte (offset + 1 - c.utf8Size) cs).map fun (before, after) => (c :: before, after)
      else none

/-- The part of a text between two byte offsets, if both lie on character
boundaries and in order. -/
def slice (cs : List Char) (start stop : Nat) : Option (List Char) := do
  guard (start ≤ stop)
  let (_, after) ← splitAtByte start cs
  let (part, _) ← splitAtByte (stop - start) after
  return part

@[simp] theorem byteSize_nil : byteSize [] = 0 := rfl

@[simp] theorem byteSize_cons (c : Char) (cs : List Char) :
    byteSize (c :: cs) = c.utf8Size + byteSize cs := rfl

@[simp] theorem byteSize_append (cs ds : List Char) :
    byteSize (cs ++ ds) = byteSize cs + byteSize ds := by
  induction cs with
  | nil => simp
  | cons c cs ih => simp [ih, Nat.add_assoc]

/-- A text without characters is the only one without bytes. -/
theorem byteSize_eq_zero_iff {cs : List Char} : byteSize cs = 0 ↔ cs = [] := by
  cases cs with
  | nil => simp
  | cons c cs => simp [Nat.ne_of_gt c.utf8Size_pos]

/-- Counting bytes by characters agrees with the size of the encoded string. -/
theorem byteSize_toList (s : String) : byteSize s.toList = s.utf8ByteSize := by
  suffices h : ∀ cs : List Char, (String.ofList cs).utf8ByteSize = byteSize cs by
    rw [← h, String.ofList_toList]
  intro cs
  induction cs with
  | nil => rfl
  | cons c cs ih =>
      have split : String.ofList (c :: cs) = String.singleton c ++ String.ofList cs := by
        apply String.toList_injective
        simp
      rw [split, String.utf8ByteSize_append, ih]
      simp

/-- A cut before the end of the first part is found exactly. -/
@[simp] theorem splitAtByte_append (before after : List Char) :
    splitAtByte (byteSize before) (before ++ after) = some (before, after) := by
  induction before with
  | nil => simp [splitAtByte]
  | cons c cs ih =>
      obtain ⟨n, hn⟩ : ∃ n, byteSize (c :: cs) = n + 1 :=
        ⟨byteSize (c :: cs) - 1, by have := c.utf8Size_pos; simp; omega⟩
      have hle : c.utf8Size ≤ n + 1 := by rw [← hn]; simp
      have hrest : n + 1 - c.utf8Size = byteSize cs := by rw [← hn]; simp
      rw [hn, List.cons_append, splitAtByte, if_pos hle, hrest, ih]
      rfl

/-- The two parts of a cut make up the text, and the first has the asked size. -/
theorem eq_append_of_splitAtByte {offset : Nat} {cs before after : List Char}
    (h : splitAtByte offset cs = some (before, after)) :
    cs = before ++ after ∧ byteSize before = offset := by
  fun_induction splitAtByte offset cs generalizing before after with
  | case1 cs => simp_all
  | case2 => simp at h
  | case3 offset c cs hle ih =>
      simp only [Option.map_eq_some_iff, Prod.exists, Prod.mk.injEq] at h
      obtain ⟨front, back, hcut, rfl, rfl⟩ := h
      obtain ⟨rfl, hsize⟩ := ih hcut
      simp only [List.cons_append, byteSize_cons, hsize, true_and]
      omega
  | case4 => simp at h

end ScopeLang.Text
