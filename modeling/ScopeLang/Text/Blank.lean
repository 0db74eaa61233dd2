/-!
# Blank characters

The characters that separate words: the 25 code points with the Unicode
property `White_Space`, held as ten inclusive ranges in increasing order.
-/

namespace ScopeLang.Text

/-- The ranges of code points with the property `White_Space`, both ends included. -/
def blankRanges : List (Nat × Nat) :=
  [(0x09, 0x0D), (0x20, 0x20), (0x85, 0x85), (0xA0, 0xA0), (0x1680, 0x1680),
   (0x2000, 0x200A), (0x2028, 0x2029), (0x202F, 0x202F), (0x205F, 0x205F),
   (0x3000, 0x3000)]

/-- Whether a character separates words. -/
def isBlank (c : Char) : Bool :=
  blankRanges.any fun (lo, hi) => lo ≤ c.toNat && c.toNat ≤ hi

/-- A word is a non-empty text without blank characters. -/
def IsWord (word : List Char) : Prop :=
  word ≠ [] ∧ ∀ c ∈ word, isBlank c = false

instance (word : List Char) : Decidable (IsWord word) :=
  @instDecidableAnd _ _ inferInstance (List.decidableBAll (isBlank · = false) word)

/-- A line feed is blank, so no word spans two lines. -/
@[simp] theorem isBlank_newline : isBlank '\n' = true := by decide

end ScopeLang.Text
