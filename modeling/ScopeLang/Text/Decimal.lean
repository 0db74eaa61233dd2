/-!
# Decimal numerals

Natural numbers are written in base ten without leading zeros.
-/

namespace ScopeLang.Text

/-- A natural number in base ten. -/
def decimal (n : Nat) : String :=
  String.ofList (Nat.toDigits 10 n)

/-- Every character of a numeral is an ASCII digit. -/
theorem isDigit_of_mem_decimal {n : Nat} {c : Char} (h : c ∈ (decimal n).toList) :
    c.isDigit = true := by
  rw [decimal, String.toList_ofList] at h
  exact Nat.isDigit_of_mem_toDigits (by decide) (by decide) h

/-- A numeral reads back as its number. -/
theorem ofDigitChars_decimal (n : Nat) : Nat.ofDigitChars 10 (decimal n).toList 0 = n := by
  rw [decimal, String.toList_ofList]
  exact Nat.ofDigitChars_toDigits (by decide) (by decide)

end ScopeLang.Text
