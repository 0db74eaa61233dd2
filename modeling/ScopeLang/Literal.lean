import ScopeLang.Text.Decimal

/-!
# Integer literals

A literal is an optional minus sign and one or more ASCII digits.  It denotes
a value only if its number fits into 64 bits with a sign; leading zeros do not
matter.  Values are written in base ten, with a minus sign where negative.
-/

namespace ScopeLang.Literal

/-- The number that a non-empty run of ASCII digits denotes. -/
def magnitude? (digits : List Char) : Option Nat :=
  if !digits.isEmpty && digits.all Char.isDigit then some (Nat.ofDigitChars 10 digits 0)
  else none

/-- The number that a text denotes: a minus sign, if any, and then digits only. -/
def number? : List Char → Option Int
  | '-' :: digits => (magnitude? digits).map fun n => -(n : Int)
  | digits => (magnitude? digits).map fun n => (n : Int)

/-- The value that a word denotes as a literal, if it is one. -/
def parse? (word : String) : Option Int64 :=
  match number? word.toList with
  | some n =>
      if Int64.minValue.toInt ≤ n ∧ n ≤ Int64.maxValue.toInt then some (Int64.ofInt n) else none
  | none => none

/-- A value in base ten. -/
def render (value : Int64) : String :=
  if value.toInt < 0 then "-" ++ Text.decimal value.toInt.natAbs
  else Text.decimal value.toInt.natAbs

end ScopeLang.Literal
