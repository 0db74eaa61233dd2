import Mathlib.Data.Nat.Digits.Defs
import ScopeLang.Proofs.Blocks

/-!
# Numerals

Which words are literals, and what they stand for, is said here by positional
notation: the number of a numeral is the sum of its digits, each taken as often
as its place tells.

* **Reading**: a word has a value exactly if it is a numeral whose number fits
  into 64 bits with a sign (`Literal.parse?_eq_some_iff`,
  `Literal.parse?_eq_none_iff`).
* **Writing**: a value is written as a numeral that has nothing in it that could
  be left out (`Literal.canonical_render`), and it reads back
  (`Literal.parse?_render`).
-/

namespace ScopeLang.Literal

/-! ## Positional notation -/

/-- The digits of a numeral: one or more characters from `0` to `9`. -/
def IsDigits (digits : List Char) : Prop :=
  digits ≠ [] ∧ ∀ c ∈ digits, '0' ≤ c ∧ c ≤ '9'

/-- The number of some digits, the last of them being the ones. -/
def positional (digits : List Char) : Nat :=
  Nat.ofDigits 10 (digits.map fun c => c.toNat - '0'.toNat).reverse

/-- `Numeral text n`: the text is written with digits, and a minus sign in front
or none, and stands for the number. -/
inductive Numeral : List Char → Int → Prop
  | plain {digits : List Char} : IsDigits digits → Numeral digits (positional digits)
  | minus {digits : List Char} : IsDigits digits → Numeral ('-' :: digits) (-positional digits)

theorem isDigit_iff (c : Char) : c.isDigit = true ↔ '0' ≤ c ∧ c ≤ '9' := by
  simp [Char.isDigit, Char.le_def]

theorem positional_cons (c : Char) (digits : List Char) :
    positional (c :: digits) = 10 ^ digits.length * (c.toNat - '0'.toNat) + positional digits := by
  unfold positional
  rw [List.map_cons, Nat.ofDigits_reverse_cons, List.length_map, Nat.add_comm]

/-- Reading digits from the left gives their number. -/
theorem ofDigitChars_eq_positional (digits : List Char) :
    Nat.ofDigitChars 10 digits 0 = positional digits := by
  induction digits with
  | nil => rfl
  | cons c digits ih =>
      rw [Nat.ofDigitChars_cons, Nat.ofDigitChars_eq_ofDigitChars_zero, ih, positional_cons]
      simp

/-- Zeros in front do not count. -/
theorem positional_zeros (count : Nat) (digits : List Char) :
    positional (List.replicate count '0' ++ digits) = positional digits := by
  unfold positional
  simp

/-! ## Reading -/

theorem magnitude?_eq_some_iff {digits : List Char} {n : Nat} :
    magnitude? digits = some n ↔ IsDigits digits ∧ n = positional digits := by
  have all : (!digits.isEmpty && digits.all Char.isDigit) = true ↔ IsDigits digits := by
    simp [IsDigits, isDigit_iff]
  unfold magnitude?
  rw [ofDigitChars_eq_positional]
  by_cases h : IsDigits digits
  · rw [if_pos (all.2 h)]
    simp [h, eq_comm]
  · rw [if_neg (mt all.1 h)]
    simp [h]

theorem IsDigits.head_ne_minus {digits : List Char} (h : IsDigits digits) (rest : List Char) :
    digits ≠ '-' :: rest := by
  rintro rfl
  have low := (h.2 '-' List.mem_cons_self).1
  exact absurd low (by decide)

theorem number?_minus (digits : List Char) :
    number? ('-' :: digits) = (magnitude? digits).map fun n : Nat => -(n : Int) := by
  simp only [number?]
  cases magnitude? digits <;> rfl

theorem number?_plain {digits : List Char} (h : ∀ rest, digits ≠ '-' :: rest) :
    number? digits = (magnitude? digits).map fun n : Nat => (n : Int) := by
  unfold number?
  split
  · next rest => exact absurd rfl (h rest)
  · cases magnitude? digits <;> rfl

theorem number?_eq_some_iff {text : List Char} {n : Int} :
    number? text = some n ↔ Numeral text n := by
  constructor
  · intro h
    by_cases minus : ∃ digits, text = '-' :: digits
    · obtain ⟨digits, rfl⟩ := minus
      rw [number?_minus] at h
      obtain ⟨m, found, rfl⟩ := Option.map_eq_some_iff.1 h
      obtain ⟨isDigits, rfl⟩ := magnitude?_eq_some_iff.1 found
      exact .minus isDigits
    · rw [number?_plain (not_exists.1 minus)] at h
      obtain ⟨m, found, rfl⟩ := Option.map_eq_some_iff.1 h
      obtain ⟨isDigits, rfl⟩ := magnitude?_eq_some_iff.1 found
      exact .plain isDigits
  · intro h
    cases h with
    | plain isDigits =>
        rw [number?_plain isDigits.head_ne_minus, magnitude?_eq_some_iff.2 ⟨isDigits, rfl⟩]
        rfl
    | minus isDigits =>
        rw [number?_minus, magnitude?_eq_some_iff.2 ⟨isDigits, rfl⟩]
        rfl

/-- **Reading.** A word has a value exactly if it is a numeral of that value. -/
theorem parse?_eq_some_iff {word : String} {value : Int64} :
    parse? word = some value ↔ Numeral word.toList value.toInt := by
  rw [← number?_eq_some_iff]
  unfold parse?
  cases number? word.toList with
  | none => simp
  | some n =>
      rw [Option.some.injEq]
      dsimp only
      constructor
      · intro h
        split at h
        · next fits =>
            have below : n < 2 ^ 63 := Int.lt_of_le_sub_one fits.2
            rw [← Option.some.inj h, Int64.toInt_ofInt_of_le fits.1 below]
        · cases h
      · rintro rfl
        rw [if_pos ⟨value.minValue_le_toInt, value.toInt_le⟩, Int64.ofInt_toInt]

/-- A word has no value if it is no numeral, or its number does not fit. -/
theorem parse?_eq_none_iff {word : String} :
    parse? word = none ↔ ¬ ∃ n, Numeral word.toList n ∧ -2 ^ 63 ≤ n ∧ n ≤ 2 ^ 63 - 1 := by
  constructor
  · rintro h ⟨n, numeral, low, high⟩
    have same : (Int64.ofInt n).toInt = n := Int64.toInt_ofInt_of_le low (by omega)
    have found := parse?_eq_some_iff.2 (same.symm ▸ numeral)
    rw [h] at found
    cases found
  · intro h
    rw [Option.eq_none_iff_forall_ne_some]
    intro value found
    have below := value.toInt_lt
    exact h ⟨value.toInt, parse?_eq_some_iff.1 found, value.le_toInt, by omega⟩

/-- Zeros behind the sign do not change a word's value. -/
theorem parse?_zeros {digits : List Char} (h : IsDigits digits) (count : Nat) :
    parse? (String.ofList (List.replicate count '0' ++ digits)) = parse? (String.ofList digits) ∧
      parse? (String.ofList ('-' :: (List.replicate count '0' ++ digits))) =
        parse? (String.ofList ('-' :: digits)) := by
  have padded : IsDigits (List.replicate count '0' ++ digits) := by
    refine ⟨by simp [h.1], ?_⟩
    intro c mem
    rcases List.mem_append.1 mem with zero | digit
    · rw [List.eq_of_mem_replicate zero]
      decide
    · exact h.2 c digit
  have same := positional_zeros count digits
  have plain : number? (List.replicate count '0' ++ digits) = number? digits := by
    rw [number?_eq_some_iff.2 (.plain padded), number?_eq_some_iff.2 (.plain h), same]
  have minus : number? ('-' :: (List.replicate count '0' ++ digits)) = number? ('-' :: digits) := by
    rw [number?_eq_some_iff.2 (.minus padded), number?_eq_some_iff.2 (.minus h), same]
  unfold parse?
  simp only [String.toList_ofList, plain, minus, and_self]

/-- A word with another character than a digit, behind the sign that it may have,
has no value. -/
theorem parse?_eq_none_of_mem {word : String} {c : Char} (mem : c ∈ word.toList)
    (other : c ≠ '-') (noDigit : ¬ ('0' ≤ c ∧ c ≤ '9')) : parse? word = none := by
  rw [parse?_eq_none_iff]
  rintro ⟨n, numeral, -, -⟩
  generalize word.toList = text at mem numeral
  cases numeral with
  | plain isDigits => exact absurd (isDigits.2 c mem) noDigit
  | minus isDigits =>
      rcases List.mem_cons.1 mem with minus | digit
      · exact absurd minus other
      · exact absurd (isDigits.2 c digit) noDigit

/-! ## Writing -/

/-- `Canonical text`: a numeral without a zero in front of other digits, and
without a sign in front of zero. -/
inductive Canonical : List Char → Prop
  | zero : Canonical ['0']
  | plain {first : Char} {rest : List Char} : '1' ≤ first → IsDigits (first :: rest) →
      Canonical (first :: rest)
  | minus {first : Char} {rest : List Char} : '1' ≤ first → IsDigits (first :: rest) →
      Canonical ('-' :: first :: rest)

theorem isDigits_decimal (n : Nat) : IsDigits (Text.decimal n).toList := by
  refine ⟨by simp [Text.decimal], ?_⟩
  intro c mem
  exact (isDigit_iff c).1 (Text.isDigit_of_mem_decimal mem)

theorem positional_decimal (n : Nat) : positional (Text.decimal n).toList = n := by
  rw [← ofDigitChars_eq_positional, Text.ofDigitChars_decimal]

theorem one_le_digitChar : ∀ digit < 10, 0 < digit → '1' ≤ Nat.digitChar digit := by
  decide

theorem exists_first_digit {n : Nat} (pos : 0 < n) :
    ∃ first rest, (Text.decimal n).toList = first :: rest ∧ '1' ≤ first := by
  rw [Text.decimal, String.toList_ofList]
  induction n using Nat.strong_induction_on with
  | _ n ih =>
    rw [Nat.toDigits_eq_if (by decide)]
    split
    · next small => exact ⟨n.digitChar, [], rfl, one_le_digitChar n small pos⟩
    · -- the first digit of a larger number is that of its tenth part
      obtain ⟨first, rest, digits, nonzero⟩ := ih (n / 10) (by omega) (by omega)
      exact ⟨first, _, by rw [digits]; rfl, nonzero⟩

theorem canonical_render (value : Int64) : Canonical (render value).toList := by
  have isDigits := isDigits_decimal value.toInt.natAbs
  unfold render
  split
  · next negative =>
      obtain ⟨first, rest, digits, nonzero⟩ := exists_first_digit (Int.natAbs_pos.2 negative.ne)
      rw [String.toList_append, digits]
      exact .minus nonzero (digits ▸ isDigits)
  · by_cases zero : value.toInt = 0
    · rw [zero]
      exact .zero
    · obtain ⟨first, rest, digits, nonzero⟩ := exists_first_digit (Int.natAbs_pos.2 zero)
      rw [digits]
      exact .plain nonzero (digits ▸ isDigits)

theorem numeral_render (value : Int64) : Numeral (render value).toList value.toInt := by
  have isDigits := isDigits_decimal value.toInt.natAbs
  have number := positional_decimal value.toInt.natAbs
  unfold render
  split
  · next negative =>
      have written := Numeral.minus isDigits
      rw [number, Int.ofNat_natAbs_of_nonpos (by omega), Int.neg_neg] at written
      rw [String.toList_append]
      exact written
  · have written := Numeral.plain isDigits
    rw [number, Int.natAbs_of_nonneg (by omega)] at written
    exact written

/-- **Writing.** The text of a value reads back as that value. -/
theorem parse?_render (value : Int64) : parse? (render value) = some value :=
  parse?_eq_some_iff.2 (numeral_render value)

theorem render_injective {value other : Int64} (same : render value = render other) :
    value = other := by
  have reads := parse?_render value
  rw [same, parse?_render] at reads
  exact (Option.some.inj reads).symm

theorem render_ne_null (value : Int64) : render value ≠ "null" := by
  intro null
  have read := parse?_render value
  have unread : parse? "null" = none := by decide
  rw [null, unread] at read
  cases read

/-! ## Literals in a script -/

theorem shown_eq_render_iff {found : Option Int64} {value : Int64} :
    Statement.shown found = render value ↔ found = some value := by
  cases found with
  | none => simp [Statement.shown, (render_ne_null value).symm]
  | some number =>
      constructor
      · intro same
        rw [render_injective same]
      · rintro ⟨⟩
        rfl

/-- Where no name is set, an assignment gives its target the value of a literal,
or nothing. -/
theorem exists_assigned {target equals : Lexeme} (operand : Lexeme)
    (htarget : target.token.IsTarget) (hequals : equals.token = .equals) :
    ∃ changed effects, Passes [target, equals, operand] Memory.empty.openScope changed effects ∧
      effects.lines = [] ∧ changed.read target.text = parse? operand.text ∧
      changed.depth = 1 := by
  have found : Statement.operandValue operand.text Memory.empty.openScope =
      parse? operand.text := Option.or_none
  have isOpen : 0 < Memory.empty.openScope.depth := Nat.one_pos
  cases read : parse? operand.text with
  | some value =>
      have assigned := Statement.exec_assign_of_some (found.trans read) target.text
      refine ⟨_, _, Passes.of_exec (.assign htarget hequals) assigned, rfl, ?_, ?_⟩
      · rw [Memory.read_write isOpen, if_pos rfl]
      · rw [Memory.depth_write]
        rfl
  | none =>
      have skipped := Statement.exec_assign_of_none (found.trans read) target.text
      exact ⟨_, _, Passes.of_exec (.assign htarget hequals) skipped, rfl, rfl, rfl⟩

/-- A name that was assigned a word shows the word's value as a literal. -/
theorem evaluate_assign_print {name : Target} {word source : String}
    (layout : Text.Layout [name.text, "=", word, "print", name.text] source.toList) :
    (evaluate source).1 = .ok [Statement.shown (parse? word)] := by
  obtain ⟨target, rest, whole, htarget, spelled⟩ := (spelled_lexemes layout).cons_inv
  obtain ⟨equals, rest, rfl, hequals, spelled⟩ := spelled.cons_inv
  obtain ⟨operand, rest, rfl, hoperand, spelled⟩ := spelled.cons_inv
  obtain ⟨keyword, rest, rfl, hkeyword, spelled⟩ := spelled.cons_inv
  obtain ⟨again, rest, rfl, hagain, spelled⟩ := spelled.cons_inv
  rw [spelled.nil_inv] at whole
  have isTarget : target.token.IsTarget := htarget ▸ name.isTarget
  have same : again.text = target.text := by
    rw [Command.text_of_token hagain, Command.text_of_token htarget]
  obtain ⟨changed, effects, passes, silent, shows, depth⟩ :=
    exists_assigned operand isTarget hequals
  have shown : Passes [keyword, again] changed changed _ := Passes.of_exec (.print hkeyword) rfl
  have printed := passes.append shown
  replace whole : [target, equals, operand] ++ [keyword, again] = lexemes source := whole.symm
  rw [whole] at printed
  rw [evaluate_of_passes printed (by omega)]
  rw [same, shows, Command.text_of_token hoperand]
  simp [silent, Execution.begun]

/-- What is to be known of literals: which words have a value, how a value is
written, and that a script shows the value of its literals. -/
structure Exact : Prop where
  accepts : ∀ (word : String) (value : Int64), parse? word = some value ↔
    ∃ n, Numeral word.toList n ∧ -2 ^ 63 ≤ n ∧ n ≤ 2 ^ 63 - 1 ∧ value.toInt = n
  refuses : ∀ word, parse? word = none ↔
    ¬ ∃ n, Numeral word.toList n ∧ -2 ^ 63 ≤ n ∧ n ≤ 2 ^ 63 - 1
  zeros : ∀ digits count, IsDigits digits →
    parse? (String.ofList (List.replicate count '0' ++ digits)) = parse? (String.ofList digits) ∧
      parse? (String.ofList ('-' :: (List.replicate count '0' ++ digits))) =
        parse? (String.ofList ('-' :: digits))
  /-- No sign but a minus and no other digits are read. -/
  noOther : ∀ word, ∀ c ∈ word.toList, c ≠ '-' → ¬ ('0' ≤ c ∧ c ≤ '9') → parse? word = none
  writes : ∀ value, parse? (render value) = some value ∧ Canonical (render value).toList
  /-- A name that was assigned a word shows a value exactly if the word is a
  literal of it, and otherwise that it has none. -/
  shows : ∀ (name : Target) (word source : String),
    Text.Layout [name.text, "=", word, "print", name.text] source.toList →
      (∀ value, (evaluate source).1 = .ok [render value] ↔ parse? word = some value) ∧
        (parse? word = none → (evaluate source).1 = .ok ["null"])

/-- **Literals.** A word is a literal exactly if it is a numeral whose number fits
into 64 bits with a sign, and its value is that number, however many zeros stand
in front.  Every value is written as a numeral without leading zeros that reads
back, and this is what a script prints for a literal and for no other word. -/
theorem literals_exact : Exact := by
  refine ⟨?_, fun _ => parse?_eq_none_iff, ?_, ?_, ?_, ?_⟩
  · intro word value
    have below := value.toInt_lt
    rw [parse?_eq_some_iff]
    constructor
    · intro numeral
      exact ⟨value.toInt, numeral, value.le_toInt, by omega, rfl⟩
    · rintro ⟨n, numeral, -, -, rfl⟩
      exact numeral
  · intro digits count isDigits
    exact parse?_zeros isDigits count
  · intro word c mem other noDigit
    exact parse?_eq_none_of_mem mem other noDigit
  · intro value
    exact ⟨parse?_render value, canonical_render value⟩
  · intro name word source layout
    rw [evaluate_assign_print layout]
    constructor
    · intro value
      rw [← shown_eq_render_iff]
      simp
    · intro unread
      rw [unread]
      rfl

/-- The numbers next to both ends of the range, with zeros in front of one, and
words that are almost numerals. -/
example : parse? "-0009223372036854775808" = some Int64.minValue ∧
    parse? "9223372036854775808" = none ∧ parse? "-9223372036854775809" = none ∧
    parse? "-0" = some 0 ∧ parse? "+1" = none ∧ parse? "-" = none ∧ parse? "" = none := by
  decide

end ScopeLang.Literal
