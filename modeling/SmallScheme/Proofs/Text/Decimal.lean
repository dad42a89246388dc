/-
This file shows that a sign and decimal digits read as the integer that they denote, and that a written
integer reads back as itself.
-/

import SmallScheme.Text.Decimal

namespace SmallScheme.Text.Decimal

variable {digits : List Char}

/-- Digits alone denote a natural number. -/
theorem readMagnitude?_of_digits (present : digits ≠ []) (all : ∀ c ∈ digits, c.isDigit = true) :
    readMagnitude? digits = some (Nat.ofDigitChars 10 digits 0) := by
  obtain ⟨first, rest, rfl⟩ := List.exists_cons_of_ne_nil present
  have kept : (first :: rest).filter Char.isDigit = first :: rest := List.filter_eq_self.mpr all
  have others : rest.all (fun c => c.isDigit || c == '_') = true := by
    simp only [List.all_eq_true]
    intro c member
    simp [all c (List.mem_cons_of_mem first member)]
  rw [readMagnitude?, all first List.mem_cons_self, others, magnitude, kept]
  rfl

/-- Digits without a sign read as the number that they denote. -/
theorem read?_of_digits (present : digits ≠ []) (all : ∀ c ∈ digits, c.isDigit = true) :
    read? digits = some (Nat.ofDigitChars 10 digits 0 : Int) := by
  have magnitude := readMagnitude?_of_digits present all
  unfold read?
  split
  · exact absurd (all '+' List.mem_cons_self) (by decide)
  · exact absurd (all '-' List.mem_cons_self) (by decide)
  · simp [magnitude]

/-- A plus sign changes nothing. -/
theorem read?_plus (present : digits ≠ []) (all : ∀ c ∈ digits, c.isDigit = true) :
    read? ('+' :: digits) = some (Nat.ofDigitChars 10 digits 0 : Int) := by
  simp [read?, readMagnitude?_of_digits present all]

/-- A minus sign negates. -/
theorem read?_minus (present : digits ≠ []) (all : ∀ c ∈ digits, c.isDigit = true) :
    read? ('-' :: digits) = some (-(Nat.ofDigitChars 10 digits 0 : Int)) := by
  simp [read?, readMagnitude?_of_digits present all]

/-- A natural number is written in digits. -/
theorem isDigit_of_mem_digits {value : Nat} {char : Char} (member : char ∈ Decimal.digits value) :
    char.isDigit :=
  Nat.isDigit_of_mem_toDigits (by decide) (by decide) member

/-- An integer is written with digits and perhaps a minus sign. -/
theorem isDigit_or_minus_of_mem {value : Int} {char : Char} (member : char ∈ (text value).toList) :
    char.isDigit = true ∨ char = '-' := by
  rw [text, String.toList_ofList] at member
  cases value with
  | ofNat value => exact .inl (isDigit_of_mem_digits member)
  | negSucc value =>
      rcases List.mem_cons.mp member with minus | digit
      · exact .inr minus
      · exact .inl (isDigit_of_mem_digits digit)

/-- A written integer reads back as itself. -/
theorem read?_chars (value : Int) : read? (chars value) = some value := by
  have present (value : Nat) : Decimal.digits value ≠ [] := Nat.toDigits_ne_nil
  have denoted (value : Nat) : Nat.ofDigitChars 10 (Decimal.digits value) 0 = value :=
    Nat.ofDigitChars_toDigits (by decide) (by decide)
  cases value with
  | ofNat value =>
      rw [chars, read?_of_digits (present value) fun _ => isDigit_of_mem_digits, denoted]
      rfl
  | negSucc value =>
      rw [chars, read?_minus (present (value + 1)) fun _ => isDigit_of_mem_digits, denoted]
      rfl

end SmallScheme.Text.Decimal
