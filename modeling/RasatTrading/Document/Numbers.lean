import Mathlib.Tactic.IntervalCases
import RasatTrading.Document.Read
import RasatTrading.Document.Write

/-! Numbers that are written into a document are read back as they were. -/

namespace Document

open Rounding

/-- A point and the digits behind it. -/
def fractionChars : Option (List Char) → List Char
  | none => []
  | some digits => '.' :: digits

/-- The letter, the sign and the digits of an exponent. -/
def exponentChars : Option (Bool × List Char) → List Char
  | none => []
  | some (negative, digits) => 'e' :: (if negative then '-' else '+') :: digits

/-- The characters of a literal. -/
def Numeral.chars (n : Numeral) : List Char :=
  sign n.negative ++ (n.whole ++ (fractionChars n.fraction ++ exponentChars n.exponent))

/-- A run of digits. -/
def Digits (chars : List Char) : Prop := chars ≠ [] ∧ ∀ c ∈ chars, c.isDigit = true

/-- Digits before a point: a single zero, or digits that do not start with one. -/
def Leading (chars : List Char) : Prop := Digits chars ∧ (chars = ['0'] ∨ chars.head? ≠ some '0')

/-- A literal that the grammar of numbers has. -/
structure Numeral.Proper (n : Numeral) : Prop where
  whole : Leading n.whole
  fraction : ∀ digits ∈ n.fraction, Digits digits
  exponent : ∀ part ∈ n.exponent, Digits part.2

/-- What may follow a document in a text. -/
def Ends (tail : List Char) : Prop := ∀ c ∈ tail.head?, c = ',' ∨ c = ']' ∨ c = '\x7d'

/-- Behind a run of digits the reader stops at the next character that is none. -/
theorem readDigits_append {digits tail : List Char} (run : ∀ c ∈ digits, c.isDigit = true)
    (stop : ∀ c ∈ tail.head?, c.isDigit = false) : readDigits (digits ++ tail) = (digits, tail) := by
  have nothing : tail.takeWhile Char.isDigit = [] ∧ tail.dropWhile Char.isDigit = tail := by
    cases tail with
    | nil => simp
    | cons c rest => simp [stop c rfl]
  unfold readDigits
  rw [List.span_eq_takeWhile_dropWhile, List.takeWhile_append_of_pos run, List.dropWhile_append_of_pos run,
    nothing.1, nothing.2, List.append_nil]

/-- A sign is read where one is written. -/
theorem readSign_append {negative : Bool} {chars : List Char} (unsigned : chars.head? ≠ some '-') :
    readSign (sign negative ++ chars) = (negative, chars) := by
  cases negative with
  | true => rfl
  | false =>
    -- Without a sign the number starts with a digit.
    cases chars with
    | nil => rfl
    | cons c rest =>
      have other : c ≠ '-' := by simpa using unsigned
      simp [sign, readSign, other]

variable {tail : List Char}

/-- Behind an exponent, if there is one, a document ends. -/
theorem readExponent_append {exponent : Option (Bool × List Char)}
    (proper : ∀ part ∈ exponent, Digits part.2) (ends : Ends tail) :
    readExponent (exponentChars exponent ++ tail) = (exponent, tail) := by
  cases exponent with
  | none =>
    cases tail with
    | nil => rfl
    | cons c rest =>
      -- No end of a document is the letter of an exponent.
      rcases ends c rfl with rfl | rfl | rfl <;> rfl
  | some part =>
    obtain ⟨negative, digits⟩ := part
    obtain ⟨filled, run⟩ := proper (negative, digits) rfl
    have behind : readDigits (digits ++ tail) = (digits, tail) := by
      apply readDigits_append run
      intro c first
      rcases ends c first with rfl | rfl | rfl <;> rfl
    cases negative <;> simp [exponentChars, readExponent, readExponentSign, readSign, behind, filled]

/-- Neither an exponent nor what follows a document continues a fraction. -/
theorem exponentChars_stop (exponent : Option (Bool × List Char)) (ends : Ends tail) :
    ∀ c ∈ (exponentChars exponent ++ tail).head?, c.isDigit = false ∧ c ≠ '.' := by
  intro c first
  cases exponent with
  | none => rcases ends c first with rfl | rfl | rfl <;> decide
  | some part =>
    obtain rfl : 'e' = c := Option.some.inj first
    decide

/-- Behind a fraction, if there is one, no digit and no point follows. -/
theorem readFraction_append {fraction : Option (List Char)} {rest : List Char}
    (proper : ∀ digits ∈ fraction, Digits digits) (stop : ∀ c ∈ rest.head?, c.isDigit = false ∧ c ≠ '.') :
    readFraction (fractionChars fraction ++ rest) = (fraction, rest) := by
  cases fraction with
  | none =>
    cases rest with
    | nil => rfl
    | cons c rest =>
      have other := (stop c rfl).2
      simp [fractionChars, readFraction, other]
  | some digits =>
    obtain ⟨filled, run⟩ := proper digits rfl
    have behind := readDigits_append run fun c first => (stop c first).1
    simp [fractionChars, readFraction, behind, filled]

/-- No digit follows the digits before the point. -/
theorem fractionChars_stop {fraction : Option (List Char)} {rest : List Char}
    (stop : ∀ c ∈ rest.head?, c.isDigit = false ∧ c ≠ '.') :
    ∀ c ∈ (fractionChars fraction ++ rest).head?, c.isDigit = false := by
  intro c first
  cases fraction with
  | none => exact (stop c first).1
  | some digits =>
    obtain rfl : '.' = c := Option.some.inj first
    rfl

theorem readWhole_append {whole rest : List Char} (leading : Leading whole)
    (stop : ∀ c ∈ rest.head?, c.isDigit = false) : readWhole (whole ++ rest) = some (whole, rest) := by
  obtain ⟨⟨filled, run⟩, shape⟩ := leading
  have behind := readDigits_append run stop
  rcases shape with rfl | nonzero
  · rfl
  · cases whole with
    | nil => exact absurd rfl filled
    | cons c more =>
      have other : c ≠ '0' := by simpa using nonzero
      rw [List.cons_append] at behind ⊢
      simp [readWhole, other, behind]

/-- A number starts with a digit behind its sign. -/
theorem Leading.head {whole : List Char} (leading : Leading whole) (rest : List Char) :
    ∃ c more, whole ++ rest = c :: more ∧ c.isDigit = true := by
  obtain ⟨⟨filled, run⟩, -⟩ := leading
  cases whole with
  | nil => exact absurd rfl filled
  | cons c more => exact ⟨c, more ++ rest, rfl, run c List.mem_cons_self⟩

/-- A literal is read up to its end. -/
theorem readNumber_chars {n : Numeral} (proper : n.Proper) (ends : Ends tail) :
    readNumber (n.chars ++ tail) = n.document.map fun document => (document, tail) := by
  obtain ⟨leading, fractions, exponents⟩ := proper
  have stop := exponentChars_stop n.exponent ends
  have unsigned : (n.whole ++ (fractionChars n.fraction ++ (exponentChars n.exponent ++ tail))).head? ≠
      some '-' := by
    obtain ⟨c, more, same, digit⟩ := leading.head (fractionChars n.fraction ++ (exponentChars n.exponent ++ tail))
    rw [same]
    rintro ⟨⟩
    cases digit
  unfold readNumber Numeral.chars
  simp only [List.append_assoc, readSign_append unsigned, readWhole_append leading (fractionChars_stop stop),
    readFraction_append fractions stop, readExponent_append exponents ends]
  cases n.document <;> rfl

/-! Whole numbers. -/

/-- The literal of a whole number. -/
def intNumeral (value : ℤ) : Numeral where
  negative := value < 0
  whole := Nat.toDigits 10 value.natAbs

/-- The digits of a positive number do not start with a zero. -/
theorem head_toDigits (n : ℕ) (positive : 0 < n) : (Nat.toDigits 10 n).head? ≠ some '0' := by
  -- The first digit is that of the number without its last digit.
  induction n using Nat.strongRecOn with
  | ind n ih =>
    rcases Nat.lt_or_ge n 10 with small | large
    · rw [Nat.toDigits_of_lt_base small]
      interval_cases n <;> decide
    · rw [Nat.toDigits_of_base_le (by decide) large, List.head?_append_of_ne_nil _ Nat.toDigits_ne_nil]
      apply ih (n / 10) <;> omega

/-- The digits of a number are a zero, or do not start with one. -/
theorem leading_toDigits (n : ℕ) : Leading (Nat.toDigits 10 n) := by
  refine ⟨⟨Nat.toDigits_ne_nil, fun c member => Nat.isDigit_of_mem_toDigits (by decide) (by decide) member⟩, ?_⟩
  cases n with
  | zero => exact .inl rfl
  | succ n => exact .inr (head_toDigits (n + 1) n.succ_pos)

theorem intNumeral_proper (value : ℤ) : (intNumeral value).Proper where
  whole := leading_toDigits value.natAbs
  fraction digits present := by cases present
  exponent part present := by cases present

theorem intNumeral_chars (value : ℤ) : (intNumeral value).chars = writeInt value := by
  simp [Numeral.chars, intNumeral, writeInt, fractionChars, exponentChars]

/-- A whole number is its size with its sign. -/
theorem signed_natAbs (value : ℤ) : signed (decide (value < 0)) value.natAbs = value := by
  unfold signed
  by_cases negative : value < 0
  · rw [if_pos (decide_eq_true negative)]
    omega
  · rw [if_neg (by simpa using negative)]
    omega

/-- Few digits are a small size. -/
theorem shortInt_iff {value : ℤ} : shortInt value = true ↔ value.natAbs < 10 ^ maxDigits :=
  decide_eq_true_iff.trans (Nat.length_toDigits_le_iff (by decide) (by decide))

theorem intNumeral_document {value : ℤ} (fits : shortInt value = true) :
    (intNumeral value).document = .ok (.int value) := by
  have few : (Nat.toDigits 10 value.natAbs).length ≤ maxDigits := of_decide_eq_true fits
  have read : digitsValue (Nat.toDigits 10 value.natAbs) = value.natAbs := Nat.ofDigitChars_ten_toDigits
  have same := signed_natAbs value
  simp [Numeral.document, intNumeral, few, read, same]

/-! Floats. -/

/-- The literal of a decimal number as floats are written. -/
def decimalNumeral (negative : Bool) (d : Decimal) : Numeral :=
  if -4 < d.point ∧ d.point ≤ 16 then { negative := negative, whole := d.parts.1, fraction := some d.parts.2 }
  else {
    negative := negative
    whole := d.digits.take 1
    fraction := if d.digits.length = 1 then none else some (d.digits.drop 1)
    exponent := some (decide (d.point - 1 < 0), Decimal.exponentDigits (d.point - 1).natAbs) }

theorem decimalNumeral_chars (negative : Bool) (d : Decimal) :
    (decimalNumeral negative d).chars = sign negative ++ d.chars := by
  unfold decimalNumeral Decimal.chars
  split
  · simp [Numeral.chars, Decimal.positional, fractionChars, exponentChars]
  · unfold Numeral.chars Decimal.scientific
    split <;> simp [fractionChars, exponentChars]

/-- The digits of an exponent are its value. -/
theorem exponentDigits_spec (size : ℕ) :
    Digits (Decimal.exponentDigits size) ∧ digitsValue (Decimal.exponentDigits size) = size := by
  have read : Nat.ofDigitChars 10 (Nat.toDigits 10 size) 0 = size := Nat.ofDigitChars_ten_toDigits
  obtain ⟨⟨filled, run⟩, -⟩ := leading_toDigits size
  unfold Decimal.exponentDigits digitsValue
  split
  · -- A single digit is padded with a zero.
    refine ⟨⟨by simp, ?_⟩, by simp [Nat.ofDigitChars_cons]⟩
    intro c member
    rcases List.mem_cons.mp member with rfl | inside
    · rfl
    · exact run c inside
  · exact ⟨⟨filled, run⟩, read⟩

/-- The number of a decimal's literal is the decimal. -/
theorem decimalNumeral_value (negative : Bool) (d : Decimal) : (decimalNumeral negative d).value = d.value := by
  unfold decimalNumeral
  split
  · rw [← d.parts_value]
    simp [Numeral.value, Numeral.scale, digitsValue, zpow_neg, div_eq_mul_inv]
  · have long : 0 < d.digits.length := Nat.length_toDigits_pos
    have digits : digitsValue d.digits = d.numeral := Nat.ofDigitChars_ten_toDigits
    -- A single digit leaves nothing behind the point.
    have fraction : (if d.digits.length = 1 then none else some (d.digits.drop 1)).getD [] = d.digits.drop 1 := by
      split
      · rename_i single
        exact (List.drop_of_length_le single.le).symm
      · rfl
    have place : d.point = d.digits.length + d.exponent := rfl
    have scale : d.point - 1 - ((d.digits.drop 1).length : ℤ) = d.exponent := by
      rw [List.length_drop]
      omega
    unfold Numeral.value Numeral.scale
    simp only [fraction, List.take_append_drop, digits, Option.elim_some, (exponentDigits_spec _).2, signed_natAbs,
      scale]
    rfl

/-- The digits before the point of a positive decimal. -/
theorem leading_parts (d : Decimal) : Leading d.parts.1 ∧ Digits d.parts.2 := by
  have long : 0 < d.digits.length := Nat.length_toDigits_pos
  have filled : d.digits ≠ [] := Nat.toDigits_ne_nil
  have run : ∀ c ∈ d.digits, c.isDigit = true := d.isDigit_digits
  have first : d.digits.head? ≠ some '0' := head_toDigits d.numeral d.positive
  have zeros {count : ℕ} : ∀ c ∈ List.replicate count '0', c.isDigit = true := Decimal.isDigit_zeros
  unfold Decimal.parts
  split
  · -- All digits stand behind the point.
    refine ⟨⟨⟨by simp, by simp⟩, .inl rfl⟩, by simp [filled], ?_⟩
    intro c member
    rcases List.mem_append.mp member with zero | digit
    · exact zeros c zero
    · exact run c digit
  split
  · -- The point stands between two digits.
    rename_i behind before
    refine ⟨⟨⟨?_, fun c member => run c (List.mem_of_mem_take member)⟩, .inr ?_⟩, ?_,
      fun c member => run c (List.mem_of_mem_drop member)⟩
    · simp only [ne_eq, List.take_eq_nil_iff]
      intro nothing
      rcases nothing with zero | empty
      · omega
      · exact filled empty
    · rw [List.head?_take, if_neg (by omega)]
      exact first
    · simp only [ne_eq, List.drop_eq_nil_iff]
      omega
  · -- All digits stand before the point.
    refine ⟨⟨⟨by simp [filled], ?_⟩, .inr ?_⟩, by simp, by simp⟩
    · intro c member
      rcases List.mem_append.mp member with digit | zero
      · exact run c digit
      · exact zeros c zero
    · dsimp only
      rw [List.head?_append_of_ne_nil _ filled]
      exact first

theorem decimalNumeral_proper (negative : Bool) (d : Decimal) : (decimalNumeral negative d).Proper := by
  obtain ⟨leading, behind⟩ := leading_parts d
  have filled : d.digits ≠ [] := Nat.toDigits_ne_nil
  have run : ∀ c ∈ d.digits, c.isDigit = true := d.isDigit_digits
  have first : d.digits.head? ≠ some '0' := head_toDigits d.numeral d.positive
  unfold decimalNumeral
  split
  · refine ⟨leading, ?_, ?_⟩
    · intro digits present
      cases present
      exact behind
    · intro part present
      cases present
  · refine ⟨⟨⟨?_, fun c member => run c (List.mem_of_mem_take member)⟩, .inr ?_⟩, ?_, ?_⟩
    · simp [List.take_eq_nil_iff, filled]
    · rw [List.head?_take, if_neg (by decide)]
      exact first
    · intro digits present
      dsimp only at present
      split at present
      · cases present
      · cases present
        rename_i several
        have long : 0 < d.digits.length := Nat.length_toDigits_pos
        refine ⟨?_, fun c member => run c (List.mem_of_mem_drop member)⟩
        simp only [ne_eq, List.drop_eq_nil_iff]
        omega
    · intro part present
      cases present
      exact (exponentDigits_spec _).1

/-- The literal of a float. -/
def floatNumeral (negative : Bool) (m : Magnitude) : Numeral :=
  if positive : m.significand ≠ 0 then decimalNumeral negative (m.shortest positive)
  else { negative := negative, whole := ['0'], fraction := some ['0'] }

theorem floatNumeral_chars (negative : Bool) (m : Magnitude) :
    (floatNumeral negative m).chars = writeFloat (.finite negative m) := by
  unfold floatNumeral
  show _ = sign negative ++ m.chars
  unfold Magnitude.chars
  split
  · exact decimalNumeral_chars negative _
  · rfl

theorem floatNumeral_proper (negative : Bool) (m : Magnitude) : (floatNumeral negative m).Proper := by
  unfold floatNumeral
  split
  · exact decimalNumeral_proper negative _
  · refine ⟨⟨⟨by simp, by simp⟩, .inl rfl⟩, ?_, ?_⟩
    · intro digits present
      cases present
      exact ⟨by simp, by simp⟩
    · intro part present
      cases present

/-- The shortest literal of a float is read as that float. -/
theorem floatNumeral_document (negative : Bool) (m : Magnitude) :
    (floatNumeral negative m).document = .ok (.float (.finite negative m)) := by
  -- A literal of a float has a point or an exponent.
  have real : ((floatNumeral negative m).fraction.isSome || (floatNumeral negative m).exponent.isSome) = true := by
    unfold floatNumeral decimalNumeral
    split
    · split <;> simp
    · rfl
  have own : (floatNumeral negative m).negative = negative := by
    unfold floatNumeral decimalNumeral
    split
    · split <;> rfl
    · rfl
  have nearest : Magnitude.nearest (floatNumeral negative m).value = some m := by
    unfold floatNumeral
    split
    · rename_i positive
      rw [decimalNumeral_value, Magnitude.nearest_shortest]
    · rename_i vanishing
      -- The literal of zero and the float are both zero.
      have zero : m.value = 0 := by
        unfold Magnitude.value
        rw [not_not.mp vanishing]
        simp
      rw [← Magnitude.nearest_value m, zero]
      simp [Numeral.value, digitsValue, Nat.ofDigitChars_cons]
  simp [Numeral.document, real, own, Double.ofDecimal, nearest]

end Document
