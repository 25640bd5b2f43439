import Mathlib.Algebra.Order.Archimedean.Basic
import Mathlib.Algebra.Order.Round
import Mathlib.Data.List.TakeWhile
import Mathlib.Data.Rat.Floor
import Mathlib.Tactic.NormNum
import RasatTrading.Rounding.Nearest

/-! Decimal numbers: how they are written, how they are read, and how many digits they need. -/

namespace Rounding

/-- A positive decimal number: a numeral and the power of ten of its last digit. -/
structure Decimal where
  numeral : ℕ
  exponent : ℤ
  positive : 0 < numeral

namespace Decimal

variable (d : Decimal)

/-- The number that it denotes. -/
def value : ℚ := d.numeral * 10 ^ d.exponent

/-- Its digits, the most significant one first. -/
def digits : List Char := Nat.toDigits 10 d.numeral

/-- Where the decimal point stands, counted from the first digit. -/
def point : ℤ := d.digits.length + d.exponent

/-- The number lies below the power of ten at its point. -/
theorem value_lt : d.value < 10 ^ d.point := by
  -- A numeral lies below the power of ten of its length.
  have below : d.numeral < 10 ^ d.digits.length :=
    (Nat.length_toDigits_le_iff (by decide) Nat.length_toDigits_pos).mp (Nat.le_refl _)
  have power : (0 : ℚ) < 10 ^ d.exponent := zpow_pos (by norm_num) _
  rw [point, zpow_add₀ (by norm_num), zpow_natCast]
  exact mul_lt_mul_of_pos_right (by exact_mod_cast below) power

/-- A numeral reaches the power of ten of its first digit. -/
theorem pow_le_numeral : 10 ^ (d.digits.length - 1) ≤ d.numeral := by
  by_cases single : d.digits.length = 1
  · rw [single]
    exact d.positive
  · -- A smaller numeral would have fewer digits.
    by_contra! below
    have long : 0 < d.digits.length := Nat.length_toDigits_pos
    have short := (Nat.length_toDigits_le_iff (by decide) (by omega)).mpr below
    change d.digits.length ≤ _ at short
    omega

/-- The number reaches the power of ten below its point. -/
theorem le_value : 10 ^ (d.point - 1) ≤ d.value := by
  have long : 0 < d.digits.length := Nat.length_toDigits_pos
  have split : d.point - 1 = ((d.digits.length - 1 : ℕ) : ℤ) + d.exponent := by
    unfold point
    omega
  have power : (0 : ℚ) < 10 ^ d.exponent := zpow_pos (by norm_num) _
  rw [split, zpow_add₀ (by norm_num), zpow_natCast]
  exact mul_le_mul_of_nonneg_right (by exact_mod_cast d.pow_le_numeral) power.le

/-- The number lies below a power of ten exactly when its point does not lie behind it. -/
theorem value_lt_pow_iff {power : ℤ} : d.value < 10 ^ power ↔ d.point ≤ power := by
  constructor
  · intro below
    -- Otherwise the number reaches the power of ten below its point.
    by_contra! beyond
    have reached : (10 : ℚ) ^ power ≤ 10 ^ (d.point - 1) :=
      zpow_le_zpow_right₀ (by norm_num) (by omega)
    linarith [d.le_value]
  · intro within
    exact d.value_lt.trans_le (zpow_le_zpow_right₀ (by norm_num) within)

/-- The number with one digit that is a power of ten. -/
def ofPower (power : ℤ) : Decimal := ⟨1, power, by decide⟩

theorem ofPower_value (power : ℤ) : (ofPower power).value = 10 ^ power := by
  simp [ofPower, value]

theorem ofPower_digits (power : ℤ) : (ofPower power).digits.length = 1 := by
  simp [ofPower, digits, Nat.toDigits_of_lt_base]

/-- A number with one digit that lies below a power of ten is at most nine tenths of it. -/
theorem le_nine_tenths {power : ℤ} (single : d.digits.length = 1) (below : d.value < 10 ^ power) :
    d.value ≤ 9 * 10 ^ (power - 1) := by
  -- One digit is at most nine, and its place lies before the power.
  have small : d.numeral < 10 ^ 1 :=
    (Nat.length_toDigits_le_iff (by decide) Nat.one_pos).mp single.le
  have nine : (d.numeral : ℚ) ≤ 9 := by exact_mod_cast Nat.le_of_lt_succ small
  have within := d.value_lt_pow_iff.mp below
  have exponent : d.exponent ≤ power - 1 := by
    unfold point at within
    omega
  have power_le : (10 : ℚ) ^ d.exponent ≤ 10 ^ (power - 1) := zpow_le_zpow_right₀ (by norm_num) exponent
  have positive : (0 : ℚ) ≤ 10 ^ d.exponent := (zpow_pos (by norm_num) _).le
  exact mul_le_mul nine power_le positive (by norm_num)

/-! How a decimal number is written. -/

/-- The digits before and behind the decimal point, with a zero where there is none. -/
def parts : List Char × List Char :=
  if d.point ≤ 0 then (['0'], List.replicate (-d.point).toNat '0' ++ d.digits)
  else if d.point < d.digits.length then (d.digits.take d.point.toNat, d.digits.drop d.point.toNat)
  else (d.digits ++ List.replicate (d.point - d.digits.length).toNat '0', ['0'])

/-- The number in positional notation. -/
def positional : String := String.ofList (d.parts.1 ++ '.' :: d.parts.2)

/-- The digits of an exponent, at least two of them. -/
def exponentDigits (size : ℕ) : List Char :=
  if size < 10 then '0' :: Nat.toDigits 10 size else Nat.toDigits 10 size

/-- The number in scientific notation. -/
def scientific : String :=
  let mantissa := d.digits.take 1 ++ if d.digits.length = 1 then [] else '.' :: d.digits.drop 1
  let sign := if d.point - 1 < 0 then '-' else '+'
  String.ofList (mantissa ++ 'e' :: sign :: exponentDigits (d.point - 1).natAbs)

end Decimal

/-! How a decimal number is read. -/

/-- Some digits, and no more than a limit. -/
def isRun (limit : ℕ) (chars : List Char) : Bool :=
  1 ≤ chars.length && chars.length ≤ limit && chars.all Char.isDigit

/-- A number of at most so many digits before its decimal point and behind it, if it has one. -/
def readDecimal (limit : ℕ) (s : String) : Option ℚ :=
  let whole := s.toList.takeWhile Char.isDigit
  match s.toList.dropWhile Char.isDigit with
  | [] => if isRun limit whole then some ((Nat.ofDigitChars 10 whole 0 : ℕ) : ℚ) else none
  | '.' :: fraction =>
    if isRun limit whole && isRun limit fraction then
      some (((Nat.ofDigitChars 10 (whole ++ fraction) 0 : ℕ) : ℚ) / 10 ^ fraction.length)
    else none
  | _ => none

variable {limit : ℕ}

/-- Two runs of digits around a point are read as one numeral. -/
theorem readDecimal_parts {whole fraction : List Char} (left : isRun limit whole)
    (right : isRun limit fraction) :
    readDecimal limit (String.ofList (whole ++ '.' :: fraction)) =
      some (((Nat.ofDigitChars 10 (whole ++ fraction) 0 : ℕ) : ℚ) / 10 ^ fraction.length) := by
  have digits : ∀ c ∈ whole, Char.isDigit c := by
    unfold isRun at left
    simp only [Bool.and_eq_true, List.all_eq_true] at left
    exact left.2
  -- The point is the first character that is no digit.
  have before : (whole ++ '.' :: fraction).takeWhile Char.isDigit = whole := by
    rw [List.takeWhile_append_of_pos digits]
    simp
  have behind : (whole ++ '.' :: fraction).dropWhile Char.isDigit = '.' :: fraction := by
    rw [List.dropWhile_append_of_pos digits]
    simp
  unfold readDecimal
  simp only [String.toList_ofList, before, behind, left, right, Bool.and_self, if_true]

/-- What is read has only digits and points in it. -/
theorem chars_of_readDecimal {s : String} {number : ℚ}
    (reads : readDecimal limit s = some number) : ∀ c ∈ s.toList, c.isDigit ∨ c = '.' := by
  intro c member
  rw [← List.takeWhile_append_dropWhile (p := Char.isDigit) (l := s.toList)] at member
  rcases List.mem_append.mp member with inWhole | behind
  · exact .inl (List.mem_takeWhile_imp inWhole)
  · -- Behind the first run comes nothing, or a point and a second run.
    unfold readDecimal at reads
    dsimp only at reads
    split at reads
    · rename_i none
      rw [none] at behind
      cases behind
    · rename_i fraction rest
      rw [rest] at behind
      rcases List.mem_cons.mp behind with rfl | inFraction
      · exact .inr rfl
      · left
        split at reads
        · rename_i runs
          unfold isRun at runs
          simp only [Bool.and_eq_true, List.all_eq_true] at runs
          exact runs.2.2 c inFraction
        · cases reads
    · cases reads

namespace Decimal

variable (d : Decimal)

/-- The digits of a number are digits. -/
theorem isDigit_digits : ∀ c ∈ d.digits, c.isDigit :=
  fun _ member => Nat.isDigit_of_mem_toDigits (by decide) (by decide) member

/-- A run is made of digits, one at least and no more than the limit. -/
theorem isRun_iff {chars : List Char} :
    isRun limit chars ↔ 1 ≤ chars.length ∧ chars.length ≤ limit ∧ ∀ c ∈ chars, c.isDigit := by
  simp [isRun, and_assoc]

/-- A run of zeros and digits. -/
theorem isDigit_zeros {count : ℕ} : ∀ c ∈ List.replicate count '0', c.isDigit := by
  intro c member
  rw [List.eq_of_mem_replicate member]
  rfl

/-- Both parts of a number are runs, when its point leaves few digits on either side. -/
theorem parts_runs (room : 1 ≤ limit) (left : d.point ≤ limit) (right : d.digits.length - d.point ≤ limit) :
    isRun limit d.parts.1 ∧ isRun limit d.parts.2 := by
  have long : 0 < d.digits.length := Nat.length_toDigits_pos
  have digits := d.isDigit_digits
  simp only [isRun_iff]
  unfold parts
  by_cases front : d.point ≤ 0
  · -- All digits stand behind the point.
    rw [if_pos front]
    refine ⟨⟨by simp, by simpa using room, by simp⟩, ?_, ?_, ?_⟩
    · simp only [List.length_append]
      omega
    · simp only [List.length_append, List.length_replicate]
      omega
    · intro c member
      rcases List.mem_append.mp member with zero | digit
      · exact isDigit_zeros c zero
      · exact digits c digit
  rw [if_neg front]
  by_cases inside : d.point < d.digits.length
  · -- The point stands between two digits.
    rw [if_pos inside]
    refine ⟨⟨?_, ?_, fun c member => digits c (List.mem_of_mem_take member)⟩, ?_, ?_,
      fun c member => digits c (List.mem_of_mem_drop member)⟩
    · simp only [List.length_take]
      omega
    · simp only [List.length_take]
      omega
    · simp only [List.length_drop]
      omega
    · simp only [List.length_drop]
      omega
  · -- All digits stand before the point.
    rw [if_neg inside]
    refine ⟨⟨?_, ?_, ?_⟩, by simp, by simpa using room, by simp⟩
    · simp only [List.length_append]
      omega
    · simp only [List.length_append, List.length_replicate]
      omega
    · intro c member
      rcases List.mem_append.mp member with digit | zero
      · exact digits c digit
      · exact isDigit_zeros c zero

/-- Read as one numeral, both parts give the number. -/
theorem parts_value :
    ((Nat.ofDigitChars 10 (d.parts.1 ++ d.parts.2) 0 : ℕ) : ℚ) / 10 ^ d.parts.2.length = d.value := by
  have long : 0 < d.digits.length := Nat.length_toDigits_pos
  have read : Nat.ofDigitChars 10 d.digits 0 = d.numeral := Nat.ofDigitChars_ten_toDigits
  have place : d.point = d.digits.length + d.exponent := rfl
  unfold parts
  by_cases front : d.point ≤ 0
  · rw [if_pos front]
    have behind : ((List.replicate (-d.point).toNat '0' ++ d.digits).length : ℤ) = -d.exponent := by
      simp only [List.length_append, List.length_replicate]
      omega
    -- The zeros in front do not count.
    have same : Nat.ofDigitChars 10 (['0'] ++ (List.replicate (-d.point).toNat '0' ++ d.digits)) 0 =
        d.numeral := by
      rw [Nat.ofDigitChars_append, Nat.ofDigitChars_append, Nat.ofDigitChars_replicate_zero]
      simpa [Nat.ofDigitChars_cons] using read
    rw [same, ← zpow_natCast, behind, zpow_neg, div_inv_eq_mul]
    rfl
  rw [if_neg front]
  by_cases inside : d.point < d.digits.length
  · rw [if_pos inside]
    have behind : ((d.digits.drop d.point.toNat).length : ℤ) = -d.exponent := by
      simp only [List.length_drop]
      omega
    -- Cut at the point and put together again, the digits are the numeral.
    rw [List.take_append_drop, read, ← zpow_natCast, behind, zpow_neg, div_inv_eq_mul]
    rfl
  · rw [if_neg inside]
    have shift : ((d.point - d.digits.length).toNat : ℤ) = d.exponent := by omega
    -- The zeros at the end, and one more, are powers of ten.
    rw [Nat.ofDigitChars_append, Nat.ofDigitChars_append, read, Nat.ofDigitChars_replicate_zero]
    simp only [Nat.ofDigitChars_cons, Nat.ofDigitChars_nil, List.length_singleton, pow_one]
    have zero : '0'.toNat - '0'.toNat = 0 := rfl
    rw [zero]
    push_cast
    rw [← zpow_natCast (10 : ℚ), shift]
    unfold value
    ring

/-- In positional notation a number is read back, when its point leaves few digits on either side. -/
theorem readDecimal_positional (room : 1 ≤ limit) (left : d.point ≤ limit)
    (right : d.digits.length - d.point ≤ limit) : readDecimal limit d.positional = some d.value := by
  obtain ⟨whole, fraction⟩ := d.parts_runs room left right
  rw [positional, readDecimal_parts whole fraction, d.parts_value]

/-- Scientific notation is not read at all. -/
theorem readDecimal_scientific (limit : ℕ) : readDecimal limit d.scientific = none := by
  cases reads : readDecimal limit d.scientific with
  | none => rfl
  | some number =>
    -- The letter before the exponent is neither a digit nor a point.
    have letter : 'e' ∈ d.scientific.toList := by simp [scientific]
    rcases chars_of_readDecimal reads 'e' letter with digit | point
    · cases digit
    · cases point

end Decimal

end Rounding
