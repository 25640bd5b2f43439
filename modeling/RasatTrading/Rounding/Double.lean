import Mathlib.Data.Int.Log
import Mathlib.Tactic.Linarith
import Mathlib.Tactic.Positivity
import RasatTrading.Rounding.Decimal

/-! Floats of 64 bits: what they are rounded from, how they compare and how they are written. -/

namespace Rounding

/-- A number as comparisons see it. -/
inductive Extended
  | finite (value : ℚ)
  | infinite (negative : Bool)
  | nan
  deriving DecidableEq, Repr

namespace Extended

/-- `<`; a number that is none compares with nothing. -/
def lt : Extended → Extended → Bool
  | .finite left, .finite right => left < right
  | .finite _, .infinite negative => !negative
  | .infinite negative, .finite _ => negative
  | .infinite left, .infinite right => left && !right
  | .nan, _ | _, .nan => false

/-- `<=`. -/
def le : Extended → Extended → Bool
  | .finite left, .finite right => left ≤ right
  | .finite _, .infinite negative => !negative
  | .infinite negative, .finite _ => negative
  | .infinite left, .infinite right => left || !right
  | .nan, _ | _, .nan => false

/-- Whether the number is neither infinite nor none at all. -/
def isFinite : Extended → Bool
  | .finite _ => true
  | _ => false

end Extended

/-- The nearest integer, the even one of two. -/
def halfEven (value : ℚ) : ℤ :=
  let low := ⌊value⌋
  let rest := value - low
  if rest < 1 / 2 then low
  else if 1 / 2 < rest then low + 1
  else if low % 2 = 0 then low
  else low + 1

theorem halfEven_intCast (count : ℤ) : halfEven (count : ℚ) = count := by
  simp [halfEven]

/-- An integer below a value is below what the value is rounded to. -/
theorem le_halfEven {value : ℚ} {low : ℤ} (below : (low : ℚ) ≤ value) : low ≤ halfEven value := by
  have floor : low ≤ ⌊value⌋ := Int.le_floor.mpr below
  simp only [halfEven]
  split_ifs <;> omega

/-- A value less than a half above an integer is rounded to that integer or below. -/
theorem halfEven_le {value : ℚ} {high : ℤ} (near : value < high + 1 / 2) : halfEven value ≤ high := by
  have floor := Int.floor_le value
  have rest := Int.lt_floor_add_one value
  have within : ⌊value⌋ ≤ high := by
    have less : (⌊value⌋ : ℚ) < high + 1 := by linarith
    exact Int.lt_add_one_iff.mp (by exact_mod_cast less)
  simp only [halfEven]
  by_cases last : ⌊value⌋ = high
  · have half : value - ⌊value⌋ < 1 / 2 := by rw [last]; linarith
    rw [if_pos half]
    exact within
  · split_ifs <;> omega

/-- A value at least a half above an odd integer is rounded above that integer. -/
theorem lt_halfEven {value : ℚ} {low : ℤ} (odd : low % 2 = 1) (far : low + 1 / 2 ≤ value) : low < halfEven value := by
  have below : low ≤ ⌊value⌋ := Int.le_floor.mpr (by linarith)
  have rest := Int.lt_floor_add_one value
  simp only [halfEven]
  by_cases last : ⌊value⌋ = low
  · have half : ¬ value - ⌊value⌋ < 1 / 2 := by rw [last]; linarith
    rw [if_neg half, last, odd]
    split_ifs <;> omega
  · split_ifs <;> omega

/-- The significands and exponents of floats: a small significand only has the least exponent. -/
def Canonical (significand : ℕ) (exponent : ℤ) : Prop :=
  significand < 2 ^ 53 ∧ -1074 ≤ exponent ∧ exponent ≤ 971 ∧ (2 ^ 52 ≤ significand ∨ exponent = -1074)

instance (significand : ℕ) (exponent : ℤ) : Decidable (Canonical significand exponent) :=
  inferInstanceAs (Decidable (_ ∧ _))

/-- The absolute value of a finite float. -/
structure Magnitude where
  significand : ℕ
  exponent : ℤ
  canonical : Canonical significand exponent
  deriving DecidableEq

namespace Magnitude

/-- The number that it denotes. -/
def value (m : Magnitude) : ℚ := m.significand * 2 ^ m.exponent

def zero : Magnitude := ⟨0, -1074, by decide⟩

/-- The exponent of the floats around a positive number. -/
def exponentAt (number : ℚ) : ℤ := max (Int.log 2 number - 52) (-1074)

/-- The nearest float to a number that is not negative; absent when it overflows. -/
def nearest (number : ℚ) : Option Magnitude :=
  if number = 0 then some zero
  else
    let exponent := exponentAt number
    let significand := (halfEven (number / 2 ^ exponent)).toNat
    -- Rounding up may reach the next power of two.
    if carry : significand = 2 ^ 53 ∧ exponent + 1 ≤ 971 ∧ -1074 ≤ exponent + 1 then
      some ⟨2 ^ 52, exponent + 1, by unfold Canonical; omega⟩
    else if fits : Canonical significand exponent then some ⟨significand, exponent, fits⟩
    else none

variable {m : Magnitude}

theorem value_pos (positive : m.significand ≠ 0) : 0 < m.value := by
  have counted : (0 : ℚ) < m.significand := by exact_mod_cast Nat.pos_of_ne_zero positive
  exact mul_pos counted (zpow_pos (by norm_num) _)

/-- A float lies between the powers of two that its exponent tells. -/
theorem exponentAt_value (positive : m.significand ≠ 0) : exponentAt m.value = m.exponent := by
  obtain ⟨small, least, -, shape⟩ := m.canonical
  have high : m.value < 2 ^ (53 + m.exponent) := by
    rw [value, zpow_add₀ (by norm_num)]
    refine mul_lt_mul_of_pos_right ?_ (zpow_pos (by norm_num) _)
    exact_mod_cast small
  have above : Int.log 2 m.value < 53 + m.exponent :=
    (Int.lt_zpow_iff_log_lt (by norm_num) (value_pos positive)).mp (by exact_mod_cast high)
  unfold exponentAt
  rcases shape with large | lowest
  · -- A full significand decides the exponent.
    have low : (2 : ℚ) ^ (52 + m.exponent) ≤ m.value := by
      rw [value, zpow_add₀ (by norm_num)]
      refine mul_le_mul_of_nonneg_right ?_ (zpow_pos (by norm_num) _).le
      exact_mod_cast large
    have below : 52 + m.exponent ≤ Int.log 2 m.value :=
      (Int.zpow_le_iff_le_log (by norm_num) (value_pos positive)).mp (by exact_mod_cast low)
    omega
  · omega

/-- A float is the nearest float to itself. -/
theorem nearest_value (m : Magnitude) : nearest m.value = some m := by
  by_cases vanishing : m.significand = 0
  · -- Zero has the least exponent.
    obtain ⟨significand, exponent, canonical⟩ := m
    obtain rfl : significand = 0 := vanishing
    obtain rfl : exponent = -1074 := by
      obtain ⟨-, -, -, shape⟩ := canonical
      omega
    simp [nearest, value, zero]
  · have nonzero : m.value ≠ 0 := (value_pos vanishing).ne'
    have power : (2 : ℚ) ^ m.exponent ≠ 0 := zpow_ne_zero _ (by norm_num)
    have ratio : m.value / 2 ^ m.exponent = ((m.significand : ℤ) : ℚ) := by
      rw [value, mul_div_cancel_right₀ _ power]
      norm_cast
    have own := m.canonical
    have uncarried : m.significand ≠ 2 ^ 53 := own.1.ne
    simp only [nearest, nonzero, if_false, exponentAt_value vanishing, ratio, halfEven_intCast,
      Int.toNat_natCast, uncarried, false_and, dite_false, own, dite_true]

variable {number : ℚ}

/-- A positive number has at most fifty-three bits above the exponent of its floats. -/
theorem lt_exponentAt (positive : 0 < number) : number / 2 ^ exponentAt number < 2 ^ 53 := by
  have power : (0 : ℚ) < 2 ^ exponentAt number := zpow_pos (by norm_num) _
  have bits : Int.log 2 number < 53 + exponentAt number := by
    unfold exponentAt
    omega
  have above : number < 2 ^ (53 + exponentAt number) := by
    exact_mod_cast (Int.lt_zpow_iff_log_lt (b := 2) (by norm_num) positive).mpr bits
  rw [div_lt_iff₀ power]
  rw [zpow_add₀ (by norm_num)] at above
  exact_mod_cast above

/-- It has no fewer of them, unless the exponent is the least one. -/
theorem exponentAt_le (positive : 0 < number) (full : exponentAt number ≠ -1074) :
    2 ^ 52 ≤ number / 2 ^ exponentAt number := by
  have power : (0 : ℚ) < 2 ^ exponentAt number := zpow_pos (by norm_num) _
  have bits : 52 + exponentAt number ≤ Int.log 2 number := by
    unfold exponentAt at full ⊢
    omega
  have below : (2 : ℚ) ^ (52 + exponentAt number) ≤ number := by
    exact_mod_cast (Int.zpow_le_iff_le_log (b := 2) (by norm_num) positive).mpr bits
  rw [le_div_iff₀ power]
  rw [zpow_add₀ (by norm_num)] at below
  exact_mod_cast below

/-- A number has no nearest float when its exponent is too large, or when rounding reaches the next power of two. -/
theorem nearest_none_of (positive : 0 < number) : nearest number = none ↔ 971 < exponentAt number ∨
      exponentAt number = 971 ∧ halfEven (number / 2 ^ exponentAt number) = 2 ^ 53 := by
  have high : halfEven (number / 2 ^ exponentAt number) ≤ 2 ^ 53 := by
    refine halfEven_le ?_
    have above := lt_exponentAt positive
    push_cast
    linarith
  have low : 0 ≤ halfEven (number / 2 ^ exponentAt number) := by
    refine le_halfEven ?_
    have power : (0 : ℚ) < 2 ^ exponentAt number := zpow_pos (by norm_num) _
    have quotient := div_pos positive power
    exact_mod_cast quotient.le
  have least : -1074 ≤ exponentAt number := le_max_right _ _
  have shape : 2 ^ 52 ≤ halfEven (number / 2 ^ exponentAt number) ∨ exponentAt number = -1074 := by
    by_cases full : exponentAt number = -1074
    · exact .inr full
    · exact .inl (le_halfEven (by exact_mod_cast exponentAt_le positive full))
  simp only [nearest, positive.ne', if_false]
  split
  next carried => simp only [reduceCtorEq, false_iff]; omega
  next uncarried =>
    split
    next fits =>
      obtain ⟨small, -, most, -⟩ := fits
      simp only [reduceCtorEq, false_iff]
      omega
    next misfit =>
      simp only [true_iff]
      unfold Canonical at misfit
      omega

/-- A number overflows when it is halfway beyond the largest float, or further. -/
theorem nearest_none_iff (positive : 0 < number) : nearest number = none ↔ 2 ^ 1024 - 2 ^ 970 ≤ number := by
  -- Everything near the largest float is counted in units of half its last place.
  have unit : (0 : ℚ) < 2 ^ (970 : ℤ) := zpow_pos (by norm_num) _
  have last : (2 : ℚ) ^ (971 : ℤ) = 2 * 2 ^ (970 : ℤ) := by
    rw [show (971 : ℤ) = 1 + 970 by norm_num, zpow_add₀ (by norm_num), zpow_one]
  have next : (2 : ℚ) ^ (972 : ℤ) = 4 * 2 ^ (970 : ℤ) := by
    rw [show (972 : ℤ) = 2 + 970 by norm_num, zpow_add₀ (by norm_num)]
    norm_num
  have top : (2 : ℚ) ^ 1024 - 2 ^ 970 = (2 ^ 54 - 1) * 2 ^ (970 : ℤ) := by
    rw [show (2 : ℚ) ^ 1024 = 2 ^ 54 * 2 ^ 970 by rw [← pow_add], zpow_ofNat, sub_mul, one_mul]
  have power : (0 : ℚ) < 2 ^ exponentAt number := zpow_pos (by norm_num) _
  have above := lt_exponentAt positive
  rw [nearest_none_of positive, top]
  rcases lt_trichotomy (exponentAt number) 971 with small | full | large
  · -- Below the largest exponent everything is rounded to a float.
    rw [div_lt_iff₀ power] at above
    have less : (2 : ℚ) ^ exponentAt number ≤ 2 ^ (970 : ℤ) := zpow_le_zpow_right₀ (by norm_num) (by omega)
    constructor
    · rintro (large | ⟨full, -⟩) <;> omega
    · intro reaches
      generalize (2 : ℚ) ^ exponentAt number = place at above less
      generalize (2 : ℚ) ^ (970 : ℤ) = half at unit less reaches
      linarith
  · -- With the largest exponent the significand decides.
    rw [full, last] at above ⊢
    generalize (2 : ℚ) ^ (970 : ℤ) = half at unit above ⊢
    have reaches : (2 ^ 54 - 1) * half ≤ number ↔ ((2 ^ 53 - 1 : ℤ) : ℚ) + 1 / 2 ≤ number / (2 * half) := by
      rw [le_div_iff₀ (by positivity)]
      constructor <;> intro given <;> push_cast at given ⊢ <;> linarith
    rw [reaches]
    constructor
    · rintro (large | ⟨-, rounded⟩)
      · omega
      · by_contra short
        have below := halfEven_le (not_le.mp short)
        omega
    · intro far
      have rounded := lt_halfEven (by norm_num) far
      have most : halfEven (number / (2 * half)) ≤ 2 ^ 53 := by
        refine halfEven_le ?_
        push_cast
        linarith
      exact .inr ⟨rfl, by omega⟩
  · have below := exponentAt_le positive (by omega)
    rw [le_div_iff₀ power] at below
    have more : (2 : ℚ) ^ (972 : ℤ) ≤ 2 ^ exponentAt number := zpow_le_zpow_right₀ (by norm_num) (by omega)
    refine iff_of_true (.inl large) ?_
    rw [next] at more
    generalize (2 : ℚ) ^ exponentAt number = place at below more
    generalize (2 : ℚ) ^ (970 : ℤ) = half at unit more ⊢
    linarith

/-- The decimal number that is exactly the float. -/
def exactDecimal (m : Magnitude) (positive : m.significand ≠ 0) : Decimal :=
  if 0 ≤ m.exponent then ⟨m.significand * 2 ^ m.exponent.toNat, 0, by positivity⟩
  else ⟨m.significand * 5 ^ (-m.exponent).toNat, m.exponent, by positivity⟩

theorem exactDecimal_value (m : Magnitude) (positive : m.significand ≠ 0) :
    (m.exactDecimal positive).value = m.value := by
  unfold exactDecimal value
  split
  · rename_i whole
    obtain ⟨count, same⟩ := Int.eq_ofNat_of_zero_le whole
    simp [Decimal.value, same]
  · rename_i fraction
    obtain ⟨count, same⟩ := Int.eq_ofNat_of_zero_le (a := -m.exponent) (by omega)
    have exponent : m.exponent = -(count : ℤ) := by omega
    -- Each halving is a decimal place with a five.
    have halves : (5 : ℚ) ^ count * (10 ^ count)⁻¹ = (2 ^ count)⁻¹ := by
      rw [show (10 : ℚ) = 5 * 2 by norm_num, mul_pow]
      field_simp
    simp [Decimal.value, exponent, mul_assoc, halves]

/-- A decimal number, if the float is read back from it. -/
def candidate (m : Magnitude) (scale : ℤ) (numeral : ℕ) : Option Decimal :=
  if fits : 0 < numeral ∧ nearest (numeral * 10 ^ scale) = some m then some ⟨numeral, scale, fits.1⟩
  else none

/-- The decimal number of so many digits nearest to the float, or else the one on its other side, if the float is
read back from it. -/
def roundedDecimal (m : Magnitude) (digits : ℕ) : Option Decimal :=
  let scale := Int.log 10 m.value - digits + 1
  let count := m.value / 10 ^ scale
  let low := ⌊count⌋.toNat
  let below := m.candidate scale low
  -- Above all nines comes a power of ten, which has a single digit.
  let above := if low + 1 = 10 ^ digits then m.candidate (scale + digits) 1
    else m.candidate scale (low + 1)
  if count - low ≤ 1 / 2 then below.or above else above.or below

theorem candidate_readsBack {scale : ℤ} {numeral : ℕ} {d : Decimal}
    (found : m.candidate scale numeral = some d) : nearest d.value = some m := by
  unfold candidate at found
  split at found
  · rename_i fits
    cases found
    exact fits.2
  · cases found

theorem roundedDecimal_readsBack {digits : ℕ} {d : Decimal}
    (rounded : m.roundedDecimal digits = some d) : nearest d.value = some m := by
  -- Whatever is found is a candidate.
  have either {first second : Option Decimal} (found : first.or second = some d)
      (left : first = some d → nearest d.value = some m)
      (right : second = some d → nearest d.value = some m) : nearest d.value = some m := by
    rcases Option.or_eq_some_iff.mp found with own | ⟨-, other⟩
    · exact left own
    · exact right other
  unfold roundedDecimal at rounded
  dsimp only at rounded
  split at rounded
  · apply either rounded candidate_readsBack
    split <;> exact candidate_readsBack
  · apply either rounded ?_ candidate_readsBack
    split <;> exact candidate_readsBack

/-- The shortest decimal number that the float is read back from. Seventeen digits are enough for every float, so
that the exact one behind them is never needed. -/
def shortest (m : Magnitude) (positive : m.significand ≠ 0) : Decimal :=
  ((List.range' 1 17).findSome? m.roundedDecimal).getD (m.exactDecimal positive)

/-- The shortest decimal number is read back as the float. -/
theorem nearest_shortest (m : Magnitude) (positive : m.significand ≠ 0) :
    nearest (m.shortest positive).value = some m := by
  unfold shortest
  cases found : (List.range' 1 17).findSome? m.roundedDecimal with
  | none => rw [Option.getD_none, exactDecimal_value, nearest_value]
  | some d =>
    obtain ⟨digits, -, rounded⟩ := List.exists_of_findSome?_eq_some found
    exact roundedDecimal_readsBack rounded

end Magnitude

/-- A float of 64 bits; zero has a sign. -/
inductive Double
  | finite (negative : Bool) (magnitude : Magnitude)
  | infinite (negative : Bool)
  | nan
  deriving DecidableEq

namespace Double

/-- What comparisons see of a float. -/
def extended : Double → Extended
  | .finite negative magnitude => .finite (if negative then -magnitude.value else magnitude.value)
  | .infinite negative => .infinite negative
  | .nan => .nan

/-- The float that an integer is turned into; absent when it overflows. -/
def ofInt (number : ℤ) : Option Double :=
  (Magnitude.nearest (|number| : ℤ)).map fun magnitude => .finite (number < 0) magnitude

/-- An integer overflows when it is halfway beyond the largest float, or further. -/
theorem ofInt_none_iff (number : ℤ) : ofInt number = none ↔ 2 ^ 1024 - 2 ^ 970 ≤ |number| := by
  have large : (0 : ℚ) < 2 ^ 1024 - 2 ^ 970 := by
    rw [sub_pos]
    exact pow_lt_pow_right₀ (by norm_num) (by norm_num)
  rw [ofInt, Option.map_eq_none_iff]
  rcases (abs_nonneg number).eq_or_lt with vanishing | positive
  · rw [← vanishing]
    have below : ¬ (2 ^ 1024 - 2 ^ 970 ≤ (0 : ℤ)) := by
      intro reaches
      have cast : (2 : ℚ) ^ 1024 - 2 ^ 970 ≤ 0 := by exact_mod_cast reaches
      exact absurd large (not_lt.mpr cast)
    simp only [Int.cast_zero, Magnitude.nearest, if_true, reduceCtorEq, false_iff]
    exact below
  · rw [Magnitude.nearest_none_iff (by exact_mod_cast positive)]
    exact_mod_cast Iff.rfl

/-- The float that a decimal number is read as; beyond the largest float it is infinite. -/
def ofDecimal (negative : Bool) (number : ℚ) : Double :=
  match Magnitude.nearest number with
  | some magnitude => .finite negative magnitude
  | none => .infinite negative

end Double

/-- A decimal number as floats are written: in positional notation unless its point is far away. -/
def Decimal.chars (d : Decimal) : List Char :=
  if -4 < d.point ∧ d.point ≤ 16 then d.positional.toList else d.scientific.toList

/-- The absolute value of a float as it is written. -/
def Magnitude.chars (m : Magnitude) : List Char :=
  if positive : m.significand ≠ 0 then (m.shortest positive).chars else ['0', '.', '0']

end Rounding
