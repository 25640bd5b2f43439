import Mathlib.Order.Interval.Set.Defs
import Mathlib.Order.Interval.Finset.Defs
import Mathlib.Data.Int.Interval
import Mathlib.Data.Set.Finite.Lemmas
import Mathlib.Tactic.FieldSimp
import RasatTrading.Rounding.Double

/-! Arithmetic of floats of 64 bits: every operation rounds its exact result to the nearest float. -/

namespace Rounding

/-- A number and the integer that it is rounded to are at most one half apart. -/
theorem abs_sub_halfEven (value : ℚ) : |value - halfEven value| ≤ 1 / 2 := by
  have low := Int.floor_le value
  have high := Int.lt_floor_add_one value
  rw [abs_le]
  -- Either the floor is within one half, or the next integer is.
  simp only [halfEven]
  split_ifs <;> push_cast <;> constructor <;> linarith

/-- The order is kept. -/
theorem halfEven_mono {less more : ℚ} (order : less ≤ more) : halfEven less ≤ halfEven more := by
  by_contra swapped
  have apart : halfEven more + 1 ≤ halfEven less := not_le.mp swapped
  have wide : (halfEven more : ℚ) + 1 ≤ halfEven less := by exact_mod_cast apart
  obtain ⟨near, -⟩ := abs_le.mp (abs_sub_halfEven less)
  obtain ⟨-, far⟩ := abs_le.mp (abs_sub_halfEven more)
  -- Both lie halfway between two integers, so that they are one number.
  obtain rfl : less = more := by linarith
  exact swapped (le_refl _)

namespace Magnitude

/-- A number that is not negative, rounded to the bits of floats, however large it is. -/
def rounded (number : ℚ) : ℚ := halfEven (number / 2 ^ exponentAt number) * 2 ^ exponentAt number

theorem rounded_zero : rounded 0 = 0 := by
  have none_left : halfEven ((0 : ℤ) : ℚ) = 0 := halfEven_intCast 0
  simp only [Int.cast_zero] at none_left
  simp [rounded, none_left]

/-- The larger of two numbers has no smaller exponent. -/
theorem exponentAt_mono {less more : ℚ} (positive : 0 < less) (order : less ≤ more) :
    exponentAt less ≤ exponentAt more := by
  have logs := Int.log_mono_right (b := 2) positive order
  unfold exponentAt
  omega

/-- Rounding leaves a number on its side of the powers of two around it. -/
theorem rounded_le_power {number : ℚ} (positive : 0 < number) : rounded number ≤ 2 ^ (53 + exponentAt number) := by
  have below : halfEven (number / 2 ^ exponentAt number) ≤ 2 ^ 53 := by
    refine halfEven_le ?_
    have above := lt_exponentAt positive
    push_cast
    linarith
  rw [rounded, zpow_add₀ (by norm_num)]
  refine mul_le_mul_of_nonneg_right ?_ (zpow_pos (by norm_num) _).le
  exact_mod_cast below

theorem power_le_rounded {number : ℚ} (positive : 0 < number) (full : exponentAt number ≠ -1074) :
    2 ^ (52 + exponentAt number) ≤ rounded number := by
  have above : 2 ^ 52 ≤ halfEven (number / 2 ^ exponentAt number) :=
    le_halfEven (by exact_mod_cast exponentAt_le positive full)
  rw [rounded, zpow_add₀ (by norm_num)]
  refine mul_le_mul_of_nonneg_right ?_ (zpow_pos (by norm_num) _).le
  exact_mod_cast above

theorem rounded_nonneg {number : ℚ} (nonneg : 0 ≤ number) : 0 ≤ rounded number := by
  have quotient : 0 ≤ halfEven (number / 2 ^ exponentAt number) := by
    refine le_halfEven ?_
    have power : (0 : ℚ) < 2 ^ exponentAt number := zpow_pos (by norm_num) _
    exact_mod_cast div_nonneg nonneg power.le
  have cast : (0 : ℚ) ≤ halfEven (number / 2 ^ exponentAt number) := by exact_mod_cast quotient
  exact mul_nonneg cast (zpow_pos (by norm_num) _).le

/-- Rounding keeps the order. -/
theorem rounded_mono {less more : ℚ} (nonneg : 0 ≤ less) (order : less ≤ more) : rounded less ≤ rounded more := by
  rcases nonneg.eq_or_lt with rfl | positive
  · rw [rounded_zero]
    exact rounded_nonneg order
  rcases (exponentAt_mono positive order).eq_or_lt with same | smaller
  · -- With one exponent the significands decide.
    have power : (0 : ℚ) < 2 ^ exponentAt more := zpow_pos (by norm_num) _
    unfold rounded
    rw [same]
    refine mul_le_mul_of_nonneg_right ?_ power.le
    exact_mod_cast halfEven_mono (div_le_div_of_nonneg_right order power.le)
  · -- With different exponents there is a power of two between the two.
    have least : -1074 ≤ exponentAt less := le_max_right _ _
    calc rounded less ≤ 2 ^ (53 + exponentAt less) := rounded_le_power positive
      _ ≤ 2 ^ (52 + exponentAt more) := zpow_le_zpow_right₀ (by norm_num) (by omega)
      _ ≤ rounded more := power_le_rounded (positive.trans_le order) (by omega)

/-- The power of two beyond the largest float. -/
def beyond : ℚ := 2 ^ (1024 : ℤ)

theorem beyond_eq : beyond = ((2 ^ 53 : ℤ) : ℚ) * 2 ^ (971 : ℤ) := by
  rw [beyond, show (1024 : ℤ) = 53 + 971 by norm_num, zpow_add₀ (by norm_num)]
  norm_num

/-- The nearest float has the rounded value; beyond the largest float there is none. -/
theorem nearest_eq {number : ℚ} (nonneg : 0 ≤ number) :
    if rounded number < beyond then ∃ m, nearest number = some m ∧ m.value = rounded number
    else nearest number = none := by
  rcases nonneg.eq_or_lt with rfl | positive
  · rw [rounded_zero, if_pos (show 0 < beyond from zpow_pos (by norm_num) _)]
    exact ⟨zero, by simp [nearest], by simp [zero, value]⟩
  have nonneg' : 0 ≤ halfEven (number / 2 ^ exponentAt number) := by
    refine le_halfEven ?_
    have power : (0 : ℚ) < 2 ^ exponentAt number := zpow_pos (by norm_num) _
    exact_mod_cast (div_pos positive power).le
  have cast : ((halfEven (number / 2 ^ exponentAt number)).toNat : ℚ) = halfEven (number / 2 ^ exponentAt number) := by
    exact_mod_cast Int.toNat_of_nonneg nonneg'
  split
  · rename_i small
    -- What overflows is rounded to the power of two beyond the largest float, or further.
    cases found : nearest number with
    | none =>
      exfalso
      rcases (nearest_none_of positive).mp found with large | ⟨full, carried⟩
      · have reached := power_le_rounded positive (by omega)
        have exceeds : beyond ≤ 2 ^ (52 + exponentAt number) := zpow_le_zpow_right₀ (by norm_num) (by omega)
        exact absurd (exceeds.trans reached) (not_le.mpr small)
      · rw [rounded, carried, full] at small
        rw [beyond_eq] at small
        exact absurd small (lt_irrefl _)
    | some m =>
      refine ⟨m, rfl, ?_⟩
      simp only [nearest, positive.ne', if_false] at found
      split at found
      · rename_i carried
        cases found
        have whole : (halfEven (number / 2 ^ exponentAt number) : ℚ) = 2 ^ 53 := by
          rw [← cast, carried.1]
          norm_num
        rw [rounded, whole, value, zpow_add₀ (by norm_num)]
        norm_num
        ring
      · split at found
        · cases found
          rw [rounded, value, cast]
        · cases found
  · rename_i large
    rw [nearest_none_of positive]
    by_contra fits
    obtain ⟨small, short⟩ := not_or.mp fits
    apply large
    rcases (not_lt.mp small).eq_or_lt with full | lower
    · -- With the largest exponent the significand does not reach the next power of two.
      have below : halfEven (number / 2 ^ exponentAt number) ≤ 2 ^ 53 := by
        refine halfEven_le ?_
        have above := lt_exponentAt positive
        push_cast
        linarith
      have strict : halfEven (number / 2 ^ exponentAt number) < 2 ^ 53 := by
        refine lt_of_le_of_ne below fun carried => short ⟨full, carried⟩
      rw [rounded, full]
      rw [full] at strict
      rw [beyond_eq]
      refine mul_lt_mul_of_pos_right ?_ (zpow_pos (by norm_num) _)
      exact_mod_cast strict
    · calc rounded number ≤ 2 ^ (53 + exponentAt number) := rounded_le_power positive
        _ < beyond := zpow_lt_zpow_right₀ (by norm_num) (by omega)

end Magnitude


namespace Magnitude

variable {number : ℚ}

/-- What is rounded has the bits of a float. -/
theorem rounded_fits (nonneg : 0 ≤ number) : Fits 53 (-1074) (rounded number) := by
  rcases nonneg.eq_or_lt with rfl | positive
  · exact ⟨0, -1074, by norm_num, le_refl _, by simp [rounded_zero]⟩
  have least : -1074 ≤ exponentAt number := le_max_right _ _
  have low : 0 ≤ halfEven (number / 2 ^ exponentAt number) := by
    refine le_halfEven ?_
    have power : (0 : ℚ) < 2 ^ exponentAt number := zpow_pos (by norm_num) _
    exact_mod_cast (div_pos positive power).le
  have high : halfEven (number / 2 ^ exponentAt number) ≤ 2 ^ 53 := by
    refine halfEven_le ?_
    have above := lt_exponentAt positive
    push_cast
    linarith
  rcases high.eq_or_lt with carried | small
  · -- The next power of two has a single bit.
    refine ⟨2 ^ 52, exponentAt number + 1, by norm_num, by omega, ?_⟩
    rw [rounded, carried, zpow_add₀ (by norm_num)]
    push_cast
    ring
  · exact ⟨_, exponentAt number, by rwa [abs_of_nonneg low], least, rfl⟩

/-- What has the bits of a float is not rounded. -/
theorem rounded_of_fits (nonneg : 0 ≤ number) (fits : Fits 53 (-1074) number) : rounded number = number := by
  rcases nonneg.eq_or_lt with rfl | positive
  · exact rounded_zero
  obtain ⟨significand, exponent, small, least, rfl⟩ := fits
  have unit : (0 : ℚ) < 2 ^ exponent := zpow_pos (by norm_num) _
  have within : (significand : ℚ) * 2 ^ exponent < 2 ^ (53 + exponent) := by
    rw [zpow_add₀ (by norm_num)]
    refine mul_lt_mul_of_pos_right ?_ unit
    exact_mod_cast (abs_lt.mp small).2
  have bits : Int.log 2 ((significand : ℚ) * 2 ^ exponent) < 53 + exponent :=
    (Int.lt_zpow_iff_log_lt (by norm_num) positive).mp (by exact_mod_cast within)
  -- The exponent of the rounding is not larger than that of the number, which it leaves whole.
  have order : exponentAt ((significand : ℚ) * 2 ^ exponent) ≤ exponent := by
    unfold exponentAt
    omega
  obtain ⟨shift, same⟩ := Int.le.dest order
  have power : (2 : ℚ) ^ exponentAt ((significand : ℚ) * 2 ^ exponent) ≠ 0 := zpow_ne_zero _ (by norm_num)
  have whole : (significand : ℚ) * 2 ^ exponent / 2 ^ exponentAt ((significand : ℚ) * 2 ^ exponent) =
      ((significand * 2 ^ shift : ℤ) : ℚ) := by
    rw [div_eq_iff power]
    nth_rewrite 1 [← same]
    rw [zpow_add₀ (by norm_num), zpow_natCast]
    push_cast
    ring
  rw [rounded, whole, halfEven_intCast, ← whole, div_mul_cancel₀ _ power]

/-- The error of the rounding is half a unit in the last place. -/
theorem rounded_error (number : ℚ) : |number - rounded number| ≤ 2 ^ exponentAt number / 2 := by
  have power : (0 : ℚ) < 2 ^ exponentAt number := zpow_pos (by norm_num) _
  have near := abs_sub_halfEven (number / 2 ^ exponentAt number)
  have scaled : number - rounded number =
      (number / 2 ^ exponentAt number - halfEven (number / 2 ^ exponentAt number)) * 2 ^ exponentAt number := by
    rw [rounded, sub_mul, div_mul_cancel₀ _ power.ne']
  rw [scaled, abs_mul, abs_of_pos power]
  linarith [mul_le_mul_of_nonneg_right near power.le]

/-- The last place of a number is its least bit, or the least place that there is. -/
theorem power_exponentAt_le (positive : 0 < number) :
    (2 : ℚ) ^ exponentAt number ≤ max (number / 2 ^ 52) (2 ^ (-1074 : ℤ)) := by
  by_cases least : exponentAt number = -1074
  · rw [least]
    exact le_max_right _ _
  · have full := exponentAt_le positive least
    rw [le_div_iff₀ (zpow_pos (by norm_num) _)] at full
    refine le_max_of_le_left ?_
    rw [le_div_iff₀ (by norm_num)]
    linarith

/-- Between two neighbouring floats there is none. -/
theorem fits_le_of_lt {count exponent : ℤ} (fits : Fits 53 (-1074) number) (full : 2 ^ 52 ≤ count)
    (less : number < ((count + 1 : ℤ) : ℚ) * 2 ^ exponent) : number ≤ count * 2 ^ exponent := by
  obtain ⟨significand, own, small, -, rfl⟩ := fits
  have unit : (0 : ℚ) < 2 ^ exponent := zpow_pos (by norm_num) _
  rcases le_or_gt exponent own with coarse | fine
  · -- A float with no smaller exponent counts the same place.
    obtain ⟨shift, rfl⟩ := Int.le.dest coarse
    have counted : (significand : ℚ) * 2 ^ (exponent + shift) = ((significand * 2 ^ shift : ℤ) : ℚ) * 2 ^ exponent := by
      rw [zpow_add₀ (by norm_num), zpow_natCast]
      push_cast
      ring
    rw [counted] at less ⊢
    have below : significand * 2 ^ shift < count + 1 := by exact_mod_cast lt_of_mul_lt_mul_right less unit.le
    refine mul_le_mul_of_nonneg_right ?_ unit.le
    exact_mod_cast Int.lt_add_one_iff.mp below
  · -- One with a smaller exponent is smaller.
    have bits : (significand : ℚ) ≤ 2 ^ 53 := by exact_mod_cast ((le_abs_self _).trans_lt small).le
    calc (significand : ℚ) * 2 ^ own ≤ 2 ^ 53 * 2 ^ own := mul_le_mul_of_nonneg_right bits (zpow_pos (by norm_num) _).le
      _ = 2 ^ (53 + own) := by rw [zpow_add₀ (by norm_num)]; norm_num
      _ ≤ 2 ^ (52 + exponent) := zpow_le_zpow_right₀ (by norm_num) (by omega)
      _ = 2 ^ 52 * 2 ^ exponent := by rw [zpow_add₀ (by norm_num)]; norm_num
      _ ≤ count * 2 ^ exponent := mul_le_mul_of_nonneg_right (by exact_mod_cast full) unit.le

/-- A number that is halved keeps the bits of a float, unless it has the least exponent. -/
theorem half_fits (fits : Fits 53 (-1074) number) :
    Fits 53 (-1074) (number / 2) ∨ ∃ count : ℤ, |count| < 2 ^ 53 ∧ number = count * 2 ^ (-1074 : ℤ) := by
  obtain ⟨significand, exponent, small, least, rfl⟩ := fits
  rcases least.eq_or_lt with rfl | larger
  · exact .inr ⟨significand, small, rfl⟩
  · refine .inl ⟨significand, exponent - 1, small, by omega, ?_⟩
    rw [zpow_sub₀ (by norm_num)]
    ring

/-- Every float counts the least place. -/
theorem fits_count (fits : Fits 53 (-1074) number) : ∃ count : ℤ, number = count * 2 ^ (-1074 : ℤ) := by
  obtain ⟨significand, exponent, -, least, rfl⟩ := fits
  obtain ⟨shift, rfl⟩ := Int.le.dest least
  refine ⟨significand * 2 ^ shift, ?_⟩
  rw [zpow_add₀ (by norm_num), zpow_natCast, Int.cast_mul, Int.cast_pow, Int.cast_ofNat, mul_assoc,
    mul_comm (2 ^ shift : ℚ)]

/-- The difference of two numbers that are within a factor of two of each other has the bits of a float. -/
theorem sub_fits {more less : ℚ} (fits : Fits 53 (-1074) more) (fits' : Fits 53 (-1074) less) (order : less ≤ more)
    (near : more ≤ 2 * less) : Fits 53 (-1074) (more - less) := by
  obtain ⟨first, upper, small, least, rfl⟩ := fits
  obtain ⟨second, lower, small', least', rfl⟩ := fits'
  -- The number with the smaller exponent bounds the difference, counted in its last place.
  have counted {whole low : ℤ} {bound gap : ℚ} (bounded : |whole| < 2 ^ 53) (rest : -1074 ≤ low)
      (is_bound : bound = whole * 2 ^ low) (short : gap ≤ bound) (nonneg : 0 ≤ gap) (count : ℤ)
      (is_count : gap = count * 2 ^ low) : Fits 53 (-1074) gap := by
    have unit : (0 : ℚ) < 2 ^ low := zpow_pos (by norm_num) _
    refine ⟨count, low, ?_, rest, is_count⟩
    rw [is_count] at nonneg
    rw [is_bound, is_count] at short
    have below : (count : ℚ) ≤ whole := le_of_mul_le_mul_right short unit
    have above : (0 : ℚ) ≤ count := nonneg_of_mul_nonneg_left nonneg unit
    have below' : count ≤ whole := by exact_mod_cast below
    have above' : 0 ≤ count := by exact_mod_cast above
    rw [abs_of_nonneg above']
    exact below'.trans_lt ((le_abs_self _).trans_lt bounded)
  rcases le_total lower upper with small_lower | small_upper
  · obtain ⟨shift, rfl⟩ := Int.le.dest small_lower
    refine counted small' least' rfl (by linarith) (by linarith) (first * 2 ^ shift - second) ?_
    rw [zpow_add₀ (by norm_num), zpow_natCast]
    push_cast
    ring
  · obtain ⟨shift, rfl⟩ := Int.le.dest small_upper
    refine counted small least rfl (by linarith) (by linarith) (first - second * 2 ^ shift) ?_
    rw [zpow_add₀ (by norm_num), zpow_natCast]
    push_cast
    ring

/-- A sum of floats is rounded by at most half a unit of its last bit, however small it is. -/
theorem rounded_add_error {left right : ℚ} (fits : Fits 53 (-1074) left) (fits' : Fits 53 (-1074) right)
    (nonneg : 0 ≤ left) (nonneg' : 0 ≤ right) :
    |left + right - rounded (left + right)| ≤ (left + right) / 2 ^ 53 := by
  rcases (add_nonneg nonneg nonneg').eq_or_lt with zero | positive
  · rw [← zero, rounded_zero]
    norm_num
  by_cases least : exponentAt (left + right) = -1074
  · -- With the least exponent the sum counts the last place, so that it is exact.
    obtain ⟨count, counted⟩ := fits_count fits
    obtain ⟨count', counted'⟩ := fits_count fits'
    have unit : (2 : ℚ) ^ (-1074 : ℤ) ≠ 0 := zpow_ne_zero _ (by norm_num)
    have whole : (left + right) / 2 ^ exponentAt (left + right) = ((count + count' : ℤ) : ℚ) := by
      rw [least, div_eq_iff unit, Int.cast_add, add_mul, ← counted, ← counted']
    have exact_ : rounded (left + right) = left + right := by
      rw [rounded, whole, halfEven_intCast, ← whole, least, div_mul_cancel₀ _ unit]
    rw [exact_, sub_self, abs_zero]
    positivity
  · have full := exponentAt_le positive least
    rw [le_div_iff₀ (zpow_pos (by norm_num) _)] at full
    have error := rounded_error (left + right)
    linarith

/-- Two different floats are at least the least place apart. -/
theorem place_le_sub {left right : ℚ} (fits : Fits 53 (-1074) left) (fits' : Fits 53 (-1074) right)
    (differs : left ≠ right) : 2 ^ (-1074 : ℤ) ≤ |left - right| := by
  obtain ⟨count, counted⟩ := fits_count fits
  obtain ⟨count', counted'⟩ := fits_count fits'
  have unit : (0 : ℚ) < 2 ^ (-1074 : ℤ) := zpow_pos (by norm_num) _
  have apart : left - right = ((count - count' : ℤ) : ℚ) * 2 ^ (-1074 : ℤ) := by
    rw [counted, counted', Int.cast_sub, sub_mul]
  have nonzero : count - count' ≠ 0 := by
    intro zero
    rw [zero, Int.cast_zero, zero_mul] at apart
    exact differs (sub_eq_zero.mp apart)
  have one : (1 : ℚ) ≤ |((count - count' : ℤ) : ℚ)| := by exact_mod_cast Int.one_le_abs nonzero
  rw [apart, abs_mul, abs_of_pos unit]
  exact le_mul_of_one_le_left unit.le one

/-- What is close to a float is rounded to a number that is close to it. -/
theorem rounded_near {point slack : ℚ} (fits : Fits 53 (-1074) point) (positive : 0 < point)
    (positive' : 0 < number) (some_ : 2 / 2 ^ 53 ≤ slack) (few : slack ≤ 1)
    (near : |point - number| ≤ slack * point) : |point - rounded number| ≤ 2 * slack * point := by
  have error := rounded_error number
  have detour := abs_sub_le point number (rounded number)
  by_cases least : exponentAt number = -1074
  · -- In the least place the float itself is met, or the slack is as much as the rounding.
    rw [least] at error
    by_contra far
    have differs : point ≠ rounded number := by
      rintro same
      rw [← same, sub_self, abs_zero] at far
      exact far (by nlinarith)
    have apart := place_le_sub fits (rounded_fits positive'.le) differs
    linarith
  · have full := exponentAt_le positive' least
    rw [le_div_iff₀ (zpow_pos (by norm_num) _)] at full
    obtain ⟨below, -⟩ := abs_le.mp near
    have most : number ≤ 2 * point := by nlinarith
    have scaled : 2 / 2 ^ 53 * point ≤ slack * point := mul_le_mul_of_nonneg_right some_ positive.le
    linarith

end Magnitude

namespace Extended

/-- The float nearest to a number; beyond the largest float it is infinite. -/
def round (number : ℚ) : Extended := (Double.ofDecimal (number < 0) |number|).extended

/-- `abs`. -/
def abs : Extended → Extended
  | .finite value => .finite |value|
  | .infinite _ => .infinite false
  | .nan => .nan

/-- `+`. -/
def add : Extended → Extended → Extended
  | .finite left, .finite right => round (left + right)
  | .finite _, .infinite negative | .infinite negative, .finite _ => .infinite negative
  | .infinite left, .infinite right => if left = right then .infinite left else .nan
  | .nan, _ | _, .nan => .nan

/-- `-`. -/
def sub : Extended → Extended → Extended
  | .finite left, .finite right => round (left - right)
  | .finite _, .infinite negative => .infinite !negative
  | .infinite negative, .finite _ => .infinite negative
  | .infinite left, .infinite right => if left = right then .nan else .infinite left
  | .nan, _ | _, .nan => .nan

/-- `*`. -/
def mul : Extended → Extended → Extended
  | .finite left, .finite right => round (left * right)
  | .finite value, .infinite negative | .infinite negative, .finite value =>
    if value = 0 then .nan else .infinite (xor negative (value < 0))
  | .infinite left, .infinite right => .infinite (xor left right)
  | .nan, _ | _, .nan => .nan

/-- `/`, by a number that is not zero. -/
def div : Extended → Extended → Extended
  | .finite left, .finite right => round (left / right)
  | .finite _, .infinite _ => .finite 0
  | .infinite negative, .finite value => .infinite (xor negative (value < 0))
  | .infinite _, .infinite _ => .nan
  | .nan, _ | _, .nan => .nan

/-- `sum`, from the left to the right. -/
def sum (numbers : List Extended) : Extended := numbers.foldl add (.finite 0)

/-- `min`: the first one, unless the other one is less. -/
def least (left right : Extended) : Extended := if right.lt left then right else left

/-- `max`: the first one, unless the other one is more. -/
def greatest (left right : Extended) : Extended := if left.lt right then right else left

/-- `round` to a number of decimals: the exact value is rounded to the decimals, and these are read as a float. -/
def roundTo (decimals : ℕ) : Extended → Extended
  | .finite value => round (halfEven (value * 10 ^ decimals) / 10 ^ decimals)
  | other => other

/-- The value of a finite number. -/
def value : Extended → ℚ
  | .finite value => value
  | _ => 0

/-- A number that is not negative; it may be infinite. -/
def Amount : Extended → Prop
  | .finite value => 0 ≤ value
  | .infinite negative => negative = false
  | .nan => False

theorem round_of_nonneg {number : ℚ} (nonneg : 0 ≤ number) :
    round number = if Magnitude.rounded number < Magnitude.beyond then .finite (Magnitude.rounded number)
      else .infinite false := by
  have nearest := Magnitude.nearest_eq nonneg
  have sign : decide (number < 0) = false := decide_eq_false (not_lt.mpr nonneg)
  unfold round Double.ofDecimal
  rw [abs_of_nonneg nonneg, sign]
  split at nearest
  · rename_i small
    obtain ⟨m, found, same⟩ := nearest
    rw [if_pos small, found]
    simp [Double.extended, same]
  · rename_i large
    rw [if_neg large, nearest]
    rfl

/-- The absolute value of a rounded number is its rounded absolute value. -/
theorem abs_round (number : ℚ) : (round number).abs = round |number| := by
  have sign : decide (|number| < 0) = false := decide_eq_false (not_lt.mpr (abs_nonneg number))
  unfold round Double.ofDecimal
  rw [abs_abs, sign]
  cases Magnitude.nearest |number| with
  | none => rfl
  | some m =>
    have nonneg : 0 ≤ m.value := by
      unfold Magnitude.value
      exact mul_nonneg (Nat.cast_nonneg _) (zpow_pos (by norm_num) _).le
    simp only [Double.extended, abs]
    split <;> simp [abs_of_nonneg nonneg]

/-- So is that of a difference. -/
theorem abs_sub (left right : ℚ) : ((Extended.finite left).sub (.finite right)).abs = round |left - right| :=
  abs_round _

/-- What is rounded from a number that is not negative is not negative. -/
theorem amount_round {number : ℚ} (nonneg : 0 ≤ number) : Amount (round number) := by
  rw [round_of_nonneg nonneg]
  split
  · exact Magnitude.rounded_nonneg nonneg
  · rfl

/-- Rounding keeps the order. -/
theorem round_mono {less more : ℚ} (nonneg : 0 ≤ less) (order : less ≤ more) :
    (round less).le (round more) = true := by
  have rounds := Magnitude.rounded_mono nonneg order
  rw [round_of_nonneg nonneg, round_of_nonneg (nonneg.trans order)]
  by_cases small : Magnitude.rounded more < Magnitude.beyond
  · rw [if_pos small, if_pos (rounds.trans_lt small)]
    exact decide_eq_true rounds
  · rw [if_neg small]
    split <;> rfl

theorem le_trans {first second third : Extended} (left : first.le second = true) (right : second.le third = true) :
    first.le third = true := by
  cases first <;> cases second <;> cases third <;> simp only [le, decide_eq_true_eq, Bool.or_eq_true, Bool.not_eq_true',
    Bool.false_eq_true] at left right ⊢
  all_goals grind

/-- What is less is not more. -/
theorem le_of_lt {less more : Extended} (order : less.lt more = true) : less.le more = true := by
  cases less <;> cases more <;> simp only [lt, le, decide_eq_true_eq, Bool.and_eq_true, Bool.or_eq_true,
    Bool.not_eq_true', Bool.false_eq_true] at order ⊢
  all_goals grind

/-- Of two amounts the one that is not more is less or the same. -/
theorem le_of_not_lt {left right : Extended} (known : Amount left) (known' : Amount right)
    (order : ¬right.lt left = true) : left.le right = true := by
  cases left <;> cases right <;> simp only [lt, le, Amount, decide_eq_true_eq, Bool.and_eq_true, Bool.or_eq_true,
    Bool.not_eq_true'] at known known' order ⊢
  all_goals grind

/-- Zero is the least amount. -/
theorem zero_le {amount : Extended} (known : Amount amount) : (Extended.finite 0).le amount = true := by
  cases amount with
  | finite value => exact decide_eq_true known
  | infinite negative =>
    obtain rfl : negative = false := known
    rfl
  | nan => exact known.elim

theorem le_infinite {amount : Extended} (known : Amount amount) : amount.le (.infinite false) = true := by
  cases amount with
  | finite value => rfl
  | infinite negative => simp [le]
  | nan => exact known.elim

section Amounts

variable {less more : Extended} {factor other : ℚ}

theorem Amount.of_le (known : Amount less) (order : less.le more = true) : Amount more := by
  cases less with
  | nan => exact known.elim
  | infinite negative =>
    obtain rfl : negative = false := known
    cases more <;> simp_all [le, Amount]
  | finite value =>
    cases more with
    | finite value' =>
      have below : value ≤ value' := of_decide_eq_true order
      exact (show 0 ≤ value from known).trans below
    | infinite negative => simpa [le, Amount] using order
    | nan => simp [le] at order

/-- A larger amount has the larger quotient. -/
theorem div_mono (known : Amount less) (order : less.le more = true) (positive : 0 < factor) :
    (less.div (.finite factor)).le (more.div (.finite factor)) = true := by
  have sign : decide (factor < 0) = false := decide_eq_false (not_lt.mpr positive.le)
  have known' := known.of_le order
  cases more with
  | nan => exact known'.elim
  | infinite negative =>
    obtain rfl : negative = false := known'
    simp only [div, sign, Bool.xor_false]
    refine le_infinite ?_
    cases less with
    | nan => exact known.elim
    | infinite negative =>
      obtain rfl : negative = false := known
      simp [Amount, sign]
    | finite value => exact amount_round (div_nonneg known positive.le)
  | finite value' =>
    cases less with
    | nan => exact known.elim
    | infinite negative =>
      obtain rfl : negative = false := known
      cases order
    | finite value =>
      exact round_mono (div_nonneg known positive.le)
        (div_le_div_of_nonneg_right (of_decide_eq_true order) positive.le)

theorem amount_div (known : Amount less) (positive : 0 < factor) : Amount (less.div (.finite factor)) := by
  have sign : decide (factor < 0) = false := decide_eq_false (not_lt.mpr positive.le)
  cases less with
  | nan => exact known.elim
  | infinite negative =>
    obtain rfl : negative = false := known
    simp [div, Amount, sign]
  | finite value => exact amount_round (div_nonneg known positive.le)

/-- A larger amount has the larger product. -/
theorem mul_mono (known : Amount less) (order : less.le more = true) (positive : 0 < factor) :
    (less.mul (.finite factor)).le (more.mul (.finite factor)) = true := by
  have sign : decide (factor < 0) = false := decide_eq_false (not_lt.mpr positive.le)
  have known' := known.of_le order
  cases more with
  | nan => exact known'.elim
  | infinite negative =>
    obtain rfl : negative = false := known'
    simp only [mul, sign, positive.ne', if_false, Bool.xor_false]
    refine le_infinite ?_
    cases less with
    | nan => exact known.elim
    | infinite negative =>
      obtain rfl : negative = false := known
      simp [Amount, sign, positive.ne']
    | finite value => exact amount_round (mul_nonneg known positive.le)
  | finite value' =>
    cases less with
    | nan => exact known.elim
    | infinite negative =>
      obtain rfl : negative = false := known
      cases order
    | finite value =>
      exact round_mono (mul_nonneg known positive.le)
        (mul_le_mul_of_nonneg_right (of_decide_eq_true order) positive.le)

end Amounts

end Extended

/-- A number that is a float. -/
def IsDouble (number : ℚ) : Prop := Extended.round number = .finite number

instance (number : ℚ) : Decidable (IsDouble number) := inferInstanceAs (Decidable (_ = _))

/-- A number that is not negative is a float when it has the bits of one, and does not lie beyond the largest one. -/
theorem isDouble_iff {number : ℚ} (nonneg : 0 ≤ number) :
    IsDouble number ↔ Fits 53 (-1074) number ∧ number < Magnitude.beyond := by
  unfold IsDouble
  rw [Extended.round_of_nonneg nonneg]
  constructor
  · intro same
    split at same
    · rename_i small
      have value : Magnitude.rounded number = number := by simpa using same
      rw [value] at small
      exact ⟨value ▸ Magnitude.rounded_fits nonneg, small⟩
    · cases same
  · rintro ⟨fits, small⟩
    rw [Magnitude.rounded_of_fits nonneg fits, if_pos small]

/-- What is rounded to a positive number is a float. -/
theorem isDouble_value {number : ℚ} (positive : 0 < (Extended.round number).value) :
    IsDouble (Extended.round number).value := by
  unfold Extended.round Double.ofDecimal at positive ⊢
  cases found : Magnitude.nearest |number| with
  | none =>
    simp only [found, Double.extended, Extended.value, lt_irrefl] at positive
  | some m =>
    have nonneg : 0 ≤ m.value := by
      unfold Magnitude.value
      exact mul_nonneg (Nat.cast_nonneg _) (zpow_pos (by norm_num) _).le
    have sign : decide (m.value < 0) = false := decide_eq_false (not_lt.mpr nonneg)
    have own : IsDouble m.value := by
      unfold IsDouble Extended.round Double.ofDecimal
      rw [abs_of_nonneg nonneg, Magnitude.nearest_value, sign]
      rfl
    simp only [found, Double.extended, Extended.value] at positive ⊢
    -- A positive number is not the negative of a magnitude.
    cases negative : decide (number < 0) with
    | true =>
      rw [negative, if_pos rfl] at positive
      exact absurd positive (not_lt.mpr (neg_nonpos.mpr nonneg))
    | false => exact own

/-- Counts up to the bits of a float are floats. -/
theorem isDouble_natCast {count : ℕ} (few : count ≤ 2 ^ 53) : IsDouble count := by
  refine (isDouble_iff (Nat.cast_nonneg _)).mpr ⟨?_, ?_⟩
  · rcases few.eq_or_lt with rfl | less
    · exact ⟨2 ^ 52, 1, by norm_num, by norm_num, by norm_num⟩
    · refine ⟨count, 0, ?_, by norm_num, by simp⟩
      rw [abs_of_nonneg (Int.natCast_nonneg _)]
      exact_mod_cast less
  · have below : (count : ℚ) ≤ 2 ^ (53 : ℤ) := by exact_mod_cast few
    exact below.trans_lt (zpow_lt_zpow_right₀ (by norm_num) (by norm_num))

/-- A sum of floats up to some bound exceeds as many times the bound by little, or it overflows. -/
theorem sum_floats {numbers : List ℚ} {most : ℚ} (few : numbers.length ≤ 2 ^ 53)
    (floats : ∀ number ∈ numbers, IsDouble number ∧ 0 < number ∧ number ≤ most) :
    Extended.sum (numbers.map .finite) = .infinite false ∨ ∃ total, Extended.sum (numbers.map .finite) = .finite total ∧ 0 ≤ total ∧ IsDouble total ∧
      total ≤ numbers.length * most * (1 + numbers.length / 2 ^ 53) := by
  -- The numbers are added from the first one on, so the induction adds the last one.
  induction numbers using List.reverseRecOn with
  | nil => exact .inr ⟨0, rfl, le_refl _, by decide +kernel, by simp⟩
  | append_singleton numbers number ih =>
    have added : Extended.sum ((numbers ++ [number]).map .finite) =
        (Extended.sum (numbers.map .finite)).add (.finite number) := by
      simp [Extended.sum, List.foldl_append]
    obtain ⟨isDouble, positive, below⟩ := floats number (by simp)
    rw [List.length_append, List.length_singleton] at few ⊢
    rw [added]
    rcases ih (by omega) (fun other listed => floats other (List.mem_append_left _ listed)) with
      infinite | ⟨total, same, nonneg, totalFloat, bounded⟩
    · rw [infinite]
      exact .inl rfl
    obtain ⟨totalFits, -⟩ := (isDouble_iff nonneg).mp totalFloat
    obtain ⟨fits, -⟩ := (isDouble_iff positive.le).mp isDouble
    have sumNonneg : 0 ≤ total + number := add_nonneg nonneg positive.le
    rw [same, show (Extended.finite total).add (.finite number) = .round (total + number) from rfl,
      Extended.round_of_nonneg sumNonneg]
    split
    · rename_i small
      have roundedNonneg := Magnitude.rounded_nonneg sumNonneg
      refine .inr ⟨_, rfl, roundedNonneg,
        (isDouble_iff roundedNonneg).mpr ⟨Magnitude.rounded_fits sumNonneg, small⟩, ?_⟩
      -- One rounding more adds a bit to the bound.
      obtain ⟨error, -⟩ := abs_le.mp (Magnitude.rounded_add_error totalFits fits nonneg positive.le)
      have many : (numbers.length : ℚ) ≤ 2 ^ 53 := by exact_mod_cast (by omega : numbers.length ≤ 2 ^ 53)
      have count : (0 : ℚ) ≤ numbers.length := Nat.cast_nonneg _
      have mostPositive : 0 < most := positive.trans_le below
      push_cast
      generalize (numbers.length : ℚ) = k at *
      have step : (k * most * (1 + k / 2 ^ 53) + most) * (1 + 1 / 2 ^ 53) ≤
          (k + 1) * most * (1 + (k + 1) / 2 ^ 53) := by
        have slack : 0 ≤ most * k * (2 ^ 53 - k) := by
          refine mul_nonneg (mul_nonneg mostPositive.le count) ?_
          linarith
        nlinarith
      have before : (total + number) * (1 + 1 / 2 ^ 53) ≤ (k * most * (1 + k / 2 ^ 53) + most) * (1 + 1 / 2 ^ 53) :=
        mul_le_mul_of_nonneg_right (by linarith) (by norm_num)
      linarith
    · exact .inl rfl

/-- Of the floats in a range there are only so many. -/
theorem floats_finite {low : ℚ} (high : ℚ) (nonneg : 0 ≤ low) :
    {number : ℚ | IsDouble number ∧ low ≤ number ∧ number ≤ high}.Finite := by
  have unit : (0 : ℚ) < 2 ^ (-1074 : ℤ) := zpow_pos (by norm_num) _
  refine ((Set.finite_Icc ⌊low / 2 ^ (-1074 : ℤ)⌋ ⌈high / 2 ^ (-1074 : ℤ)⌉).image
    fun count : ℤ => (count : ℚ) * 2 ^ (-1074 : ℤ)).subset ?_
  rintro number ⟨isDouble, above, below⟩
  obtain ⟨count, same⟩ := Magnitude.fits_count ((isDouble_iff (nonneg.trans above)).mp isDouble).1
  rw [same] at above below
  refine ⟨count, ⟨?_, ?_⟩, same.symm⟩
  · have reached : ⌊low / 2 ^ (-1074 : ℤ)⌋ ≤ ⌊(count : ℚ)⌋ := Int.floor_le_floor ((div_le_iff₀ unit).mpr above)
    rwa [Int.floor_intCast] at reached
  · have reached : ⌈(count : ℚ)⌉ ≤ ⌈high / 2 ^ (-1074 : ℤ)⌉ := Int.ceil_le_ceil ((le_div_iff₀ unit).mpr below)
    rwa [Int.ceil_intCast] at reached

/-- The greatest float that is not above a number. -/
structure GreatestFloat (bound number : ℚ) : Prop where
  isDouble : IsDouble number
  within : number ≤ bound
  greatest : ∀ other, IsDouble other → other ≤ bound → other ≤ number

/-- The least float that is not below a number. -/
structure LeastFloat (bound number : ℚ) : Prop where
  isDouble : IsDouble number
  within : bound ≤ number
  least : ∀ other, IsDouble other → bound ≤ other → number ≤ other

/-- Above a float there is a greatest one up to any bound. -/
theorem exists_greatestFloat {low bound : ℚ} (nonneg : 0 ≤ low) (isDouble : IsDouble low) (order : low ≤ bound) :
    ∃ number, GreatestFloat bound number ∧ low ≤ number := by
  obtain ⟨number, ⟨isDouble', above, within⟩, greatest⟩ :=
    Set.exists_max_image _ id (floats_finite bound nonneg) ⟨low, isDouble, le_refl _, order⟩
  refine ⟨number, ⟨isDouble', within, fun other known below => ?_⟩, above⟩
  rcases le_total low other with more | less
  · exact greatest other ⟨known, more, below⟩
  · exact less.trans above

/-- Below a float there is a least one from any bound on. -/
theorem exists_leastFloat {bound high : ℚ} (nonneg : 0 ≤ bound) (isDouble : IsDouble high) (order : bound ≤ high) :
    ∃ number, LeastFloat bound number ∧ number ≤ high := by
  obtain ⟨number, ⟨isDouble', within, below⟩, least⟩ :=
    Set.exists_min_image _ id (floats_finite high nonneg) ⟨high, isDouble, order, le_refl _⟩
  refine ⟨number, ⟨isDouble', within, fun other known above => ?_⟩, below⟩
  rcases le_total other high with less | more
  · exact least other ⟨known, above, less⟩
  · exact below.trans more

end Rounding
