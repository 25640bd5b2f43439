import RasatTrading.Rounding.Decimal

/-! The shortest decimal numbers that round to a point: how long they are and where they lie. -/

namespace Rounding

variable {representable even : ℚ → Prop} {point : ℚ} {d : Decimal}

/-- A decimal number that rounds to a point, with as few digits as any that does. -/
structure Shortest (representable even : ℚ → Prop) (point : ℚ) (d : Decimal) : Prop where
  rounds : RoundsTo representable even d.value point
  fewest : ∀ other : Decimal, RoundsTo representable even other.value point →
    d.digits.length ≤ other.digits.length

/-- A number of a few bits is rounded to from a decimal number of not many digits. -/
theorem exists_rounding {bits : ℕ} {least : ℤ} {precision : ℕ} (enough : 2 ^ bits + 1 ≤ 10 ^ precision)
    (fits : Fits bits least point) (positive : 0 < point) :
    ∃ d : Decimal, d.digits.length ≤ precision + 1 ∧ RoundsTo (Fits bits least) even d.value point := by
  -- The first digit of the point stands at this power of ten.
  obtain ⟨scale, reached, below⟩ := exists_mem_Ico_zpow positive (by norm_num : (1 : ℚ) < 10)
  have unit : (0 : ℚ) < 10 ^ (scale - precision) := zpow_pos (by norm_num) _
  have whole : (10 : ℚ) ^ scale = 10 ^ precision * 10 ^ (scale - precision) := by
    rw [← zpow_natCast, ← zpow_add₀ (by norm_num)]
    congr 1
    omega
  have beyond : (10 : ℚ) ^ (scale + 1) = 10 ^ (precision + 1) * 10 ^ (scale - precision) := by
    rw [← zpow_natCast, ← zpow_add₀ (by norm_num)]
    congr 1
    push_cast
    omega
  -- The numeral is the point counted in units of its last digit, rounded.
  obtain ⟨count, same⟩ : ∃ count, count = point / 10 ^ (scale - precision) := ⟨_, rfl⟩
  have counted : point = count * 10 ^ (scale - precision) := by
    rw [same, div_mul_cancel₀ _ unit.ne']
  have low : (10 : ℚ) ^ precision ≤ count := by
    rw [whole, counted] at reached
    exact le_of_mul_le_mul_right reached unit
  have high : count < 10 ^ (precision + 1) := by
    rw [beyond, counted] at below
    exact lt_of_mul_lt_mul_right below unit.le
  have half := abs_sub_round count
  obtain ⟨down, up⟩ := abs_le.mp half
  have numeralLow : 10 ^ precision ≤ round count := by
    by_contra! small
    have small : (round count : ℚ) + 1 ≤ 10 ^ precision := by exact_mod_cast small
    linarith
  have numeralHigh : round count ≤ 10 ^ (precision + 1) := by
    by_contra! large
    have large : (10 : ℚ) ^ (precision + 1) + 1 ≤ round count := by exact_mod_cast large
    linarith
  -- Rounding moves it by less than half the way to any other number of these bits.
  have rounds : RoundsTo (Fits bits least) even (round count * 10 ^ (scale - precision)) point := by
    refine .of_nearer fits fun other fitsOther differs => ?_
    have gap := fits.gap fitsOther (Ne.symm differs)
    have moved : |(round count : ℚ) * 10 ^ (scale - precision) - point| ≤
        1 / 2 * 10 ^ (scale - precision) := by
      rw [counted, ← sub_mul, abs_mul, abs_of_pos unit, abs_sub_comm]
      exact mul_le_mul_of_nonneg_right half unit.le
    have bound : (2 : ℚ) ^ bits + 1 ≤ 10 ^ precision := by exact_mod_cast enough
    have wide : 10 ^ (scale - precision) < |point - other| := by
      by_contra! narrow
      have power : (0 : ℚ) < 2 ^ bits + 1 := by positivity
      have reach : ((2 : ℚ) ^ bits + 1) * |point - other| ≤ 10 ^ precision * 10 ^ (scale - precision) :=
        mul_le_mul bound narrow (abs_nonneg _) (by positivity)
      rw [abs_of_pos positive] at gap
      linarith
    have detour := abs_sub_le point (round count * 10 ^ (scale - precision)) other
    rw [abs_sub_comm point (round count * 10 ^ (scale - precision))] at detour
    linarith
  by_cases full : round count = 10 ^ (precision + 1)
  · -- All digits were nines, so that a power of ten is left.
    refine ⟨.ofPower (scale + 1), ?_, ?_⟩
    · rw [Decimal.ofPower_digits]
      omega
    · rw [Decimal.ofPower_value, beyond]
      rw [full] at rounds
      exact_mod_cast rounds
  · have positiveNumeral : 0 < round count := lt_of_lt_of_le (by positivity) numeralLow
    obtain ⟨numeral, cast⟩ := Int.eq_ofNat_of_zero_le positiveNumeral.le
    have small : numeral < 10 ^ (precision + 1) := by
      have strict : round count < 10 ^ (precision + 1) := lt_of_le_of_ne numeralHigh full
      rw [cast] at strict
      exact_mod_cast strict
    refine ⟨⟨numeral, scale - precision, by omega⟩, ?_, ?_⟩
    · exact (Nat.length_toDigits_le_iff (by decide) (Nat.succ_pos _)).mpr small
    · rw [cast] at rounds
      exact_mod_cast rounds

namespace Shortest

/-- The shortest decimal number of a number of a few bits does not have many digits. -/
theorem length_le {bits : ℕ} {least : ℤ} {precision : ℕ} (enough : 2 ^ bits + 1 ≤ 10 ^ precision)
    (shortest : Shortest (Fits bits least) even point d) (positive : 0 < point) :
    d.digits.length ≤ precision + 1 := by
  -- Some number of not many digits rounds to the point, and the shortest one has no more.
  obtain ⟨other, short, rounds⟩ := exists_rounding enough shortest.rounds.listed positive
  exact (shortest.fewest other rounds).trans short

/-- Below a power of ten it stays below, when some representable number lies within the last tenth. -/
theorem lt_of_lt {power : ℤ} {next : ℚ} (shortest : Shortest representable even point d)
    (listed : representable next) (low : 9 * 10 ^ (power - 1) ≤ next) (high : next < 10 ^ power)
    (below : d.value < 10 ^ power) : point < 10 ^ power := by
  by_contra! reached
  -- Otherwise the power of ten itself rounds to the point, with a single digit.
  have rounds : RoundsTo representable even (Decimal.ofPower power).value point := by
    rw [Decimal.ofPower_value]
    exact shortest.rounds.of_le_of_le below.le reached
  have short := shortest.fewest _ rounds
  rw [Decimal.ofPower_digits] at short
  have single : d.digits.length = 1 := le_antisymm short Nat.length_toDigits_pos
  have small := d.le_nine_tenths single below
  have nearer := shortest.rounds.le_of_lt listed (small.trans low)
  linarith

end Shortest

end Rounding
