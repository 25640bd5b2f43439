import Mathlib.Algebra.Order.Floor.Ring
import Mathlib.Tactic.Linarith
import Mathlib.Tactic.Ring
import Mathlib.Algebra.Order.Field.Basic
import Mathlib.Data.Int.Cast.Lemmas

/-! Rounding down to multiples of a step, with a tolerance that is counted in steps. -/

namespace Rounding

variable {K : Type*} [Field K] [LinearOrder K] [IsStrictOrderedRing K] [FloorRing K]
variable {tolerance step value : K}

/-- The highest multiple of a step that exceeds a value by the tolerance at most. -/
def floorTo (tolerance step value : K) : K := ⌊value / step + tolerance⌋ * step

/-- A multiple of a step. -/
def Multiple (step quantity : K) : Prop := ∃ count : ℤ, quantity = count * step

omit [IsStrictOrderedRing K] in
/-- Whatever the tolerance, a multiple of the step comes out. -/
theorem floorTo_multiple (tolerance step value : K) : Multiple step (floorTo tolerance step value) :=
  ⟨_, rfl⟩

/-- A multiple of the step that does not exceed the value does not exceed the rounded one. -/
theorem Multiple.le_floorTo {quantity : K} (multiple : Multiple step quantity) (positive : 0 < step)
    (forward : 0 ≤ tolerance) (below : quantity ≤ value) : quantity ≤ floorTo tolerance step value := by
  obtain ⟨count, rfl⟩ := multiple
  have inside : (count : K) ≤ value / step := (le_div_iff₀ positive).mpr below
  have reached : count ≤ ⌊value / step + tolerance⌋ := by
    apply Int.le_floor.mpr
    linarith
  -- The step is positive, so the order of the counts is that of the multiples.
  exact mul_le_mul_of_nonneg_right (by exact_mod_cast reached) positive.le

/-- Without a tolerance the value is not exceeded. -/
theorem floorTo_zero_le (positive : 0 < step) : floorTo 0 step value ≤ value := by
  have below := Int.floor_le (value / step + 0)
  rw [add_zero] at below
  unfold floorTo
  rw [add_zero]
  exact (le_div_iff₀ positive).mp below

/-- The tolerance does not tell as long as the value does not lie that close below a multiple. -/
theorem floor_add_tolerance (forward : 0 ≤ tolerance) :
    ⌊value + tolerance⌋ = ⌊value⌋ ↔ Int.fract value < 1 - tolerance := by
  have parts := Int.floor_add_fract value
  have fraction := Int.fract_nonneg value
  -- The floor stays as long as the fraction and the tolerance do not make up a whole.
  rw [Int.floor_eq_iff]
  constructor
  · rintro ⟨-, above⟩
    linarith
  · intro apart
    constructor <;> linarith

/-- With a tolerance the value is exceeded exactly when it lies that close below a multiple. -/
theorem floorTo_le_iff (positive : 0 < step) (forward : 0 ≤ tolerance) :
    floorTo tolerance step value ≤ value ↔ Int.fract (value / step) < 1 - tolerance := by
  rw [← floor_add_tolerance forward]
  constructor
  · intro below
    -- The count lies between the exact one and the value, so it is the exact one.
    have inside : (⌊value / step + tolerance⌋ : K) ≤ value / step := (le_div_iff₀ positive).mpr below
    apply le_antisymm (Int.le_floor.mpr inside)
    exact Int.floor_le_floor (le_add_of_nonneg_right forward)
  · intro same
    have exact_ : floorTo tolerance step value = floorTo 0 step value := by
      unfold floorTo
      rw [same, add_zero]
    rw [exact_]
    exact floorTo_zero_le positive

end Rounding

/-! Rounding to the nearest representable number, and how far apart numbers of a few bits lie. -/

namespace Rounding

variable {K : Type*} [Field K] [LinearOrder K] [IsStrictOrderedRing K]
variable {representable even : K → Prop} {value point : K}

/-- A value rounds to a representable point when none is nearer; of two that are equally near, the even
one counts. -/
structure RoundsTo (representable even : K → Prop) (value point : K) : Prop where
  listed : representable point
  nearest : ∀ other, representable other → |value - point| ≤ |value - other|
  ties : ∀ other, representable other → other ≠ point → |value - point| = |value - other| → even point

namespace RoundsTo

omit [IsStrictOrderedRing K] in
/-- A point that is nearer than all others is rounded to. -/
theorem of_nearer (own : representable point)
    (nearer : ∀ other, representable other → other ≠ point → |value - point| < |value - other|) :
    RoundsTo representable even value point where
  listed := own
  nearest := by
    intro other listed
    by_cases same : other = point
    · rw [same]
    · exact (nearer other listed same).le
  ties := fun other listed differs tie => absurd tie (nearer other listed differs).ne

/-- A representable value rounds to itself. -/
theorem self (own : representable value) : RoundsTo representable even value value := by
  refine of_nearer own fun other _ differs => ?_
  rw [sub_self, abs_zero]
  exact abs_pos.mpr (sub_ne_zero.mpr (Ne.symm differs))

section Rounds

variable (rounds : RoundsTo representable even value point)
include rounds

/-- What lies on the way from a value to its point rounds to that point as well. -/
theorem between {middle : K} (way : |value - point| = |value - middle| + |middle - point|) :
    RoundsTo representable even middle point where
  listed := rounds.listed
  nearest := by
    intro other listed
    -- Another point is at least as far from the value, and the middle is only so far away from it.
    have far := rounds.nearest other listed
    have detour := abs_sub_le value middle other
    linarith
  ties := by
    intro other listed differs tie
    have far := rounds.nearest other listed
    have detour := abs_sub_le value middle other
    exact rounds.ties other listed differs (by linarith)

/-- What lies between a value and its point from below rounds to that point. -/
theorem of_le_of_le {middle : K} (above : value ≤ middle) (below : middle ≤ point) :
    RoundsTo representable even middle point := by
  -- On this side all three differences have one sign.
  refine rounds.between ?_
  rw [abs_of_nonpos (by linarith), abs_of_nonpos (by linarith), abs_of_nonpos (by linarith)]
  ring

/-- What lies between a value and its point from above rounds to that point. -/
theorem of_ge_of_ge {middle : K} (below : middle ≤ value) (above : point ≤ middle) :
    RoundsTo representable even middle point := by
  refine rounds.between ?_
  rw [abs_of_nonneg (by linarith), abs_of_nonneg (by linarith), abs_of_nonneg (by linarith)]
  ring

/-- No representable number lies between a value and the point above it. -/
theorem le_of_lt {other : K} (listed : representable other) (above : value ≤ other) : point ≤ other := by
  -- A listed number in between would be nearer than the point.
  by_contra! beyond
  have far := rounds.nearest other listed
  rw [abs_of_nonpos (by linarith), abs_of_nonpos (by linarith)] at far
  linarith

/-- A value from a bound on rounds to a point from the bound on, when the bound is nearer to a
representable number above it than to any below. -/
theorem ge_of_ge {bound next : K} (listed : representable next) (above : bound ≤ next)
    (nearer : ∀ other, representable other → other < bound → next - bound < bound - other)
    (reached : bound ≤ value) : bound ≤ point := by
  by_contra! below
  -- The bound itself would round to the point below it.
  have far := (rounds.of_ge_of_ge reached below.le).nearest next listed
  rw [abs_of_nonneg (by linarith), abs_of_nonpos (by linarith)] at far
  have near := nearer point rounds.listed below
  linarith

end Rounds

end RoundsTo

/-- The multiples of a power of two that fit in a number of bits. -/
def Fits (bits : ℕ) (least : ℤ) (value : K) : Prop :=
  ∃ significand exponent : ℤ, |significand| < 2 ^ bits ∧ least ≤ exponent ∧
    value = significand * (2 : K) ^ exponent

variable {bits : ℕ} {least : ℤ} {other : K}

/-- A number lies further from one with no smaller exponent than its own last bit is worth. -/
theorem abs_lt_mul_gap {first second lower upper : ℤ} (order : lower ≤ upper)
    (small : |first| < 2 ^ bits) (differs : (first : K) * 2 ^ lower ≠ second * 2 ^ upper) :
    |(first : K) * 2 ^ lower| < 2 ^ bits * |(first : K) * 2 ^ lower - second * 2 ^ upper| := by
  have unit : (0 : K) < 2 ^ lower := zpow_pos (by norm_num) _
  obtain ⟨shift, rfl⟩ := Int.le.dest order
  -- Both are whole multiples of the smaller power of two, and different ones.
  have apart : (first : K) * 2 ^ lower - second * 2 ^ (lower + shift) =
      ((first - second * 2 ^ shift : ℤ) : K) * 2 ^ lower := by
    rw [zpow_add₀ (by norm_num), zpow_natCast]
    push_cast
    ring
  have nonzero : first - second * 2 ^ shift ≠ 0 := by
    intro zero
    apply differs
    rw [zero] at apart
    exact sub_eq_zero.mp (by simpa using apart)
  have least : (1 : K) ≤ |((first - second * 2 ^ shift : ℤ) : K)| := by
    exact_mod_cast Int.one_le_abs nonzero
  have bounded : |(first : K)| < 2 ^ bits := by exact_mod_cast small
  rw [apart, abs_mul, abs_mul, abs_of_pos unit, ← mul_assoc]
  refine mul_lt_mul_of_pos_right ?_ unit
  have positive : (0 : K) ≤ 2 ^ bits := by positivity
  calc |(first : K)| < 2 ^ bits := bounded
    _ = 2 ^ bits * 1 := (mul_one _).symm
    _ ≤ 2 ^ bits * |((first - second * 2 ^ shift : ℤ) : K)| := mul_le_mul_of_nonneg_left least positive

/-- Two numbers of a few bits are never much closer to each other than to zero. -/
theorem Fits.gap (fits : Fits bits least value) (fitsOther : Fits bits least other)
    (differs : value ≠ other) : |value| < (2 ^ bits + 1) * |value - other| := by
  obtain ⟨first, lower, small, -, rfl⟩ := fits
  obtain ⟨second, upper, smallOther, -, rfl⟩ := fitsOther
  have apart : (0 : K) < |(first : K) * 2 ^ lower - second * 2 ^ upper| :=
    abs_pos.mpr (sub_ne_zero.mpr differs)
  -- The number with the smaller exponent decides how close the two can be.
  rcases le_total lower upper with order | order
  · have near := abs_lt_mul_gap order small differs
    linarith
  · have near := abs_lt_mul_gap order smallOther differs.symm
    rw [abs_sub_comm] at near
    -- The other number is close to zero, and this one is not much further away.
    have reach := abs_sub_abs_le_abs_sub ((first : K) * 2 ^ lower) (second * 2 ^ upper)
    linarith

end Rounding
