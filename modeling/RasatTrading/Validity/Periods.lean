import Mathlib.Order.Lattice

/-! Periods of validity with a last time, or with no end, and when two of them never meet. -/

namespace Validity

variable {τ : Type*} [LinearOrder τ]

/-- From a first time up to and including a last one, if there is one. -/
structure Period (τ : Type*) where
  first : τ
  last : Option τ
  deriving DecidableEq

/-- The period covers a time. -/
def Period.Covers (period : Period τ) (time : τ) : Prop :=
  period.first ≤ time ∧ ∀ last ∈ period.last, time ≤ last

/-- The period does not end before it begins. -/
def Period.Proper (period : Period τ) : Prop := ∀ last ∈ period.last, period.first ≤ last

/-- No time is covered by both. -/
def Period.Apart (period other : Period τ) : Prop :=
  ∀ time, ¬(period.Covers time ∧ other.Covers time)

namespace Period

/-- An open period covers everything from its first time on. -/
@[simp] theorem covers_open {first time : τ} : (Period.mk first none).Covers time ↔ first ≤ time := by
  simp [Covers]

/-- A closed period covers what lies between its first and its last time. -/
@[simp] theorem covers_closed {first last time : τ} :
    (Period.mk first (some last)).Covers time ↔ first ≤ time ∧ time ≤ last := by
  simp [Covers]

/-- Being apart does not depend on the order of the two. -/
theorem Apart.symm {period other : Period τ} (apart : period.Apart other) : other.Apart period :=
  fun time both => apart time both.symm

/-- A period that ends before another one begins is apart from it. -/
theorem apart_of_ends {period other : Period τ} {last : τ} (ends : period.last = some last)
    (before : last < other.first) : period.Apart other := by
  rintro time ⟨⟨-, within⟩, begun, -⟩
  exact absurd (begun.trans (within last ends)) (not_le.mpr before)

/-- Part of a period is apart from whatever the whole is apart from. -/
theorem Apart.shrink {period part other : Period τ} (apart : period.Apart other)
    (within : ∀ time, part.Covers time → period.Covers time) : part.Apart other :=
  fun time both => apart time ⟨within time both.1, both.2⟩

/-- A period that is apart from a later open one ends before that one begins. -/
theorem ends_of_apart_open {period : Period τ} {first : τ}
    (earlier : period.first < first) (apart : period.Apart ⟨first, none⟩) :
    ∃ last, period.last = some last ∧ last < first := by
  cases ends : period.last with
  | none =>
    -- Without an end it would cover the first time of the other one.
    refine absurd ⟨⟨earlier.le, ?_⟩, covers_open.mpr le_rfl⟩ (apart first)
    intro last given
    rw [ends] at given
    cases given
  | some last =>
    refine ⟨last, rfl, not_le.mp fun reaches => ?_⟩
    refine absurd ⟨⟨earlier.le, ?_⟩, covers_open.mpr le_rfl⟩ (apart first)
    intro given same
    rw [ends] at same
    exact Option.some.inj same ▸ reaches

end Period

end Validity
