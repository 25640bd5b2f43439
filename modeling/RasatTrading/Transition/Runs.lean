import Mathlib.Tactic.SplitIfs

/-! Runs of a partial step function whose moves all meet a condition. -/

namespace Transition

variable {σ μ : Type*} {step : σ → μ → Option σ} {allowed weaker : σ → μ → Prop}
  {start state : σ}

/-- The states that runs of allowed moves come to. -/
inductive Reach (step : σ → μ → Option σ) (allowed : σ → μ → Prop) (start : σ) : σ → Prop
  /-- Every run begins at the start. -/
  | start : Reach step allowed start start
  /-- An allowed move that can be made leads on. -/
  | step {before after : σ} {move : μ} (reached : Reach step allowed start before)
      (meets : allowed before move) (moved : step before move = some after) :
      Reach step allowed start after

/-- What holds at the start and is kept by every allowed move holds in every reached state. -/
theorem Reach.invariant {Inv : σ → Prop} (reached : Reach step allowed start state) (begins : Inv start)
    (kept : ∀ {before after move}, Inv before → allowed before move →
      step before move = some after → Inv after) : Inv state := by
  induction reached with
  | start => exact begins
  | step _ meets moved ih => exact kept ih meets moved

/-- A run goes on where another one ended. -/
theorem Reach.trans {middle : σ} (first : Reach step allowed start middle)
    (second : Reach step allowed middle state) : Reach step allowed start state := by
  induction second with
  | start => exact first
  | step _ meets moved ih => exact .step ih meets moved

/-- Make the moves of a list, each of which must be allowed and possible. -/
def run (step : σ → μ → Option σ) (allowed : σ → μ → Prop)
    [∀ state move, Decidable (allowed state move)] : σ → List μ → Option σ
  | state, [] => some state
  | state, move :: rest =>
    if allowed state move then (step state move).bind fun after => run step allowed after rest
    else none

/-- Where the moves of a list lead is reached. -/
theorem reach_run [∀ state move, Decidable (allowed state move)] {moves : List μ}
    (ran : run step allowed start moves = some state) : Reach step allowed start state := by
  -- The run is put together from its first move and the run behind it.
  induction moves generalizing start with
  | nil =>
    obtain rfl : start = state := by simpa [run] using ran
    exact .start
  | cons move rest ih =>
    simp only [run] at ran
    split_ifs at ran with meets
    obtain ⟨after, moved, behind⟩ := Option.bind_eq_some_iff.mp ran
    exact Reach.trans (.step .start meets moved) (ih behind)

/-- A property checked at the end of a run holds of a reached state. -/
theorem exists_of_run [∀ state move, Decidable (allowed state move)] {moves : List μ}
    {Holds : σ → Prop} [DecidablePred Holds]
    (checked : (run step allowed start moves).any (fun state => decide (Holds state)) = true) :
    ∃ state, Reach step allowed start state ∧ Holds state := by
  cases ran : run step allowed start moves with
  | none => simp [ran] at checked
  | some state =>
    rw [ran] at checked
    exact ⟨state, reach_run ran, of_decide_eq_true checked⟩

end Transition
