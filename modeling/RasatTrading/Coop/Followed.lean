import RasatTrading.Coop.Footprint
import RasatTrading.Coop.System

/-! What programs can come to, and what the tasks of a run have come to. -/

namespace Coop

variable {Q : Type} {R : Q → Type} {ε α β World Choice Call Out : Type} {program : Prog Q R ε α}

namespace Prog

/-- Whatever a program is answered, it ends with an outcome of the given kind. -/
def Ends (good : Except ε α → Prop) : Prog Q R ε α → Prop
  | .done value => good (.ok value)
  | .fail error => good (.error error)
  | .ask _ next => ∀ answer, (next answer).Ends good

/-- What goes on from an outcome can be exchanged for what does the same on every outcome there is. -/
theorem attempt_bind_congr {good : Except ε α → Prop}
    {next other : Except ε α → Prog Q R ε β} (ends : program.Ends good)
    (same : ∀ outcome, good outcome → next outcome = other outcome) :
    program.attempt.bind next = program.attempt.bind other := by
  induction program with
  | done value => exact same _ ends
  | fail error => exact same _ ends
  | ask request resume ih =>
    simp only [attempt, bind]
    congr
    funext answer
    exact ih answer (ends answer)

/-- The outcome of a program that goes on from every outcome with another one. -/
theorem attempt_of_outcomes {next : Except ε α → Except ε β} :
    (program.attempt.bind fun outcome => ofExcept (next outcome)).attempt =
      program.attempt.bind fun outcome => .done (next outcome) := by
  induction program with
  | done value => simp only [attempt, done_bind]; cases next (.ok value) <;> rfl
  | fail error => simp only [attempt, done_bind]; cases next (.error error) <;> rfl
  | ask request resume ih =>
    simp only [attempt, bind]
    congr
    funext answer
    exact ih answer

end Prog

namespace Reaches

variable {last : Prog Q R ε β} {hist seen : Hist Q R ε}

/-- A sequence is still in its first part, or that part has ended. -/
theorem in_attempt {next : Except ε α → Prog Q R ε β}
    (reached : Reaches (program.attempt.bind next) hist last seen) :
    (∃ rest, Reaches program hist rest seen ∧ last = rest.attempt.bind next) ∨
      ∃ outcome middle, Reaches program hist (Prog.ofExcept outcome) middle ∧ Reaches (next outcome) middle last seen := by
  induction program generalizing hist with
  | done value => exact .inr ⟨.ok value, hist, .here, reached⟩
  | fail error => exact .inr ⟨.error error, hist, .here, reached⟩
  | ask request resume ih =>
    rcases of_ask reached with ⟨rfl, rfl⟩ | ⟨reply, rest⟩
    · exact .inl ⟨_, .here, rfl⟩
    · rcases ih reply rest with ⟨inner, before, same⟩ | ⟨outcome, middle, before, after⟩
      · exact .inl ⟨inner, .head reply before, same⟩
      · exact .inr ⟨outcome, middle, .head reply before, after⟩

end Reaches

/-- Every task has come to what its call's program comes to on the answers that the task has heard; of a task that
a crash has ended the same is known of the time before. -/
def Machine.Followed (m : Machine Q R ε World Choice Call Out) (s : Sys Q R ε World Call Out) : Prop :=
  s.Each fun call task hist => ∃ program, Reaches (m.program call) [] program hist ∧
    ∀ running, task = some running → running = program

/-- So it is in every run. -/
theorem Machine.steps_followed {m : Machine Q R ε World Choice Call Out}
    {allowed : Sys Q R ε World Call Out → Move Choice Call → Prop} {world : World}
    {s : Sys Q R ε World Call Out} (steps : m.Steps allowed (m.start world) s) : m.Followed s := by
  refine Machine.steps_each (fun call => ?_) (fun call request next hist answer known => ?_)
    (fun call program hist known => ?_) steps
  · refine ⟨m.program call, .here, fun running found => ?_⟩
    exact (Option.some.inj found).symm
  · obtain ⟨program, reached, current⟩ := known
    rw [← current _ rfl] at reached
    refine ⟨next answer, .answer reached answer, fun running found => ?_⟩
    exact (Option.some.inj found).symm
  · obtain ⟨program, reached, -⟩ := known
    refine ⟨program, reached, fun running found => ?_⟩
    cases found

end Coop
