import RasatTrading.Coop.Footprint
import RasatTrading.Coop.System

/-! Invariants of interleaved runs, built from what each task knows and what the others may do. -/

namespace Coop

variable {Q : Type} {R : Q → Type} {ε World Choice Call Out Ghost : Type}

/-- Every task asks and has asked only what is of the kind of its call. -/
def Sys.Within (kind : Call → Q → Prop) (s : Sys Q R ε World Call Out) : Prop :=
  s.Each fun call task hist => (∀ program, task = some program → program.Only (kind call)) ∧
    ∀ event ∈ hist, kind call event.request

/-- Along a run every task stays within the kind of its call, when the call's program does. -/
theorem Machine.steps_within {m : Machine Q R ε World Choice Call Out} {kind : Call → Q → Prop}
    (only : ∀ call, (m.program call).Only (kind call))
    {allowed : Sys Q R ε World Call Out → Move Choice Call → Prop} {world : World}
    {s : Sys Q R ε World Call Out} (steps : m.Steps allowed (m.start world) s) : s.Within kind := by
  refine Machine.steps_each (fun call => ?_) (fun call request next hist answer known => ?_)
    (fun call program hist known => ?_) steps
  · refine ⟨fun program found => ?_, List.forall_mem_nil _⟩
    exact Option.some.inj found ▸ only call
  · obtain ⟨programs, events⟩ := known
    have asks := programs _ rfl
    refine ⟨fun program found => ?_, List.forall_mem_cons.mpr ⟨asks.1, events⟩⟩
    exact Option.some.inj found ▸ asks.2 answer
  · refine ⟨fun program found => ?_, known.2⟩
    cases found

/-- A world invariant, and for each task a relation between the world and what the task knows. -/
structure Simulation (Q : Type) (R : Q → Type) (ε World Call Out Ghost : Type) where
  discipline : Discipline Q R ε Ghost
  /-- What holds between any two moves. -/
  inv : Sys Q R ε World Call Out → Prop
  /-- The task's knowledge is true of the system. -/
  rep : Sys Q R ε World Call Out → Nat → Ghost → Prop
  /-- What a finished task knows. -/
  rest : Ghost → Prop

namespace Simulation

variable (sim : Simulation Q R ε World Call Out Ghost)

/-- The program keeps to the discipline from this knowledge and ends at rest. -/
def Keeps (program : Prog Q R ε Out) (ghost : Ghost) : Prop :=
  Safe sim.discipline program ghost fun _ g => sim.rest g

/-- The invariant holds and every task has true knowledge from which it keeps to the discipline. -/
structure Represented (s : Sys Q R ε World Call Out) : Prop where
  orderly : s.Orderly
  inv : sim.inv s
  task : ∀ task program, s.tasks task = some program →
    ∃ ghost, sim.rep s task ghost ∧ sim.Keeps program ghost

/-- The tasks other than the given one keep their knowledge when the system changes. -/
def Frames (task : Nat) (s after : Sys Q R ε World Call Out) : Prop :=
  ∀ other program ghost, other ≠ task → s.tasks other = some program →
    sim.rep s other ghost → sim.Keeps program ghost → sim.rep after other ghost

/-- What the moves of a machine must do for the simulation to hold along its runs. -/
structure Sound (m : Machine Q R ε World Choice Call Out)
    (allowed : Sys Q R ε World Call Out → Move Choice Call → Prop) : Prop where
  /-- An answer teaches the asking task something true and disturbs no other task. -/
  resume : ∀ s task choice request next answer world ghost, sim.Represented s →
    allowed s (.resume task choice) → s.tasks task = some (.ask request next) →
    sim.rep s task ghost → sim.Keeps (.ask request next) ghost →
    m.perform s.world task request choice = some (answer, world) →
    sim.inv (s.answered task request next answer world) ∧
      (∃ learned, sim.discipline.learn ghost request answer learned ∧
        sim.rep (s.answered task request next answer world) task learned) ∧
      sim.Frames task s (s.answered task request next answer world)
  /-- A new call starts from knowledge that is true of it. -/
  «open» : ∀ s call value, sim.Represented s → allowed s (.open call) →
    s.tasks s.booter = some (.done value) →
    sim.inv (m.opened s call) ∧
      (∃ ghost, sim.rep (m.opened s call) s.fresh ghost ∧ sim.Keeps (m.program call) ghost) ∧
      sim.Frames s.fresh s (m.opened s call)
  /-- So does the boot task after a crash. -/
  crash : ∀ s, sim.Represented s → allowed s .crash →
    sim.inv (m.crashed s) ∧
      ∃ ghost, sim.rep (m.crashed s) s.fresh ghost ∧ sim.Keeps m.boot ghost

variable {sim} {m : Machine Q R ε World Choice Call Out}
  {allowed : Sys Q R ε World Call Out → Move Choice Call → Prop}

/-- What is sound for some moves is sound for fewer. -/
theorem Sound.mono {fewer : Sys Q R ε World Call Out → Move Choice Call → Prop}
    (sound : sim.Sound m allowed) (within : ∀ s move, fewer s move → allowed s move) :
    sim.Sound m fewer where
  resume := by
    intro s task choice request next answer world ghost represented permitted
    exact sound.resume s task choice request next answer world ghost represented (within s _ permitted)
  «open» := by
    intro s call value represented permitted
    exact sound.open s call value represented (within s _ permitted)
  crash := by
    intro s represented permitted
    exact sound.crash s represented (within s _ permitted)

variable {s after : Sys Q R ε World Call Out}

/-- One allowed move keeps every task represented. -/
theorem Sound.step (sound : sim.Sound m allowed)
    {move : Move Choice Call} (represented : sim.Represented s) (permitted : allowed s move)
    (stepped : m.step s move = some after) : sim.Represented after := by
  have orderly := Machine.step_orderly represented.orderly stepped
  obtain ⟨call, value, rfl, booted, rfl⟩ |
    ⟨task, choice, request, next, answer, world, rfl, running, performed, rfl⟩ | ⟨rfl, rfl⟩ :=
    Machine.step_cases stepped
  · -- A new call: the newcomer starts represented, the others are framed.
    obtain ⟨inv, newcomer, frames⟩ := sound.open s call value represented permitted booted
    refine ⟨orderly, inv, fun task program found => ?_⟩
    by_cases new : task = s.fresh
    · subst new
      have same : program = m.program call := by
        simpa [Machine.opened, eq_comm] using found
      rw [same]
      exact newcomer
    · have old : s.tasks task = some program := by
        simpa [Machine.opened, Function.update_of_ne new] using found
      obtain ⟨ghost, rep, keeps⟩ := represented.task task program old
      exact ⟨ghost, frames task program ghost new old rep keeps, keeps⟩
  · -- An answer: the task moves on along its own safety, the others are framed.
    obtain ⟨ghost, rep, keeps⟩ := represented.task task _ running
    obtain ⟨inv, ⟨ghost', learned, rep'⟩, frames⟩ :=
      sound.resume s task choice request next answer world ghost represented permitted running rep
        keeps performed
    refine ⟨orderly, inv, fun other program found => ?_⟩
    by_cases own : other = task
    · subst own
      have same : program = next answer := by
        simpa [Sys.answered, eq_comm] using found
      rw [same]
      exact ⟨ghost', rep', (Safe.ask_iff.mp keeps).2 answer ghost' learned⟩
    · have old : s.tasks other = some program := by
        simpa [Sys.answered, Function.update_of_ne own] using found
      obtain ⟨known, rep'', keeps'⟩ := represented.task other program old
      exact ⟨known, frames other program known own old rep'' keeps', keeps'⟩
  · -- A crash: only the new boot task is left.
    obtain ⟨inv, ghost, rep, keeps⟩ := sound.crash s represented permitted
    refine ⟨orderly, inv, fun task program found => ?_⟩
    simp only [Machine.crashed] at found
    split at found
    · rename_i new
      subst new
      cases found
      exact ⟨ghost, rep, keeps⟩
    · cases found

/-- Every state of an allowed run is represented. -/
theorem Sound.represented (sound : sim.Sound m allowed)
    (initial : sim.Represented s) (steps : m.Steps allowed s after) : sim.Represented after := by
  induction steps with
  | refl => exact initial
  | tail _ last ih =>
    obtain ⟨move, permitted, stepped⟩ := last
    exact sound.step ih permitted stepped

/-- A property that every move from a represented state keeps holds along allowed runs. -/
theorem Sound.invariant (sound : sim.Sound m allowed) (holds : Sys Q R ε World Call Out → Prop)
    (keeps : ∀ s move after, sim.Represented s → allowed s move → m.step s move = some after →
      holds s → holds after)
    (initial : sim.Represented s) (start : holds s) (steps : m.Steps allowed s after) : holds after := by
  induction steps with
  | refl => exact start
  | tail before last ih =>
    obtain ⟨move, permitted, stepped⟩ := last
    exact keeps _ move _ (sound.represented initial before) permitted stepped ih

/-- A preorder that every move from a represented state respects relates the ends of a run. -/
theorem Sound.evolves (sound : sim.Sound m allowed)
    (below : Sys Q R ε World Call Out → Sys Q R ε World Call Out → Prop)
    (refl : ∀ s, below s s) (trans : ∀ {a b c}, below a b → below b c → below a c)
    (moves : ∀ s move after, sim.Represented s → allowed s move → m.step s move = some after →
      below s after)
    (initial : sim.Represented s) (steps : m.Steps allowed s after) : below s after :=
  sound.invariant (below s)
    (fun _ move _ represented permitted stepped before =>
      trans before (moves _ move _ represented permitted stepped))
    initial (refl s) steps

end Simulation

end Coop
