import Mathlib.Logic.Function.Basic
import Mathlib.Logic.Relation
import RasatTrading.Coop.Logic

/-! Interleaved runs of cooperative tasks over one world, with crashes and a boot task. -/

namespace Coop

/-- A service whose calls are cooperative programs over a shared world. -/
structure Machine (Q : Type) (R : Q → Type) (ε World Choice Call Out : Type) where
  /-- Serve a task's request; a blocked request has no result, a choice settles the rest. -/
  perform : World → Nat → (request : Q) → Choice → Option (Except ε (R request) × World)
  /-- The program that a call runs. -/
  program : Call → Prog Q R ε Out
  /-- The program that must finish before calls are served. -/
  boot : Prog Q R ε Out
  /-- What a crash leaves of the world. -/
  rebooted : World → World

/-- One line of the record of a run. -/
inductive Entry (Q : Type) (R : Q → Type) (ε Call : Type)
  | opened (task : Nat) (call : Call)
  | answered (task : Nat) (event : Event Q R ε)
  | crashed

/-- A world with the tasks that are running over it. -/
structure Sys (Q : Type) (R : Q → Type) (ε World Call Out : Type) where
  world : World
  /-- The rest of each task's program; finished tasks stay. -/
  tasks : Nat → Option (Prog Q R ε Out)
  /-- The call that each task serves; the boot task serves none. -/
  calls : Nat → Option Call
  /-- The next task number. -/
  fresh : Nat
  /-- The boot task of the running process. -/
  booter : Nat
  /-- The record of the run, newest entry first. -/
  trace : List (Entry Q R ε Call)

/-- One move of the scheduler. -/
inductive Move (Choice Call : Type)
  | «open» (call : Call)
  | resume (task : Nat) (choice : Choice)
  | crash

variable {Q : Type} {R : Q → Type} {ε World Choice Call Out Ghost : Type}

/-- The event of a task in one entry of the record. -/
def Entry.eventOf (task : Nat) : Entry Q R ε Call → Option (Event Q R ε)
  | .answered other event => if other = task then some event else none
  | _ => none

/-- The events of one task in a record. -/
def histOf (task : Nat) (trace : List (Entry Q R ε Call)) : Hist Q R ε :=
  trace.filterMap (Entry.eventOf task)

attribute [grind =] Entry.eventOf histOf

variable {task : Nat}

namespace Sys

/-- Everything one task has asked so far. -/
def hist (s : Sys Q R ε World Call Out) (task : Nat) : Hist Q R ε := histOf task s.trace

/-- The system after a task's request got its answer. -/
def answered (s : Sys Q R ε World Call Out) (task : Nat) (request : Q)
    (next : Except ε (R request) → Prog Q R ε Out) (answer : Except ε (R request))
    (world : World) : Sys Q R ε World Call Out :=
  { s with
    world := world
    tasks := Function.update s.tasks task (some (next answer))
    trace := .answered task ⟨request, answer⟩ :: s.trace }

attribute [grind =] hist answered

/-- Nothing but the boot task runs before the boot task is done, and numbers are handed out once. -/
structure Orderly (s : Sys Q R ε World Call Out) : Prop where
  unused : ∀ task, s.fresh ≤ task → s.tasks task = none ∧ s.calls task = none ∧ s.hist task = []
  booted : s.booter < s.fresh
  alone : (∀ value, s.tasks s.booter ≠ some (.done value)) →
    ∀ task, task ≠ s.booter → s.tasks task = none

/-- Every call was entered in the record before its task heard anything. -/
def Entered (s : Sys Q R ε World Call Out) : Prop :=
  ∀ task call, s.calls task = some call →
    ∃ during before, s.trace = during ++ .opened task call :: before ∧ histOf task before = []

@[simp] theorem hist_answered_self {s : Sys Q R ε World Call Out} {request : Q}
    {next : Except ε (R request) → Prog Q R ε Out} {answer : Except ε (R request)} {world : World} :
    (s.answered task request next answer world).hist task = ⟨request, answer⟩ :: s.hist task := by
  simp [hist, histOf, answered, Entry.eventOf]

theorem hist_answered_other {s : Sys Q R ε World Call Out} {task other : Nat} {request : Q}
    {next : Except ε (R request) → Prog Q R ε Out} {answer : Except ε (R request)} {world : World}
    (differ : other ≠ task) :
    (s.answered task request next answer world).hist other = s.hist other := by
  simp [hist, histOf, answered, Entry.eventOf, differ.symm]

/-- Something of each call, its program as far as it runs, and what the program has heard. -/
def Each (holds : Call → Option (Prog Q R ε Out) → Hist Q R ε → Prop)
    (s : Sys Q R ε World Call Out) : Prop :=
  ∀ task call, s.calls task = some call → holds call (s.tasks task) (s.hist task)

end Sys

variable {event : Event Q R ε}

/-- Events of a task's history are entries of the record. -/
theorem mem_of_histOf {trace : List (Entry Q R ε Call)}
    (member : event ∈ histOf task trace) : Entry.answered task event ∈ trace := by
  obtain ⟨entry, listed, found⟩ := List.mem_filterMap.mp member
  cases entry with
  | answered owner other =>
    simp only [Entry.eventOf] at found
    split at found
    · rename_i same
      cases found
      exact same ▸ listed
    · cases found
  | _ => cases found

theorem mem_trace_of_hist {s : Sys Q R ε World Call Out}
    (member : event ∈ s.hist task) : Entry.answered task event ∈ s.trace := mem_of_histOf member

theorem mem_hist_of_trace {s : Sys Q R ε World Call Out}
    (member : Entry.answered task event ∈ s.trace) : event ∈ s.hist task :=
  List.mem_filterMap.mpr ⟨_, member, by simp [Entry.eventOf]⟩

namespace Machine

variable (m : Machine Q R ε World Choice Call Out)

/-- A freshly started process over the given world. -/
def start (world : World) : Sys Q R ε World Call Out where
  world := world
  tasks := fun task => if task = 0 then some m.boot else none
  calls := fun _ => none
  fresh := 1
  booter := 0
  trace := []

/-- The system after a call is accepted. -/
def opened (s : Sys Q R ε World Call Out) (call : Call) : Sys Q R ε World Call Out :=
  { s with
    tasks := Function.update s.tasks s.fresh (some (m.program call))
    calls := Function.update s.calls s.fresh (some call)
    fresh := s.fresh + 1
    trace := .opened s.fresh call :: s.trace }

/-- The system after a crash: every task is lost and a new boot task runs. -/
def crashed (s : Sys Q R ε World Call Out) : Sys Q R ε World Call Out where
  world := m.rebooted s.world
  tasks := fun task => if task = s.fresh then some m.boot else none
  calls := s.calls
  fresh := s.fresh + 1
  booter := s.fresh
  trace := .crashed :: s.trace

/-- One move, when the scheduler can make it. -/
def step (s : Sys Q R ε World Call Out) : Move Choice Call → Option (Sys Q R ε World Call Out)
  | .open call =>
    -- Calls are served only once the boot task is done.
    match s.tasks s.booter with
    | some (.done _) => some (m.opened s call)
    | _ => none
  | .resume task choice =>
    match s.tasks task with
    | some (.ask request next) =>
      (m.perform s.world task request choice).map fun (answer, world) =>
        s.answered task request next answer world
    | _ => none
  | .crash => some (m.crashed s)

attribute [grind =] start opened crashed step

/-- The task that a move runs. -/
def mover (s : Sys Q R ε World Call Out) : Move Choice Call → Nat
  | .resume task _ => task
  | .open _ | .crash => s.fresh

/-- Make a list of moves, oldest first. -/
def run (s : Sys Q R ε World Call Out) : List (Move Choice Call) → Option (Sys Q R ε World Call Out)
  | [] => some s
  | move :: rest => (m.step s move).bind fun after => run after rest

/-- Make a list of moves, each of which must pass a check where it is made. -/
def checkedRun (check : Sys Q R ε World Call Out → Move Choice Call → Bool)
    (s : Sys Q R ε World Call Out) : List (Move Choice Call) → Option (Sys Q R ε World Call Out)
  | [] => some s
  | move :: rest =>
    if check s move then (m.step s move).bind fun after => checkedRun check after rest else none

/-- The runs whose every move is allowed where it is made. -/
def Steps (allowed : Sys Q R ε World Call Out → Move Choice Call → Prop) :
    Sys Q R ε World Call Out → Sys Q R ε World Call Out → Prop :=
  Relation.ReflTransGen fun s after => ∃ move, allowed s move ∧ m.step s move = some after

variable {m}

variable {s after : Sys Q R ε World Call Out} {move : Move Choice Call}

/-- Everything a single move can do. -/
theorem step_cases (stepped : m.step s move = some after) :
    (∃ call value, move = .open call ∧ s.tasks s.booter = some (.done value) ∧
      after = m.opened s call) ∨
    (∃ task choice request next answer world, move = .resume task choice ∧
      s.tasks task = some (.ask request next) ∧
      m.perform s.world task request choice = some (answer, world) ∧
      after = s.answered task request next answer world) ∨
    (move = .crash ∧ after = m.crashed s) := by
  cases move with
  | «open» call =>
    simp only [step] at stepped
    split at stepped
    · rename_i value booted
      exact .inl ⟨call, value, rfl, booted, (Option.some.inj stepped).symm⟩
    · cases stepped
  | resume task choice =>
    simp only [step] at stepped
    split at stepped
    · rename_i request next running
      obtain ⟨⟨answer, world⟩, performed, same⟩ := Option.map_eq_some_iff.mp stepped
      exact .inr (.inl ⟨task, choice, request, next, answer, world, rfl, running, performed, same.symm⟩)
    · cases stepped
  | crash => exact .inr (.inr ⟨rfl, (Option.some.inj stepped).symm⟩)

/-- A list of moves that goes through is a run. -/
theorem run_steps {moves : List (Move Choice Call)}
    (ran : m.run s moves = some after) : m.Steps (fun _ _ => True) s after := by
  induction moves generalizing s with
  | nil => cases ran; exact .refl
  | cons move rest ih =>
    obtain ⟨middle, stepped, remaining⟩ := Option.bind_eq_some_iff.mp ran
    exact .head ⟨move, trivial, stepped⟩ (ih remaining)

/-- A list of checked moves that goes through is a run of checked moves. -/
theorem checkedRun_steps {check : Sys Q R ε World Call Out → Move Choice Call → Bool}
    {moves : List (Move Choice Call)} (ran : m.checkedRun check s moves = some after) :
    m.Steps (fun s move => check s move = true) s after := by
  induction moves generalizing s with
  | nil => cases ran; exact .refl
  | cons move rest ih =>
    simp only [checkedRun] at ran
    split at ran
    · rename_i passed
      obtain ⟨middle, stepped, remaining⟩ := Option.bind_eq_some_iff.mp ran
      exact .head ⟨move, passed, stepped⟩ (ih remaining)
    · cases ran

/-- A run under one restriction is a run under any weaker one. -/
theorem Steps.mono {allowed allowed' : Sys Q R ε World Call Out → Move Choice Call → Prop}
    (weaker : ∀ s move, allowed s move → allowed' s move)
    (steps : m.Steps allowed s after) : m.Steps allowed' s after := by
  induction steps with
  | refl => exact .refl
  | tail _ last ih =>
    obtain ⟨move, permitted, stepped⟩ := last
    exact .tail ih ⟨move, weaker _ move permitted, stepped⟩

@[simp] theorem hist_opened {call : Call} : (m.opened s call).hist task = s.hist task := rfl

@[simp] theorem hist_crashed : (m.crashed s).hist task = s.hist task := rfl

theorem start_orderly (world : World) : (m.start world).Orderly where
  unused := by
    intro task used
    have other : task ≠ 0 := by simp only [start] at used; omega
    exact ⟨by simp [start, other], rfl, rfl⟩
  booted := by simp [start]
  alone := by intro _ task other; simp only [start] at other ⊢; simp [other]

theorem opened_orderly {call : Call} {value : Out}
    (orderly : s.Orderly) (booted : s.tasks s.booter = some (.done value)) :
    (m.opened s call).Orderly where
  unused := by
    intro task used
    have later : s.fresh < task := used
    have old := orderly.unused task (by omega)
    refine ⟨?_, ?_, by rw [hist_opened]; exact old.2.2⟩
    · simp only [opened]
      rw [Function.update_of_ne (by omega)]
      exact old.1
    · simp only [opened]
      rw [Function.update_of_ne (by omega)]
      exact old.2.1
  booted := Nat.lt_succ_of_lt orderly.booted
  alone := by
    intro pending
    -- The boot task is still done, so this case does not arise.
    refine absurd ?_ (pending value)
    have older : s.booter ≠ s.fresh := by have := orderly.booted; omega
    simp only [opened]
    rw [Function.update_of_ne older]
    exact booted

theorem crashed_orderly (orderly : s.Orderly) :
    (m.crashed s).Orderly where
  unused := by
    intro task used
    have later : s.fresh < task := used
    refine ⟨?_, (orderly.unused task (by omega)).2⟩
    simp only [crashed]
    rw [if_neg (by omega)]
  booted := by simp [crashed]
  alone := by intro _ task other; simp only [crashed] at other ⊢; simp [other]

theorem answered_orderly {request : Q}
    {next : Except ε (R request) → Prog Q R ε Out} {answer : Except ε (R request)} {world : World}
    (orderly : s.Orderly) (running : s.tasks task = some (.ask request next)) :
    (s.answered task request next answer world).Orderly where
  unused := by
    intro other used
    have old := orderly.unused other used
    have differ : other ≠ task := by
      rintro rfl
      rw [old.1] at running
      cases running
    refine ⟨?_, old.2.1, by rw [Sys.hist_answered_other differ]; exact old.2.2⟩
    simp only [Sys.answered]
    rw [Function.update_of_ne differ]
    exact old.1
  booted := orderly.booted
  alone := by
    intro pending other differ
    have away : other ≠ s.booter := differ
    by_cases boot : task = s.booter
    · -- The boot task itself moved, so it was unfinished before.
      rw [boot] at running
      show Function.update s.tasks task (some (next answer)) other = none
      rw [boot, Function.update_of_ne away]
      refine orderly.alone (fun value finished => ?_) other away
      rw [running] at finished
      cases finished
    · -- Another task moved, which needs a finished boot task.
      exfalso
      have lonely : ¬ ∀ value, s.tasks s.booter ≠ some (.done value) := by
        intro unfinished
        rw [orderly.alone unfinished task boot] at running
        cases running
      obtain ⟨value, finished⟩ := not_forall_not.mp lonely
      refine pending value ?_
      simp only [Sys.answered]
      rw [Function.update_of_ne (Ne.symm boot)]
      exact finished

/-- Every move keeps the system orderly. -/
theorem step_orderly (orderly : s.Orderly) (stepped : m.step s move = some after) : after.Orderly := by
  obtain ⟨call, value, -, booted, rfl⟩ |
    ⟨task, choice, request, next, answer, world, -, running, -, rfl⟩ | ⟨-, rfl⟩ :=
    step_cases stepped
  · exact opened_orderly orderly booted
  · exact answered_orderly orderly running
  · exact crashed_orderly orderly

/-- Every move keeps calls entered before their tasks hear anything. -/
theorem step_entered (orderly : s.Orderly) (entered : s.Entered) (stepped : m.step s move = some after) :
    after.Entered := by
  intro task call called
  obtain ⟨call', value, rfl, -, rfl⟩ |
    ⟨owner, choice, request, next, answer, world, rfl, -, -, rfl⟩ | ⟨rfl, rfl⟩ :=
    step_cases stepped
  · by_cases new : task = s.fresh
    · subst new
      have same : call' = call := by simpa [opened] using called
      subst same
      exact ⟨[], s.trace, rfl, (orderly.unused s.fresh (Nat.le_refl _)).2.2⟩
    · have old : s.calls task = some call := by
        simpa [opened, Function.update_of_ne new] using called
      obtain ⟨during, before, split, silent⟩ := entered task call old
      exact ⟨.opened s.fresh call' :: during, before, congrArg _ split, silent⟩
  · obtain ⟨during, before, split, silent⟩ := entered task call called
    exact ⟨.answered owner ⟨request, answer⟩ :: during, before, congrArg _ split, silent⟩
  · obtain ⟨during, before, split, silent⟩ := entered task call called
    exact ⟨.crashed :: during, before, congrArg _ split, silent⟩

variable {allowed : Sys Q R ε World Call Out → Move Choice Call → Prop} {world : World}

/-- What every move from an orderly state keeps holds along a run. -/
theorem steps_keep {holds : Sys Q R ε World Call Out → Prop} (start : holds (m.start world))
    (keeps : ∀ s move after, s.Orderly → holds s → m.step s move = some after → holds after)
    (steps : m.Steps allowed (m.start world) s) : holds s := by
  have both : s.Orderly ∧ holds s := by
    induction steps with
    | refl => exact ⟨start_orderly world, start⟩
    | tail _ last ih =>
      obtain ⟨move, -, stepped⟩ := last
      exact ⟨step_orderly ih.1 stepped, keeps _ move _ ih.1 ih.2 stepped⟩
  exact both.2

/-- Along a run every call is entered before its task hears anything. -/
theorem steps_entered (steps : m.Steps allowed (m.start world) s) : s.Entered := by
  refine steps_keep ?_ (fun _ _ _ => step_entered) steps
  intro task call called
  cases called

/-- What a call and its program begin with, what each answer keeps, and what is left of it when a crash drops the
program: so it is with every call of a run. -/
theorem steps_each {holds : Call → Option (Prog Q R ε Out) → Hist Q R ε → Prop}
    (opened : ∀ call, holds call (some (m.program call)) [])
    (answered : ∀ call request next hist answer, holds call (some (.ask request next)) hist →
      holds call (some (next answer)) (⟨request, answer⟩ :: hist))
    (dropped : ∀ call program hist, holds call program hist → holds call none hist)
    (steps : m.Steps allowed (m.start world) s) : s.Each holds := by
  refine steps_keep ?_ (fun s move after orderly each stepped => ?_) steps
  · intro task call called
    cases called
  have unused := orderly.unused s.fresh (Nat.le_refl _)
  intro task call called
  obtain ⟨call', value, rfl, booted, rfl⟩ |
    ⟨owner, choice, request, next, answer, world, rfl, running, performed, rfl⟩ | ⟨rfl, rfl⟩ :=
    step_cases stepped
  · rw [hist_opened]
    by_cases new : task = s.fresh
    · -- The newcomer is at the beginning of its program.
      subst new
      have same : call' = call := by simpa [Machine.opened] using called
      subst same
      simpa [Machine.opened, unused.2.2] using opened call'
    · have old : s.calls task = some call := by
        simpa [Machine.opened, Function.update_of_ne new] using called
      simpa [Machine.opened, Function.update_of_ne new] using each task call old
  · have own := each task call called
    by_cases moved : task = owner
    · subst moved
      rw [running] at own
      rw [Sys.hist_answered_self]
      simpa [Sys.answered] using answered call request next _ answer own
    · rw [Sys.hist_answered_other moved]
      simpa [Sys.answered, Function.update_of_ne moved] using own
  · -- After a crash only the boot task runs, which serves no call.
    have other : task ≠ s.fresh := by
      rintro rfl
      rw [show (m.crashed s).calls s.fresh = _ from unused.2.1] at called
      cases called
    rw [hist_crashed]
    simpa [Machine.crashed, other] using dropped call _ _ (each task call called)

end Machine

end Coop
