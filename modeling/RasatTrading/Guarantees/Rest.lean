import RasatTrading.Coop.Rest
import RasatTrading.Guarantees.Runs

/-! Whatever is in progress ends: no call waits forever, and no lock stays behind. -/

namespace Rasat

open Coop

variable {svc : Service} {db : Database} {s after : State}

/-- A request can be served, whatever the environment chooses, unless another task has the lock. -/
theorem served_or_locked (world : World) (task : Nat) (request : Req) :
    (∀ choice, ∃ answer later, perform world task request choice = some (answer, later)) ∨
      ∃ accountId holder, request = .lock accountId ∧ world.locks accountId = some holder := by
  cases request with
  | lock accountId =>
    cases locked : world.locks accountId with
    | none =>
      refine .inl fun choice => ⟨.ok (), { world with locks := Function.update world.locks accountId (some task) }, ?_⟩
      simp only [perform, locked]
    | some holder => exact .inr ⟨accountId, holder, rfl, locked⟩
  | read query =>
    refine .inl fun choice => ?_
    simp only [perform]
    split <;> exact ⟨_, _, rfl⟩
  | _ => exact .inl fun choice => ⟨_, _, rfl⟩

/-- A waiting task can take an answer unless another task has the lock that it asks for. -/
theorem ready_or_locked {task : Nat} {request : Req} (waits : s.Waits task request) :
    (machine svc).Ready s task ∨
      ∃ accountId holder, request = .lock accountId ∧ s.world.locks accountId = some holder := by
  obtain ⟨next, running⟩ := waits
  refine (served_or_locked s.world task request).imp_left fun served choice => ?_
  obtain ⟨answer, later, performed⟩ := served choice
  refine ⟨s.answered task request next answer later, ?_⟩
  simp only [Machine.step, running]
  exact Option.map_eq_some_iff.mpr ⟨_, performed, rfl⟩

/-- Behind an answer the task goes on from knowledge of what it holds then. -/
theorem answer_kept {calm : Prop} {task : Nat} {request : Req} {choice : Choice} {world : World}
    {next : Except Exc request.Ans → Task Reply} {answer : Except Exc request.Ans}
    (represented : (custodySimulation svc.text calm).Represented s)
    (running : s.tasks task = some (.ask request next))
    (performed : perform s.world task request choice = some (answer, world)) :
    ∃ learned, Holds world task learned.view ∧
      (custodySimulation svc.text calm).Keeps (next answer) learned := by
  obtain ⟨known, ⟨truth, -⟩, keeps⟩ := represented.task task _ running
  obtain ⟨permitted, rest⟩ := Safe.ask_iff.mp keeps
  have served := perform_served represented.inv.formed (truth.asking running) permitted performed
  obtain ⟨view, step, now, -⟩ := served.own
  let learned : Knowledge := {
    call := known.call
    hist := ⟨request, answer⟩ :: known.hist
    view := view
    suspect := known.suspect ∨ Doubtful known request answer }
  have learns : Learns known request answer learned := by
    refine ⟨rfl, rfl, step, fun held same => ?_, Iff.rfl⟩
    have there : Holds world task (some held) := same ▸ now
    exact there.valid served.formed
  exact ⟨learned, now, rest answer learned learns⟩

/-- A task at rest has no lock. -/
theorem AtRest.unlocked {world : World} {task : Nat} {known : Knowledge} (rest : AtRest known)
    (holds : Holds world task known.view) (accountId : String) : world.locks accountId ≠ some task := by
  match view : known.view with
  | none => rw [view] at holds; exact holds accountId
  | some ⟨none, rows⟩ => rw [view] at holds; exact holds.1 accountId
  | some ⟨some owner, rows⟩ => exact absurd view (rest owner rows)

/-- Every lock is held by a task that still waits for an answer. -/
def LocksAttended (s : State) : Prop :=
  ∀ accountId holder, s.world.locks accountId = some holder → ∃ request, s.Waits holder request

/-- Every move keeps the locks attended. -/
theorem locksAttended_step {calm : Prop} {move : Move Choice Call}
    (represented : (custodySimulation svc.text calm).Represented s)
    (stepped : (machine svc).step s move = some after) (attended : LocksAttended s) :
    LocksAttended after := by
  intro accountId holder locked
  obtain ⟨call, value, rfl, -, rfl⟩ |
    ⟨task, choice, request, next, answer, world, rfl, running, performed, rfl⟩ | ⟨rfl, rfl⟩ :=
    Machine.step_cases stepped
  · -- The newcomer has no lock, so the holder is one of the others.
    obtain ⟨request, next, waits⟩ := attended accountId holder locked
    have old : holder ≠ s.fresh := by
      rintro rfl
      rw [(represented.orderly.unused _ (Nat.le_refl _)).1] at waits
      cases waits
    exact ⟨request, next, by simpa [Machine.opened, Function.update_of_ne old] using waits⟩
  · by_cases own : holder = task
    · -- A task that finishes has given its lock back before.
      subst own
      obtain ⟨learned, holds, keeps⟩ := answer_kept represented running performed
      cases rest : next answer with
      | ask asked more => exact ⟨asked, more, by simp [Sys.answered, rest]⟩
      | done value =>
        rw [rest] at keeps
        exact absurd locked (AtRest.unlocked (Safe.done_iff.mp keeps) holds accountId)
      | fail error =>
        rw [rest] at keeps
        exact absurd locked (AtRest.unlocked (Safe.fail_iff.mp keeps) holds accountId)
    · obtain ⟨known, truth, -, holds, permitted⟩ := asking_permitted represented running
      have served := perform_served represented.inv.formed holds permitted performed
      have old := (served.locks accountId holder locked).resolve_left own
      obtain ⟨asked, more, waits⟩ := attended accountId holder old
      exact ⟨asked, more, by simpa [Sys.answered, Function.update_of_ne own] using waits⟩
  · cases locked

theorem Reached.locksAttended (reached : Reached svc db s) (formed : db.WellFormed) :
    LocksAttended s :=
  reached.invariant LocksAttended formed (fun _ _ locked => nomatch locked)
    fun _ _ _ represented stepped attended => locksAttended_step represented stepped attended

/-- A task that has a lock waits for no other, so it can take its next answer. -/
theorem holder_ready {calm : Prop} {accountId : String} {holder : Nat}
    (represented : (custodySimulation svc.text calm).Represented s) (attended : LocksAttended s)
    (locked : s.world.locks accountId = some holder) : (machine svc).Ready s holder := by
  obtain ⟨request, waits⟩ := attended accountId holder locked
  refine (ready_or_locked waits).resolve_right ?_
  rintro ⟨wanted, other, rfl, -⟩
  obtain ⟨next, running⟩ := waits
  obtain ⟨known, -, -, holds, free⟩ := asking_permitted represented running
  rw [show known.view = none from free] at holds
  exact holds accountId locked

/-- Every task has returned or failed. -/
def AllFinished (s : State) : Prop :=
  ∀ task program, s.tasks task = some program → ∃ outcome, program = Prog.ofExcept outcome

/-- From every reachable state the answers to what is in progress come to an end whatever they are
and in whatever order they come; on the way every waiting task is ready to go on, or waits for a lock
whose holder is, and where they end every task is finished and every lock free. -/
theorem calls_always_finish (formed : db.WellFormed) (reached : Reached svc db s) :
    (∀ run : Nat → State, run 0 = s → ∃ n, ¬(machine svc).Answers (run n) (run (n + 1))) ∧
    ∀ later, Relation.ReflTransGen (machine svc).Answers s later →
      (∀ task request, later.Waits task request →
        (machine svc).Ready later task ∨
          ∃ accountId holder, request = .lock accountId ∧
            later.world.locks accountId = some holder ∧ (machine svc).Ready later holder) ∧
      ((∀ next, ¬(machine svc).Answers later next) →
        AllFinished later ∧ ∀ accountId, later.world.locks accountId = none) := by
  refine ⟨fun run first => Machine.no_endless_answers (reached.represented formed).orderly run first,
    fun later answers => ?_⟩
  have there : Reached svc db later := by
    refine Relation.ReflTransGen.trans reached (Relation.ReflTransGen.mono ?_ _ _ answers)
    exact fun _ _ ⟨task, choice, stepped⟩ => ⟨.resume task choice, trivial, stepped⟩
  have represented := there.represented formed
  have attended := there.locksAttended formed
  have onward : ∀ task request, later.Waits task request →
      (machine svc).Ready later task ∨ ∃ accountId holder, request = .lock accountId ∧
        later.world.locks accountId = some holder ∧ (machine svc).Ready later holder := by
    intro task request waits
    refine (ready_or_locked waits).imp_right ?_
    rintro ⟨accountId, holder, same, locked⟩
    exact ⟨accountId, holder, same, locked, holder_ready represented attended locked⟩
  refine ⟨onward, fun still => ?_⟩
  have idle : ∀ task, ¬(machine svc).Ready later task := by
    intro task ready
    obtain ⟨next, stepped⟩ := ready {}
    exact still next ⟨task, {}, stepped⟩
  refine ⟨fun task program found => ?_, fun accountId => ?_⟩
  · cases program with
    | done value => exact ⟨.ok value, rfl⟩
    | fail error => exact ⟨.error error, rfl⟩
    | ask request next =>
      rcases onward task request ⟨next, found⟩ with ready | ⟨-, holder, -, -, ready⟩
      · exact absurd ready (idle task)
      · exact absurd ready (idle holder)
  · cases locked : later.world.locks accountId with
    | none => rfl
    | some holder => exact absurd (holder_ready represented attended locked) (idle holder)

/-- One purchase under the lock of its account, and another one behind it. -/
def twoPurchases : List (Move Choice Call) :=
  booted ++ [.open (.placeOrder buyOne), .open (.placeOrder { buyOne with idempotencyKey := .text "j" }),
    .resume 1 calmDay]

/-- The task waits for this lock, which another one has. -/
def waitsBehind (s : State) (task : Nat) (accountId : String) (holder : Nat) : Bool :=
  match s.tasks task with
  | some (.ask (.lock wanted) _) => wanted = accountId ∧ s.world.locks accountId = some holder
  | _ => false

/-- A purchase that waits behind another one is not stuck, since that one can go on. -/
theorem calls_always_finish_twoPurchases :
    ∃ s, Reached demo shop s ∧ s.Waits 2 (.lock "main") ∧ s.world.locks "main" = some 1 ∧
      (machine demo).Ready s 1 ∧
      ∀ run : Nat → State, run 0 = s → ∃ n, ¬(machine demo).Answers (run n) (run (n + 1)) := by
  have passes : ((machine demo).run (started demo shop) twoPurchases).any
      (fun s => waitsBehind s 2 "main" 1) = true := by decide +kernel
  obtain ⟨s, ran, waiting⟩ := run_end passes
  have reached : Reached demo shop s := reached_of_run ran
  obtain ⟨ends, goes⟩ := calls_always_finish shop_wellFormed reached
  unfold waitsBehind at waiting
  split at waiting
  case h_2 => cases waiting
  case h_1 wanted next running =>
  obtain ⟨rfl, locked⟩ := of_decide_eq_true waiting
  refine ⟨s, reached, ⟨next, running⟩, locked, ?_, ends⟩
  -- The second purchase cannot go on by itself, so its lock's holder can.
  rcases (goes s .refl).1 2 _ ⟨next, running⟩ with ready | ⟨owner, holder, same, held, ready⟩
  · obtain ⟨after, stepped⟩ := ready {}
    simp [Machine.step, running, machine, machineWith, perform, locked] at stepped
  · cases same
    rw [locked] at held
    cases held
    exact ready

end Rasat
