import RasatTrading.Data.KlineNumbers

/-! In which runs no series is fetched twice at once, and no call is interrupted for another's
sake. -/

namespace Rasat

open Transition

namespace KlineWorld

/-- The call that a move cancels. -/
def cancels : KlineMove → Option Nat
  | .cancelCaller index => some index
  | _ => none

/-- No other call waits for the pending job that this one waits for. -/
def WaitsAlone (world : KlineWorld) (index : Nat) : Prop :=
  ∀ wait ∈ world.waits, wait.1 = index → world.board.futures wait.2.2 = .pending →
    ∀ other ∈ world.waits, other.2.2 = wait.2.2 → other.1 = index

instance (world : KlineWorld) (index : Nat) : Decidable (world.WaitsAlone index) :=
  inferInstanceAs (Decidable (∀ wait ∈ world.waits, _))

/-- A series is asked for only when no job of it goes on behind a completed future, and no done
callback of it is due; a call is cancelled only when no other one shares its job. -/
structure Undisturbed (config : KlineConfig) (world : KlineWorld) (move : KlineMove) : Prop where
  asked : ∀ asked ∈ world.asks config move,
    (∀ job ∈ world.active, job.series = asked.1 → world.board.futures job.number = .pending) ∧
      asked.1 ∉ world.board.due
  cancelled : ∀ index ∈ cancels move, world.WaitsAlone index

instance (config : KlineConfig) (world : KlineWorld) (move : KlineMove) :
    Decidable (world.Undisturbed config move) :=
  decidable_of_iff
    ((∀ asked ∈ world.asks config move,
      (∀ job ∈ world.active, job.series = asked.1 → world.board.futures job.number = .pending) ∧
        asked.1 ∉ world.board.due) ∧ ∀ index ∈ cancels move, world.WaitsAlone index)
    ⟨fun both => ⟨both.1, both.2⟩, fun calm => ⟨calm.asked, calm.cancelled⟩⟩

/-- What an undisturbed run keeps. -/
structure Deduplicated (world : KlineWorld) : Prop where
  numbered : world.Numbered
  flight : SingleFlight world.board world.active
  awaited : ∀ wait ∈ world.waits, world.board.futures wait.2.2 = .pending →
    ∃ job ∈ world.active, job.number = wait.2.2
  unblamed : ∀ wait ∈ world.waits, ∀ caller : Nat,
    world.board.futures wait.2.2 ≠ FutureStatus.cancelled (some caller)
  uninterrupted : ∀ index caller : Nat,
    world.callers[index]? ≠ some (KlineCaller.interrupted (some caller))

variable {config : KlineConfig} {market : Market} {world after : KlineWorld} {move : KlineMove}

namespace Deduplicated

section Inv

variable (inv : world.Deduplicated)
include inv

/-- Nobody is interrupted whose awaited job no caller cancelled. -/
theorem calm (callers : Calmer world after) (index caller : Nat) :
    after.callers[index]? ≠ some (KlineCaller.interrupted (some caller)) := by
  intro found
  rcases callers.interrupted index caller found with old | ⟨wait, member, -, cancelled⟩
  · exact inv.uninterrupted index caller old
  · exact inv.unblamed wait member caller cancelled

/-- Where no future changes, no job ends and no caller begins to wait, only the map matters. -/
theorem of_calmer (numbered : after.Numbered) (flight : SingleFlight after.board after.active)
    (futures : after.board.futures = world.board.futures)
    (jobs : ∀ job ∈ world.active, job ∈ after.active) (callers : Calmer world after) :
    after.Deduplicated where
  numbered := numbered
  flight := flight
  awaited := by
    intro wait member pending
    rw [futures] at pending
    obtain ⟨job, inside, own⟩ := inv.awaited wait (callers.waits wait member) pending
    exact ⟨job, jobs job inside, own⟩
  unblamed := by
    rw [futures]
    exact fun wait member => inv.unblamed wait (callers.waits wait member)
  uninterrupted := inv.calm callers

/-- The same board and the same running jobs, with calmer callers. -/
theorem of_eq (numbered : after.Numbered)
    (board : after.board = world.board) (running : after.running = world.running)
    (callers : Calmer world after) : after.Deduplicated := by
  have active : after.active = world.active := active_of_eq (by rw [board]) running
  refine inv.of_calmer numbered ?_ (by rw [board]) (by simp [active]) callers
  rw [board, active]
  exact inv.flight

/-- A series that has no pending job in the map has no job at all when it is asked for. -/
theorem alone {series : Series} (fresh : world.board.joined series = none)
    (pending : ∀ job ∈ world.active, job.series = series →
      world.board.futures job.number = .pending) :
    ∀ job ∈ world.active, job.series ≠ series := by
  rintro job member rfl
  have open_ := pending job member rfl
  have joined := Board.joined_eq_some.mpr ⟨inv.flight.mapped job member open_, open_⟩
  rw [fresh] at joined
  contradiction

/-- A newly queued job is the only one of its series. -/
theorem enqueue {series : Series} {limit priority : Nat} (undisturbed : world.Undisturbed config move)
    (asked : world.asks config move = some (series, limit, priority)) (fresh : world.board.joined series = none)
    (board : after.board = (world.board.enqueue series limit priority).2)
    (running : after.running = world.running) : SingleFlight after.board after.active := by
  obtain ⟨pending, quiet⟩ := undisturbed.asked _ asked
  have queued := inv.flight.enqueue after.board.queue rfl (inv.alone fresh pending) quiet
    (active_enqueue fresh board running)
  have shape : after.board = { world.board with
      queue := after.board.queue
      seq := world.board.seq + 1
      inFlight := Function.update world.board.inFlight series (some (world.board.seq + 1)) } := by
    rw [board, Board.enqueue, fresh]
  rw [shape]
  exact queued

/-- A call that asks for a job shares the pending one, or waits for a new one. -/
theorem requests (numbered : after.Numbered) {index : Nat}
    {request : CandleRequest} (undisturbed : world.Undisturbed config move)
    (asked : world.asks config move = some (request.series, request.limit, priorityOndemand))
    (board : after.board =
      (world.board.enqueue request.series request.limit priorityOndemand).2)
    (running : after.running = world.running)
    (waits : ∀ wait ∈ after.waits, wait ∈ world.waits ∨ wait = (index, request,
      (world.board.enqueue request.series request.limit priorityOndemand).1))
    (uninterrupted : ∀ place caller : Nat,
      after.callers[place]? ≠ some (KlineCaller.interrupted (some caller))) :
    after.Deduplicated := by
  rcases world.board.enqueue_cases request.series request.limit priorityOndemand with
    ⟨number, joined, same⟩ | ⟨fresh, same⟩
  · rw [same] at board waits
    have active : after.active = world.active := active_of_eq (by rw [board]) running
    refine ⟨numbered, ?_, ?_, ?_, uninterrupted⟩
    · rw [board, active]
      exact inv.flight
    · rw [board, active]
      intro wait member pending
      rcases waits wait member with old | rfl
      · exact inv.awaited wait old pending
      · exact inv.flight.backed _ _ joined
    · rw [board]
      intro wait member caller
      rcases waits wait member with old | rfl
      · exact inv.unblamed wait old caller
      · simp [(Board.joined_eq_some.mp joined).2]
  · have jobs := active_enqueue fresh board running
    have futures : after.board.futures = world.board.futures := by rw [board, same]
    rw [same] at waits
    refine ⟨numbered, inv.enqueue undisturbed asked fresh board running, ?_, ?_, uninterrupted⟩
    · intro wait member pending
      rw [futures] at pending
      rcases waits wait member with old | rfl
      · obtain ⟨job, inside, own⟩ := inv.awaited wait old pending
        exact ⟨job, jobs.mem_iff.mpr (List.mem_cons_of_mem _ inside), own⟩
      · exact ⟨_, jobs.mem_iff.mpr List.mem_cons_self, rfl⟩
    · intro wait member caller
      rw [futures]
      rcases waits wait member with old | rfl
      · exact inv.unblamed wait old caller
      · -- The future of a new number is pending.
        simp [inv.flight.unused _ (Nat.lt_succ_self world.board.seq)]

/-- A worker that is through with its job leaves no pending job of the series behind. -/
theorem finishes (numbered : after.Numbered) {job : Job}
    {status : FutureStatus} (done : status ≠ .pending) (own : ∀ caller, status ≠ .cancelled (some caller))
    (board : after.board = world.board.settle job.series job.number status)
    (running : world.running.Perm (job :: after.running)) (callers : Calmer world after) :
    after.Deduplicated := by
  have jobs : world.active.Perm (job :: after.active) :=
    active_finishes (by rw [board, Board.settle_queue]) running
  have kept : ∀ other ∈ world.active, other.number ≠ job.number → other ∈ after.active := by
    intro other member differs
    rcases List.mem_cons.mp (jobs.mem_iff.mp member) with rfl | rest
    · exact absurd rfl differs
    · exact rest
  have apart := List.nodup_cons.mp ((jobs.map Job.series).nodup_iff.mp inv.flight.single)
  refine ⟨numbered, ?_, ?_, ?_, inv.calm callers⟩
  · -- The series of the finished job has no other, so that the others stay the only ones of theirs.
    rw [board]
    refine inv.flight.settle done
      (inv.numbered.bounded job (jobs.mem_iff.mpr List.mem_cons_self)) apart.2
      (fun other inside => jobs.mem_iff.mpr (List.mem_cons_of_mem _ inside)) kept ?_
    intro _ other inside equal
    exact absurd (List.mem_map.mpr ⟨other, inside, equal⟩) apart.1
  · rw [board]
    intro wait member pending
    have before := Board.pending_of_settle pending
    obtain ⟨other, inside, same⟩ := inv.awaited wait (callers.waits wait member) before
    refine ⟨other, kept other inside ?_, same⟩
    intro equal
    rw [← same, equal, Board.futures_settle_of_pending (by rwa [← equal, same])] at pending
    exact done pending
  · rw [board]
    intro wait member caller cancelled
    rcases Board.futures_settle_cases cancelled with old | rfl
    · exact inv.unblamed wait (callers.waits wait member) caller old
    · exact own caller rfl

/-- A cancelled call cancels the job that it alone waits for. -/
theorem withdraws (numbered : after.Numbered) {index number : Nat}
    {request : CandleRequest} (undisturbed : world.WaitsAlone index)
    (waited : (index, request, number) ∈ world.waits)
    (board : after.board = world.board.settle request.series number (.cancelled (some index)))
    (running : after.running = world.running) (callers : Calmer world after)
    (gone : ∀ wait ∈ after.waits, wait.1 ≠ index) : after.Deduplicated := by
  have active : after.active = world.active :=
    active_of_eq (by rw [board, Board.settle_queue]) running
  refine ⟨numbered, ?_, ?_, ?_, inv.calm callers⟩
  · rw [board, active]
    refine inv.flight.settle (by simp) (inv.numbered.awaited _ waited).1 inv.flight.single
      (fun job inside => inside) (fun job inside _ => inside) ?_
    -- The awaited job is the only one of its series.
    intro pending job inside equal
    obtain ⟨awaited, there, same⟩ := inv.awaited _ waited pending
    have place : awaited.series = request.series :=
      (inv.numbered.awaited _ waited).2 awaited there same
    have unique := List.inj_on_of_nodup_map inv.flight.single inside there (equal.trans place.symm)
    rw [unique]
    exact same
  · rw [board, active]
    intro wait member pending
    exact inv.awaited wait (callers.waits wait member) (Board.pending_of_settle pending)
  · rw [board]
    intro wait member caller cancelled
    have old := callers.waits wait member
    by_cases same : wait.2.2 = number
    · by_cases pending : world.board.futures number = .pending
      · -- Nobody else waits for the job.
        exact gone wait member (undisturbed _ waited rfl pending wait old same)
      · rw [Board.settle_of_done pending] at cancelled
        exact inv.unblamed wait old caller cancelled
    · rw [Board.futures_settle_of_ne same] at cancelled
      exact inv.unblamed wait old caller cancelled

/-- An undisturbed move keeps the invariant. -/
theorem step (undisturbed : world.Undisturbed config move)
    (moved : world.step config market move = some after) : after.Deduplicated := by
  have numbered := inv.numbered.step moved
  -- Only a request, a queued background job and an end of a job change which jobs are active.
  cases step_effect moved with
  | quiet board running callers => exact inv.of_eq numbered board running callers
  | requests asked board running waits interrupted =>
    refine inv.requests numbered undisturbed asked board running waits ?_
    intro place caller found
    exact inv.uninterrupted place caller (interrupted place caller found)
  | @background _ series limit priority asked behind board running callers =>
    rcases world.board.enqueue_cases series limit priority with
      ⟨number, joined, same⟩ | ⟨fresh, same⟩
    · rw [same] at board
      exact inv.of_eq numbered board running callers
    · have jobs := active_enqueue fresh board running
      exact inv.of_calmer numbered (inv.enqueue undisturbed asked fresh board running)
        (by rw [board, same])
        (fun job inside => jobs.mem_iff.mpr (List.mem_cons_of_mem _ inside)) callers
  | takes board running callers =>
    have jobs := active_takes board running
    obtain ⟨-, -, rest⟩ := Board.take_eq_some board
    refine inv.of_calmer numbered ?_ (by rw [rest]) (fun job => jobs.mem_iff.mpr) callers
    rw [rest]
    exact inv.flight.reorder jobs
  | finishes done own board running callers =>
    exact inv.finishes numbered done own board running callers
  | @withdraws index request number waited board running callers gone =>
    exact inv.withdraws numbered (undisturbed.cancelled index rfl) waited board running callers gone
  | callback board running callers =>
    simp only [Board.runCallback] at board
    split at board
    · contradiction
    · rename_i series due first
      have ran := Option.some.inj board
      have active : after.active = world.active := active_of_eq (by rw [← ran]) running
      refine inv.of_calmer numbered ?_ (by rw [← ran]) (by simp [active]) callers
      rw [← ran, active]
      exact inv.flight.callback first

end Inv

/-- The service starts without jobs and without calls. -/
theorem initial (workers : Nat) (prior : CandleTable) (time : ℚ) :
    (initial workers prior time).Deduplicated := by
  have none : (KlineWorld.initial workers prior time).active = [] := by
    simp [active, running, KlineWorld.initial, KlineWorker.job]
  refine ⟨initial_numbered workers prior time, ?_, ?_, ?_, ?_⟩
  · rw [none]
    refine ⟨by simp, by simp, by simp, ?_, ?_⟩
    · simp [KlineWorld.initial, Board.joined]
    · simp [KlineWorld.initial]
  · simp [waits, KlineWorld.initial]
  · simp [waits, KlineWorld.initial]
  · simp [KlineWorld.initial]

end Deduplicated

/-- In a run without a disturbance one job at most of every series is queued or running, and no call
is interrupted because another one was cancelled. -/
theorem fetched_once_uninterrupted {workers : Nat} {prior : CandleTable} {time : ℚ}
    (reached : Reach (step config market) (Undisturbed config) (initial workers prior time) world) :
    (world.active.map Job.series).Nodup ∧ ∀ index caller : Nat,
      world.callers[index]? ≠ some (KlineCaller.interrupted (some caller)) := by
  have inv : world.Deduplicated := by
    refine reached.invariant (.initial workers prior time) ?_
    intro before after move held undisturbed moved
    exact held.step undisturbed moved
  exact ⟨inv.flight.single, inv.uninterrupted⟩

/-- A call that finds the series cold and waits for a job. -/
def coldRequest (index : Nat) : List KlineMove :=
  [.call "ETHUSDT" "1h" 300 "spot", .ensureContains index (.ok true), .lookUp index,
    .judge index (some 1700000000)]

/-- Two calls share a job, and a worker takes it. -/
def sharedRequests : List KlineMove := coldRequest 0 ++ coldRequest 1 ++ [.take 0]

/-- Of two calls that share a job the first one is cancelled; then a third one asks. -/
def withdrawnRequest : List KlineMove :=
  coldRequest 0 ++ coldRequest 1 ++ [.cancelCaller 0, .callback, .wake 1] ++ coldRequest 2

/-- Two calls that share a job wait undisturbed for it. -/
theorem shared_job_fetched_once : ∃ world,
    Reach (step {} (.flat 0)) (Undisturbed {}) (initial 1 Keyed.Table.empty 1700000000) world ∧
      world.waits.length = 2 ∧ (world.active.map Job.series).Nodup ∧ ∀ index caller : Nat,
        world.callers[index]? ≠ some (KlineCaller.interrupted (some caller)) := by
  have checked : (run (step {} (.flat 0)) (Undisturbed {})
      (initial 1 Keyed.Table.empty 1700000000) sharedRequests).any
      (fun world => decide (world.waits.length = 2)) = true := by decide +kernel
  obtain ⟨world, reached, waiting⟩ := exists_of_run checked
  exact ⟨world, reached, waiting, fetched_once_uninterrupted reached⟩

/-- The cancellation of one call interrupts another one, and its series is queued twice. -/
theorem withdrawn_request_queued_twice : ∃ world,
    Reach (step {} (.flat 0)) (fun _ _ => True) (initial 1 Keyed.Table.empty 1700000000) world ∧
      ¬(world.active.map Job.series).Nodup ∧
      world.callers[1]? = some (KlineCaller.interrupted (some 0)) := by
  have checked : (run (step {} (.flat 0)) (fun _ _ => True)
      (initial 1 Keyed.Table.empty 1700000000) withdrawnRequest).any
      (fun world => decide (¬(world.active.map Job.series).Nodup ∧
        world.callers[1]? = some (KlineCaller.interrupted (some 0)))) = true := by decide +kernel
  exact exists_of_run checked

end KlineWorld

end Rasat
