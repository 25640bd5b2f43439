import RasatTrading.Data.KlineEffects

/-! The numbers of jobs and futures: no two jobs share one, and a number belongs to one series. -/

namespace Rasat

namespace Board

variable {board : Board} {series : Series} {limit priority : Nat}

/-- `_enqueue` joins a pending future, or queues a job under a new number. -/
theorem enqueue_cases (board : Board) (series : Series) (limit priority : Nat) :
    (∃ number, board.joined series = some number ∧
        board.enqueue series limit priority = (number, board)) ∨
      (board.joined series = none ∧
        board.enqueue series limit priority = (board.seq + 1,
          { board with
            queue := board.queue ++ [⟨board.seq + 1, priority, series, limit⟩]
            seq := board.seq + 1
            inFlight := Function.update board.inFlight series (some (board.seq + 1)) })) := by
  cases pending : board.joined series with
  | some number => exact .inl ⟨number, rfl, by simp [enqueue, pending]⟩
  | none => exact .inr ⟨rfl, by simp [enqueue, pending]⟩

end Board

namespace KlineWorld

/-- The jobs afterwards are among the jobs before. -/
def FewerJobs (before after : List Job) : Prop := ∃ gone, before.Perm (gone ++ after)

/-- Jobs and waiting callers agree on the numbers. -/
structure Numbered (world : KlineWorld) : Prop where
  numbers : (world.active.map Job.number).Nodup
  bounded : ∀ job ∈ world.active, job.number ≤ world.board.seq
  mapped : ∀ series number, world.board.inFlight series = some number →
    number ≤ world.board.seq ∧
      ∀ job ∈ world.active, job.number = number → job.series = series
  awaited : ∀ wait ∈ world.waits, wait.2.2 ≤ world.board.seq ∧
    ∀ job ∈ world.active, job.number = wait.2.2 → job.series = wait.2.1.series

variable {config : KlineConfig} {market : Market} {world after : KlineWorld} {move : KlineMove}

/-- The same jobs are no more jobs. -/
theorem FewerJobs.of_perm {before after : List Job} (same : before.Perm after) :
    FewerJobs before after := ⟨[], same⟩

/-- The jobs are the same where the queue and the workers' jobs are. -/
theorem active_of_eq (queue : after.board.queue = world.board.queue)
    (running : after.running = world.running) : after.active = world.active := by
  simp [active, queue, running]

/-- A taken job moves from the queue to the worker. -/
theorem active_takes {job : Job} (board : world.board.take = some (job, after.board))
    (running : after.running.Perm (job :: world.running)) : after.active.Perm world.active := by
  obtain ⟨queued, -, rest⟩ := Board.take_eq_some board
  have moved : (world.board.queue ++ world.running).Perm
      (world.board.queue.erase job ++ (job :: world.running)) :=
    ((List.perm_cons_erase queued).append_right _).trans List.perm_middle.symm
  unfold active
  rw [rest]
  exact (running.append_left _).trans moved.symm

/-- A job whose worker is through with it is gone. -/
theorem active_finishes {job : Job} (queue : after.board.queue = world.board.queue)
    (running : world.running.Perm (job :: after.running)) :
    world.active.Perm (job :: after.active) := by
  unfold active
  rw [queue]
  exact (running.append_left _).trans List.perm_middle

/-- What a move leaves behind has the same jobs or fewer, unless it queues a new one. -/
theorem effect_jobs (effect : Effect config world after move) :
    (FewerJobs world.active after.active ∧ after.board.seq = world.board.seq ∧
        (∀ series number, after.board.inFlight series = some number →
          world.board.inFlight series = some number) ∧
        ∀ wait ∈ after.waits, wait ∈ world.waits ∨
          world.board.inFlight wait.2.1.series = some wait.2.2) ∨
      ∃ series limit priority,
        world.asks config move = some (series, limit, priority) ∧
        world.board.joined series = none ∧
        after.board = (world.board.enqueue series limit priority).2 ∧
        after.running = world.running ∧
        ∀ wait ∈ after.waits, wait ∈ world.waits ∨
          (wait.2.1.series = series ∧ wait.2.2 = world.board.seq + 1 ∧ priority = 0) := by
  cases effect with
  | quiet board running callers =>
    left
    refine ⟨.of_perm ?_, by rw [board], by simp [board],
      fun wait member => .inl (callers.waits wait member)⟩
    rw [active_of_eq (by rw [board]) running]
  | @requests index reading request asked board running waits interrupted =>
    rcases world.board.enqueue_cases request.series request.limit priorityOndemand with
      ⟨number, joined, same⟩ | ⟨fresh, same⟩
    · -- The pending job is shared.
      rw [same] at board waits
      left
      refine ⟨.of_perm ?_, by rw [board], by simp [board], ?_⟩
      · rw [active_of_eq (by rw [board]) running]
      · intro wait member
        rcases waits wait member with old | rfl
        · exact .inl old
        · exact .inr (Board.joined_eq_some.mp joined).1
    · right
      refine ⟨request.series, request.limit, priorityOndemand, asked, fresh, board, running, ?_⟩
      intro wait member
      rcases waits wait member with old | rfl
      · exact .inl old
      · exact .inr ⟨rfl, by rw [same], rfl⟩
  | @background _ series limit priority asked behind board running callers =>
    rcases world.board.enqueue_cases series limit priority with
      ⟨number, joined, same⟩ | ⟨fresh, same⟩
    · rw [same] at board
      left
      refine ⟨.of_perm ?_, by rw [board], by simp [board],
        fun wait member => .inl (callers.waits wait member)⟩
      rw [active_of_eq (by rw [board]) running]
    · exact .inr ⟨series, limit, priority, asked, fresh, board, running,
        fun wait member => .inl (callers.waits wait member)⟩
  | @takes index job board running callers =>
    obtain ⟨-, -, rest⟩ := Board.take_eq_some board
    left
    exact ⟨.of_perm (active_takes board running).symm, by rw [rest], by simp [rest],
      fun wait member => .inl (callers.waits wait member)⟩
  | @finishes _ job status done own board running callers =>
    left
    have queue : after.board.queue = world.board.queue := by rw [board, Board.settle_queue]
    exact ⟨⟨[job], active_finishes queue running⟩, by simp [board], by simp [board],
      fun wait member => .inl (callers.waits wait member)⟩
  | withdraws waited board running callers gone =>
    left
    refine ⟨.of_perm ?_, by simp [board], by simp [board],
      fun wait member => .inl (callers.waits wait member)⟩
    rw [active_of_eq (by rw [board, Board.settle_queue]) running]
  | callback board running callers =>
    left
    simp only [Board.runCallback] at board
    split at board
    · contradiction
    · rename_i series rest due
      have ran := Option.some.inj board
      refine ⟨.of_perm ?_, by rw [← ran], ?_, fun wait member => .inl (callers.waits wait member)⟩
      · rw [active_of_eq (by rw [← ran]) running]
      · intro other number found
        rw [← ran] at found
        by_cases same : other = series
        · simp [same] at found
        · simpa [Function.update_of_ne same] using found

/-- The jobs behind a newly queued one. -/
theorem active_enqueue {series : Series} {limit priority : Nat} (fresh : world.board.joined series = none)
    (board : after.board = (world.board.enqueue series limit priority).2)
    (running : after.running = world.running) :
    after.active.Perm (⟨world.board.seq + 1, priority, series, limit⟩ :: world.active) := by
  have queue : after.board.queue =
      world.board.queue ++ [⟨world.board.seq + 1, priority, series, limit⟩] := by
    rw [board, Board.enqueue, fresh]
  unfold active
  rw [queue, running, List.append_assoc]
  exact List.perm_middle

/-- Every move keeps the numbers apart. -/
theorem Numbered.step (numbered : world.Numbered)
    (moved : world.step config market move = some after) : after.Numbered := by
  rcases effect_jobs (step_effect moved) with
    ⟨fewer, seq, inFlight, waits⟩ | ⟨series, limit, priority, asked, fresh, board, running, waits⟩
  · obtain ⟨gone, same⟩ := fewer
    have kept : ∀ job ∈ after.active, job ∈ world.active :=
      fun job member => same.mem_iff.mpr (List.mem_append_right _ member)
    refine ⟨?_, ?_, ?_, ?_⟩
    · have all := (same.map Job.number).nodup_iff.mp numbered.numbers
      rw [List.map_append] at all
      exact (List.nodup_append.mp all).2.1
    · intro job member
      rw [seq]
      exact numbered.bounded job (kept job member)
    · intro key number found
      obtain ⟨below, own⟩ := numbered.mapped key number (inFlight key number found)
      exact ⟨seq ▸ below, fun job member => own job (kept job member)⟩
    · intro wait member
      rcases waits wait member with old | joined
      · obtain ⟨below, own⟩ := numbered.awaited wait old
        exact ⟨seq ▸ below, fun job inside => own job (kept job inside)⟩
      · obtain ⟨below, own⟩ := numbered.mapped _ _ joined
        exact ⟨seq ▸ below, fun job inside => own job (kept job inside)⟩
  · -- The new number is above all others.
    have same := active_enqueue fresh board running
    have inJobs : ∀ job ∈ after.active,
        job = ⟨world.board.seq + 1, priority, series, limit⟩ ∨ job ∈ world.active :=
      fun job member => List.mem_cons.mp (same.mem_iff.mp member)
    have seq : after.board.seq = world.board.seq + 1 := by
      rw [board, Board.enqueue, fresh]
    have inFlight : after.board.inFlight =
        Function.update world.board.inFlight series (some (world.board.seq + 1)) := by
      rw [board, Board.enqueue, fresh]
    refine ⟨?_, ?_, ?_, ?_⟩
    · refine (same.map Job.number).nodup_iff.mpr ?_
      refine List.nodup_cons.mpr ⟨?_, numbered.numbers⟩
      intro taken
      obtain ⟨job, member, number⟩ := List.mem_map.mp taken
      have above : job.number = world.board.seq + 1 := number
      have below := numbered.bounded job member
      omega
    · intro job member
      rcases inJobs job member with rfl | old
      · rw [seq]
      · have below := numbered.bounded job old
        omega
    · intro key number found
      rw [inFlight] at found
      by_cases here : key = series
      · subst here
        obtain rfl : world.board.seq + 1 = number := by simpa using found
        refine ⟨seq.ge, ?_⟩
        intro job member equal
        rcases inJobs job member with rfl | old
        · rfl
        · have below := numbered.bounded job old
          omega
      · rw [Function.update_of_ne here] at found
        obtain ⟨below, own⟩ := numbered.mapped key number found
        refine ⟨by omega, ?_⟩
        intro job member equal
        rcases inJobs job member with rfl | old
        · have above : world.board.seq + 1 = number := equal
          omega
        · exact own job old equal
    · intro wait member
      rcases waits wait member with old | ⟨place, number, -⟩
      · obtain ⟨below, own⟩ := numbered.awaited wait old
        refine ⟨by omega, ?_⟩
        intro job inside equal
        rcases inJobs job inside with rfl | known
        · have above : world.board.seq + 1 = wait.2.2 := equal
          omega
        · exact own job known equal
      · refine ⟨by omega, ?_⟩
        intro job inside equal
        rcases inJobs job inside with rfl | known
        · exact place.symm
        · have below := numbered.bounded job known
          omega

/-- At the start there is neither a job nor a caller. -/
theorem initial_numbered (workers : Nat) (prior : CandleTable) (time : ℚ) :
    (initial workers prior time).Numbered := by
  have none : (initial workers prior time).active = [] := by
    simp [active, running, initial, KlineWorker.job]
  refine ⟨by simp [none], by simp [none], by simp [initial], ?_⟩
  simp [waits, initial]

end KlineWorld

end Rasat

/-! When the jobs and the map of the jobs in flight agree: one job a series, found in the map. -/

namespace Rasat

/-- Of every series one job at most is queued or running, and while it is pending the map leads to
it. -/
structure SingleFlight (board : Board) (active : List Job) : Prop where
  single : (active.map Job.series).Nodup
  mapped : ∀ job ∈ active, board.futures job.number = .pending →
    board.inFlight job.series = some job.number
  /-- A due callback finds no pending job of its series. -/
  settled : ∀ series ∈ board.due, ∀ job ∈ active, job.series = series →
    board.futures job.number ≠ .pending
  backed : ∀ series number, board.joined series = some number →
    ∃ job ∈ active, job.number = number
  unused : ∀ number, board.seq < number → board.futures number = .pending

namespace SingleFlight

variable {board : Board} {active rest : List Job} {series : Series} {number : Nat}
  {status : FutureStatus}

/-- The order of the jobs and of the queue does not matter. -/
theorem reorder (flight : SingleFlight board active) (same : rest.Perm active) {queue : List Job} :
    SingleFlight { board with queue := queue } rest where
  single := (same.map Job.series).nodup_iff.mpr flight.single
  mapped job member := flight.mapped job (same.mem_iff.mp member)
  settled series due job member := flight.settled series due job (same.mem_iff.mp member)
  backed series number joined := by
    obtain ⟨job, member, numbered⟩ := flight.backed series number joined
    exact ⟨job, same.mem_iff.mpr member, numbered⟩
  unused := flight.unused

/-- A job of a series that has none, and no callback due, is the only one of its series. -/
theorem enqueue (flight : SingleFlight board active) {job : Job} (queue : List Job)
    (numbered : job.number = board.seq + 1) (alone : ∀ other ∈ active, other.series ≠ job.series)
    (quiet : job.series ∉ board.due) (same : rest.Perm (job :: active)) :
    SingleFlight { board with
      queue := queue
      seq := board.seq + 1
      inFlight := Function.update board.inFlight job.series (some (board.seq + 1)) } rest where
  single := by
    refine (same.map Job.series).nodup_iff.mpr (List.nodup_cons.mpr ⟨?_, flight.single⟩)
    intro taken
    obtain ⟨other, member, equal⟩ := List.mem_map.mp taken
    exact alone other member equal
  mapped := by
    intro other member pending
    rcases List.mem_cons.mp (same.mem_iff.mp member) with rfl | old
    · simp [numbered]
    · -- The map changes under another series.
      simpa [Function.update_of_ne (alone other old)] using flight.mapped other old pending
  settled := by
    intro key due other member equal
    rcases List.mem_cons.mp (same.mem_iff.mp member) with rfl | old
    · exact absurd (equal ▸ due) quiet
    · exact flight.settled key due other old equal
  backed := by
    intro key count joined
    obtain ⟨held, pending⟩ := Board.joined_eq_some.mp joined
    by_cases here : key = job.series
    · subst here
      have newest : board.seq + 1 = count := by simpa using held
      exact ⟨job, same.mem_iff.mpr List.mem_cons_self, numbered.trans newest⟩
    · simp only [Function.update_of_ne here] at held
      obtain ⟨other, member, own⟩ :=
        flight.backed key count (Board.joined_eq_some.mpr ⟨held, pending⟩)
      exact ⟨other, same.mem_iff.mpr (List.mem_cons_of_mem _ member), own⟩
  unused := by
    intro count above
    exact flight.unused count (Nat.lt_of_succ_lt above)

/-- A completed future leaves no pending job of its series behind. -/
theorem settle (flight : SingleFlight board active) (done : status ≠ .pending)
    (known : number ≤ board.seq) (single : (rest.map Job.series).Nodup) (among : ∀ job ∈ rest, job ∈ active)
    (kept : ∀ job ∈ active, job.number ≠ number → job ∈ rest)
    (own : board.futures number = .pending →
      ∀ job ∈ rest, job.series = series → job.number = number) :
    SingleFlight (board.settle series number status) rest := by
  refine ⟨single, ?_, ?_, ?_, ?_⟩
  · intro job member pending
    rw [Board.settle_inFlight]
    exact flight.mapped job (among job member) (Board.pending_of_settle pending)
  · intro key due job member equal pending
    have before := Board.pending_of_settle pending
    by_cases open_ : board.futures number = .pending
    · rw [Board.settle_of_pending open_] at due pending
      rcases List.mem_append.mp due with old | new
      · exact flight.settled key old job (among job member) equal before
      · -- The only job of this series is the one whose future was completed.
        obtain rfl := List.mem_singleton.mp new
        have same := own open_ job member equal
        simp only [same, Function.update_self] at pending
        exact done pending
    · rw [Board.settle_of_done open_] at due
      exact flight.settled key due job (among job member) equal before
  · intro key count joined
    obtain ⟨held, pending⟩ := Board.joined_eq_some.mp joined
    rw [Board.settle_inFlight] at held
    have before := Board.pending_of_settle pending
    obtain ⟨job, member, numbered⟩ :=
      flight.backed key count (Board.joined_eq_some.mpr ⟨held, before⟩)
    refine ⟨job, kept job member ?_, numbered⟩
    rintro rfl
    -- The completed future is not pending any more.
    rw [numbered, Board.futures_settle_of_pending before] at pending
    exact done pending
  · intro count above
    rw [Board.settle_seq] at above
    have differs : count ≠ number := by omega
    rw [Board.futures_settle_of_ne differs]
    exact flight.unused count above

/-- A callback takes nothing out of the map that a pending job needs. -/
theorem callback (flight : SingleFlight board active) {due : List Series} (first : board.due = series :: due) :
    SingleFlight { board with
      inFlight := Function.update board.inFlight series none
      due := due } active where
  single := flight.single
  mapped := by
    intro job member pending
    have differs : job.series ≠ series := fun equal =>
      flight.settled series (first ▸ List.mem_cons_self) job member equal pending
    simpa [Function.update_of_ne differs] using flight.mapped job member pending
  settled := by
    intro key later job member equal
    exact flight.settled key (first ▸ List.mem_cons_of_mem _ later) job member equal
  backed := by
    intro key count joined
    obtain ⟨held, pending⟩ := Board.joined_eq_some.mp joined
    by_cases here : key = series
    · simp [here] at held
    · simp only [Function.update_of_ne here] at held
      exact flight.backed key count (Board.joined_eq_some.mpr ⟨held, pending⟩)
  unused := flight.unused

end SingleFlight

end Rasat
