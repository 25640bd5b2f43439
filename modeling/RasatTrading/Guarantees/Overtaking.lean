import RasatTrading.Data.KlineNumbers

/-! In which runs no background job overtakes a job that a call of `get_candles` waits for. -/

namespace Rasat

open Transition

namespace KlineWorld

/-- A worker takes a background job of another series while a call waits for a job that is still
queued. -/
def Overtakes (world : KlineWorld) : KlineMove → Prop
  | .take _ => ∃ taken ∈ world.board.take, 0 < taken.1.priority ∧ ∃ wait ∈ world.waits,
      world.board.futures wait.2.2 = .pending ∧ taken.1.series ≠ wait.2.1.series ∧
        ∃ queued ∈ world.board.queue, queued.number = wait.2.2
  | _ => False

instance (world : KlineWorld) : DecidablePred world.Overtakes := fun move =>
  match move with
  | .take _ => inferInstanceAs (Decidable (∃ taken ∈ world.board.take, _))
  | .tick _ | .work _ _ | .cancelWorker _ | .callback | .settleAdrift _ | .call _ _ _ _
  | .ensureContains _ _ | .lookUp _ | .judge _ _ | .wake _ | .fetch _ _ | .read _ | .cancelCaller _
  | .wakeScheduler _ | .needsCatchup _ | .startPass _ | .passNext | .wakeBackfill _ _
  | .readWarmMap | .scanNext _ | .schedulerRaises | .backfillRaises | .stopScheduler
  | .stopBackfill => isFalse id

/-- The queued job of this number is ahead of every other background job. -/
def Ahead (board : Board) (number : Nat) : Prop :=
  ∀ queued ∈ board.queue, queued.number = number → ∀ other ∈ board.queue,
    other.number ≠ number → 0 < other.priority → queued.rank < other.rank

instance (board : Board) (number : Nat) : Decidable (Ahead board number) :=
  inferInstanceAs (Decidable (∀ queued ∈ board.queue, _))

/-- No job that a call waits for is behind the given priority. -/
def NobodyBehind (world : KlineWorld) (priority : Nat) : Prop :=
  ∀ wait ∈ world.waits, world.board.futures wait.2.2 = .pending →
    ∀ queued ∈ world.board.queue, queued.number = wait.2.2 → queued.priority ≤ priority

instance (world : KlineWorld) (priority : Nat) : Decidable (world.NobodyBehind priority) :=
  inferInstanceAs (Decidable (∀ wait ∈ world.waits, _))

/-- A call of `get_candles` that joins a queued job finds no other background job ahead of it, and
no background job is newly queued at a priority ahead of a queued job that a call waits for. -/
def InTurn (config : KlineConfig) (world : KlineWorld) (move : KlineMove) : Prop :=
  ∀ asked ∈ world.asks config move,
    (asked.2.2 = priorityOndemand → ∀ number ∈ world.board.joined asked.1,
      Ahead world.board number) ∧
    (asked.2.2 ≠ priorityOndemand → world.board.joined asked.1 = none →
      world.NobodyBehind asked.2.2)

instance (config : KlineConfig) (world : KlineWorld) (move : KlineMove) :
    Decidable (world.InTurn config move) :=
  inferInstanceAs (Decidable (∀ asked ∈ world.asks config move, _))

/-- Every queued job that a call waits for is ahead of every other background job. -/
structure Foremost (world : KlineWorld) : Prop where
  numbered : world.Numbered
  ahead : ∀ wait ∈ world.waits, world.board.futures wait.2.2 = .pending →
    Ahead world.board wait.2.2

variable {config : KlineConfig} {market : Market} {world after : KlineWorld} {move : KlineMove}

/-- A lower priority comes first, and among equal ones the older job. -/
theorem rank_lt_of_priority_lt {first second : Job} (lower : first.priority < second.priority) :
    first.rank < second.rank :=
  Prod.Lex.toLex_lt_toLex.mpr (.inl lower)

theorem rank_lt_of_number_lt {first second : Job} (lower : first.priority ≤ second.priority)
    (older : first.number < second.number) : first.rank < second.rank := by
  rcases lower.lt_or_eq with less | equal
  · exact rank_lt_of_priority_lt less
  · exact Prod.Lex.toLex_lt_toLex.mpr (.inr ⟨equal, older⟩)

/-- A shorter queue keeps a job ahead. -/
theorem Ahead.mono {before later : Board} {number : Nat} (ahead : Ahead before number)
    (fewer : ∀ job ∈ later.queue, job ∈ before.queue) : Ahead later number := by
  intro queued member same other also differs background
  exact ahead queued (fewer queued member) same other (fewer other also) differs background

/-- A queued job that a call waits for stays ahead when a new job goes behind it. -/
theorem ahead_enqueue {board : Board} {new : Job} {number : Nat} (ahead : Ahead board number)
    (older : number < new.number)
    (behind : ∀ queued ∈ board.queue, queued.number = number → 0 < new.priority →
      queued.priority ≤ new.priority) {seq : Nat} {inFlight : Series → Option Nat} :
    Ahead { board with queue := board.queue ++ [new], seq := seq, inFlight := inFlight }
      number := by
  intro queued member same other also differs background
  rcases List.mem_append.mp member with known | fresh
  · rcases List.mem_append.mp also with old | last
    · exact ahead queued known same other old differs background
    · obtain rfl := List.mem_singleton.mp last
      exact rank_lt_of_number_lt (behind queued known same background) (same ▸ older)
  · obtain rfl := List.mem_singleton.mp fresh
    omega

/-- A move in turn keeps every awaited job ahead. -/
theorem Foremost.step (foremost : world.Foremost) (inTurn : world.InTurn config move)
    (moved : world.step config market move = some after) : after.Foremost := by
  refine ⟨foremost.numbered.step moved, ?_⟩
  intro wait member pending
  cases step_effect moved with
  | quiet board running callers =>
    rw [board] at pending ⊢
    exact foremost.ahead wait (callers.waits wait member) pending
  | @requests index reading request asked board running waits interrupted =>
    rcases world.board.enqueue_cases request.series request.limit priorityOndemand with
      ⟨number, joined, same⟩ | ⟨fresh, same⟩
    · -- The call shares a pending job, which must be ahead of the others.
      rw [same] at board waits
      rw [board] at pending ⊢
      rcases waits wait member with old | rfl
      · exact foremost.ahead wait old pending
      · exact (inTurn _ asked).1 rfl number joined
    · rw [same] at board waits
      rw [board] at pending ⊢
      rcases waits wait member with old | rfl
      · have below := (foremost.numbered.awaited wait old).1
        exact ahead_enqueue (foremost.ahead wait old pending) (Nat.lt_succ_of_le below)
          fun _ _ _ impossible => absurd impossible (Nat.lt_irrefl 0)
      · -- The new job has the best priority.
        intro queued inside number other also differs background
        rcases List.mem_append.mp inside with known | new
        · have below := foremost.numbered.bounded queued (List.mem_append_left _ known)
          have above : queued.number = world.board.seq + 1 := number
          omega
        · obtain rfl := List.mem_singleton.mp new
          exact rank_lt_of_priority_lt background
  | @background _ series limit priority asked behind board running callers =>
    have old := callers.waits wait member
    rcases world.board.enqueue_cases series limit priority with
      ⟨number, joined, same⟩ | ⟨fresh, same⟩
    · rw [same] at board
      rw [board] at pending ⊢
      exact foremost.ahead wait old pending
    · rw [same] at board
      rw [board] at pending ⊢
      have below := (foremost.numbered.awaited wait old).1
      have nobody := (inTurn _ asked).2 (Nat.pos_iff_ne_zero.mp behind) fresh
      exact ahead_enqueue (foremost.ahead wait old pending) (Nat.lt_succ_of_le below)
        fun queued inside number _ => nobody wait old pending queued inside number
  | takes board running callers =>
    obtain ⟨-, -, rest⟩ := Board.take_eq_some board
    rw [rest] at pending ⊢
    exact (foremost.ahead wait (callers.waits wait member) pending).mono
      fun job inside => List.mem_of_mem_erase inside
  | finishes done own board running callers =>
    rw [board] at pending ⊢
    refine (foremost.ahead wait (callers.waits wait member) (Board.pending_of_settle pending)).mono ?_
    simp
  | withdraws waited board running callers gone =>
    rw [board] at pending ⊢
    refine (foremost.ahead wait (callers.waits wait member)
      (Board.pending_of_settle pending)).mono ?_
    simp
  | callback board running callers =>
    simp only [Board.runCallback] at board
    split at board
    · contradiction
    · rw [← Option.some.inj board] at pending ⊢
      exact foremost.ahead wait (callers.waits wait member) pending

/-- In a run in which every job is asked for in turn, no worker takes a background job while a
call waits for a job of another series that is still queued. -/
theorem ondemand_not_overtaken {workers : Nat} {prior : CandleTable} {time : ℚ}
    (reached : Reach (step config market) (InTurn config) (initial workers prior time) world) :
    ¬world.Overtakes move := by
  have foremost : world.Foremost := by
    refine reached.invariant ⟨initial_numbered workers prior time, ?_⟩ ?_
    · simp [waits, initial]
    · intro before after move inv meets moved
      exact inv.step meets moved
  cases move with
  | take index =>
    rintro ⟨⟨job, board⟩, taken, background, wait, member, pending, differs, queued, inside, same⟩
    obtain ⟨there, least, -⟩ := Board.take_eq_some taken
    -- The taken job is not the awaited one, so the awaited one would have come first.
    have other : job.number ≠ wait.2.2 := fun equal =>
      differs ((foremost.numbered.awaited wait member).2 job (List.mem_append_left _ there) equal)
    have ahead := foremost.ahead wait member pending queued inside same job there other background
    exact absurd ahead (not_lt_of_ge (least queued inside))
  | _ => exact id

/-- The start of the samples: one worker and an empty table. -/
def sampleStart : KlineWorld := initial 1 Keyed.Table.empty 1700000000

/-- The backfill queues the four series of each of two symbols. -/
def backfillPass : List KlineMove :=
  [.wakeBackfill (some 1700000000) ["BTCUSDT", "ETHUSDT"], .readWarmMap] ++
    List.replicate 9 (.scanNext (some 1700000000))

/-- A call asks for a series of the second symbol. -/
def laterRequest : List KlineMove :=
  [.call "ETHUSDT" "15m" 300 "spot", .ensureContains 0 (.ok true), .lookUp 0, .judge 0 (some 1700000000)]

/-- A call that asks in turn is not overtaken by the jobs queued behind it. -/
theorem request_in_turn_not_overtaken : ∃ world,
    Reach (step {} (.flat 0)) (InTurn {}) sampleStart world ∧
      world.waits ≠ [] ∧ ¬world.Overtakes (.take 0) := by
  have checked : (run (step {} (.flat 0)) (InTurn {}) sampleStart (laterRequest ++ backfillPass)).any
      (fun world => decide (world.waits ≠ [])) = true := by decide +kernel
  obtain ⟨world, reached, waiting⟩ := exists_of_run checked
  exact ⟨world, reached, waiting, ondemand_not_overtaken reached⟩

/-- A call that joins a job of the backfill waits behind the other jobs of the backfill. -/
theorem joined_backfill_overtaken : ∃ world,
    Reach (step {} (.flat 0)) (fun _ _ => True) sampleStart world ∧
      world.Overtakes (.take 0) ∧ (world.step {} (.flat 0) (.take 0)).isSome := by
  have checked : (run (step {} (.flat 0)) (fun _ _ => True) sampleStart (backfillPass ++ laterRequest)).any
      (fun world => decide (world.Overtakes (.take 0) ∧
        (world.step {} (.flat 0) (.take 0)).isSome)) = true := by decide +kernel
  exact exists_of_run checked

end KlineWorld

end Rasat
