import Mathlib.Data.List.MinMax
import Mathlib.Data.Prod.Lex
import Mathlib.Logic.Function.Basic
import RasatTrading.Data.Candles

/-! The queue of fetch jobs with the futures that workers and callers share. -/

namespace Rasat

/-- A queued fetch job; its number is that of its future, too. -/
structure Job where
  number : Nat
  priority : Nat
  series : Series
  limit : Nat
  deriving DecidableEq, Repr

/-- The order of the queue: by priority, then by age. -/
def Job.rank (job : Job) : Nat ×ₗ Nat := toLex (job.priority, job.number)

/-- Where a future stands. -/
inductive FutureStatus
  | pending
  | result (count : Nat)
  | failed (exc : Exc)
  /-- Cancelled with the caller of this index, or with its worker. -/
  | cancelled (caller : Option Nat)
  deriving DecidableEq, Repr

/-- `PRIORITY_ONDEMAND`. -/
def priorityOndemand : Nat := 0

/-- `PRIORITY_CLOSED_BAR`. -/
def priorityClosedBar : Nat := 5

/-- `PRIORITY_BACKFILL`. -/
def priorityBackfill : Nat := 10

/-- The queue, the map of the jobs in flight, and the futures. -/
structure Board where
  queue : List Job := []
  seq : Nat := 0
  inFlight : Series → Option Nat := fun _ => none
  futures : Nat → FutureStatus := fun _ => .pending
  /-- The done callbacks that the event loop has yet to run, oldest first. -/
  due : List Series := []

namespace Board

/-- The pending future under a key, which `_enqueue` hands out instead of queueing a job. -/
def joined (board : Board) (series : Series) : Option Nat :=
  (board.inFlight series).filter fun number => decide (board.futures number = .pending)

/-- `_enqueue`: the number of the future, and the board afterwards. -/
def enqueue (board : Board) (series : Series) (limit priority : Nat) : Nat × Board :=
  match board.joined series with
  | some number => (number, board)
  | none =>
    let number := board.seq + 1
    (number,
      { board with
        queue := board.queue ++ [⟨number, priority, series, limit⟩]
        seq := number
        inFlight := Function.update board.inFlight series (some number) })

/-- Complete a future that is not done yet; its callback runs later. -/
def settle (board : Board) (series : Series) (number : Nat) (status : FutureStatus) : Board :=
  if board.futures number = .pending then
    { board with
      futures := Function.update board.futures number status
      due := board.due ++ [series] }
  else board

/-- `_on_job_done`: the callback takes whatever is in flight under its key out of the map. -/
def runCallback (board : Board) : Option Board :=
  match board.due with
  | [] => none
  | series :: rest =>
    some { board with inFlight := Function.update board.inFlight series none, due := rest }

/-- `queue.get()`: the first job of the queue. -/
def take (board : Board) : Option (Job × Board) :=
  (board.queue.argmin Job.rank).map fun job => (job, { board with queue := board.queue.erase job })

variable {board : Board} {series : Series} {limit priority number other : Nat} {status : FutureStatus}

/-- A joined future is in flight and pending. -/
theorem joined_eq_some : board.joined series = some number ↔
    board.inFlight series = some number ∧ board.futures number = .pending := by
  simp [joined, Option.filter_eq_some_iff]

/-- The taken job was queued, no other job precedes it, and it is gone. -/
theorem take_eq_some {job : Job} {after : Board} (taken : board.take = some (job, after)) :
    job ∈ board.queue ∧ (∀ other ∈ board.queue, job.rank ≤ other.rank) ∧
      after = { board with queue := board.queue.erase job } := by
  obtain ⟨first, least, same⟩ := Option.map_eq_some_iff.mp taken
  cases same
  exact ⟨List.argmin_mem least, fun other member => List.le_of_mem_argmin member least, rfl⟩

/-- Completing changes no queue and no map. -/
@[simp] theorem settle_queue : (board.settle series number status).queue = board.queue := by
  unfold settle
  split <;> rfl

@[simp] theorem settle_seq : (board.settle series number status).seq = board.seq := by
  unfold settle
  split <;> rfl

@[simp] theorem settle_inFlight : (board.settle series number status).inFlight = board.inFlight := by
  unfold settle
  split <;> rfl

/-- A future that was done keeps its status. -/
theorem settle_of_done (done : board.futures number ≠ .pending) :
    board.settle series number status = board := by
  simp [settle, done]

/-- A pending future takes the status. -/
theorem settle_of_pending (pending : board.futures number = .pending) :
    board.settle series number status =
      { board with
        futures := Function.update board.futures number status
        due := board.due ++ [series] } := by
  simp [settle, pending]

/-- The other futures keep their status. -/
theorem futures_settle_of_ne (differs : other ≠ number) :
    (board.settle series number status).futures other = board.futures other := by
  unfold settle
  split
  · exact Function.update_of_ne differs _ _
  · rfl

/-- A pending future takes the status. -/
theorem futures_settle_of_pending (pending : board.futures number = .pending) :
    (board.settle series number status).futures number = status := by
  rw [settle_of_pending pending]
  exact Function.update_self ..

/-- A status afterwards was there before, or was given. -/
theorem futures_settle_cases {was : FutureStatus}
    (read : (board.settle series number status).futures other = was) :
    board.futures other = was ∨ status = was := by
  by_cases same : other = number
  · by_cases pending : board.futures number = .pending
    · rw [same, futures_settle_of_pending pending] at read
      exact .inr read
    · rw [settle_of_done pending] at read
      exact .inl read
  · rw [futures_settle_of_ne same] at read
    exact .inl read

/-- A future that is pending afterwards was pending before. -/
theorem pending_of_settle (pending : (board.settle series number status).futures other = .pending) :
    board.futures other = .pending := by
  by_cases same : other = number
  · subst same
    by_contra settled
    rw [settle_of_done settled] at pending
    exact settled pending
  · rwa [futures_settle_of_ne same] at pending

end Board

end Rasat
