import RasatTrading.Errors

/-! The write queue: its writer task, the transactions that it runs, and how `stop` drains it. -/

namespace Rasat.WriteQueue

variable {σ α : Type}

/-- A connection: what is committed, and what the statements of an open transaction have made of it. -/
structure Connection (σ : Type) where
  disk : σ
  pending : Option σ := none

namespace Connection

/-- What its statements see. -/
def view (conn : Connection σ) : σ := conn.pending.getD conn.disk

/-- Open a transaction, unless one is open. -/
def begin (conn : Connection σ) : Connection σ := { conn with pending := some conn.view }

/-- What the statements see is made last. -/
def commit (conn : Connection σ) : Connection σ := ⟨conn.view, none⟩

/-- What was changed since the last commit is undone. -/
def rollback (conn : Connection σ) : Connection σ := ⟨conn.disk, none⟩

end Connection

/-- A write function, told apart by what it does to its connection; it may catch what a statement raises. -/
inductive WriteFn (σ α : Type)
  | done (result : α)
  | raises (exc : Exc)
  /-- A statement that changes rows, before which a transaction is opened. -/
  | dml (statement : σ → Except Exc σ) (next : Except Exc Unit → WriteFn σ α)
  /-- A statement that changes the schema: a part of the open transaction, or committed at once without one. -/
  | ddl (statement : σ → Except Exc σ) (next : Except Exc Unit → WriteFn σ α)
  | query (next : σ → WriteFn σ α)
  /-- A commit of its own, as at the end of an inner `with conn`. -/
  | commit (next : Except Exc Unit → WriteFn σ α)
  /-- A rollback of its own, as when an inner `with conn` is left by an exception. -/
  | rollback (next : WriteFn σ α)

/-- What the database raises at each statement and commit of a function, if anything. -/
abbrev Weather := ℕ → Option Exc

namespace WriteFn

/-- One statement on some tables. -/
def attempt (fault : Option Exc) (statement : σ → Except Exc σ) (tables : σ) : Except Exc σ :=
  fault.elim (statement tables) .error

/-- A DML statement; one that fails leaves its transaction open and without a change. -/
def afterDml (fault : Option Exc) (statement : σ → Except Exc σ) (conn : Connection σ) :
    Except Exc Unit × Connection σ :=
  match attempt fault statement conn.view with
  | .ok tables => (.ok (), { conn with pending := some tables })
  | .error exc => (.error exc, conn.begin)

/-- A DDL statement. -/
def afterDdl (fault : Option Exc) (statement : σ → Except Exc σ) (conn : Connection σ) :
    Except Exc Unit × Connection σ :=
  match attempt fault statement conn.view with
  | .ok tables =>
    -- Python opens no transaction for it.
    (.ok (), if conn.pending.isSome then { conn with pending := some tables } else { conn with disk := tables })
  | .error exc => (.error exc, conn)

/-- A commit; one that fails leaves the transaction open. -/
def afterCommit (fault : Option Exc) (conn : Connection σ) : Except Exc Unit × Connection σ :=
  match fault with
  | none => (.ok (), conn.commit)
  | some exc => (.error exc, conn)

/-- Run a function on a connection, counting its statements and commits. -/
def run (weather : Weather) : WriteFn σ α → ℕ → Connection σ → Except Exc α × ℕ × Connection σ
  | .done result, tick, conn => (.ok result, tick, conn)
  | .raises exc, tick, conn => (.error exc, tick, conn)
  | .dml statement next, tick, conn =>
    let (answer, after) := afterDml (weather tick) statement conn
    (next answer).run weather (tick + 1) after
  | .ddl statement next, tick, conn =>
    let (answer, after) := afterDdl (weather tick) statement conn
    (next answer).run weather (tick + 1) after
  | .query next, tick, conn => (next conn.view).run weather tick conn
  | .commit next, tick, conn =>
    let (answer, after) := afterCommit (weather tick) conn
    (next answer).run weather (tick + 1) after
  | .rollback next, tick, conn => next.run weather tick conn.rollback

end WriteFn

/-- `_run_write`: the context manager commits when the function returns, and rolls back when it or the commit raises. -/
def runWrite (weather : Weather) (conn : Connection σ) (fn : WriteFn σ α) : Except Exc α × Connection σ :=
  match fn.run weather 0 conn with
  | (.error exc, _, after) => (.error exc, after.rollback)
  | (.ok result, tick, after) =>
    match weather tick with
    | some exc => (.error exc, after.rollback)
    | none => (.ok result, after.commit)

/-- A future; the one of a caller that is cancelled while it waits is done, too. -/
inductive Future (α : Type)
  | pending
  | resolved (outcome : Except Exc α)
  | cancelled

/-- Where the writer task is. -/
inductive Writer (α : Type)
  /-- It waits for the connection. -/
  | connecting
  /-- It waits for an item of the queue. -/
  | waiting
  /-- The function of a write was handed to the executor, at a time. -/
  | executing (number began : ℕ)
  /-- The executor is done with it, and the task was not resumed yet. -/
  | finished (number : ℕ) (outcome : Except Exc α)
  /-- It has left its loop and waits until the connection is closed. -/
  | closing
  | ended

/-- Where the call of `stop` is that closes the database. -/
inductive Stop
  | idle | waiting | returned
  deriving DecidableEq

/-- One run of a write function: by the executor between two times, from one state of the database to another. -/
structure Run (σ α : Type) where
  number : ℕ
  fn : WriteFn σ α
  weather : Weather
  began : ℕ
  ended : ℕ
  before : σ
  outcome : Except Exc α
  after : σ

/-- A database after `start`, and what has happened to it so far. -/
structure State (σ α : Type) where
  closed : Bool := false
  /-- The numbers of accepted writes, or the sentinel. -/
  queue : List (Option ℕ) := []
  writer : Writer α := .connecting
  conn : Connection σ
  stop : Stop := .idle
  /-- The accepted functions by their numbers, and their futures. -/
  fns : List (WriteFn σ α) := []
  futures : List (Future α) := []
  /-- What the executor has run, oldest first. -/
  runs : List (Run σ α) := []
  clock : ℕ := 0

/-- One move of the event loop or of the executor. -/
inductive Move (σ α : Type)
  /-- A call of `write` up to where it waits. -/
  | write (fn : WriteFn σ α)
  /-- A caller is cancelled while it waits. -/
  | cancel (number : ℕ)
  /-- A call of `stop` up to where it waits. -/
  | stop
  /-- The executor has opened the connection. -/
  | connected
  /-- `queue.get` returns. -/
  | take
  /-- The executor runs the function that it was handed. -/
  | execute (weather : Weather)
  /-- The writer is resumed behind a run. -/
  | resume
  /-- The executor has closed the connection. -/
  | close
  /-- `stop` is resumed behind the end of the writer. -/
  | stopped

/-- The moves that wait for nobody outside. -/
def Move.own : Move σ α → Bool
  | .write _ | .cancel _ | .stop => false
  | _ => true

/-- `if not fut.done()`. -/
def Future.settle (outcome : Except Exc α) : Future α → Future α
  | .pending => .resolved outcome
  | done => done

/-- A future that its caller gives up, if it is not done. -/
def Future.cancel : Future α → Option (Future α)
  | .pending => some .cancelled
  | _ => none

namespace State

/-- A database whose `start` has returned. -/
def started (disk : σ) : State σ α := { conn := { disk := disk } }

/-- What a move changes, when it can be made. -/
def change (s : State σ α) : Move σ α → Option (State σ α)
  | .write fn =>
    -- A closed database raises; between the check and the queue nothing waits.
    if s.closed then some s
    else some { s with
      queue := s.queue ++ [some s.fns.length]
      fns := s.fns ++ [fn]
      futures := s.futures ++ [.pending] }
  | .cancel number =>
    (s.futures[number]?.bind Future.cancel).map fun given_up =>
      { s with futures := s.futures.set number given_up }
  | .stop =>
    -- A later call returns at once.
    if s.closed then some s else some { s with closed := true, queue := s.queue ++ [none], stop := .waiting }
  | .connected =>
    match s.writer with
    | .connecting => some { s with writer := .waiting }
    | _ => none
  | .take =>
    match s.writer, s.queue with
    | .waiting, none :: rest => some { s with writer := .closing, queue := rest }
    | .waiting, some number :: rest => some { s with writer := .executing number s.clock, queue := rest }
    | _, _ => none
  | .execute weather =>
    match s.writer with
    | .executing number began =>
      s.fns[number]?.map fun fn =>
        let (outcome, conn) := runWrite weather s.conn fn
        { s with
          writer := .finished number outcome
          conn := conn
          runs := s.runs ++ [⟨number, fn, weather, began, s.clock, s.conn.disk, outcome, conn.disk⟩] }
    | _ => none
  | .resume =>
    match s.writer with
    | .finished number outcome =>
      some { s with writer := .waiting, futures := s.futures.modify number (Future.settle outcome) }
    | _ => none
  | .close =>
    match s.writer with
    | .closing => some { s with writer := .ended }
    | _ => none
  | .stopped =>
    match s.stop, s.writer with
    | .waiting, .ended => some { s with stop := .returned }
    | _, _ => none

/-- The state after a move; every move takes time. -/
def step (s : State σ α) (move : Move σ α) : Option (State σ α) :=
  (s.change move).map fun after => { after with clock := s.clock + 1 }

/-- A list of moves, oldest first. -/
def run (s : State σ α) : List (Move σ α) → Option (State σ α)
  | [] => some s
  | move :: rest => (s.step move).bind fun after => after.run rest

end State

end Rasat.WriteQueue
