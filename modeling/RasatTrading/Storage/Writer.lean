import RasatTrading.Storage.Audit

/-! The single writer of the database: queued transaction bodies, commits and rollbacks. -/

namespace Rasat

/-- What a write connection sees: the audit table, and every other table. -/
structure Connection (σ : Type) where
  tables : σ
  audit : List AuditRow

/-- A transaction body, told apart as far as the audit table goes; it may catch what it calls. -/
inductive WriteFn (σ Details α : Type)
  | done (result : α)
  | raises (exc : Exc)
  /-- Any statement on the other tables. -/
  | execute (statement : σ → Except Exc σ) (next : Except Exc Unit → WriteFn σ Details α)
  /-- Any reading of the connection. -/
  | query (next : σ → List AuditRow → WriteFn σ Details α)
  /-- A call of `append_in_connection`. -/
  | append (actor action : String) (details : Details)
      (next : Except Exc Nat → WriteFn σ Details α)

/-- What the surroundings of one transaction decide. -/
structure Weather where
  /-- The clock at each append. -/
  now : Nat → Int
  /-- What each append raises before its row is stored, if anything. -/
  fault : Nat → Option Exc
  /-- What the commit raises, if anything. -/
  commit : Option Exc

/-- What an append comes to. -/
def Weather.append (weather : Weather) (sha256Hex : String → String) (audit : List AuditRow) (actor action : String)
    (details : Except Exc String) (tick : Nat) : Except Exc (Nat × List AuditRow) :=
  match weather.fault tick with
  | some exc => .error exc
  | none => appendInConnection sha256Hex audit actor action details (weather.now tick)

variable {σ Details α : Type}

/-- Run a body on a connection, counting its appends. -/
def WriteFn.run (sha256Hex : String → String) (encode : Details → Except Exc String)
    (weather : Weather) : WriteFn σ Details α → Nat → Connection σ → Except Exc (α × Connection σ)
  | .done result, _, conn => .ok (result, conn)
  | .raises exc, _, _ => .error exc
  | .execute statement next, tick, conn =>
    match statement conn.tables with
    | .ok tables => (next (.ok ())).run sha256Hex encode weather tick { conn with tables := tables }
    -- A failed statement leaves its tables alone; the body may go on.
    | .error exc => (next (.error exc)).run sha256Hex encode weather tick conn
  | .query next, tick, conn =>
    (next conn.tables conn.audit).run sha256Hex encode weather tick conn
  | .append actor action details next, tick, conn =>
    match weather.append sha256Hex conn.audit actor action (encode details) tick with
    | .ok (seq, audit) =>
      (next (.ok seq)).run sha256Hex encode weather (tick + 1) { conn with audit := audit }
    | .error exc => (next (.error exc)).run sha256Hex encode weather (tick + 1) conn

/-- One transaction: the body's changes are kept only if it returns and its commit succeeds. -/
def runWrite (sha256Hex : String → String) (encode : Details → Except Exc String)
    (weather : Weather) (conn : Connection σ) (fn : WriteFn σ Details α) :
    Except Exc α × Connection σ :=
  match fn.run sha256Hex encode weather 0 conn with
  | .error exc => (.error exc, conn)
  | .ok (result, changed) =>
    match weather.commit with
    | some exc => (.error exc, conn)
    | none => (.ok result, changed)

/-- The database file with the write queue of the running process. -/
structure Writer (σ Details α : Type) where
  disk : Connection σ
  /-- The accepted bodies with the numbers of their futures, oldest first. -/
  queue : List (Nat × WriteFn σ Details α)
  fresh : Nat
  /-- The futures that were resolved, newest first. -/
  resolved : List (Nat × Except Exc α)

/-- One move of the process or of its surroundings. -/
inductive WriterMove (σ Details α : Type)
  /-- A call of `Database.write`. -/
  | write (fn : WriteFn σ Details α)
  /-- The writer task takes the oldest body. -/
  | serve (weather : Weather)
  /-- The process dies, at any point, and a new one opens the file. -/
  | restart

/-- The queue after one move. -/
def Writer.step (sha256Hex : String → String) (encode : Details → Except Exc String)
    (writer : Writer σ Details α) : WriterMove σ Details α → Writer σ Details α
  | .write fn =>
    { writer with queue := writer.queue ++ [(writer.fresh, fn)], fresh := writer.fresh + 1 }
  | .serve weather =>
    match writer.queue with
    | [] => writer
    | (future, fn) :: rest =>
      let (result, disk) := runWrite sha256Hex encode weather writer.disk fn
      { writer with disk := disk, queue := rest, resolved := (future, result) :: writer.resolved }
  -- An open transaction is rolled back by the journal.
  | .restart => { writer with queue := [] }

/-- The queue after a run of moves. -/
def Writer.run (sha256Hex : String → String) (encode : Details → Except Exc String)
    (writer : Writer σ Details α) (moves : List (WriterMove σ Details α)) : Writer σ Details α :=
  moves.foldl (Writer.step sha256Hex encode) writer

/-- A process over the given tables and an audit table just created. -/
def Writer.opened (tables : σ) : Writer σ Details α where
  disk := { tables := tables, audit := [] }
  queue := []
  fresh := 0
  resolved := []

/-- `AuditLog.append` as the body that it queues. -/
def appendWrite (actor action : String) (details : Details) : WriteFn σ Details Nat :=
  .append actor action details fun appended =>
    match appended with
    | .ok seq => .done seq
    | .error exc => .raises exc

end Rasat
