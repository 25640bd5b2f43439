import RasatTrading.Coop.Keeping
import RasatTrading.Coop.Recorded

/-! The daemon's life: what it opens on its way up, how it waits, and what it closes on its way out. -/

namespace Rasat.Lifecycle

open Coop

/-! Readiness. -/

/-- `STATES`. -/
def states : List String := ["starting", "migrating", "warming_up", "ready", "stopping"]

/-- `Readiness`; the event is what `wait_ready` waits for. -/
structure Readiness where
  state : String := "starting"
  history : List String := ["starting"]
  event : Bool := false
  deriving DecidableEq

/-- `Readiness.set_state`. -/
def Readiness.setState (r : Readiness) (state : String) : Except String Readiness :=
  if state ∉ states then .error ("invalid state: " ++ state)
  else if state = "starting" ∧ r.state ≠ "starting" then
    .error ("cannot return to state " ++ state ++ " (current: " ++ r.state ++ ")")
  else if state ≠ "starting" ∧ r.state ∉ states.take (states.idxOf state) then
    .error ("state order violation: " ++ r.state ++ " -> " ++ state)
  else .ok { state := state, history := r.history ++ [state], event := r.event || state = "ready" }

/-! The runner. -/

/-- What ends an operation early. -/
inductive Fault
  /-- `LockHeldError`. -/
  | lockHeld
  | exception (text : String)
  /-- `CancelledError`, which is no `Exception`. -/
  | cancelled
  deriving DecidableEq

/-- What the runner does to the things around it. -/
inductive Act
  | prepare
  | acquire
  | startDb
  | updateState (state : String)
  | migrate
  | reconcileOverrides
  | reconcileLog
  | startPipeline
  | reconcileOrders
  | reconcilePending
  /-- `build_site`: the HTTP runner, then the site. -/
  | setUpRunner
  | startSite
  | awaitStop
  /-- The watch for the lock and the loop of the alarms are cancelled and gathered. -/
  | joinWatchers
  | joinWorker
  | stopSite
  | cleanUpRunner
  | closeBroker
  | stopPipeline
  | stopDb
  | release
  deriving DecidableEq

/-- `DaemonRunner`, as far as its end depends on it: what it has to close. -/
structure Runner where
  readiness : Readiness := {}
  db : Bool := false
  pipeline : Bool := false
  paWorkerTask : Bool := false
  orderBroker : Bool := false
  /-- `http_site` and `http_runner`. -/
  http : Bool := false
  shutdownComplete : Bool := false

/-- An operation of the runner. -/
abbrev Life (α : Type) := Keeping Act (fun _ => Unit) Fault Runner α

/-- An awaited operation. -/
def await (act : Act) : Life Unit := Keeping.ask act

/-- An operation that is not awaited cannot be cancelled. -/
def perform (act : Act) : Life Unit :=
  (Keeping.ask act).rescue fun
    | .cancelled => Keeping.raise (.exception "cancelled")
    | fault => Keeping.raise fault

/-- `except Exception` with nothing but a line in the log. -/
def logged (program : Life Unit) : Life Unit :=
  program.rescue fun
    | .cancelled => Keeping.raise .cancelled
    | _ => pure ()

/-- `asyncio.gather` with `return_exceptions`: only its own cancellation gets out. -/
def gather (act : Act) : Life Unit := logged (await act)

/-- What is done if there is something to do it with. -/
def onlyIf (there : Bool) (program : Life Unit) : Life Unit := if there then program else pure ()

/-- `readiness.set_state`, and the state in the lock file. -/
def enter (state : String) : Life Unit := do
  let runner ← Keeping.get
  match runner.readiness.setState state with
  | .error text => Keeping.raise (.exception text)
  | .ok readiness =>
    Keeping.modify fun runner => { runner with readiness := readiness }
    perform (.updateState readiness.state)

/-- `_run_migrations`. -/
def runMigrations : Life Unit := do
  -- The database is known before it is started.
  Keeping.modify fun runner => { runner with db := true }
  await .startDb
  enter "migrating"
  await .migrate
  await .reconcileOverrides
  logged (await .reconcileLog)
  enter "warming_up"

/-- `_start_pipeline`. -/
def startPipeline : Life Unit := do
  Keeping.modify fun runner => { runner with pipeline := true }
  await .startPipeline

/-- `_startup_sequence`. -/
def startupSequence (pipelineEnabled : Bool) : Life Unit := do
  runMigrations
  onlyIf pipelineEnabled startPipeline

/-- `_start_http`. -/
def startHttp : Life Unit := do
  let runner ← Keeping.get
  onlyIf runner.pipeline do
    Keeping.modify fun runner => { runner with paWorkerTask := true, orderBroker := true }
    logged (await .reconcileOrders)
    logged (await .reconcilePending)
  await .setUpRunner
  await .startSite
  -- Only now the runner knows of either.
  Keeping.modify fun runner => { runner with http := true }

/-- What `stop` closes before it gives the lock back. -/
def closeAll : Life Unit := do
  let runner ← Keeping.get
  onlyIf runner.paWorkerTask (gather .joinWorker)
  onlyIf runner.http (logged (await .stopSite))
  onlyIf runner.http (logged (await .cleanUpRunner))
  onlyIf runner.orderBroker (logged (await .closeBroker))
  onlyIf runner.pipeline (logged (await .stopPipeline))
  onlyIf runner.db (logged (await .stopDb))

/-- `stop`. -/
def stop : Life Unit := do
  let runner ← Keeping.get
  onlyIf (!runner.shutdownComplete) <| closeAll.lastly do
    logged (perform .release)
    Keeping.modify fun runner => { runner with shutdownComplete := true }

/-- `start`. -/
def start (pipelineEnabled : Bool) : Life Unit := do
  perform .prepare
  perform .acquire
  Keeping.rescue
    (do
      startupSequence pipelineEnabled
      startHttp)
    fun fault => do
      stop
      Keeping.raise fault
  enter "ready"

/-- `run`. -/
def run : Life Unit :=
  (await .awaitStop).lastly do
    gather .joinWatchers
    stop

/-- `except LockHeldError`: the daemon is running already. -/
def unlessHeld : Fault → Life Bool
  | .lockHeld => pure true
  | fault => Keeping.raise fault

/-- `run_daemon`: another daemon's lock is no error. -/
def runDaemon (pipelineEnabled : Bool) : Life Unit := do
  let held ← Keeping.rescue (do start pipelineEnabled; return false) unlessHeld
  onlyIf (!held) run

end Rasat.Lifecycle
