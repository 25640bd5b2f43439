import RasatTrading.Orders.CloseAll
import RasatTrading.Orders.Oco
import RasatTrading.Orders.Startup
import RasatTrading.Pending
import RasatTrading.Administration

/-! The daemon as a machine: its calls, its startup, its world and how its requests are served. -/

namespace Rasat

open Coop

/-- A call that the daemon accepts once it has started. -/
inductive Call
  | placeOrder (args : PlaceOrderArgs)
  | placeOcoOrder (args : PlaceOcoArgs)
  | executeOnAccounts (args : ExecuteArgs)
  | approvePendingOrder (orderId actor : String)
  | closeAllPositions (accountId : Arg) (actor : String)
  /-- The bare `awaiting_approval → approved` transition, without the handler. -/
  | approvePending (orderId : String)
  | rejectPending (orderId : String)
  /-- An alert with an order spec triggers. -/
  | triggerAlert (spec : PendingSpec)
  | enableRealTrading (accountId : Arg) (actor : String)
  | disableRealTrading (accountId : Arg) (actor : String)
  | addAccount (tags : List String) (credentials : Bool) (actor : String)
  | removeAccount (accountId : Arg) (actor : String)
  | setRiskPolicy (args : PolicyArgs)
  | createOverride (args : OverrideArgs)
  deriving DecidableEq

/-- The reply to a call. -/
inductive Reply
  | done
  | order (result : AccountResult)
  | executed (reply : ExecuteReply)
  | approved (reply : ApprovedReply)
  | closed (results : List CloseResult)
  | identified (id : String)
  | policy (policy : RiskPolicy) (changed : Bool)
  | override (override : RiskOverride)
  deriving DecidableEq

variable (svc : Service)

/-- The coroutine of a call, over the order service that approvals use. -/
def Call.program (execute : ExecuteArgs → Task ExecuteReply) : Call → Task Reply
  | .placeOrder args => return .order (← Rasat.placeOrder svc args)
  | .placeOcoOrder args => return .order (← Rasat.placeOcoOrder svc args)
  | .executeOnAccounts args => return .executed (← execute args)
  | .approvePendingOrder orderId actor =>
    return .approved (← approvePendingOrderHandler execute orderId actor)
  | .closeAllPositions accountId actor =>
    return .closed (← Rasat.closeAllPositions svc accountId actor)
  | .approvePending orderId => do
    dbWrite (.approvePending orderId)
    return .done
  | .rejectPending orderId => do
    dbWrite (.rejectPending orderId)
    return .done
  | .triggerAlert spec => return .identified (← dbWrite (.insertPending spec))
  | .enableRealTrading accountId actor => do
    Rasat.enableRealTrading svc accountId actor
    return .done
  | .disableRealTrading accountId actor => do
    disableRealTradingHandler svc accountId actor
    return .done
  | .addAccount tags credentials actor =>
    return .identified (← Rasat.addAccount svc tags credentials actor)
  | .removeAccount accountId actor => do
    Rasat.removeAccount svc accountId actor
    return .done
  | .setRiskPolicy args => do
    let (policy, changed) ← Rasat.setRiskPolicy svc args
    return .policy policy changed
  | .createOverride args => return .override (← Rasat.createOverride svc args)

/-- The startup: overrides first, then the two recoveries, whose exceptions are only logged. -/
def startup : Task Reply := do
  let _ ← reconcileOverrides svc
  let _ ← (reconcileOpenOrders svc).attempt
  let _ ← reconcilePendingExecutions.attempt
  return .done

/-- The database and the locks of the order service, by account with their holder. -/
structure World where
  db : Database
  locks : String → Option Nat := fun _ => none

/-- What the environment answers where the world does not determine it. -/
structure Choice where
  /-- The exception of a broker, market or credential call. -/
  fault : Option Exc := none
  /-- The failure of a database operation. -/
  dbFault : Option String := none
  order : OrderResult := { status := .new }
  found : Option OrderResult := none
  openOrders : List ExchangeOrder := []
  count : Nat := 0
  balances : Balances := []
  valid : Bool := true
  price : Option ℚ := none
  filters : Option SymbolFilters := none
  now : Int := 0
  uuid : Nat := 0
  /-- Which of several rows an unordered read returns. -/
  pick : Nat := 0
  reply : ExecuteReply := ⟨[], 0, 0, 0⟩
  /-- The orders table that an open order service leaves behind. -/
  orders : Option (List Order) := none

/-- A value, or the exception that takes its place. -/
def orFault {α : Type} (fault : Option Exc) (value : α) : Except Exc α :=
  fault.elim (.ok value) .error

/-- The broker's answer. -/
def Choice.broker (choice : Choice) : (call : BrokerCall) → Except Exc call.Ans
  | .placeOrder _ => orFault choice.fault choice.order
  | .placeOco _ => orFault choice.fault choice.order
  | .queryOrder _ _ _ => orFault choice.fault choice.found
  | .queryOco _ _ => orFault choice.fault choice.found
  | .cancelOrder _ _ _ => orFault choice.fault choice.found
  | .cancelOco _ _ _ => orFault choice.fault choice.found
  | .getAllOpenOrders _ => orFault choice.fault choice.openOrders
  | .cancelAllOpenOrders _ _ => orFault choice.fault choice.count
  | .getBalance _ => orFault choice.fault choice.balances

/-- The market feed's answer. -/
def Choice.market (choice : Choice) : (call : MarketCall) → Except Exc call.Ans
  | .symbolValid _ => orFault choice.fault choice.valid
  | .price _ => orFault choice.fault choice.price
  | .filters _ => orFault choice.fault choice.filters

/-- `get_credentials`: the row must exist, hold credentials and be decrypted. -/
def credentials (db : Database) (accountId : String) (fault : Option Exc) : Except Exc Unit :=
  match db.account accountId with
  | none => reject .accountNotFound ("account not found: " ++ accountId)
  | some row =>
    if ¬row.credentialsConfigured then
      reject .accountNoCredentials "account is public/read-only; no API credentials"
    else orFault fault ()

/-- Run a transaction on the stored tables; one that raises leaves them as they were. -/
def commit (world : World) (choice : Choice) (tx : Tx) : Except Exc tx.Ans × World :=
  match choice.dbFault with
  | some text => (.error (.other text), world)
  | none =>
    match tx.run world.db choice.now choice.uuid with
    | .ok (answer, db) => (.ok answer, { world with db := db })
    | .error raised => (.error raised, world)

/-- Serve one request of a task; only a lock that another task holds has to wait. -/
def perform (world : World) (task : Nat) : (request : Req) → Choice →
    Option (Except Exc request.Ans × World)
  | .lock accountId, _ =>
    match world.locks accountId with
    | none => some (.ok (), { world with locks := Function.update world.locks accountId (some task) })
    | some _ => none
  | .unlock accountId, _ =>
    some (.ok (), { world with locks := Function.update world.locks accountId none })
  | .broker call, choice => some (choice.broker call, world)
  | .market call, choice => some (choice.market call, world)
  | .clock, choice => some (.ok choice.now, world)
  | .uuid, choice => some (.ok (uuidHex choice.uuid), world)
  | .credentials accountId, choice => some (credentials world.db accountId choice.fault, world)
  | .read query, choice =>
    match choice.dbFault with
    | some text => some (.error (.other text), world)
    | none => some (.ok (query.run world.db choice.pick), world)
  | .write tx, choice => some (commit world choice tx)
  | .orderService _, choice =>
    some (orFault choice.fault choice.reply,
      { world with db := { world.db with orders := choice.orders.getD world.db.orders } })

/-- The daemon over an order service for its approvals. -/
def machineWith (execute : ExecuteArgs → Task ExecuteReply) :
    Machine Req Req.Ans Exc World Choice Call Reply where
  perform := perform
  program := Call.program svc execute
  boot := startup svc
  rebooted := fun world => { db := world.db }

/-- The daemon. -/
def machine : Machine Req Req.Ans Exc World Choice Call Reply :=
  machineWith svc (executeOnAccounts svc)

/-- A state of the daemon. -/
abbrev State := Sys Req Req.Ans Exc World Call Reply

/-- What the schema and the account service guarantee of the tables from the start. -/
structure Database.WellFormed (db : Database) : Prop where
  accountIds : (db.accounts.map Account.accountId).Nodup
  strippedIds : ∀ row ∈ db.accounts, strip row.accountId = row.accountId
  orderIds : (db.orders.map Order.orderId).Nodup
  orderKeys : (db.orders.map fun row => (row.accountId, row.idempotencyKey)).Nodup
  overrideIds : (db.overrides.map RiskOverride.overrideId).Nodup
  pendingIds : (db.pending.map PendingOrder.orderId).Nodup

end Rasat
