import RasatTrading.Orders.Bulk

/-! Orders that wait for approval: the approval handler and its recovery after a restart. -/

namespace Rasat

open Coop

variable (svc : Service)

/-- The error codes after which an approved order may be tried again. -/
def isTransient : ErrorCode → Bool
  | .timeout | .staleData | .rateLimited | .orderUnknown | .orderReconcileRequired => true
  | _ => false

/-- The pending state of an execution that ended with this error code. -/
def failureStatus (code : ErrorCode) : PendingStatus :=
  if isTransient code then .reconcileRequired else .rejected

/-- One optional number of an order spec: positive when it is present. -/
def checkSpecNumber (name : String) (value : Option ℚ) : Except Exc Unit :=
  match value with
  | none => .ok ()
  | some number => rejectIf (number ≤ 0) .invalidRequest
      ("order_spec." ++ name ++ " must be positive and finite")

/-- `_validate_execution_inputs`. -/
def validateExecutionInputs (riskPct entry stopLoss : Option ℚ) (orderType : String) :
    Except Exc Unit := do
  match riskPct with
  | none =>
    reject .invalidRequest "order_spec.risk_pct is required (for post-approval sizing)"
  | some risk =>
    rejectIf (risk ≤ 0 ∨ risk > 1) .invalidRequest
      "order_spec.risk_pct must be finite and in the (0,1] range"
  checkSpecNumber "entry" entry
  checkSpecNumber "stop_loss" stopLoss
  rejectIf (lower (if orderType = "" then "market" else orderType) = "limit" ∧ entry = none)
    .invalidRequest "order_spec.entry is required for a limit order"

/-- `_pending_order`. -/
def pendingOrder (orderId : String) : Task PendingOrder := do
  match ← dbRead (.pendingOrder orderId) with
  | none => raise .notFound ("pending order not found: " ++ orderId)
  | some row => return row

/-- The key under which the order of a pending order is placed. -/
def pendingKey (orderId : String) : String := "pending:" ++ orderId

/-- A text that counts as absent when it is empty. -/
def nonEmpty (text : Option String) : Option String := text.filter fun value => value ≠ ""

/-- What the approval handler makes of the result of an execution. -/
inductive Verdict
  | executed (executedOrderId : String)
  | failed (status : PendingStatus) (code : ErrorCode) (message : String) (raised : RasatError)
  deriving DecidableEq

/-- The error code of an order that ended without a fill, when its result names none. -/
def endedCode : OrderStatus → ErrorCode
  | .exchange .expired => .orderExpired
  | _ => .orderRejected

/-- The result mapping of the approval handler. -/
def judge : Option AccountResult → Verdict
  | none => .failed .reconcileRequired .orderUnknown
      "order result unavailable; reconciliation required"
      ⟨.orderReconcileRequired, "order result is ambiguous; reconciliation required"⟩
  | some result =>
    match result.status with
    | .paper | .exchange .filled =>
      let exchangeId := nonEmpty (result.order.bind fun view => view.exchangeOrderId)
      match exchangeId <|> nonEmpty (result.order.map fun view => view.orderId) with
      | some executedOrderId => .executed executedOrderId
      | none => .failed .reconcileRequired .orderUnknown
          "definite order ID unavailable; reconciliation required"
          ⟨.orderReconcileRequired, "definite order ID unavailable"⟩
    | .exchange .rejected | .exchange .canceled | .exchange .expired =>
      let code := result.error.elim (endedCode result.status) fun error => error.code
      let message := (nonEmpty (result.error.map fun error => error.message)).getD
        ("order definitively ended (exchange status: " ++ result.status.name ++ ")")
      .failed (failureStatus code) code message ⟨code, message⟩
    | .exchange .new | .exchange .partiallyFilled | .exchange .unknown =>
      let code := result.error.elim .orderUnknown fun error => error.code
      let message := (nonEmpty (result.error.map fun error => error.message)).getD
        ("order status is not definitive (exchange status: " ++ result.status.name
          ++ "); reconciliation required")
      .failed .reconcileRequired code message
        ⟨.orderReconcileRequired, "order was not definitively filled; reconciliation required"⟩

/-- The pending state and error that an exception of the execution leads to. -/
def failureOf : Exc → PendingStatus × ErrorCode × String
  | .rasat error => (failureStatus error.code, error.code, error.message)
  | _ => (.reconcileRequired, .internalError, "unexpected error; could not verify order status")

/-- `fail_pending_execution`. -/
def failPendingExecution (orderId : String) (status : PendingStatus) (code : ErrorCode)
    (message : String) : Task Unit :=
  if status ≠ .rejected ∧ status ≠ .reconcileRequired then
    raise .invalidRequest ("invalid failure status: " ++ status.name)
  else dbWrite (.failPending orderId status code message)

/-- The reply of the approval handler. -/
structure ApprovedReply where
  orderId : String
  executedOrderId : String
  executed : ExecuteReply
  deriving DecidableEq

/-- The entry of an approved order: a market order without one takes the daemon's price. -/
def pendingEntry (orderId : String) (row : PendingOrder) : Task (Option ℚ) :=
  if lower (if row.orderType = "" then "market" else row.orderType) = "market" ∧ row.entry = none then
    do
      match ← market (.price row.symbol) with
      | none =>
        raise .staleData
          ("could not obtain the current market price for market order: " ++ row.symbol)
      | some price =>
        dbWrite (.fillPendingEntry orderId price)
        return some price
  else return row.entry

/-- The execution that a pending order asks for. -/
def pendingExecution (orderId : String) (row : PendingOrder) (entry : Option ℚ) (actor : String) :
    ExecuteArgs where
  accountIds := [row.accountId]
  symbol := .text row.symbol
  side := .text row.side
  entry := .ofOption entry
  stopLoss := .ofOption row.stopLoss
  riskPct := .ofOption row.riskPct
  idempotencyKey := .text (pendingKey orderId)
  orderType := .text (if row.orderType = "" then "MARKET" else row.orderType)
  actor := actor

/-- What the handler does once the execution is claimed. -/
def settlePending (orderId : String) (executed : Except Exc ExecuteReply) : Task ApprovedReply :=
  match executed with
  | .error raised => do
    let (status, code, message) := failureOf raised
    failPendingExecution orderId status code message
    .fail raised
  | .ok reply =>
    match judge reply.results.head? with
    | .executed executedOrderId => do
      dbWrite (.completePending orderId (some executedOrderId))
      return { orderId := orderId, executedOrderId := executedOrderId, executed := reply }
    | .failed status code message raised => do
      failPendingExecution orderId status code message
      .fail (.rasat raised)

/-- `approve_pending_order_handler` over an order service. -/
def approvePendingOrderHandler (execute : ExecuteArgs → Task ExecuteReply) (orderId actor : String) :
    Task ApprovedReply := do
  let row ← pendingOrder orderId
  if row.status ≠ .awaitingApproval then
    raise .invalidRequest ("order is not awaiting approval: " ++ row.status.name)
  else
    let entry ← pendingEntry orderId row
    sync (validateExecutionInputs row.riskPct entry row.stopLoss row.orderType)
    if row.stopLoss = none then
      raise .invalidRequest "stop_loss is required (protection level missing for approved order)"
    else
      -- The claim reads its clock before it is queued for writing.
      let now ← clock
      dbWrite (.claimPending orderId now)
      let executed ← (execute (pendingExecution orderId row entry actor)).attempt
      settlePending orderId executed

/-- What the restart recovery makes of the stored order row. -/
def judgeRow (order : Order) : PendingStatus × Option String × Option (ErrorCode × String) :=
  match order.status with
  | .paper | .exchange .filled => (.executed, order.exchangeOrderId, none)
  | .exchange .rejected | .exchange .canceled | .exchange .expired =>
    (.rejected, none, some (.orderRejected,
      "restart reconciliation: order definitively ended (" ++ order.status.name ++ ")"))
  | .exchange .new | .exchange .partiallyFilled | .exchange .unknown =>
    (.reconcileRequired, none, some (.orderUnknown,
      "restart reconciliation: order status is not definitive"))

/-- The counts of the restart recovery. -/
structure RecoveryReport where
  scanned : Nat := 0
  matched : Nat := 0
  completed : Nat := 0
  failed : Nat := 0
  untouched : Nat := 0
  deriving DecidableEq

/-- One executing order of the restart recovery. -/
def recoverPending (now staleAfter : Int) (report : RecoveryReport) (row : PendingOrder) :
    Task RecoveryReport := do
  match ← dbRead (.order row.accountId (pendingKey row.orderId)) with
  | some order =>
    match judgeRow order with
    | (status, _, some (code, message)) =>
      failPendingExecution row.orderId status code message
      return { report with matched := report.matched + 1, failed := report.failed + 1 }
    | (_, executedOrderId, none) =>
      dbWrite (.completePending row.orderId executedOrderId)
      return { report with matched := report.matched + 1, completed := report.completed + 1 }
  | none =>
    if row.executionStartedAt.any fun started => now - started > staleAfter then
      failPendingExecution row.orderId .reconcileRequired .orderUnknown
        "restart reconciliation: order record not found; fail-closed reconciliation"
      return { report with failed := report.failed + 1 }
    else return { report with untouched := report.untouched + 1 }

/-- `reconcile_pending_executions`. -/
def reconcilePendingExecutions (staleAfter : Int := 300) : Task RecoveryReport := do
  let now ← clock
  let rows ← dbRead .executing
  rows.foldlM (recoverPending now staleAfter) { scanned := rows.length }

end Rasat
