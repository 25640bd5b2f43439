import RasatTrading.Analysis.Filters
import RasatTrading.Analysis.Store
import RasatTrading.Pending

/-! Alerts with their states, the record of their triggers and the orders that wait for approval. -/

namespace Rasat

/-- The keys of an `order_spec`. -/
structure OrderSpecFields where
  accountId : String
  symbol : String
  side : String
  entry : Option ℚ := none
  stopLoss : Option ℚ := none
  riskPct : Option ℚ := none
  orderType : Option String := none
  deriving DecidableEq

/-- `_validate_order_spec`. -/
def validateOrderSpec (spec : OrderSpecFields) : Except Exc Unit := do
  rejectIf (spec.accountId = "") .invalidRequest "order_spec.account_id is required"
  rejectIf (spec.symbol = "") .invalidRequest "order_spec.symbol is required"
  rejectIf (spec.side = "") .invalidRequest "order_spec.side is required"
  rejectIf (spec.side ≠ "BUY" ∧ spec.side ≠ "SELL") .invalidRequest "order_spec.side must be BUY|SELL"
  rejectIf (spec.orderType.getD "market" ≠ "market" ∧ spec.orderType.getD "market" ≠ "limit")
    .invalidRequest "order_spec.order_type must be market|limit"
  validateExecutionInputs spec.riskPct spec.entry spec.stopLoss (spec.orderType.getD "")

/-- A validated order of an alert. -/
abbrev OrderSpec := { spec : OrderSpecFields // validateOrderSpec spec = .ok () }

/-- One clause of a composite alert. -/
structure Clause where
  pair : Pair
  condition : FilterNode

inductive Combine
  | and | or
  deriving DecidableEq, Repr

/-- What an alert watches; a composite alert has at least one clause. -/
inductive AlertBody
  | simple (pair : Pair) (condition : FilterNode) (orderSpec : Option OrderSpec)
  | composite (combine : Combine) (first : Clause) (rest : List Clause)

/-- The definition of an alert, which never changes. -/
structure AlertDefinition where
  body : AlertBody
  cooldownSeconds : ℕ
  note : Option String

/-- The pairs that a definition reads. -/
def AlertDefinition.pairs (definition : AlertDefinition) : List Pair :=
  match definition.body with
  | .simple pair _ _ => [pair]
  | .composite _ first rest => (first :: rest).map Clause.pair

def AlertDefinition.isComposite (definition : AlertDefinition) : Bool :=
  match definition.body with
  | .simple _ _ _ => false
  | .composite _ _ _ => true

/-- The order that an alert asks for when it triggers; only simple alerts have one. -/
def AlertDefinition.orderSpec (definition : AlertDefinition) : Option OrderSpec :=
  match definition.body with
  | .simple _ _ orderSpec => orderSpec
  | .composite _ _ _ => none

inductive AlertState
  | armed | triggered | cooldown
  deriving DecidableEq, Repr

/-- A row of the alerts table. -/
structure AlertRow where
  alertId : String
  definition : AlertDefinition
  state : AlertState
  createdAt : ℤ
  updatedAt : ℤ
  cooldownUntil : Option ℤ

/-- `_lazy_state`. -/
def lazyState (state : AlertState) (cooldownUntil : Option ℤ) (now : ℤ) : AlertState :=
  match cooldownUntil with
  | some stop => if now < stop then .cooldown else .armed
  | none => if state = .triggered then .armed else state

/-- The payload of a trigger. -/
inductive TriggerPayload
  | simple (pair : Pair) (asOf : ℤ)
  | composite (asOf : ℤ)
  deriving DecidableEq, Repr

/-- A row of the triggered_alerts table. -/
structure TriggeredAlert where
  alertId : String
  triggerKey : String
  payload : TriggerPayload
  triggeredAt : ℤ
  deriving DecidableEq, Repr

/-- The columns under which triggers are unique. -/
def TriggeredAlert.key (trigger : TriggeredAlert) : String × String :=
  (trigger.alertId, trigger.triggerKey)

/-- A row of the pending_orders table that an alert has left. -/
structure AlertOrder extends PendingOrder where
  alertId : String
  createdAt : ℤ
  note : Option String
  deriving DecidableEq

/-- The tables of the alarm service. -/
structure AlertTables where
  alerts : List AlertRow := []
  triggered : List TriggeredAlert := []
  pending : List AlertOrder := []

/-- The arguments of `_maybe_trigger`, and the time that it reads first. -/
structure TriggerArgs where
  alertId : String
  triggerKey : String
  payload : TriggerPayload
  cooldownSeconds : ℕ
  now : ℤ

namespace AlertTables

/-- The alert with an id. -/
def alert (tables : AlertTables) (alertId : String) : Option AlertRow :=
  tables.alerts.find? fun row => row.alertId = alertId

/-- The record of a trigger. -/
def triggerOf (args : TriggerArgs) : TriggeredAlert where
  alertId := args.alertId
  triggerKey := args.triggerKey
  payload := args.payload
  triggeredAt := args.now

/-- The order that a trigger leaves for approval. -/
def orderOf (args : TriggerArgs) (definition : AlertDefinition) (orderId : String)
    (spec : OrderSpec) : AlertOrder where
  orderId := orderId
  alertId := args.alertId
  accountId := spec.val.accountId
  symbol := spec.val.symbol
  side := spec.val.side
  orderType := spec.val.orderType.getD "market"
  entry := spec.val.entry
  stopLoss := spec.val.stopLoss
  riskPct := spec.val.riskPct
  status := .awaitingApproval
  createdAt := args.now
  note := definition.note

/-- The alert after it has triggered. -/
def rest (args : TriggerArgs) (row : AlertRow) : AlertRow :=
  if 0 < args.cooldownSeconds then
    { row with
      state := .cooldown
      cooldownUntil := some (args.now + args.cooldownSeconds)
      updatedAt := args.now }
  else { row with state := .triggered, cooldownUntil := none, updatedAt := args.now }

/-- The transaction of `_maybe_trigger`; the order gets the given id if there is one. -/
def maybeTrigger (tables : AlertTables) (args : TriggerArgs) (orderId : String) :
    Except Exc (Option TriggeredAlert × AlertTables) :=
  match tables.alert args.alertId with
  | none => reject .notFound ("alert not found: " ++ args.alertId)
  | some row =>
    -- In cooldown nothing triggers, and one window of data triggers once.
    if lazyState row.state row.cooldownUntil args.now ≠ .armed then .ok (none, tables)
    else if (triggerOf args).key ∈ tables.triggered.map TriggeredAlert.key then .ok (none, tables)
    else if row.definition.orderSpec.isSome ∧ orderId ∈ tables.pending.map fun order => order.orderId then
      .error (.integrity "UNIQUE constraint failed: pending_orders.order_id")
    else
      .ok (some (triggerOf args), {
        alerts := tables.alerts.map fun other => if other.alertId = args.alertId then rest args other else other
        triggered := tables.triggered ++ [triggerOf args]
        pending := tables.pending ++
          (row.definition.orderSpec.map (orderOf args row.definition orderId)).toList })

/-- The transaction of `_insert_alert`. -/
def insertAlert (tables : AlertTables) (alertId : String) (definition : AlertDefinition) (now : ℤ) :
    Except Exc AlertTables :=
  if alertId ∈ tables.alerts.map AlertRow.alertId then
    .error (.integrity "UNIQUE constraint failed: alerts.alert_id")
  else
    .ok { tables with alerts := tables.alerts ++ [⟨alertId, definition, .armed, now, now, none⟩] }

/-- The transaction of `delete_alert`, which returns how many alerts there were. -/
def deleteAlert (tables : AlertTables) (alertId : String) : ℕ × AlertTables :=
  (tables.alerts.countP fun row => row.alertId = alertId,
    { tables with alerts := tables.alerts.filter fun row => row.alertId ≠ alertId })

/-- `_alerts_by_symbol`: the alerts of a pair that may be out of their cooldown. -/
def bySymbol (tables : AlertTables) (pair : Pair) (now : ℤ) : List AlertRow :=
  tables.alerts.filter fun row =>
    (row.state = .armed ∨ row.state = .triggered ∨ row.cooldownUntil.all (fun stop => stop ≤ now)) ∧
      pair ∈ row.definition.pairs

/-- `_composite_alerts`. -/
def composites (tables : AlertTables) : List AlertRow :=
  tables.alerts.filter fun row => row.definition.isComposite

/-- The approval of an order fills in its entry and moves its status. -/
def settle (tables : AlertTables) (orderId : String) (status : PendingStatus) (entry : Option ℚ) :
    AlertTables :=
  { tables with
    pending := tables.pending.map fun order =>
      if order.orderId = orderId then { order with status := status, entry := entry } else order }

end AlertTables

end Rasat
