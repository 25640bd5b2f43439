import RasatTrading.Validation

/-! The rows of the daemon's tables and the order states that they store. -/

namespace Rasat

/-- The order states that the broker reports. -/
inductive ExchangeStatus
  | new | partiallyFilled | filled | canceled | rejected | expired | unknown
  deriving DecidableEq, Repr

def ExchangeStatus.name : ExchangeStatus → String
  | .new => "NEW"
  | .partiallyFilled => "PARTIALLY_FILLED"
  | .filled => "FILLED"
  | .canceled => "CANCELED"
  | .rejected => "REJECTED"
  | .expired => "EXPIRED"
  | .unknown => "UNKNOWN"

/-- NEW, PARTIALLY_FILLED or UNKNOWN: the broker may still change the order. -/
def ExchangeStatus.isOpen : ExchangeStatus → Bool
  | .new | .partiallyFilled | .unknown => true
  | .filled | .canceled | .rejected | .expired => false

/-- The order states that a row stores: those of the broker and the local simulation. -/
inductive OrderStatus
  | paper
  | exchange (status : ExchangeStatus)
  deriving DecidableEq, Repr

def OrderStatus.name : OrderStatus → String
  | .paper => "paper"
  | .exchange status => status.name

/-- NEW, PARTIALLY_FILLED or UNKNOWN. -/
def OrderStatus.isOpen : OrderStatus → Bool
  | .paper => false
  | .exchange status => status.isOpen

/-- NEW or PARTIALLY_FILLED. -/
def OrderStatus.isActive : OrderStatus → Bool
  | .exchange .new | .exchange .partiallyFilled => true
  | _ => false

/-- An active order is open. -/
theorem OrderStatus.isOpen_of_isActive {status : OrderStatus} (active : status.isActive) : status.isOpen := by
  cases status with
  | paper => cases active
  | exchange inner => cases inner <;> simp_all [isActive, isOpen, ExchangeStatus.isOpen]

/-- What the broker reports about an order. -/
structure OrderResult where
  status : ExchangeStatus
  exchangeOrderId : Option String := none
  executedQty : ℚ := 0
  avgPrice : ℚ := 0
  deriving DecidableEq

/-- One order of the exchange's list of open orders. -/
structure ExchangeOrder where
  symbol : String
  orderId : Option String
  clientOrderId : Option String
  deriving DecidableEq

inductive TradingLock
  | paper | real
  deriving DecidableEq, Repr

structure Account where
  accountId : String
  tags : List String := []
  tradingLock : TradingLock := .paper
  /-- Both encrypted credential columns are filled. -/
  credentialsConfigured : Bool := false
  createdAt : Int := 0
  deriving DecidableEq

/-- The columns of an order that its insertion sets and nothing changes later. -/
structure OrderDraft where
  accountId : String
  idempotencyKey : String
  symbol : String
  side : Side
  orderType : OrderType
  quantity : ℚ
  price : Option ℚ
  stopPrice : Option ℚ := none
  stopLimitPrice : Option ℚ := none
  clientOrderId : String
  notional : ℚ
  referencePrice : ℚ
  equitySnapshot : ℚ
  deriving DecidableEq

/-- A row of the orders table. -/
structure Order extends OrderDraft where
  orderId : String
  createdAt : Int
  status : OrderStatus
  exchangeOrderId : Option String := none
  executedQty : ℚ := 0
  avgPrice : ℚ := 0
  fee : ℚ := 0
  errorCode : Option ErrorCode := none
  errorMessage : Option String := none
  deriving DecidableEq

/-- The row that an insertion stores: a simulated fill or an order that is about to be sent. -/
def newOrder (draft : OrderDraft) (simulated : Bool) (orderId : String) (now : Int) : Order where
  toOrderDraft := draft
  orderId := orderId
  createdAt := now
  status := if simulated then .paper else .exchange .new

/-- The columns that an update of an order sets, besides its status. -/
structure OrderUpdate where
  status : ExchangeStatus
  /-- The exchange id, executed quantity and average price that the broker reported. -/
  fill : Option (Option String × ℚ × ℚ) := none
  error : Option (ErrorCode × String) := none
  deriving DecidableEq

/-- The update that stores a broker report. -/
def OrderResult.toUpdate (result : OrderResult) : OrderUpdate where
  status := result.status
  fill := some (result.exchangeOrderId, result.executedQty, result.avgPrice)

/-- An order with the columns of an update. -/
def Order.apply (order : Order) (update : OrderUpdate) : Order :=
  { order with
    status := .exchange update.status
    exchangeOrderId := update.fill.elim order.exchangeOrderId fun fill => fill.1
    executedQty := update.fill.elim order.executedQty fun fill => fill.2.1
    avgPrice := update.fill.elim order.avgPrice fun fill => fill.2.2
    errorCode := update.error.elim order.errorCode fun error => some error.1
    errorMessage := update.error.elim order.errorMessage fun error => some error.2 }

variable {update : OrderUpdate} {order : Order}

@[simp] theorem Order.apply_orderId : (order.apply update).orderId = order.orderId := rfl

@[simp] theorem Order.apply_toOrderDraft : (order.apply update).toOrderDraft = order.toOrderDraft := rfl

@[simp] theorem Order.apply_status : (order.apply update).status = .exchange update.status := rfl

@[simp] theorem Order.apply_createdAt : (order.apply update).createdAt = order.createdAt := rfl

/-- Some rows after the order with this id is updated. -/
def updateRows (orderId : String) (update : OrderUpdate) (rows : List Order) : List Order :=
  rows.map fun row => if row.orderId = orderId then row.apply update else row

/-- A row of the risk_policy table. -/
structure RiskPolicy where
  accountId : String
  maxNotionalPerOrder : Option ℚ
  maxAggregateExposure : Option ℚ
  allowedSymbols : List String
  policyVersion : Nat
  deriving DecidableEq

inductive OverrideState
  | reserved | applied | reconciled
  deriving DecidableEq, Repr

/-- A row of the risk_override table. -/
structure RiskOverride where
  overrideId : String
  accountId : String
  policyVersion : Nat
  idempotencyKey : String
  actor : String
  reason : String
  state : OverrideState
  createdAt : Int
  expiresAt : Int
  appliedAt : Option Int := none
  consumedByIdem : Option String := none
  reconciledAt : Option Int := none
  reconcileReason : Option String := none
  deriving DecidableEq

inductive PendingStatus
  | awaitingApproval | approved | executing | executed | rejected | reconcileRequired | expired
  deriving DecidableEq, Repr

def PendingStatus.name : PendingStatus → String
  | .awaitingApproval => "awaiting_approval"
  | .approved => "approved"
  | .executing => "executing"
  | .executed => "executed"
  | .rejected => "rejected"
  | .reconcileRequired => "reconcile_required"
  | .expired => "expired"

/-- The pending states that keep an account from being removed. -/
def PendingStatus.isActive : PendingStatus → Bool
  | .awaitingApproval | .approved | .executing | .reconcileRequired => true
  | .executed | .rejected | .expired => false

/-- The parameters of a pending order, as the triggering alert wrote them. -/
structure PendingSpec where
  accountId : String
  symbol : String
  side : String
  orderType : String := "market"
  entry : Option ℚ
  stopLoss : Option ℚ
  riskPct : Option ℚ
  deriving DecidableEq

/-- A row of the pending_orders table. -/
structure PendingOrder extends PendingSpec where
  orderId : String
  status : PendingStatus := .awaitingApproval
  executionStartedAt : Option Int := none
  executedOrderId : Option String := none
  executionErrorCode : Option ErrorCode := none
  executionErrorMessage : Option String := none
  deriving DecidableEq

/-- A value in the details of an audit entry. -/
inductive Detail
  | null
  | text (value : String)
  | number (value : ℚ)
  | flag (value : Bool)
  | texts (values : List String)
  deriving DecidableEq

/-- An audit entry before it is chained to the log. -/
structure AuditEntry where
  actor : String
  action : String
  details : List (String × Detail)
  deriving DecidableEq

/-- An optional text as an audit detail. -/
def Detail.ofText (value : Option String) : Detail := value.elim .null .text

/-- An optional number as an audit detail. -/
def Detail.ofNumber (value : Option ℚ) : Detail := value.elim .null .number

end Rasat
