import RasatTrading.Request

/-! Order records: submission to the broker, reconciliation and what a caller is shown. -/

namespace Rasat

open Coop

/-- What the services are configured with. -/
structure Service where
  text : Text
  defaultFeeRate : ℚ := 1 / 1000
  /-- Whether the services keep an audit log. -/
  audit : Bool := true

/-- The asset that every order is paid in. -/
def quoteAsset : String := "USDT"

variable (svc : Service)

/-- An audit entry, when there is an audit log. -/
def Service.entry (actor action : String) (details : List (String × Detail)) : Option AuditEntry :=
  if svc.audit then some ⟨actor, action, details⟩ else none

/-- The actor of a call that names none. -/
def actorOr (actor : String) : String := if actor = "" then "mcp-agent" else actor

/-- `to_client_order_id`: a readable prefix and a digest of the whole key. -/
def toClientOrderId (text : Text) (idempotencyKey : String) : String :=
  let allowed := idempotencyKey.toList.filter fun c => text.isAlnum c || c ∈ ['.', '_', '-']
  let stem := if allowed = [] then "idem".toList else allowed.take 24
  String.ofList stem ++ "-" ++ String.ofList ((text.sha1Hex idempotencyKey).toList.take 11)

/-- `_order_to_result`. -/
def orderToResult (order : Order) (positionSize : Option ℚ := none)
    (error : Option RasatError := none) : AccountResult where
  accountId := order.accountId
  status := order.status
  symbol := order.symbol
  order := some {
    side := order.side
    orderType := order.orderType
    quantity := order.quantity
    price := order.price
    stopPrice := order.stopPrice
    stopLimitPrice := order.stopLimitPrice
    notional := order.notional
    orderId := order.orderId
    exchangeOrderId := order.exchangeOrderId
    executedQty := order.executedQty
    avgPrice := order.avgPrice
    equitySnapshot := order.equitySnapshot }
  positionSize := positionSize
  error := error

/-- The error that the handlers of a broker call see, when they catch the exception at all. -/
def canonical (timeoutText : String) : Exc → Option RasatError
  | .rasat error => some error
  | .timeout => some ⟨.timeout, timeoutText⟩
  | .integrity _ | .other _ => none

/-- A canonical error of a lookup counts as no answer. -/
def orNone {α : Type} (lookup : Task (Option α)) : Task (Option α) :=
  lookup.rescue fun
    | .rasat _ => .done none
    | raised => .fail raised

/-- Ask the broker for an order's state; an OCO is looked up as a list. -/
def queryState (accountId : String) (order : Order) : Task (Option OrderResult) :=
  if order.orderType = .oco then broker (.queryOco accountId order.clientOrderId)
  else broker (.queryOrder accountId order.symbol order.clientOrderId)

/-- The update of an order whose state a timeout left open. -/
def unverifiedUpdate (message : String) : OrderUpdate where
  status := .unknown
  error := some (.orderUnknown, message)

/-- `_reconcile_after_timeout`: ask for the real state, otherwise the order stays UNKNOWN. -/
def reconcileAfterTimeout (account : Account) (order : Order) (symbol actor : String) :
    Task AccountResult := do
  let found ← orNone (queryState account.accountId order)
  match found with
  | some result =>
    dbWrite (.updateOrder order.orderId result.toUpdate
      (svc.entry actor "order_reconciled"
        [("account_id", .text account.accountId), ("order_id", .text order.orderId),
          ("symbol", .text symbol), ("status", .text result.status.name),
          ("exchange_order_id", .ofText result.exchangeOrderId)]))
    return orderToResult (order.apply result.toUpdate)
  | none =>
    let message := "network timeout; order state could not be verified"
    dbWrite (.updateOrder order.orderId (unverifiedUpdate message)
      (svc.entry actor "order_unknown"
        [("account_id", .text account.accountId), ("order_id", .text order.orderId),
          ("symbol", .text symbol)]))
    return orderToResult (order.apply (unverifiedUpdate message)) none
      (some ⟨.orderUnknown, message⟩)

/-- `_handle_existing`: a retry never submits again, it reports or reconciles the stored order. -/
def handleExisting (account : Account) (existing : Order) : Task AccountResult :=
  if ¬existing.status.isOpen then return orderToResult existing
  else if account.tradingLock ≠ .real then return orderToResult existing
  else do
    let found ← orNone (queryState account.accountId existing)
    match found with
    | none => return orderToResult existing
    | some result =>
      dbWrite (.updateOrder existing.orderId result.toUpdate
        (svc.entry "system" "order_reconciled"
          [("account_id", .text account.accountId), ("order_id", .text existing.orderId),
            ("status", .text result.status.name)]))
      return orderToResult (existing.apply result.toUpdate)

/-- The update of an order that the broker refused or whose submission failed. -/
def failedUpdate (error : RasatError) : OrderUpdate where
  status := if error.code = .orderRejected then .rejected else .unknown
  error := some (error.code, error.message)

/-- An order that passed every check, ready to be recorded and sent. -/
structure Placement where
  account : Account
  isReal : Bool
  symbol : String
  side : Side
  orderType : OrderType
  quantity : ℚ
  price : Option ℚ
  notional : ℚ
  referencePrice : ℚ
  idempotencyKey : String
  equitySnapshot : ℚ
  actor : String
  stopPrice : Option ℚ := none

/-- The row that a placement inserts. -/
def Placement.draft (p : Placement) (text : Text) : OrderDraft where
  accountId := p.account.accountId
  idempotencyKey := p.idempotencyKey
  symbol := p.symbol
  side := p.side
  orderType := p.orderType
  quantity := p.quantity
  price := p.price
  stopPrice := p.stopPrice
  clientOrderId := toClientOrderId text p.idempotencyKey
  notional := p.notional
  referencePrice := p.referencePrice
  equitySnapshot := p.equitySnapshot

/-- The broker call that a placement makes. -/
def Placement.order (p : Placement) (text : Text) : PlaceOrder where
  accountId := p.account.accountId
  symbol := p.symbol
  side := p.side
  orderType := p.orderType
  quantity := p.quantity
  price := p.price
  clientOrderId := toClientOrderId text p.idempotencyKey
  stopPrice := p.stopPrice

/-- What follows a failed submission: a timeout is reconciled, anything else is recorded. -/
def submissionFailed (account : Account) (order : Order) (symbol actor : String)
    (timeoutText action : String) (raised : Exc) : Task AccountResult :=
  match canonical timeoutText raised with
  | none => .fail raised
  | some error =>
    if error.code = .timeout then reconcileAfterTimeout svc account order symbol actor
    else do
      dbWrite (.updateOrder order.orderId (failedUpdate error)
        (svc.entry actor action
          [("account_id", .text account.accountId), ("order_id", .text order.orderId),
            ("symbol", .text symbol), ("error_code", .text error.code.name)]))
      return orderToResult (order.apply (failedUpdate error)) (some order.quantity)

/-- `_place_and_record`: the row is committed before the broker is called. -/
def placeAndRecord (p : Placement) : Task AccountResult := do
  let _ ← sync (validateExecutionOrder svc.text {
    side := p.side.name
    orderType := .text p.orderType.name
    quantity := p.quantity
    price := p.price
    stopPrice := p.stopPrice
    marketPrice := some p.referencePrice })
  if ¬p.isReal then
    let order ← dbWrite (.insertOrder (p.draft svc.text) true
      (svc.entry p.actor "place_order_paper"
        [("account_id", .text p.account.accountId), ("symbol", .text p.symbol),
          ("side", .text p.side.name), ("quantity", .number p.quantity),
          ("notional", .number p.notional), ("stop_price", .ofNumber p.stopPrice)]))
    return orderToResult order (some p.quantity)
  else
    let order ← dbWrite (.insertOrder (p.draft svc.text) false none)
    let submitted ← (broker (.placeOrder (p.order svc.text))).attempt
    match submitted with
    | .error raised =>
      submissionFailed svc p.account order p.symbol p.actor "order submission timed out"
        "place_order_failed" raised
    | .ok result =>
      dbWrite (.updateOrder order.orderId result.toUpdate
        (svc.entry p.actor "place_order"
          [("account_id", .text p.account.accountId), ("order_id", .text order.orderId),
            ("symbol", .text p.symbol), ("side", .text p.side.name),
            ("quantity", .number p.quantity), ("status", .text result.status.name),
            ("exchange_order_id", .ofText result.exchangeOrderId)]))
      return orderToResult (order.apply result.toUpdate) (some p.quantity)

end Rasat
