import RasatTrading.Orders.Execute

/-! OCO lists: a profit target and a stop that the exchange keeps as one order. -/

namespace Rasat

open Coop

variable (svc : Service)

/-- A validated OCO of one account. -/
structure OcoOrder where
  accountId : String
  symbol : String
  side : Side
  quantity : ℚ
  price : ℚ
  stopPrice : ℚ
  stopLimitPrice : ℚ
  idempotencyKey : String
  actor : String

/-- The row that an OCO inserts. -/
def OcoOrder.draft (o : OcoOrder) (text : Text) (notional reference equity : ℚ) : OrderDraft where
  accountId := o.accountId
  idempotencyKey := o.idempotencyKey
  symbol := o.symbol
  side := o.side
  orderType := .oco
  quantity := o.quantity
  price := some o.price
  stopPrice := some o.stopPrice
  stopLimitPrice := some o.stopLimitPrice
  clientOrderId := toClientOrderId text o.idempotencyKey
  notional := notional
  referencePrice := reference
  equitySnapshot := equity

/-- The broker call that an OCO makes. -/
def OcoOrder.order (o : OcoOrder) (text : Text) : PlaceOco where
  accountId := o.accountId
  symbol := o.symbol
  side := o.side
  quantity := o.quantity
  price := o.price
  stopPrice := o.stopPrice
  stopLimitPrice := o.stopLimitPrice
  clientOrderId := toClientOrderId text o.idempotencyKey

/-- The audit details of an OCO. -/
def OcoOrder.details (o : OcoOrder) : List (String × Detail) :=
  [("account_id", .text o.accountId), ("symbol", .text o.symbol), ("side", .text o.side.name),
    ("quantity", .number o.quantity), ("price", .number o.price),
    ("stop_price", .number o.stopPrice), ("stop_limit_price", .number o.stopLimitPrice)]

/-- The end of `_execute_oco_direct`: the row is committed before the broker is called. -/
def recordOco (account : Account) (real : Bool) (o : OcoOrder) (notional reference equity : ℚ) :
    Task AccountResult :=
  let draft := o.draft svc.text notional reference equity
  if ¬real then do
    let order ← dbWrite (.insertOrder draft true (svc.entry o.actor "place_oco_paper" o.details))
    return orderToResult order (some o.quantity)
  else do
    let order ← dbWrite (.insertOrder draft false none)
    let submitted ← (broker (.placeOco (o.order svc.text))).attempt
    match submitted with
    | .error raised =>
      submissionFailed svc account order o.symbol o.actor "OCO submission timed out"
        "place_oco_failed" raised
    | .ok result =>
      dbWrite (.updateOrder order.orderId result.toUpdate
        (svc.entry o.actor "place_oco" (("order_id", .text order.orderId) :: o.details)))
      -- The reply shows the row as it was inserted.
      return orderToResult order (some o.quantity)

/-- `_execute_oco_direct`. -/
def executeOcoDirect (o : OcoOrder) : Task AccountResult :=
  enterDirect svc o.accountId o.symbol o.idempotencyKey
    (fun filters marketPrice => {
      side := o.side.name
      orderType := .text "OCO"
      quantity := o.quantity
      price := some o.price
      stopPrice := some o.stopPrice
      stopLimitPrice := some o.stopLimitPrice
      filters := some filters
      marketPrice := marketPrice })
    (fun _ => o.quantity)
    fun account real validated notional reference equity =>
      recordOco svc account real { o with side := validated.side } notional reference equity

/-- The arguments of `place_oco_order`. -/
structure PlaceOcoArgs where
  accountId : Arg
  symbol : Arg
  side : Arg
  quantity : Arg
  price : Arg
  stopPrice : Arg
  stopLimitPrice : Arg
  idempotencyKey : Arg
  actor : String := "mcp-agent"
  deriving DecidableEq

/-- The checks that `place_oco_order` makes before it takes the account's lock. -/
def validateOco (args : PlaceOcoArgs) : Except Exc OcoOrder := do
  let accountId ← requireString args.accountId "account_id"
  let idempotencyKey ← requireString args.idempotencyKey "idempotency_key"
  let symbol ← requireString args.symbol "symbol"
  let side ← requireString args.side "side"
  let quantity ← requireNumber svc.text args.quantity "quantity"
  let price ← requireNumber svc.text args.price "price"
  let stopPrice ← requireNumber svc.text args.stopPrice "stop_price"
  let stopLimitPrice ← requireNumber svc.text args.stopLimitPrice "stop_limit_price"
  let validated ← validateExecutionOrder svc.text {
    side := side
    orderType := .text "OCO"
    quantity := quantity
    price := some price
    stopPrice := some stopPrice
    stopLimitPrice := some stopLimitPrice }
  return {
    accountId := accountId
    symbol := symbol
    side := validated.side
    quantity := quantity
    price := price
    stopPrice := stopPrice
    stopLimitPrice := stopLimitPrice
    idempotencyKey := idempotencyKey
    actor := actorOr args.actor }

/-- `place_oco_order`. -/
def placeOcoOrder (args : PlaceOcoArgs) : Task AccountResult := do
  let order ← sync (validateOco svc args)
  withLock order.accountId (executeOcoDirect svc order)

end Rasat
