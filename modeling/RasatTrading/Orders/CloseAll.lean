import RasatTrading.Orders.Execute

/-! The kill switch: cancel every open order of an account and sell what it holds. -/

namespace Rasat

open Coop

variable (svc : Service)

/-- A cancellation that could not be confirmed. -/
structure CancelError where
  symbol : String
  orderId : Option String
  clientOrderId : Option String
  error : RasatError
  deriving DecidableEq

/-- What the kill switch did about one held asset. -/
inductive Sale
  | skipped (symbol reason : String)
  | sold (symbol : String) (quantity : Option ℚ) (status : OrderStatus) (orderId : Option String)
  deriving DecidableEq

/-- Whether the sale was reported FILLED. -/
def Sale.isFilled : Sale → Bool
  | .skipped _ _ => false
  | .sold _ _ status _ => status = .exchange .filled

/-- The cancellations of a run so far. -/
structure CancelState where
  cancelled : List String := []
  errors : List CancelError := []
  deriving DecidableEq

/-- Note a symbol whose orders were cancelled, once. -/
def CancelState.cancel (state : CancelState) (symbol : String) : CancelState :=
  if symbol ∈ state.cancelled then state
  else { state with cancelled := state.cancelled ++ [symbol] }

/-- Note a cancellation that could not be confirmed. -/
def CancelState.fail (state : CancelState) (symbol : String) (order : Option Order)
    (clientOrderId : String) (error : RasatError) : CancelState :=
  { state with errors := state.errors ++ [{
      symbol := symbol
      orderId := order.map fun row => row.orderId
      clientOrderId := some clientOrderId
      error := error }] }

/-- The result of one account of the kill switch. -/
structure CloseResult where
  accountId : String
  closed : Bool
  /-- A paper account only has its local orders cancelled. -/
  simulated : Bool := false
  cancelled : List String := []
  cancelErrors : List CancelError := []
  sold : List Sale := []
  error : Option RasatError := none
  deriving DecidableEq

/-- An account's cancellation target: an id, its symbol and the local row when there is one. -/
structure Target where
  clientOrderId : String
  symbol : String
  order : Option Order
  deriving DecidableEq

/-- A dictionary entry: a repeated key keeps its place and takes the new value. -/
def insertEntry {α : Type} (key : String) (value : α) : List (String × α) → List (String × α)
  | [] => [(key, value)]
  | entry :: rest =>
    if entry.1 = key then (key, value) :: rest else entry :: insertEntry key value rest

/-- The dictionary of some items by their keys. -/
def dictBy {α : Type} (key : α → String) (items : List α) : List (String × α) :=
  items.foldl (fun entries item => insertEntry (key item) item entries) []

/-- The client order id of an exchange order, when it has one that is not empty. -/
def ExchangeOrder.namedId (order : ExchangeOrder) : Option String :=
  order.clientOrderId.filter fun id => id ≠ ""

/-- Local active orders, then the exchange's open orders that are not among them. -/
def cancelTargets (active : List Order) (exchange : List ExchangeOrder) : List Target :=
  let rows := dictBy (fun row => row.clientOrderId) active
  let named := exchange.filterMap fun order => order.namedId.map fun id => (id, order)
  let open_ := (dictBy (fun entry : String × ExchangeOrder => entry.1) named).filter fun entry =>
    rows.all fun row => row.1 ≠ entry.1
  rows.map (fun entry => ⟨entry.1, entry.2.symbol, some entry.2⟩) ++
    open_.map fun entry => ⟨entry.1, entry.2.2.symbol, none⟩

/-- The update that marks an order CANCELED. -/
def canceledUpdate : OrderUpdate where
  status := .canceled

/-- The update that marks an order whose cancellation is uncertain. -/
def uncertainUpdate (error : RasatError) : OrderUpdate where
  status := .unknown
  error := some (error.code, error.message)

/-- Update a local row, when there is one, with its audit entry. -/
def writeRow (account : Account) (actor action : String) (order : Option Order)
    (update : OrderUpdate) (details : Order → List (String × Detail)) : Task Unit :=
  match order with
  | none => return ()
  | some row =>
    dbWrite (.updateOrder row.orderId update
      (svc.entry actor action
        ([("account_id", .text account.accountId), ("order_id", .text row.orderId),
          ("symbol", .text row.symbol)] ++ details row)))

/-- `_write_cancel`. -/
def writeCancel (account : Account) (actor : String) (order : Option Order) : Task Unit :=
  writeRow svc account actor "order_canceled" order canceledUpdate fun row =>
    [("client_order_id", .text row.clientOrderId)]

/-- `_write_unknown`. -/
def writeUnknown (account : Account) (actor : String) (order : Option Order) (error : RasatError) :
    Task Unit :=
  writeRow svc account actor "order_cancel_failed" order (uncertainUpdate error) fun _ =>
    [("error_code", .text error.code.name)]

/-- `_write_sync`. -/
def writeSync (account : Account) (actor : String) (order : Option Order) (found : OrderResult) :
    Task Unit :=
  writeRow svc account actor "order_reconciled" order found.toUpdate fun _ =>
    [("status", .text found.status.name)]

/-- `_query_safe`: a timeout is reported, any other canonical error counts as no answer. -/
def querySafe (accountId : String) (target : Target) (isOco : Bool) :
    Task (Except RasatError (Option OrderResult)) := do
  let answer ← (if isOco then broker (.queryOco accountId target.clientOrderId)
    else broker (.queryOrder accountId target.symbol target.clientOrderId) :
      Task (Option OrderResult)).attempt
  match answer with
  | .ok found => return .ok found
  | .error .timeout => return .error ⟨.timeout, "cancel state query timed out"⟩
  | .error (.rasat _) => return .ok none
  | .error raised => .fail raised

/-- A cancellation that stays uncertain: the local row becomes UNKNOWN and the run reports it. -/
def uncertain (account : Account) (actor : String) (state : CancelState) (target : Target)
    (error : RasatError) : Task CancelState := do
  writeUnknown svc account actor target.order error
  return state.fail target.symbol target.order target.clientOrderId error

/-- `_cancel_one`. -/
def cancelOne (account : Account) (actor : String) (state : CancelState) (target : Target) :
    Task CancelState := do
  let isOco := target.order.any fun row => row.orderType = .oco
  let answer ← (if isOco then
      broker (.cancelOco account.accountId target.symbol target.clientOrderId)
    else broker (.cancelOrder account.accountId target.symbol target.clientOrderId) :
      Task (Option OrderResult)).attempt
  match answer with
  | .error raised =>
    match canonical "cancel request timed out" raised with
    | none => .fail raised
    | some error => uncertain svc account actor state target error
  | .ok none =>
    -- The exchange does not know the order: it may be cancelled or filled.
    match ← querySafe account.accountId target isOco with
    | .error error => uncertain svc account actor state target error
    | .ok none =>
      writeCancel svc account actor target.order
      return state.cancel target.symbol
    | .ok (some found) =>
      if found.status.isOpen then
        uncertain svc account actor state target
          ⟨.orderUnknown, "cancel state could not be verified"⟩
      else
        writeSync svc account actor target.order found
        return if found.status = .canceled then state.cancel target.symbol else state
  | .ok (some result) =>
    if result.status = .canceled then
      writeCancel svc account actor target.order
      return state.cancel target.symbol
    else if result.status.isOpen then
      uncertain svc account actor state target
        ⟨.orderReconcileRequired, "cancel result is not terminal"⟩
    else
      writeSync svc account actor target.order result
      return state

/-- Append an audit entry of a bulk cancellation, when there is an audit log. -/
def recordBulk (actor action : String) (details : List (String × Detail)) : Task Unit :=
  match svc.entry actor action details with
  | none => return ()
  | some entry => dbWrite (.appendAudit entry)

/-- An exchange order without a client order id is cancelled with everything of its symbol. -/
def cancelUnnamed (account : Account) (actor : String) (state : CancelState)
    (order : ExchangeOrder) : Task CancelState :=
  if order.namedId ≠ none ∨ order.symbol = "" then return state
  else do
    let scope := "exchange_open_order_without_client_id"
    let attempted ← ((broker (.cancelAllOpenOrders account.accountId order.symbol)).bind fun _ =>
      recordBulk svc actor "order_canceled"
        [("account_id", .text account.accountId), ("order_id", .ofText order.orderId),
          ("symbol", .text order.symbol), ("client_order_id", .null), ("scope", .text scope)]).attempt
    match attempted with
    | .ok () => return state.cancel order.symbol
    | .error raised =>
      match canonical "bulk cancellation request timed out" raised with
      | none => .fail raised
      | some error =>
        recordBulk svc actor "order_cancel_failed"
          [("account_id", .text account.accountId), ("order_id", .ofText order.orderId),
            ("symbol", .text order.symbol), ("error_code", .text error.code.name),
            ("scope", .text scope)]
        return { state with
          errors := state.errors ++ [⟨order.symbol, order.orderId, none, error⟩] }

/-- Cancel one target: at the exchange for a real account, locally for a paper account. -/
def cancelTarget (account : Account) (real : Bool) (actor : String) (state : CancelState)
    (target : Target) : Task CancelState :=
  if target.symbol = "" then return state
  else if real then cancelOne svc account actor state target
  else
    match target.order with
    | none => return state
    | some _ => do
      writeCancel svc account actor target.order
      return state.cancel target.symbol

/-- The states of an earlier close order that rule out a new SELL. -/
def blocksSale (status : ExchangeStatus) : Bool := status.isOpen ∨ status = .filled

/-- The idempotency key of a close SELL. -/
def closeKey (accountId symbol : String) (quantity : ℚ) (nonce : String) : String :=
  "close-" ++ accountId ++ "-" ++ symbol ++ "-" ++ svc.text.float quantity ++ "-" ++ nonce

/-- Submit a new close SELL. -/
def sellNow (account : Account) (actor symbol nonce : String) (quantity price : ℚ) : Task Sale := do
  let result ← placeAndRecord svc {
    account := account
    isReal := true
    symbol := symbol
    side := .sell
    orderType := .market
    quantity := quantity
    price := none
    notional := quantity * price
    referencePrice := price
    idempotencyKey := closeKey svc account.accountId symbol quantity nonce
    equitySnapshot := 0
    actor := actor }
  return .sold symbol (result.order.map fun view => view.quantity) result.status
    (result.order.map fun view => view.orderId)

/-- Reconcile an earlier close SELL of the symbol before a new one may be sent. -/
def sellAfter (account : Account) (actor symbol nonce : String) (quantity price : ℚ)
    (earlier : Option Order) : Task Sale :=
  match earlier with
  | none => sellNow svc account actor symbol nonce quantity price
  | some row => do
    match ← orNone (broker (.queryOrder account.accountId symbol row.clientOrderId)) with
    | none => sellNow svc account actor symbol nonce quantity price
    | some found =>
      dbWrite (.updateOrder row.orderId found.toUpdate none)
      if blocksSale found.status then
        return .sold symbol (some row.quantity) (.exchange found.status) (some row.orderId)
      else sellNow svc account actor symbol nonce quantity price

/-- One held asset of the sell loop; nothing is noted for an unknown symbol. -/
def sellAsset (account : Account) (actor nonce : String) (sold : List Sale)
    (asset : String) (amount : ℚ) : Task (List Sale) :=
  if asset = quoteAsset ∨ amount ≤ 0 then return sold
  else do
    let symbol := asset ++ quoteAsset
    if ¬(← market (.symbolValid symbol)) then return sold
    else
      match ← market (.price symbol) with
      | none => return sold ++ [.skipped symbol "stale price"]
      | some price =>
        match ← market (.filters symbol) with
        | none => return sold ++ [.skipped symbol "no filters"]
        | some filters =>
          let quantity := roundDownToStep amount filters.stepSize
          if quantity < filters.minQty then return sold ++ [.skipped symbol "below min_qty"]
          else
            let earlier ← dbRead (.openClose account.accountId symbol)
            let sale ← sellAfter svc account actor symbol nonce quantity price earlier
            return sold ++ [sale]

/-- `_close_one`. -/
def closeOne (account : Account) (actor : String) : Task CloseResult := do
  let real ← isReal account
  let active ← dbRead (.activeOrders account.accountId)
  let exchange ← if real then broker (.getAllOpenOrders account.accountId) else pure []
  let bulk ← exchange.foldlM (cancelUnnamed svc account actor) {}
  let state ← (cancelTargets active exchange).foldlM (cancelTarget svc account real actor) bulk
  if ¬real then
    return {
      accountId := account.accountId
      closed := false
      simulated := true
      cancelled := state.cancelled
      cancelErrors := state.errors }
  else
    let id ← uuid
    let nonce := String.ofList (id.toList.take 12)
    let balances ← broker (.getBalance account.accountId)
    let sold ← balances.foldlM (fun sold (asset, amount) =>
      sellAsset svc account actor nonce sold asset amount) []
    return {
      accountId := account.accountId
      closed := state.errors.isEmpty && sold.all Sale.isFilled
      cancelled := state.cancelled
      cancelErrors := state.errors
      sold := sold }

/-- The result of an account whose closing raised an exception. -/
def failedClose (accountId : String) : Exc → CloseResult
  | .rasat error => { accountId := accountId, closed := false, error := some error }
  | _ => {
      accountId := accountId
      closed := false
      error := some ⟨.internalError, "position close failed"⟩ }

/-- One account of the kill switch, under its lock. -/
def closeFor (actor : String) (account : Account) : Task CloseResult :=
  withLock account.accountId
    ((closeOne svc account actor).rescue fun raised => return failedClose account.accountId raised)

/-- The accounts that the kill switch is asked to close. -/
def closeTargets (accountId : String) : Task (List Account) :=
  if accountId = "all" then dbRead .accounts
  else do
    let account ← getAccount accountId
    return [account]

/-- The account id that the kill switch is given. -/
def closeArgument (accountId : Arg) : Except Exc String :=
  match accountId with
  | .text s =>
    if strip s = "" then reject .invalidRequest "account_id is required (string|'all')"
    else .ok (strip s)
  | _ => reject .invalidRequest "account_id is required (string|'all')"

/-- `close_all_positions`. -/
def closeAllPositions (accountId : Arg) (actor : String) : Task (List CloseResult) := do
  let named ← sync (closeArgument accountId)
  let accounts ← closeTargets named
  accounts.foldlM (fun results account => do
    let result ← closeFor svc (actorOr actor) account
    return results ++ [result]) []

end Rasat
