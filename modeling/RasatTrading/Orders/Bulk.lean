import RasatTrading.Orders.Execute

/-! Sized orders over several accounts, each under its own lock and with its own result. -/

namespace Rasat

open Coop

variable (svc : Service)

/-- A validated sized order, before the accounts are chosen. -/
structure SizedOrder where
  symbol : String
  side : String
  entry : ℚ
  stopLoss : ℚ
  riskPct : ℚ
  idempotencyKey : String
  orderType : OrderType
  actor : String
  deriving DecidableEq

/-- `_accuracy_preflight`. -/
def accuracyPreflight (symbol side : String) (entry stopLoss : ℚ) : Task Unit := do
  requireSymbol symbol
  let price ← market (.price symbol)
  let _ ← sync (checkPriceFresh price symbol)
  sync (checkStopDirection side entry stopLoss)

/-- The balance that a sized order may risk: free quote for a BUY, equity for a SELL. -/
def sizingBalance (side : String) (balances : Balances) (equity : ℚ) (symbol : String) :
    Except Exc ℚ :=
  if sideOrBuy side = "BUY" then do
    rejectIf (free balances quoteAsset ≤ 0) .insufficientBalance
      ("insufficient balance: free " ++ quoteAsset ++ " is 0 (" ++ symbol ++ ")")
    return free balances quoteAsset
  else do
    rejectIf (equity ≤ 0) .insufficientBalance
      ("insufficient balance: account balance is 0 (" ++ symbol ++ ")")
    return equity

/-- Quantity times a price that may be missing. -/
def timesPrice (quantity : ℚ) (price : Option ℚ) : Except Exc ℚ :=
  match price with
  | none => .error (.other "unsupported operand type(s) for *: 'float' and 'NoneType'")
  | some value => .ok (quantity * value)

/-- The entry of an order type that has a limit price. -/
def limitPrice (orderType : OrderType) (entry : ℚ) : Option ℚ :=
  if orderType = .limit ∨ orderType = .stopLossLimit then some entry else none

/-- The stop of an order type that has a trigger. -/
def triggerPrice (orderType : OrderType) (stopLoss : ℚ) : Option ℚ :=
  if orderType = .stopLossLimit then some stopLoss else none

/-- `_execute_one_sized`. -/
def executeOneSized (account : Account) (o : SizedOrder) : Task AccountResult := do
  match ← dbRead (.order account.accountId o.idempotencyKey) with
  | some existing => handleExisting svc account existing
  | none =>
    let real ← isReal account
    accuracyPreflight o.symbol o.side o.entry o.stopLoss
    let price ← market (.price o.symbol)
    let balances ← broker (.getBalance account.accountId)
    let equity ← equityFromBalances balances quoteAsset
    let filters ← requireFilters o.symbol
    let sizing ← sync (sizingBalance o.side balances equity o.symbol)
    let sized ← sync (calculatePositionSize svc.text o.symbol sizing o.riskPct o.entry o.stopLoss
      filters o.side svc.defaultFeeRate)
    let notional ← sync (timesPrice sized.quantity price)
    let validated ← sync (validateExecutionOrder svc.text {
      side := o.side
      orderType := .text o.orderType.name
      quantity := sized.quantity
      price := limitPrice o.orderType o.entry
      stopPrice := triggerPrice o.orderType o.stopLoss
      filters := some filters
      marketPrice := price })
    sync (checkAvailableBalance svc.text balances validated.side o.symbol filters.baseAsset quoteAsset
      sized.quantity notional (notional * svc.defaultFeeRate))
    let policy ← getPolicy account.accountId
    let exposure ← currentExposure account.accountId quoteAsset
    enforceCapsOrOverride svc account policy o.symbol notional (exposure + notional) o.idempotencyKey
    placeAndRecord svc {
      account := account
      isReal := real
      symbol := o.symbol
      side := validated.side
      orderType := validated.orderType
      quantity := sized.quantity
      price := some o.entry
      notional := notional
      referencePrice := price.getD 0
      idempotencyKey := o.idempotencyKey
      equitySnapshot := equity
      actor := o.actor
      stopPrice := triggerPrice o.orderType o.stopLoss }

/-- `_resolve_targets`: every listed account that is named or tagged. -/
def resolveTargets (accountIds tags : List String) : Task (List Account) := do
  if accountIds = [] ∧ tags = [] then
    raise .invalidRequest "account_ids or tags is required (neither can be empty)"
  else
    let ids := (accountIds.filter (· ≠ "")).map strip
    let wanted := (tags.filter (· ≠ "")).map strip
    let listed ← dbRead .accounts
    match ids.find? fun id => listed.all fun account => account.accountId ≠ id with
    | some missing => raise .accountNotFound ("account not found: " ++ missing)
    | none =>
      return listed.filter fun account =>
        account.accountId ∈ ids ∨ wanted.any fun tag => tag ∈ account.tags

/-- The result of an account whose order raised an exception. -/
def failedResult (accountId symbol : String) : Exc → AccountResult
  | .rasat error => {
      accountId := accountId
      status := .exchange .rejected
      symbol := symbol
      error := some error }
  | raised => {
      accountId := accountId
      status := .exchange .unknown
      symbol := symbol
      error := some ⟨.internalError, raised.text⟩ }

/-- The reply over the results of all accounts. -/
def replyOf (results : List AccountResult) : ExecuteReply :=
  let succeeded := (results.filter fun result =>
    result.status ≠ .exchange .rejected ∧ result.status ≠ .exchange .unknown).length
  { results := results
    count := results.length
    succeeded := succeeded
    failed := results.length - succeeded }

/-- The checks that `execute_on_accounts` makes before it looks at any account. -/
def validateSized (args : ExecuteArgs) : Except Exc SizedOrder := do
  let idempotencyKey ← requireString args.idempotencyKey "idempotency_key"
  let symbol ← requireString args.symbol "symbol"
  let side ← requireString args.side "side"
  let entry ← requireNumber svc.text args.entry "entry"
  let stopLoss ← requireNumber svc.text args.stopLoss "stop_loss"
  let riskPct ← requireNumber svc.text args.riskPct "risk_pct"
  let orderType ← normalizeOrderType svc.text args.orderType
  return {
    symbol := symbol
    side := side
    entry := entry
    stopLoss := stopLoss
    riskPct := riskPct
    idempotencyKey := idempotencyKey
    orderType := orderType
    actor := actorOr args.actor }

/-- One account of a bulk order: its lock is held while it runs and its errors become a result. -/
def executeFor (o : SizedOrder) (account : Account) : Task AccountResult :=
  withLock account.accountId
    ((executeOneSized svc account o).rescue fun raised =>
      return failedResult account.accountId o.symbol raised)

/-- `execute_on_accounts`. -/
def executeOnAccounts (args : ExecuteArgs) : Task ExecuteReply := do
  let order ← sync (validateSized svc args)
  let targets ← resolveTargets args.accountIds args.tags
  let results ← targets.foldlM (fun results account => do
    let result ← executeFor svc order account
    return results ++ [result]) []
  return replyOf results

end Rasat
