import RasatTrading.Orders.Record

/-! The order entry points: single orders, OCO lists and sized orders over several accounts. -/

namespace Rasat

open Coop

variable (svc : Service)

/-- `_current_exposure`: open orders and held assets at the daemon's own prices. -/
def currentExposure (accountId quote : String) : Task ℚ := do
  let openNotional ← dbRead (.openNotional accountId)
  let balances ← broker (.getBalance accountId)
  let held ← balances.foldlM (fun held (asset, amount) =>
    if asset = quote ∨ amount ≤ 0 then return held
    else do
      match ← market (.price (asset ++ quote)) with
      | none => raise .staleData ("could not obtain exposure price: " ++ asset ++ quote)
      | some price => return held + amount * price) 0
  return openNotional + held

/-- `_equity_from_balances`: free quote and the value of every asset with a known price. -/
def equityFromBalances (balances : Balances) (quote : String) : Task ℚ :=
  balances.foldlM (fun equity (asset, amount) =>
    if asset = quote then return equity + amount
    else do
      match ← market (.price (asset ++ quote)) with
      | none => return equity
      | some price => return equity + amount * price) 0

/-- `_is_real`: a real account must have its credentials at hand. -/
def isReal (account : Account) : Task Bool :=
  if account.tradingLock ≠ .real then return false
  else do
    Prog.call (Req.credentials account.accountId)
    return true

/-- `get_account`. -/
def getAccount (accountId : String) : Task Account := do
  match ← dbRead (.account accountId) with
  | none => raise .accountNotFound ("account not found: " ++ accountId)
  | some account => return account

/-- `get_policy`. -/
def getPolicy (accountId : String) : Task RiskPolicy :=
  if strip accountId = "" then raise .invalidRequest "account_id is required (string)"
  else do
    match ← dbRead (.policy (strip accountId)) with
    | none => raise .accountNotFound ("account not found: " ++ strip accountId)
    | some policy => return policy

/-- `consume_override`: the clock is read when the call is made. -/
def consumeOverride (accountId : String) (policyVersion : Nat) (consumedByIdem : String) :
    Task (Option RiskOverride) :=
  if strip accountId = "" then raise .invalidRequest "account_id is required (string)"
  else if strip consumedByIdem = "" then raise .invalidRequest "consumed_by_idem is required (string)"
  else do
    let now ← clock
    dbWrite (.consumeOverride (strip accountId) policyVersion consumedByIdem now svc.audit)

/-- `enforce_policy_caps`: no tolerance, the final value must be at most the cap. -/
def enforcePolicyCaps (text : Text) (symbol : String) (notional : ℚ) (policy : RiskPolicy)
    (aggregateExposure : ℚ) : Except Exc Unit := do
  rejectIf (symbol = "") .invalidRequest "symbol is required (string)"
  rejectIf (notional ≤ 0) .invalidRequest "notional must be a positive number"
  rejectIf (policy.allowedSymbols ≠ [] ∧ symbol ∉ policy.allowedSymbols) .symbolNotAllowed
    ("symbol is not allowed by risk policy: " ++ symbol)
  rejectIf (exceeds notional policy.maxNotionalPerOrder) .riskLimitExceeded
    ("order notional exceeds cap: " ++ text.float notional ++ " > "
      ++ text.bound policy.maxNotionalPerOrder ++ " (max_notional_per_order, no tolerance)")
  rejectIf (exceeds aggregateExposure policy.maxAggregateExposure) .riskLimitExceeded
    ("aggregate exposure exceeds cap: " ++ text.float aggregateExposure ++ " > "
      ++ text.bound policy.maxAggregateExposure ++ " (max_aggregate_exposure, no tolerance)")

/-- The cap violations that an override can excuse. -/
def excusable : Exc → Bool
  | .rasat error => error.code = .riskLimitExceeded ∨ error.code = .symbolNotAllowed
  | _ => false

/-- `_enforce_caps_or_override`. -/
def enforceCapsOrOverride (account : Account) (policy : RiskPolicy) (symbol : String)
    (notional exposureAfter : ℚ) (idempotencyKey : String) : Task Unit :=
  match enforcePolicyCaps svc.text symbol notional policy exposureAfter with
  | .ok () => return ()
  | .error raised =>
    if excusable raised then do
      match ← consumeOverride svc account.accountId policy.policyVersion idempotencyKey with
      | none => .fail raised
      | some _ => return ()
    else .fail raised

/-- `_check_available_balance`: free quote for a BUY, free base for a SELL. -/
def checkAvailableBalance (text : Text) (balances : Balances) (side : Side)
    (symbol baseAsset quote : String) (quantity notional fee : ℚ) : Except Exc Unit :=
  match side with
  | .buy =>
    rejectIf (notional + fee > free balances quote) .insufficientBalance
      ("insufficient balance: BUY requires " ++ text.fixed8 (notional + fee) ++ " " ++ quote
        ++ " > free " ++ text.fixed8 (free balances quote) ++ " (" ++ symbol ++ ")")
  | .sell =>
    rejectIf (quantity > free balances baseAsset) .insufficientBalance
      ("insufficient balance: SELL requires " ++ text.fixed8 quantity ++ " " ++ baseAsset
        ++ " > free " ++ text.fixed8 (free balances baseAsset) ++ " (" ++ symbol ++ ")")

/-- The filters of a symbol, without which no order is checked. -/
def requireFilters (symbol : String) : Task SymbolFilters := do
  match ← market (.filters symbol) with
  | none => raise .filterViolation ("exchangeInfo filters unavailable: " ++ symbol)
  | some filters => return filters

/-- The symbol must be tradable. -/
def requireSymbol (symbol : String) : Task Unit := do
  if ← market (.symbolValid symbol) then return ()
  else raise .invalidSymbol ("unknown symbol in universe: " ++ symbol)

/-- The notional that the validator computed from a price. -/
def requireNotional (notional : Option ℚ) : Except Exc ℚ :=
  match notional with
  | none => .error (.other "unsupported operand type(s) for *: 'NoneType' and 'float'")
  | some amount => .ok amount

/-- A validated single order of one account. -/
structure DirectOrder where
  accountId : String
  symbol : String
  side : Side
  orderType : OrderType
  quantity : ℚ
  price : Option ℚ
  stopPrice : Option ℚ
  idempotencyKey : String
  actor : String

/-- What `_execute_one_direct` and `_execute_oco_direct` have in common: the key is looked up, the order checked with
what `input` gives the validator, and placed behind the gate. -/
def enterDirect (accountId symbol key : String) (input : SymbolFilters → Option ℚ → OrderInput)
    (quantity : Validated → ℚ) (place : Account → Bool → Validated → ℚ → ℚ → ℚ → Task AccountResult) :
    Task AccountResult := do
  let account ← getAccount accountId
  match ← dbRead (.order accountId key) with
  | some existing => handleExisting svc account existing
  | none =>
    let real ← isReal account
    requireSymbol symbol
    let marketPrice ← market (.price symbol)
    let reference ← sync (checkPriceFresh marketPrice symbol)
    let filters ← requireFilters symbol
    let validated ← sync (validateExecutionOrder svc.text (input filters marketPrice))
    let notional ← sync (requireNotional validated.notional)
    let balances ← broker (.getBalance accountId)
    sync (checkAvailableBalance svc.text balances validated.side symbol filters.baseAsset quoteAsset
      (quantity validated) notional (notional * svc.defaultFeeRate))
    let policy ← getPolicy accountId
    let exposure ← currentExposure accountId quoteAsset
    enforceCapsOrOverride svc account policy symbol notional (exposure + notional) key
    let equity ← equityFromBalances balances quoteAsset
    place account real validated notional reference equity

/-- `_execute_one_direct`. -/
def executeOneDirect (o : DirectOrder) : Task AccountResult :=
  enterDirect svc o.accountId o.symbol o.idempotencyKey
    (fun filters marketPrice => {
      side := o.side.name
      orderType := .text o.orderType.name
      quantity := o.quantity
      price := o.price
      stopPrice := o.stopPrice
      filters := some filters
      marketPrice := marketPrice })
    Validated.quantity
    fun account real validated notional reference equity => placeAndRecord svc {
      account := account
      isReal := real
      symbol := o.symbol
      side := validated.side
      orderType := validated.orderType
      quantity := validated.quantity
      price := validated.price
      notional := notional
      referencePrice := reference
      idempotencyKey := o.idempotencyKey
      equitySnapshot := equity
      actor := o.actor
      stopPrice := validated.stopPrice }

/-- The arguments of `place_order`. -/
structure PlaceOrderArgs where
  accountId : Arg
  symbol : Arg
  side : Arg
  orderType : Arg
  quantity : Arg
  price : Arg := .absent
  stopPrice : Arg := .absent
  idempotencyKey : Arg
  actor : String := "mcp-agent"
  deriving DecidableEq

/-- The checks that `place_order` makes before it takes the account's lock. -/
def validateDirect (args : PlaceOrderArgs) : Except Exc DirectOrder := do
  let accountId ← requireString args.accountId "account_id"
  let idempotencyKey ← requireString args.idempotencyKey "idempotency_key"
  let symbol ← requireString args.symbol "symbol"
  let side ← requireString args.side "side"
  let quantity ← requireNumber svc.text args.quantity "quantity"
  let price ← optionalNumber svc.text args.price "price"
  let stopPrice ← optionalNumber svc.text args.stopPrice "stop_price"
  let validated ← validateExecutionOrder svc.text {
    side := side
    orderType := args.orderType
    quantity := quantity
    price := price
    stopPrice := stopPrice }
  return {
    accountId := accountId
    symbol := symbol
    side := validated.side
    orderType := validated.orderType
    quantity := quantity
    price := price
    stopPrice := stopPrice
    idempotencyKey := idempotencyKey
    actor := actorOr args.actor }

/-- `place_order`. -/
def placeOrder (args : PlaceOrderArgs) : Task AccountResult := do
  let order ← sync (validateDirect svc args)
  withLock order.accountId (executeOneDirect svc order)

end Rasat
