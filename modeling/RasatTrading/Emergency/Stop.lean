import RasatTrading.Emergency.Entries
import RasatTrading.Request
import RasatTrading.Coop.Recorded

/-! The emergency stop: cancel the open orders of an account and sell what it holds, without the daemon. -/

namespace Rasat

open Coop Document

/-- The requests of the emergency stop to the exchange, the price source, its log and the operator. -/
inductive StopReq
  | accounts
  | credentials (accountId : String)
  | openOrders (accountId : String)
  | cancelAll (accountId symbol : String)
  | balances (accountId : String)
  | filters (symbol : String)
  | price (symbol : String)
  /-- Show the sales and ask for a confirmation; a closed input has no answer. -/
  | confirm (accountId : String) (shown : List String)
  /-- Eight hexadecimal digits. -/
  | nonce
  | query (accountId symbol clientOrderId : String)
  /-- Place a market SELL. -/
  | sell (accountId symbol : String) (quantity : ℚ) (clientOrderId : String)
  | entries
  | append (action : String) (details : List (Key × Raw))
  deriving Inhabited

/-- The answer of a request. -/
abbrev StopReq.Ans : StopReq → Type
  | .accounts => List String
  | .credentials _ => Unit
  | .openOrders _ => List ExchangeOrder
  | .cancelAll _ _ => ℤ
  | .balances _ => List (String × ℚ)
  | .filters _ => Option SymbolFilters
  | .price _ => Option ℚ
  | .confirm _ _ => Option String
  | .nonce => String
  | .query _ _ _ => Option OrderResult
  | .sell _ _ _ _ => OrderResult
  | .entries => List Document
  | .append _ _ => Unit

/-- The programs of the emergency stop. -/
abbrev StopTask (α : Type) := Prog StopReq StopReq.Ans Exc α

/-- Ask one request. -/
def stopAsk (request : StopReq) : StopTask request.Ans := Prog.call request

/-- The quote asset of the emergency stop and the renderings that it uses. -/
structure StopService where
  quoteAsset : String := "USDT"
  text : Text
  /-- A float with six significant digits. -/
  general6 : ℚ → String
  /-- A float with four significant digits. -/
  general4 : ℚ → String

variable (svc : StopService)

/-- One planned sale. -/
structure PlanItem where
  symbol : String
  asset : String
  quantity : ℚ
  price : ℚ
  notional : ℚ
  deriving DecidableEq

/-- The state that a sale is reported in. -/
inductive SaleStatus
  | dryRun | failed
  | exchange (status : ExchangeStatus)
  deriving DecidableEq

/-- NEW, PARTIALLY_FILLED or UNKNOWN: the sale is not confirmed. -/
def SaleStatus.isPending : SaleStatus → Bool
  | .dryRun | .failed => false
  | .exchange status => status.isOpen

/-- FILLED, or only planned. -/
def SaleStatus.isDone (status : SaleStatus) : Bool :=
  status = .exchange .filled ∨ status = .dryRun

/-- The report of one sale. -/
structure StopSale extends PlanItem where
  status : SaleStatus
  pending : Bool
  reconcileRequired : Bool
  exchangeOrderId : Option String := none
  cid : Option String := none
  error : Option RasatError := none
  deriving DecidableEq

/-- `_mark_sell`. -/
def markSell (item : PlanItem) (status : SaleStatus) (exchangeOrderId cid : Option String) : StopSale where
  toPlanItem := item
  status := status
  pending := status.isPending
  reconcileRequired := status.isPending
  exchangeOrderId := exchangeOrderId
  cid := cid

/-- A symbol, or an asset of the balances, that something went wrong with. -/
structure StopIssue where
  symbol : String
  asset : Option String := none
  error : RasatError
  deriving DecidableEq

/-- The report of one account. -/
structure StopResult where
  accountId : String
  ok : Bool
  /-- The code and the message of an early end. -/
  error : Option (String × String) := none
  cancelledOrders : ℤ := 0
  cancelErrors : List StopIssue := []
  sold : List StopSale := []
  pending : List StopSale := []
  reconcileRequired : Bool := false
  priceErrors : List StopIssue := []
  filterErrors : List StopIssue := []
  plan : Option (List PlanItem) := none
  deriving DecidableEq

/-- The open orders by their symbols, in the order of the symbols. -/
def bySymbol (orders : List ExchangeOrder) : List (String × List ExchangeOrder) :=
  ((orders.map fun order => order.symbol).dedup.insertionSort fun left right => left ≤ right).map
    fun symbol => (symbol, orders.filter fun order => order.symbol = symbol)

/-- The key under which the cancellation of an order is logged. -/
def cancelKey (accountId symbol : String) (order : ExchangeOrder) : String :=
  let named := match order.clientOrderId with
    | some id => if id = "" then order.orderId else some id
    | none => order.orderId
  accountId ++ ":" ++ symbol ++ ":" ++ named.getD "None"

/-- Whether every key was logged; each is looked up in the log of its own. -/
def allLogged : List String → StopTask Bool
  | [] => return true
  | key :: rest => do
    let rows ← stopAsk .entries
    if ← Prog.ofExcept (isActionDone cancelLogAction key rows) then allLogged rest else return false

/-- The cancellations of a run so far. -/
structure Cancels where
  cancelled : ℤ := 0
  errors : List StopIssue := []

/-- A text of the program. -/
abbrev rawText (value : String) : Raw := .str (.text value)

/-- A float of the program. -/
def rawFloat (value : ℚ) : Raw := .float (.ofDecimal (value < 0) |value|)

/-- A member of some details. -/
abbrev detail (key : String) (value : Raw) : Key × Raw := (.str (.text key), value)

/-- The row that logs a cancellation. -/
def cancelDetails (accountId symbol key : String) (count : ℤ) : List (Key × Raw) :=
  [detail "idem_key" (rawText key), detail "account_id" (rawText accountId), detail "symbol" (rawText symbol),
    detail "cancelled" (.int count)]

/-- Log a cancellation under each of its keys. -/
def logCancels (accountId symbol : String) (count : ℤ) : List String → StopTask Unit
  | [] => return ()
  | key :: rest => do
    stopAsk (.append cancelLogAction (cancelDetails accountId symbol key count))
    logCancels accountId symbol count rest

/-- Cancel the open orders of one symbol, unless every one of them was logged as cancelled. -/
def cancelSymbol (accountId : String) (dryRun : Bool) (state : Cancels)
    (group : String × List ExchangeOrder) : StopTask Cancels :=
  if dryRun then return state
  else do
    let keys := group.2.map (cancelKey accountId group.1)
    if ← allLogged keys then return state
    else
      match ← (stopAsk (.cancelAll accountId group.1)).attempt with
      | .error (.rasat error) =>
        return { state with errors := state.errors ++ [{ symbol := group.1, error := error }] }
      | .error raised => .fail raised
      | .ok count =>
        logCancels accountId group.1 count keys
        return { state with cancelled := state.cancelled + count }

/-- The plan of the sales so far. -/
structure Planned where
  plan : List PlanItem := []
  priceErrors : List StopIssue := []
  filterErrors : List StopIssue := []

/-- Note an asset that the filters rule out. -/
def Planned.reject (planned : Planned) (symbol asset message : String) : Planned :=
  { planned with
    filterErrors := planned.filterErrors ++
      [{ symbol := symbol, asset := some asset, error := ⟨.filterViolation, message⟩ }] }

/-- `_price`. -/
def stopPrice (symbol : String) : StopTask ℚ := do
  match ← stopAsk (.price symbol) with
  | none => .fail (.rasat ⟨.staleData, "could not obtain price: " ++ symbol⟩)
  | some price => return price

/-- Plan the sale of one asset. -/
def planAsset (planned : Planned) (entry : String × ℚ) : StopTask Planned :=
  if entry.1 = svc.quoteAsset ∨ entry.2 ≤ 0 then return planned
  else do
    let symbol := entry.1 ++ svc.quoteAsset
    match ← stopAsk (.filters symbol) with
    | none =>
      return planned.reject symbol entry.1 "could not obtain filter information — sale not placed"
    | some filters =>
      let quantity := roundDownToStep entry.2 filters.stepSize
      if quantity < filters.minQty then
        return planned.reject symbol entry.1
          ("quantity is below LOT_SIZE minQty: " ++ svc.text.float quantity ++ " < " ++
            svc.text.float filters.minQty)
      else
        match ← (stopPrice symbol).attempt with
        | .error (.rasat error) =>
          return { planned with
            priceErrors := planned.priceErrors ++
              [{ symbol := symbol, asset := some entry.1, error := error }] }
        | .error raised => .fail raised
        | .ok price =>
          if quantity * price < filters.minNotional then
            return planned.reject symbol entry.1
              ("notional is below MIN_NOTIONAL: " ++ svc.general6 (quantity * price) ++ " < " ++
                svc.text.float filters.minNotional)
          else
            return { planned with
              plan := planned.plan ++ [{
                symbol := symbol
                asset := entry.1
                quantity := quantity
                price := price
                notional := quantity * price }] }

/-- The first characters of a text. -/
def firstChars (count : ℕ) (s : String) : String := String.ofList (s.toList.take count)

/-- The client order id of an emergency sale. -/
def stopCid (accountId runNonce symbol : String) : String :=
  "e-" ++ firstChars 6 accountId ++ "-" ++ runNonce ++ "-" ++ firstChars 8 symbol

/-- Whether the logged status of a sale is NEW, PARTIALLY_FILLED or UNKNOWN. -/
def isPendingText (status : Document) : Bool :=
  isText "NEW" status || isText "PARTIALLY_FILLED" status || isText "UNKNOWN" status

/-- A string as a query sends it: a lone surrogate is left out. -/
def sentText : Str → String
  | .text value => value
  | .broken codes => String.ofList ((codes.filter fun code => decide code.isValidChar).map Char.ofNat)

/-- A value as a query sends it; a value of another type, or a float that is not finite, raises. -/
def sentValue : Document → Except Exc String
  | .str value => .ok (sentText value)
  | .int value => .ok (toString value)
  | .float (.finite negative size) => .ok (reprDouble (.finite negative size))
  | .float _ => .error (.other "float is not supported")
  | _ => .error (.other "Invalid variable type: value should be str, int or float")

/-- The parameter of a client order id as a query sends it; that of a list is sent for each of its items. -/
def sentId : Document → Except Exc String
  | .array items => do return String.intercalate "&origClientOrderId=" (← items.mapM sentValue)
  | value => sentValue value

/-- Whether a value can be sent. -/
def sendableValue : Document → Bool
  | .str _ | .int _ | .float (.finite _ _) => true
  | _ => false

/-- Whether a client order id can be sent. -/
def sendable : Document → Bool
  | .array items => items.all sendableValue
  | value => sendableValue value

theorem sentValue_decides (value : Document) : Decides (sentValue value) (sendableValue value) fun _ => True := by
  cases value with
  | float value =>
    cases value with
    | finite negative size => exact ⟨rfl, trivial⟩
    | infinite | nan => exact rfl
  | str | int => exact ⟨rfl, trivial⟩
  | null | bool | array | object => exact rfl

/-- An id is sent exactly when it can be. -/
theorem sentId_decides (value : Document) : Decides (sentId value) (sendable value) fun _ => True := by
  cases value with
  | array items =>
    have all : Decides (items.mapM sentValue) (items.all sendableValue) fun _ => True := by
      induction items with
      | nil => exact .ok trivial
      | cons item rest ih =>
        rw [List.mapM_cons, List.all_cons, ← Bool.and_true (rest.all _)]
        refine (sentValue_decides item).bind fun first _ => ?_
        exact ih.bind fun others _ => .ok trivial
    show Decides _ (items.all sendableValue) _
    rw [sentId, ← Bool.and_true (items.all _)]
    exact all.bind fun _ _ => .ok trivial
  | float value => exact sentValue_decides (.float value)
  | null => exact rfl
  | bool | object => exact rfl
  | str | int => exact ⟨rfl, trivial⟩

/-- A logged value inside a text that is sent. -/
def sentPart (text : Text) : Document → String
  | .str value => sentText value
  | value => strDocument text value

/-- The value of a key, None when it is missing. -/
def memberOf (key : String) (members : List (Str × Document)) : Document := (members.lookup (.text key)).getD .null

/-- The client order id of a logged sale, as it is sent. -/
def priorCid (accountId symbol : String) (prior : List (Str × Document)) : Except Exc String :=
  let cid := memberOf "cid" prior
  let nonce := memberOf "run_nonce" prior
  if truthyDocument cid then sentId cid
  else .ok (stopCid accountId (if truthyDocument nonce then sentPart svc.text nonce else "") symbol)

/-- The row that logs a sale. -/
def sellDetails (accountId runNonce cid : String) (item : PlanItem) (result : OrderResult) : List (Key × Raw) :=
  [detail "idem_key" (rawText (accountId ++ ":" ++ item.symbol ++ ":" ++ svc.text.float item.quantity ++ ":" ++
      runNonce)),
    detail "cid" (rawText cid), detail "run_nonce" (rawText runNonce), detail "account_id" (rawText accountId),
    detail "symbol" (rawText item.symbol), detail "quantity" (rawFloat item.quantity),
    detail "status" (rawText result.status.name),
    detail "exchange_order_id" (result.exchangeOrderId.elim .none rawText)]

/-- Submit a sale and log it. -/
def sellAndLog (accountId runNonce : String) (item : PlanItem) : StopTask StopSale := do
  let cid := stopCid accountId runNonce item.symbol
  let result ← stopAsk (.sell accountId item.symbol item.quantity cid)
  stopAsk (.append sellLogAction (sellDetails svc accountId runNonce cid item result))
  return markSell item (.exchange result.status) result.exchangeOrderId (some cid)

/-- The report of a sale that the exchange, or the log, refused. -/
def failedSale (item : PlanItem) (error : RasatError) : StopSale where
  toPlanItem := item
  status := .failed
  pending := false
  reconcileRequired := false
  error := some error

/-- A new sale of the plan. -/
def sellNew (accountId runNonce : String) (item : PlanItem) : StopTask StopSale := do
  match ← (sellAndLog svc accountId runNonce item).attempt with
  | .ok sale => return sale
  | .error (.rasat error) => return failedSale item error
  | .error raised => .fail raised

/-- The state of an earlier sale; a canonical error of the lookup counts as not found. -/
def queryPrior (accountId symbol cid : String) : StopTask (Option OrderResult) := do
  match ← (stopAsk (.query accountId symbol cid)).attempt with
  | .ok found => return found
  | .error (.rasat _) => return none
  | .error raised => .fail raised

/-- One sale of the plan: a logged sale that was not confirmed is looked up first. -/
def sellPlanned (accountId : String) (dryRun : Bool) (runNonce : String) (sold : List StopSale)
    (item : PlanItem) : StopTask (List StopSale) :=
  if dryRun then return sold ++ [markSell item .dryRun none none]
  else do
    let rows ← stopAsk .entries
    let prior ← Prog.ofExcept (latestSellDetails svc.text accountId item.symbol rows)
    match prior with
    | some (.object details) =>
      if isPendingText (memberOf "status" details) then
        let cid ← Prog.ofExcept (priorCid svc accountId item.symbol details)
        match ← queryPrior accountId item.symbol cid with
        | some found =>
          if found.status.isOpen then
            return sold ++ [markSell item (.exchange found.status) found.exchangeOrderId (some cid)]
          else return sold ++ [← sellNew svc accountId runNonce item]
        | none => return sold ++ [← sellNew svc accountId runNonce item]
      else return sold ++ [← sellNew svc accountId runNonce item]
    | _ => return sold ++ [← sellNew svc accountId runNonce item]

/-- An early end of an account. -/
def stopEarly (accountId code message : String) (plan : Option (List PlanItem)) : StopResult where
  accountId := accountId
  ok := false
  error := some (code, message)
  plan := plan

/-- The line that shows one planned sale. -/
def PlanItem.line (item : PlanItem) : String :=
  "  " ++ item.symbol ++ ": " ++ svc.text.float item.quantity ++ " @ ~" ++ svc.general6 item.price ++
    " ≈ " ++ svc.general4 item.notional ++ " " ++ svc.quoteAsset

/-- Ask the operator to confirm the plan, unless that is not needed: the early end, when there is one. -/
def confirmPlan (accountId : String) (yes dryRun : Bool) (plan : List PlanItem) :
    StopTask (Option StopResult) :=
  if plan = [] ∨ yes ∨ dryRun then return none
  else do
    match ← stopAsk (.confirm accountId (plan.map (PlanItem.line svc))) with
    | none =>
      return some (stopEarly accountId "CONFIRMATION_REQUIRED"
        "confirmation required, use --yes for non-interactive" (some plan))
    | some answer =>
      if lower (strip answer) = "y" ∨ lower (strip answer) = "yes" then return none
      else return some (stopEarly accountId "ABORTED" "user did not confirm" (some plan))

/-- The report of an account that came to its end. -/
def stopReport (accountId : String) (dryRun : Bool) (cancels : Cancels) (planned : Planned)
    (sold : List StopSale) : StopResult :=
  let pending := sold.filter fun sale => sale.pending
  { accountId := accountId
    ok := planned.priceErrors.isEmpty && planned.filterErrors.isEmpty && cancels.errors.isEmpty &&
      sold.all fun sale => sale.status.isDone
    cancelledOrders := cancels.cancelled
    cancelErrors := cancels.errors
    sold := sold
    pending := pending
    reconcileRequired := ¬pending.isEmpty
    priceErrors := planned.priceErrors
    filterErrors := planned.filterErrors
    plan := if dryRun then some planned.plan else none }

/-- The end of `_stop_one`: the sales, once the plan is made. -/
def sellPlan (accountId : String) (yes dryRun : Bool) (cancels : Cancels) (planned : Planned) :
    StopTask StopResult := do
  match ← confirmPlan svc accountId yes dryRun planned.plan with
  | some ended => return ended
  | none =>
    let runNonce ← stopAsk .nonce
    let sold ← planned.plan.foldlM (sellPlanned svc accountId dryRun runNonce) []
    return stopReport accountId dryRun cancels planned sold

/-- `_stop_one`, after the credentials were found. -/
def stopAccount (accountId : String) (yes dryRun : Bool) : StopTask StopResult := do
  let orders ← stopAsk (.openOrders accountId)
  let cancels ← (bySymbol orders).foldlM (cancelSymbol accountId dryRun) {}
  let balances ← stopAsk (.balances accountId)
  let planned ← balances.foldlM (planAsset svc) {}
  sellPlan svc accountId yes dryRun cancels planned

/-- `_stop_one`. -/
def stopOne (accountId : String) (yes dryRun : Bool) : StopTask StopResult := do
  match ← (stopAsk (.credentials accountId)).attempt with
  | .ok () => stopAccount svc accountId yes dryRun
  | .error (.rasat error) =>
    if error.code = .accountNoCredentials then
      return stopEarly accountId ErrorCode.accountNoCredentials.name "no credentials — skipped" none
    else .fail (.rasat error)
  | .error raised => .fail raised

/-- The result of an account whose stop raised an exception. -/
def failedStop (accountId : String) : Exc → StopResult
  | .rasat error => stopEarly accountId error.code.name error.message none
  | raised => stopEarly accountId ErrorCode.internalError.name raised.text none

/-- `_resolve_accounts`. -/
def resolveAccounts (wanted : List String) : StopTask (List String) := do
  let listed ← stopAsk .accounts
  if wanted = [] then return listed
  else
    match wanted.find? fun accountId => accountId ∉ listed with
    | some missing => .fail (.rasat ⟨.accountNotFound, "account not found: " ++ missing⟩)
    | none => return listed.filter fun accountId => accountId ∈ wanted

/-- `run`: every account is stopped, whatever its stop raises. -/
def emergencyStop (wanted : List String) (yes dryRun : Bool) : StopTask (List StopResult) := do
  let accounts ← resolveAccounts wanted
  accounts.foldlM (fun results accountId => do
    let result ← (stopOne svc accountId yes dryRun).rescue fun raised => return failedStop accountId raised
    return results ++ [result]) []

end Rasat

/-! Runs of the emergency stop: processes that share nothing but the log file. -/

namespace Rasat

open Coop

/-- How the outside settles a request: the answer of the exchange or the operator, the time, and how much of a
log row is written before the write fails, if it does. -/
structure StopChoice where
  answer : (request : StopReq) → Except Exc request.Ans
  now : ℤ := 0
  cut : Option ℕ := none

/-- The options of one run. -/
structure StopCall where
  accountIds : List String
  yes : Bool
  dryRun : Bool

/-- Serve a request: the log is a file, everything else is settled by the outside. -/
def stopPerform (lib : LogLibrary) (log : ByteArray) (_task : Nat) :
    (request : StopReq) → StopChoice → Option (Except Exc request.Ans × ByteArray)
  | .entries, _ => some (entries log, log)
  | .append action details, choice =>
    match append lib log "emergency_stop" action details choice.now with
    | .error raised => some (.error raised, log)
    | .ok after =>
      match choice.cut with
      | none => some (.ok (), after)
      | some written => some (.error (.other "could not write"), after.extract 0 (log.size + written))
  | request, choice => some (choice.answer request, log)

/-- The emergency stop as a process over its log file; a crash leaves the file. -/
def stopMachine (svc : StopService) (lib : LogLibrary) :
    Machine StopReq StopReq.Ans Exc ByteArray StopChoice StopCall (List StopResult) where
  perform := stopPerform lib
  program call := emergencyStop svc call.accountIds call.yes call.dryRun
  boot := .done []
  rebooted := id

/-- A state of the process with everything that happened so far. -/
abbrev StopState := Sys StopReq StopReq.Ans Exc ByteArray StopCall (List StopResult)

/-- The record of all runs, newest first. -/
abbrev StopTrace := List (Entry StopReq StopReq.Ans Exc StopCall)

end Rasat
