import RasatTrading.Orders.Execute

/-! The exposure report over all accounts. -/

namespace Rasat

open Coop Keyed

/-- `_exposure_by_symbol`: open orders and held assets of one account under their symbols. -/
def exposureBySymbol (accountId : String) : Task (Tally String ℚ) := do
  let bySymbol ← dbRead (.openNotionalBySymbol accountId)
  let balances ← broker (.getBalance accountId)
  balances.foldlM (fun bySymbol (asset, amount) =>
    if asset = quoteAsset ∨ amount ≤ 0 then return bySymbol
    else do
      match ← market (.price (asset ++ quoteAsset)) with
      | none => raise .staleData ("could not obtain exposure price: " ++ asset ++ quoteAsset)
      | some price => return Tally.add bySymbol (asset ++ quoteAsset) (amount * price)) bySymbol

/-- What the loop of `get_total_exposure` gathers. -/
structure Exposures where
  bySymbol : Tally String ℚ := .empty
  perAccount : Tally String ℚ := .empty
  errors : List (String × RasatError) := []

/-- The reply of `get_total_exposure`. -/
structure TotalExposure where
  total : ℚ
  bySymbol : List (String × ℚ)
  perAccount : Tally String ℚ
  accountCount : ℕ
  complete : Bool
  errors : List (String × RasatError)

/-- The exposure of one more account. -/
def Exposures.addAccount (gathered : Exposures) (accountId : String) (per : Tally String ℚ) :
    Exposures :=
  { gathered with
    perAccount := gathered.perAccount.upsert (accountId, per.total)
    bySymbol := gathered.bySymbol.addAll per.rows }

/-- An account whose exposure could not be calculated. -/
def Exposures.addError (gathered : Exposures) (accountId : String) (error : RasatError) : Exposures :=
  { gathered with errors := gathered.errors ++ [(accountId, error)] }

/-- How an exception of one account is reported. -/
def exposureError : Exc → RasatError
  | .rasat error => error
  | _ => ⟨.internalError, "could not calculate account exposure"⟩

/-- One turn of the loop of `get_total_exposure`. -/
def gatherExposure (gathered : Exposures) (account : Account) : Task Exposures := do
  match ← (exposureBySymbol account.accountId).attempt with
  | .ok per => return gathered.addAccount account.accountId per
  | .error raised => return gathered.addError account.accountId (exposureError raised)

/-- `get_total_exposure`. -/
def getTotalExposure : Task TotalExposure := do
  let accounts ← dbRead .accounts
  let gathered ← accounts.foldlM gatherExposure {}
  return {
    total := gathered.bySymbol.total
    bySymbol := gathered.bySymbol.rows.insertionSort fun left right => right.2 ≤ left.2
    perAccount := gathered.perAccount
    accountCount := accounts.length
    complete := gathered.errors = []
    errors := gathered.errors }

end Rasat

/-! The scan for held assets that no open SELL protects. -/

namespace Rasat

/-- An account row with the label that the scan shows. -/
structure LabeledAccount extends Account where
  label : String

/-- The balance of an asset. -/
structure AssetBalance where
  free : Option ℚ := none
  locked : Option ℚ := none

/-- The whole amount of an asset; an absent part counts as zero. -/
def AssetBalance.quantity (balance : AssetBalance) : ℚ := balance.free.getD 0 + balance.locked.getD 0

/-- What the scan reads of an open order on the exchange. -/
structure OpenOrder where
  symbol : Option String
  side : String := ""

/-- What the scan meets: the accounts, and the answers of the exchange and of the market. -/
structure Outside where
  accounts : Except Exc (List LabeledAccount)
  balanceDetail : String → Except Exc (List (String × AssetBalance))
  openOrders : String → Except Exc (List OpenOrder)
  price : String → Except Exc (Option ℚ)

/-- A position without an open SELL. -/
structure UnprotectedPosition where
  accountId : String
  accountLabel : String
  symbol : String
  quantity : ℚ
  valueUsd : ℚ
  deriving DecidableEq

/-- What the scan has found so far. -/
structure PositionScan where
  unprotected : List UnprotectedPosition := []
  errors : List (String × RasatError) := []

/-- The reply of `find_unprotected_positions`. -/
structure UnprotectedReply where
  unprotected : List UnprotectedPosition
  count : ℕ
  accountCount : ℕ
  complete : Bool
  errors : List (String × RasatError)
  deriving DecidableEq

/-- `MIN_UNPROTECTED_VALUE_USD`. -/
def minUnprotectedValueUsd : ℚ := 10

/-- A real account with credentials. -/
def LabeledAccount.isScanned (account : LabeledAccount) : Bool :=
  account.tradingLock = .real ∧ account.credentialsConfigured

/-- The symbols with an open SELL. -/
def sellSymbols (orders : List OpenOrder) : List (Option String) :=
  (orders.filter fun order => upper order.side = "SELL").map OpenOrder.symbol

/-- The market of an asset. -/
def usdtSymbol (asset : String) : String := asset ++ "USDT"

/-- How an exception of one account is reported. -/
def scanError : Exc → RasatError
  | .rasat error => error
  | _ => ⟨.internalError, "could not scan account"⟩

variable (outside : Outside)

/-- One asset of an account. -/
def scanAsset (account : LabeledAccount) (orders : List OpenOrder) (scan : PositionScan)
    (entry : String × AssetBalance) : Except Exc PositionScan :=
  if entry.1 = "USDT" then .ok scan
  else if entry.2.quantity ≤ 0 then .ok scan
  else do
    match ← outside.price (usdtSymbol entry.1) with
    -- Without a price the asset is passed over.
    | none => .ok scan
    | some price =>
      if entry.2.quantity * price < minUnprotectedValueUsd then .ok scan
      else if some (usdtSymbol entry.1) ∈ sellSymbols orders then .ok scan
      else
        .ok { scan with
          unprotected := scan.unprotected ++ [{
            accountId := account.accountId
            accountLabel := account.label
            symbol := usdtSymbol entry.1
            quantity := entry.2.quantity
            valueUsd := entry.2.quantity * price }] }

/-- The balances and the open orders of an account. -/
def accountView (accountId : String) :
    Except Exc (List (String × AssetBalance) × List OpenOrder) := do
  let balances ← outside.balanceDetail accountId
  let orders ← outside.openOrders accountId
  return (balances, orders)

/-- One account; a failed request is reported. -/
def scanAccount (scan : PositionScan) (account : LabeledAccount) : Except Exc PositionScan :=
  match accountView outside account.accountId with
  | .error raised =>
    .ok { scan with errors := scan.errors ++ [(account.accountId, scanError raised)] }
  | .ok (balances, orders) => balances.foldlM (scanAsset outside account orders) scan

/-- `find_unprotected_positions`. -/
def findUnprotectedPositions : Except Exc UnprotectedReply := do
  let listed ← outside.accounts
  let accounts := listed.filter LabeledAccount.isScanned
  -- Nothing but the list of accounts and a price that raises ends the scan.
  let scan ← accounts.foldlM (scanAccount outside) {}
  return {
    unprotected := scan.unprotected
    count := scan.unprotected.length
    accountCount := accounts.length
    complete := scan.errors = []
    errors := scan.errors }

end Rasat
