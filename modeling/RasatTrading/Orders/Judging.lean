import RasatTrading.Orders.Bulk

/-! Sized and direct orders taken apart at their checks: what each passes to the balance gate and the caps. -/

namespace Rasat

open Coop

variable (svc : Service)

/-- What a sized order knows once its quantity is computed. -/
structure Sizing where
  isReal : Bool
  price : Option ℚ
  balances : Balances
  equity : ℚ
  filters : SymbolFilters
  sized : Sized
  deriving DecidableEq

/-- `_execute_one_sized` up to the computed quantity. -/
def sizeOrder (account : Account) (o : SizedOrder) : Task Sizing := do
  let real ← isReal account
  accuracyPreflight o.symbol o.side o.entry o.stopLoss
  let price ← market (.price o.symbol)
  let balances ← broker (.getBalance account.accountId)
  let equity ← equityFromBalances balances quoteAsset
  let filters ← requireFilters o.symbol
  let sizing ← sync (sizingBalance o.side balances equity o.symbol)
  let sized ← sync (calculatePositionSize svc.text o.symbol sizing o.riskPct o.entry o.stopLoss
    filters o.side svc.defaultFeeRate)
  return ⟨real, price, balances, equity, filters, sized⟩

/-- What a sized order gives to the shared validator. -/
def sizedInput (o : SizedOrder) (s : Sizing) : OrderInput where
  side := o.side
  orderType := .text o.orderType.name
  quantity := s.sized.quantity
  price := limitPrice o.orderType o.entry
  stopPrice := triggerPrice o.orderType o.stopLoss
  filters := some s.filters
  marketPrice := s.price

/-- The notional of a sized order and its validated fields. -/
def judgeSized (o : SizedOrder) (s : Sizing) : Except Exc (ℚ × Validated) := do
  let notional ← timesPrice s.sized.quantity s.price
  let validated ← validateExecutionOrder svc.text (sizedInput o s)
  return (notional, validated)

/-- The balance gate and the cap check, both of the same notional. -/
def allow (accountId : String) (account : Account) (symbol key : String) (side : Side)
    (balances : Balances) (baseAsset : String) (quantity notional : ℚ) : Task Unit := do
  sync (checkAvailableBalance svc.text balances side symbol baseAsset quoteAsset quantity notional
    (notional * svc.defaultFeeRate))
  let policy ← getPolicy accountId
  let exposure ← currentExposure accountId quoteAsset
  enforceCapsOrOverride svc account policy symbol notional (exposure + notional) key

/-- The order that a sized order becomes. -/
def sizedPlacement (account : Account) (o : SizedOrder) (s : Sizing) (judged : ℚ × Validated) :
    Placement where
  account := account
  isReal := s.isReal
  symbol := o.symbol
  side := judged.2.side
  orderType := judged.2.orderType
  quantity := s.sized.quantity
  price := some o.entry
  notional := judged.1
  referencePrice := s.price.getD 0
  idempotencyKey := o.idempotencyKey
  equitySnapshot := s.equity
  actor := o.actor
  stopPrice := triggerPrice o.orderType o.stopLoss

/-- What a direct order knows once its market is read. -/
structure Reading where
  isReal : Bool
  price : Option ℚ
  reference : ℚ
  filters : SymbolFilters
  deriving DecidableEq

/-- `_execute_one_direct` up to the filters of its symbol. -/
def readDirect (account : Account) (o : DirectOrder) : Task Reading := do
  let real ← isReal account
  requireSymbol o.symbol
  let price ← market (.price o.symbol)
  let reference ← sync (checkPriceFresh price o.symbol)
  let filters ← requireFilters o.symbol
  return ⟨real, price, reference, filters⟩

/-- What a direct order gives to the shared validator. -/
def directInput (o : DirectOrder) (r : Reading) : OrderInput where
  side := o.side.name
  orderType := .text o.orderType.name
  quantity := o.quantity
  price := o.price
  stopPrice := o.stopPrice
  filters := some r.filters
  marketPrice := r.price

/-- The notional of a direct order and its validated fields. -/
def judgeDirect (o : DirectOrder) (r : Reading) : Except Exc (ℚ × Validated) := do
  let validated ← validateExecutionOrder svc.text (directInput o r)
  let notional ← requireNotional validated.notional
  return (notional, validated)

/-- The order that a direct order becomes. -/
def directPlacement (account : Account) (o : DirectOrder) (r : Reading) (judged : ℚ × Validated)
    (equity : ℚ) : Placement where
  account := account
  isReal := r.isReal
  symbol := o.symbol
  side := judged.2.side
  orderType := judged.2.orderType
  quantity := judged.2.quantity
  price := judged.2.price
  notional := judged.1
  referencePrice := r.reference
  idempotencyKey := o.idempotencyKey
  equitySnapshot := equity
  actor := o.actor
  stopPrice := judged.2.stopPrice

/-- A stored order of the same key is reported instead of a new one. -/
def orExisting (account : Account) (rest : Task AccountResult) : Option Order → Task AccountResult
  | some existing => handleExisting svc account existing
  | none => rest

/-- A sequence of synchronous computations asks nothing between them. -/
theorem sync_bind {α β : Type} (first : Except Exc α) (next : α → Except Exc β) :
    sync (first >>= next) = (sync first).bind fun value => sync (next value) := by
  cases first <;> rfl

/-- A sized order is sized, judged, allowed and placed. -/
theorem executeOneSized_eq (account : Account) (o : SizedOrder) :
    executeOneSized svc account o =
      (dbRead (.order account.accountId o.idempotencyKey)).bind (orExisting svc account <|
        (sizeOrder svc account o).bind fun s => (sync (judgeSized svc o s)).bind fun judged =>
          (allow svc account.accountId account o.symbol o.idempotencyKey judged.2.side s.balances
            s.filters.baseAsset s.sized.quantity judged.1).bind fun _ =>
              placeAndRecord svc (sizedPlacement account o s judged)) := by
  unfold executeOneSized
  refine congrArg (Prog.bind _) (funext fun found => ?_)
  cases found with
  | some existing => rfl
  | none =>
    unfold sizeOrder allow
    simp only [orExisting, Prog.bind_eq, Prog.pure_eq, Prog.bind_assoc, Prog.done_bind]
    -- The two computations of the judgement come one after the other.
    simp only [judgeSized, sync_bind, Prog.bind_assoc]
    rfl

/-- A direct order is read, judged, allowed and placed. -/
theorem executeOneDirect_eq (o : DirectOrder) :
    executeOneDirect svc o = (getAccount o.accountId).bind fun account =>
      (dbRead (.order o.accountId o.idempotencyKey)).bind (orExisting svc account <|
        (readDirect account o).bind fun r => (sync (judgeDirect svc o r)).bind fun judged =>
          (broker (.getBalance o.accountId)).bind fun balances =>
            (allow svc o.accountId account o.symbol o.idempotencyKey judged.2.side balances
              r.filters.baseAsset judged.2.quantity judged.1).bind fun _ =>
                (equityFromBalances balances quoteAsset).bind fun equity =>
                  placeAndRecord svc (directPlacement account o r judged equity)) := by
  unfold executeOneDirect
  refine congrArg (Prog.bind _) (funext fun account => congrArg (Prog.bind _) (funext fun found => ?_))
  cases found with
  | some existing => rfl
  | none =>
    unfold readDirect allow
    simp only [orExisting, Prog.bind_eq, Prog.pure_eq, Prog.bind_assoc, Prog.done_bind]
    simp only [judgeDirect, sync_bind, Prog.bind_assoc]
    rfl

end Rasat
