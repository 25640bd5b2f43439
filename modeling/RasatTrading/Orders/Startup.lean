import RasatTrading.Orders.Execute

/-! The startup reconciliation of orders that a crash left open. -/

namespace Rasat

open Coop

variable (svc : Service)

/-- The report of the startup reconciliation. -/
structure ReconcileReport where
  scanned : Nat := 0
  reconciled : Nat := 0
  unchanged : Nat := 0
  errors : List (String × RasatError) := []
  deriving DecidableEq

/-- Whether the broker's report is what the row already stores. -/
def sameAsStored (order : Order) (found : OrderResult) : Prop :=
  OrderStatus.exchange found.status = order.status ∧ found.exchangeOrderId = order.exchangeOrderId ∧
    found.executedQty = order.executedQty ∧ found.avgPrice = order.avgPrice

instance (order : Order) (found : OrderResult) : Decidable (sameAsStored order found) :=
  inferInstanceAs (Decidable (_ ∧ _ ∧ _ ∧ _))

/-- One open order of the startup reconciliation. -/
def reconcileOrder (report : ReconcileReport) (order : Order) : Task ReconcileReport := do
  match ← (queryState order.accountId order).attempt with
  | .error (.rasat error) =>
    return { report with errors := report.errors ++ [(order.orderId, error)] }
  | .error raised => .fail raised
  | .ok answer =>
    match answer.filter fun found => found.status ≠ .unknown with
    | none =>
      dbWrite (.updateOrder order.orderId
        (unverifiedUpdate "startup reconcile: order could not be verified on Binance")
        (svc.entry "system" "order_reconciled_unknown"
          [("account_id", .text order.accountId), ("order_id", .text order.orderId),
            ("symbol", .text order.symbol)]))
      return { report with reconciled := report.reconciled + 1 }
    | some found =>
      if sameAsStored order found then return { report with unchanged := report.unchanged + 1 }
      else
        dbWrite (.updateOrder order.orderId found.toUpdate
          (svc.entry "system" "order_reconciled"
            [("account_id", .text order.accountId), ("order_id", .text order.orderId),
              ("symbol", .text order.symbol), ("status", .text found.status.name),
              ("executed_qty", .number found.executedQty), ("avg_price", .number found.avgPrice)]))
        return { report with reconciled := report.reconciled + 1 }

/-- `reconcile_open_orders`. -/
def reconcileOpenOrders : Task ReconcileReport := do
  let accounts ← dbRead .accounts
  let accountIds := (accounts.filter fun account => account.tradingLock = .real).map fun account =>
    account.accountId
  if accountIds = [] then return {}
  else
    let stuck ← dbRead (.stuckOrders accountIds)
    stuck.foldlM (reconcileOrder svc) { scanned := stuck.length }

end Rasat
