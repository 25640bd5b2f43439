import RasatTrading.Approvals.Rules
import RasatTrading.Guarantees.Runs

/-! The restart recovery of an approved order against the live handler on the same stored row. -/

namespace Rasat

open Coop

/-- How the approval handler ends an execution: the write that it makes before it replies. -/
def settleWrite (orderId : String) (result : Option AccountResult) : Tx :=
  match judge result with
  | .executed executedOrderId => .completePending orderId (some executedOrderId)
  | .failed status code message _ => .failPending orderId status code message

/-- How the restart recovery ends an execution whose order row is stored. -/
def recoverWrite (orderId : String) (order : Order) : Tx :=
  match judgeRow order with
  | (status, _, some (code, message)) => .failPending orderId status code message
  | (_, executedOrderId, none) => .completePending orderId executedOrderId

/-- A task waits for this transaction. -/
def Awaits {α : Type} (task : Task α) (tx : Tx) : Prop := ∃ next, task = .ask (.write tx) next

/-- The live handler makes the write that its result calls for. -/
theorem settlePending_awaits (orderId : String) (reply : ExecuteReply) :
    Awaits (settlePending orderId (.ok reply)) (settleWrite orderId reply.results.head?) := by
  simp only [settlePending, settleWrite]
  cases judged : judge reply.results.head? with
  | executed executedOrderId => exact ⟨_, rfl⟩
  | failed status code message raised =>
    dsimp only
    rw [failPendingExecution_eq (judge_failed judged)]
    exact ⟨_, rfl⟩

/-- The restart recovery makes the write that the stored row calls for. -/
theorem recoverPending_awaits (now staleAfter : Int) (report : RecoveryReport) (row : PendingOrder)
    (order : Order) :
    ∃ next, recoverPending now staleAfter report row =
        .ask (.read (.order row.accountId (pendingKey row.orderId))) next ∧
      Awaits (next (.ok (some order))) (recoverWrite row.orderId order) := by
  refine ⟨_, rfl, ?_⟩
  have failing : ∀ status executedOrderId code message,
      judgeRow order = (status, executedOrderId, some (code, message)) →
        status = .rejected ∨ status = .reconcileRequired := by
    intro status executedOrderId code message judged
    unfold judgeRow at judged
    split at judged <;> cases judged <;> first | exact .inl rfl | exact .inr rfl
  unfold recoverWrite
  simp only [Prog.ofExcept, Prog.done_bind]
  generalize judgeRow order = judgement at failing ⊢
  obtain ⟨status, executedOrderId, failure⟩ := judgement
  cases failure with
  | none => exact ⟨_, rfl⟩
  | some failure =>
    dsimp only
    rw [failPendingExecution_eq (failing _ _ _ _ rfl)]
    exact ⟨_, rfl⟩

/-- The state and executed order id that a pending order has after a transaction. -/
def settled (db : Database) (orderId : String) (tx : Tx) : Option (PendingStatus × Option String) :=
  match tx.run db 0 0 with
  | .ok (_, after) => (after.pendingOrder orderId).map fun row => (row.status, row.executedOrderId)
  | .error _ => none

variable {db : Database} {orderId : String} {pending : PendingOrder}

/-- A change that keeps ids is seen when the changed pending order is looked up. -/
theorem pendingOrder_change {change : PendingOrder → PendingOrder}
    (kept : ∀ row, (change row).orderId = row.orderId) (found : db.pendingOrder orderId = some pending) :
    ({ db with pending := db.pending.map fun row =>
      if row.orderId = orderId then change row else row } : Database).pendingOrder orderId =
        some (change pending) := by
  rw [pendingOrder_map kept, found, Option.map_some, if_pos (pendingOrder_id found)]

/-- Completing an executing order stores the id that it is given. -/
theorem settled_complete (found : db.pendingOrder orderId = some pending)
    (executing : pending.status = .executing) (executedOrderId : Option String) :
    settled db orderId (.completePending orderId executedOrderId) = some (.executed, executedOrderId) := by
  simp only [settled, Tx.run, Database.casPending, found, executing, if_true]
  rw [pendingOrder_change (fun _ => by rfl) found]
  rfl

/-- Failing an executing order stores the state that it is given and no id. -/
theorem settled_fail (found : db.pendingOrder orderId = some pending)
    (executing : pending.status = .executing) (status : PendingStatus) (code : ErrorCode) (message : String) :
    settled db orderId (.failPending orderId status code message) =
      some (status, pending.executedOrderId) := by
  simp only [settled, Tx.run, Database.casPending, found, executing, if_true]
  rw [pendingOrder_change (fun _ => by rfl) found]
  rfl

/-- A text counts as absent exactly when it is missing or empty. -/
theorem nonEmpty_eq_some {text : Option String} {value : String} :
    nonEmpty text = some value ↔ text = some value ∧ value ≠ "" := by
  simp [nonEmpty, Option.filter_eq_some_iff]

/-- The row names the exchange's id of its fill, when it is a filled or simulated one. -/
def Identified (order : Order) : Prop :=
  order.status = .paper ∨ order.status = .exchange .filled →
    ∃ id, order.exchangeOrderId = some id ∧ id ≠ ""

/-- The id that the live handler gives to an executed order: the exchange's or that of the row. -/
def executedId (order : Order) : Option String :=
  nonEmpty order.exchangeOrderId <|> nonEmpty (some order.orderId)

/-- The live handler stores a filled order as executed under its id, and reconciles one without. -/
theorem judge_filled {order : Order} (filled : order.status = .paper ∨ order.status = .exchange .filled) :
    (∀ id, executedId order = some id → judge (some (orderToResult order)) = .executed id) ∧
      (executedId order = none → ∃ code message raised,
        judge (some (orderToResult order)) = .failed .reconcileRequired code message raised) := by
  unfold executedId
  rcases filled with paper | filled
  · simp only [judge, orderToResult, paper, Option.bind_some, Option.map_some]
    exact ⟨fun id named => by simp only [named], fun nameless => ⟨_, _, _, by simp only [nameless]; rfl⟩⟩
  · simp only [judge, orderToResult, filled, Option.bind_some, Option.map_some]
    exact ⟨fun id named => by simp only [named], fun nameless => ⟨_, _, _, by simp only [nameless]; rfl⟩⟩

/-- The restart recovery names it after the exchange only. -/
theorem judgeRow_filled {order : Order} (filled : order.status = .paper ∨ order.status = .exchange .filled) :
    judgeRow order = (.executed, order.exchangeOrderId, none) := by
  rcases filled with paper | filled
  · simp only [judgeRow, paper]
  · simp only [judgeRow, filled]

/-- On a row without a fill both paths store the same state and leave the executed order id. -/
theorem settled_unfilled (found : db.pendingOrder orderId = some pending)
    (executing : pending.status = .executing) {order : Order}
    (unfilled : ¬(order.status = .paper ∨ order.status = .exchange .filled)) :
    ∃ status, status ≠ .executed ∧
      settled db orderId (recoverWrite orderId order) = some (status, pending.executedOrderId) ∧
      settled db orderId (settleWrite orderId (some (orderToResult order))) =
        some (status, pending.executedOrderId) := by
  unfold recoverWrite settleWrite
  cases status : order.status with
  | paper => exact absurd (.inl status) unfilled
  | exchange inner =>
    cases inner with
    | filled => exact absurd (.inr status) unfilled
    | rejected | canceled | expired =>
      refine ⟨.rejected, by decide, ?_, ?_⟩
      · simp only [judgeRow, status]
        exact settled_fail found executing _ _ _
      · simp only [judge, orderToResult, status]
        exact settled_fail found executing _ _ _
    | new | partiallyFilled | unknown =>
      refine ⟨.reconcileRequired, by decide, ?_, ?_⟩
      · simp only [judgeRow, status]
        exact settled_fail found executing _ _ _
      · simp only [judge, orderToResult, status]
        exact settled_fail found executing _ _ _

/-- The restart recovery stores the state and executed order id of the live handler on the same row,
and never an executed order without an id, exactly when a filled row names the exchange's id. -/
theorem recovery_agrees_iff (found : db.pendingOrder orderId = some pending)
    (executing : pending.status = .executing) (order : Order) :
    (settled db orderId (recoverWrite orderId order) =
        settled db orderId (settleWrite orderId (some (orderToResult order))) ∧
      ∀ stored, (settled db orderId (recoverWrite orderId order) = some stored ∨
          settled db orderId (settleWrite orderId (some (orderToResult order))) = some stored) →
        stored.1 = .executed → stored.2 ≠ none) ↔ Identified order := by
  by_cases filled : order.status = .paper ∨ order.status = .exchange .filled
  · have restart : settled db orderId (recoverWrite orderId order) =
        some (.executed, order.exchangeOrderId) := by
      simp only [recoverWrite, judgeRow_filled filled]
      exact settled_complete found executing _
    rw [restart]
    constructor
    · rintro ⟨same, named⟩ -
      -- The restart stores the exchange's id, so there is one; an empty one is not what the handler stores.
      obtain ⟨id, known⟩ : ∃ id, order.exchangeOrderId = some id :=
        Option.ne_none_iff_exists'.mp (named _ (.inl rfl) rfl)
      refine ⟨id, known, ?_⟩
      rintro rfl
      unfold settleWrite at same
      cases own : executedId order with
      | none =>
        obtain ⟨code, message, raised, judged⟩ := (judge_filled filled).2 own
        rw [judged, settled_fail found executing] at same
        cases same
      | some id =>
        rw [(judge_filled filled).1 id own, settled_complete found executing, known] at same
        cases same
        unfold executedId at own
        rw [known] at own
        have blank : nonEmpty (some order.orderId) = some "" := own
        exact (nonEmpty_eq_some.mp blank).2 rfl
    · intro identified
      obtain ⟨id, known, solid⟩ := identified filled
      have own : executedId order = some id := by
        unfold executedId
        rw [nonEmpty_eq_some.mpr ⟨known, solid⟩]
        rfl
      have live : settled db orderId (settleWrite orderId (some (orderToResult order))) =
          some (.executed, some id) := by
        simp only [settleWrite, (judge_filled filled).1 id own]
        exact settled_complete found executing _
      rw [live, known]
      refine ⟨rfl, fun stored same _ => ?_⟩
      rcases same with same | same <;> (cases same; exact Option.some_ne_none id)
  · obtain ⟨status, unexecuted, restart, live⟩ := settled_unfilled found executing filled
    rw [restart, live]
    refine ⟨fun _ fills => absurd fills filled, fun _ => ⟨rfl, fun stored same executed => ?_⟩⟩
    rcases same with same | same <;> (cases same; exact absurd executed unexecuted)

/-- A pending order whose execution was claimed. -/
def claimedOrder : PendingOrder where
  accountId := "main"
  symbol := "BTCUSDT"
  side := "BUY"
  entry := some 10
  stopLoss := some 8
  riskPct := some 1
  orderId := "p"
  status := .executing

/-- The stored order of its execution, as a paper account simulates it. -/
def simulatedFill : Order := newOrder {
    accountId := "main"
    idempotencyKey := "pending:p"
    symbol := "BTCUSDT"
    side := .buy
    orderType := .market
    quantity := 1
    price := some 10
    clientOrderId := "pendingp-13fbd79c3d3"
    notional := 10
    referencePrice := 10
    equitySnapshot := 100 } true "o" 0

/-- Tables with the claimed order and its simulated fill. -/
def claimedTables : Database where
  orders := [simulatedFill]
  pending := [claimedOrder]

/-- The live handler names the simulated fill after its row, the restart leaves it without a name. -/
theorem simulated_fill_unnamed :
    loadOrder claimedTables.orders "main" (pendingKey "p") = some simulatedFill ∧
      settled claimedTables "p" (settleWrite "p" (some (orderToResult simulatedFill))) =
        some (.executed, some "o") ∧
      settled claimedTables "p" (recoverWrite "p" simulatedFill) = some (.executed, none) := by
  decide +kernel

/-- A fill that the exchange names is recovered as the live handler stores it. -/
theorem named_fill_recovered :
    (settled claimedTables "p" (recoverWrite "p" { simulatedFill with
          status := .exchange .filled, exchangeOrderId := some "7" }) =
        settled claimedTables "p" (settleWrite "p" (some (orderToResult { simulatedFill with
          status := .exchange .filled, exchangeOrderId := some "7" }))) ∧
      ∀ stored, (settled claimedTables "p" (recoverWrite "p" { simulatedFill with
            status := .exchange .filled, exchangeOrderId := some "7" }) = some stored ∨
          settled claimedTables "p" (settleWrite "p" (some (orderToResult { simulatedFill with
            status := .exchange .filled, exchangeOrderId := some "7" }))) = some stored) →
        stored.1 = .executed → stored.2 ≠ none) := by
  have found : claimedTables.pendingOrder "p" = some claimedOrder := by decide +kernel
  refine (recovery_agrees_iff found rfl _).mpr fun _ => ⟨"7", rfl, by decide⟩

end Rasat
