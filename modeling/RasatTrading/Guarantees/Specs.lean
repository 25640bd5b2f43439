import RasatTrading.Approvals.Rules
import RasatTrading.Guarantees.Triggers

/-! When the order of an accepted alert can be approved at all. -/

namespace Rasat

open Coop AlertTables

/-- What the approval handler checks of the stored fields before it claims the execution. -/
def approvalChecks (row : PendingOrder) (entry : Option ℚ) : Except Exc Unit := do
  validateExecutionInputs row.riskPct entry row.stopLoss row.orderType
  rejectIf (row.stopLoss = none) .invalidRequest
    "stop_loss is required (protection level missing for approved order)"

/-- The approval handler makes these checks between the entry and its claim. -/
theorem approvePendingOrderHandler_eq (execute : ExecuteArgs → Task ExecuteReply) (orderId actor : String) :
    approvePendingOrderHandler execute orderId actor = (do
      let row ← pendingOrder orderId
      if row.status ≠ .awaitingApproval then
        raise .invalidRequest ("order is not awaiting approval: " ++ row.status.name)
      else
        let entry ← pendingEntry orderId row
        sync (approvalChecks row entry)
        let now ← clock
        dbWrite (.claimPending orderId now)
        let executed ← (execute (pendingExecution orderId row entry actor)).attempt
        settlePending orderId executed) := by
  unfold approvePendingOrderHandler
  refine congrArg _ (funext fun row => ?_)
  split
  · rfl
  · refine congrArg _ (funext fun entry => ?_)
    -- The second check either raises or lets the handler go on.
    unfold approvalChecks
    cases validateExecutionInputs row.riskPct entry row.stopLoss row.orderType with
    | error raised => rfl
    | ok checked =>
      by_cases unprotected : row.stopLoss = none
      · rw [if_pos unprotected]
        simp only [rejectIf, unprotected, if_true]
        rfl
      · rw [if_neg unprotected]
        simp only [rejectIf, unprotected, if_false]
        rfl

/-- The entry that the handler checks: the stored one, or the market price of an order without one. -/
def EntryOf (row : PendingOrder) (entry : Option ℚ) : Prop :=
  if Priced row then ∃ price, 0 < price ∧ entry = some price else entry = row.entry

/-- No check of stored fields refuses the approval, nor does the one of the stop against a stored entry. -/
structure Approvable (row : PendingOrder) : Prop where
  awaiting : row.status = .awaitingApproval
  checks : ∀ entry, EntryOf row entry → approvalChecks row entry = .ok ()
  directed : ∀ entry ∈ row.entry, ∀ stop ∈ row.stopLoss, checkStopDirection row.side entry stop = .ok ()

/-- Every order that a trigger of an alert with this specification leaves can be approved. -/
def StaysApprovable (spec : OrderSpec) : Prop :=
  ∀ (tables after : AlertTables) (args : TriggerArgs) (orderId : String) (alert : AlertRow)
    (trigger : TriggeredAlert) (order : AlertOrder),
    tables.alert args.alertId = some alert → alert.definition.orderSpec = some spec →
    tables.maybeTrigger args orderId = .ok (some trigger, after) →
    order ∈ after.pending → order ∉ tables.pending → Approvable order.toPendingOrder

theorem checkSpecNumber_ok {name : String} {value : Option ℚ} {result : Unit} :
    checkSpecNumber name value = .ok result ↔ ∀ number ∈ value, 0 < number := by
  cases value <;> simp [checkSpecNumber]

/-- The inputs of an execution pass when each of them does. -/
theorem validateExecutionInputs_ok {riskPct entry stopLoss : Option ℚ} {orderType : String} :
    validateExecutionInputs riskPct entry stopLoss orderType = .ok () ↔
      (∃ risk, riskPct = some risk ∧ 0 < risk ∧ risk ≤ 1) ∧ (∀ number ∈ entry, 0 < number) ∧
        (∀ number ∈ stopLoss, 0 < number) ∧
        ¬(lower (if orderType = "" then "market" else orderType) = "limit" ∧ entry = none) := by
  unfold validateExecutionInputs
  cases riskPct with
  | none => simp [bind_ok, reject]
  | some risk => simp [bind_ok, checkSpecNumber_ok, and_assoc]

/-- What a validated specification has. -/
structure Accepted (spec : OrderSpecFields) : Prop where
  side : spec.side = "BUY" ∨ spec.side = "SELL"
  orderType : spec.orderType.getD "market" = "market" ∨ spec.orderType.getD "market" = "limit"
  inputs : validateExecutionInputs spec.riskPct spec.entry spec.stopLoss (spec.orderType.getD "") = .ok ()

theorem accepted {spec : OrderSpecFields} (valid : validateOrderSpec spec = .ok ()) : Accepted spec := by
  unfold validateOrderSpec at valid
  simp only [bind_ok, rejectIf_ok] at valid
  obtain ⟨-, -, -, -, -, -, -, side, -, orderType, inputs⟩ := valid
  exact ⟨by tauto, by tauto, inputs⟩

/-- The order that a trigger leaves is made from the specification of the alert. -/
theorem left_by_trigger {tables after : AlertTables} {args : TriggerArgs} {orderId : String} {alert : AlertRow}
    {trigger : TriggeredAlert} {spec : OrderSpec} {order : AlertOrder}
    (found : tables.alert args.alertId = some alert) (specified : alert.definition.orderSpec = some spec)
    (triggered : tables.maybeTrigger args orderId = .ok (some trigger, after))
    (left : order ∈ after.pending) (new : order ∉ tables.pending) :
    order = orderOf args alert.definition orderId spec := by
  rcases maybeTrigger_cases triggered with ⟨nothing, -⟩ | ⟨row, same, -, -, -, rfl⟩
  · cases nothing
  · obtain rfl : alert = row := Option.some.inj (found.symm.trans same)
    -- The transaction adds this one order.
    rw [specified] at left
    rcases List.mem_append.mp left with old | added
    · exact absurd old new
    · simpa using added

/-- The stop lies on the losing side of the entry. -/
def StopBehind (side : String) (entry stop : ℚ) : Prop :=
  (side = "BUY" ∧ stop < entry) ∨ (side = "SELL" ∧ entry < stop)

theorem checkStopDirection_ok {side : String} {entry stop : ℚ} (known : side = "BUY" ∨ side = "SELL") :
    checkStopDirection side entry stop = .ok () ↔ StopBehind side entry stop := by
  unfold checkStopDirection StopBehind
  rcases known with rfl | rfl
  · rw [if_pos (by decide), rejectIf_ok]
    simp
  · rw [if_neg (by decide), if_pos (by decide), rejectIf_ok]
    simp

/-- A specification that is protected, on the right side of its entry if it has one. -/
def Protective (spec : OrderSpecFields) : Prop :=
  ∃ stop, spec.stopLoss = some stop ∧ ∀ entry ∈ spec.entry, StopBehind spec.side entry stop

theorem approvalChecks_ok {row : PendingOrder} {entry : Option ℚ} :
    approvalChecks row entry = .ok () ↔
      validateExecutionInputs row.riskPct entry row.stopLoss row.orderType = .ok () ∧ row.stopLoss ≠ none := by
  have unit {P : Unit → Prop} : (∃ result, P result) ↔ P () := ⟨fun ⟨(), holds⟩ => holds, fun holds => ⟨(), holds⟩⟩
  simp only [approvalChecks, bind_ok, rejectIf_ok, unit, ne_eq]

/-- Some entry comes to the checks. -/
theorem exists_entryOf (row : PendingOrder) : ∃ entry, EntryOf row entry := by
  unfold EntryOf
  split
  · exact ⟨some 1, 1, one_pos, rfl⟩
  · exact ⟨row.entry, rfl⟩

/-- The inputs of an accepted specification pass again as those of its order. -/
theorem inputs_kept (args : TriggerArgs) (definition : AlertDefinition) (orderId : String) (spec : OrderSpec)
    {entry : Option ℚ} (given : EntryOf (orderOf args definition orderId spec).toPendingOrder entry) :
    validateExecutionInputs spec.val.riskPct entry spec.val.stopLoss (spec.val.orderType.getD "market") = .ok () := by
  obtain ⟨-, orderType, inputs⟩ := accepted spec.property
  obtain ⟨risk, entries, stops, limited⟩ := validateExecutionInputs_ok.mp inputs
  refine validateExecutionInputs_ok.mpr ⟨risk, ?_, stops, ?_⟩
  · -- A price that is filled in is positive, and so is a stored entry.
    intro number present
    unfold EntryOf at given
    split at given
    · obtain ⟨price, positive, rfl⟩ := given
      exact Option.some.inj present ▸ positive
    · obtain rfl : entry = spec.val.entry := given
      exact entries number present
  · rintro ⟨limit, missing⟩
    unfold EntryOf at given
    split at given
    · obtain ⟨price, -, rfl⟩ := given
      cases missing
    · -- Without an entry a market order would have been priced, and a limit order was not accepted.
      rename_i unpriced
      obtain rfl : entry = spec.val.entry := given
      rcases orderType with market | limitOrder
      · refine unpriced ⟨?_, missing⟩
        show lower (if spec.val.orderType.getD "market" = "" then "market" else spec.val.orderType.getD "market") = _
        rw [market]
        decide
      · cases kind : spec.val.orderType with
        | none => simp [kind] at limitOrder
        | some text =>
          obtain rfl : text = "limit" := by simpa [kind] using limitOrder
          exact limited ⟨by rw [kind]; decide, missing⟩

/-- The order of a specification can be approved exactly when the specification is protective. -/
theorem orderOf_approvable_iff (args : TriggerArgs) (definition : AlertDefinition) (orderId : String)
    (spec : OrderSpec) : Approvable (orderOf args definition orderId spec).toPendingOrder ↔ Protective spec.val := by
  have side := (accepted spec.property).side
  constructor
  · intro approvable
    obtain ⟨entry, given⟩ := exists_entryOf (orderOf args definition orderId spec).toPendingOrder
    have checked := (approvalChecks_ok.mp (approvable.checks entry given)).2
    obtain ⟨stop, present⟩ := Option.ne_none_iff_exists'.mp checked
    refine ⟨stop, present, ?_⟩
    intro entry stored
    exact (checkStopDirection_ok side).mp (approvable.directed entry stored stop present)
  · rintro ⟨stop, present, behind⟩
    refine ⟨rfl, ?_, ?_⟩
    · intro entry given
      refine approvalChecks_ok.mpr ⟨inputs_kept args definition orderId spec given, ?_⟩
      show spec.val.stopLoss ≠ none
      simp [present]
    · intro entry stored other found
      obtain rfl : stop = other := Option.some.inj (present.symm.trans found)
      exact (checkStopDirection_ok side).mpr (behind entry stored)

/-- An alert that has never triggered, with an order. -/
def armedAlert (spec : OrderSpec) : AlertRow where
  alertId := "alert"
  definition := ⟨.simple ⟨"BTCUSDT", "1h"⟩ anyPrice (some spec), 0, none⟩
  state := .armed
  createdAt := 0
  updatedAt := 0
  cooldownUntil := none

/-- Its trigger. -/
def firstTrigger : TriggerArgs where
  alertId := "alert"
  triggerKey := "BTCUSDT:1h:0"
  payload := .simple ⟨"BTCUSDT", "1h"⟩ 0
  cooldownSeconds := 0
  now := 0

/-- Its order shows that a specification is protective. -/
theorem StaysApprovable.protective {spec : OrderSpec} (stays : StaysApprovable spec) : Protective spec.val := by
  have approvable := stays ⟨[armedAlert spec], [], []⟩ _ firstTrigger "order" (armedAlert spec) _ _ rfl rfl rfl
    List.mem_cons_self (by simp)
  exact (orderOf_approvable_iff firstTrigger _ "order" spec).mp approvable

/-- Every order that an accepted specification leaves can be approved, as far as its stored fields go, exactly when
the specification has a stop, on the losing side of its entry if it has an entry. -/
theorem stays_approvable_iff (spec : OrderSpec) : StaysApprovable spec ↔ Protective spec.val := by
  constructor
  · exact StaysApprovable.protective
  · intro protective tables after args orderId alert trigger order found specified triggered left new
    obtain rfl := left_by_trigger found specified triggered left new
    exact (orderOf_approvable_iff args _ orderId spec).mpr protective

/-- An accepted specification without a stop. -/
def unprotectedSpec : OrderSpec where
  val := { accountId := "a", symbol := "BTCUSDT", side := "BUY", riskPct := some 1 }
  property := by decide +kernel

/-- An accepted specification whose stop is above the entry of a long position. -/
def reversedSpec : OrderSpec where
  val := { accountId := "a", symbol := "BTCUSDT", side := "BUY", entry := some 100, stopLoss := some 110,
           riskPct := some 1 }
  property := by decide +kernel

/-- Their orders can never be approved. -/
theorem accepted_unapprovable : ¬StaysApprovable unprotectedSpec ∧ ¬StaysApprovable reversedSpec := by
  constructor
  · intro stays
    obtain ⟨stop, present, -⟩ := stays.protective
    cases present
  · intro stays
    obtain ⟨stop, present, behind⟩ := stays.protective
    obtain rfl : 110 = stop := Option.some.inj present
    rcases behind 100 rfl with ⟨-, below⟩ | ⟨sell, -⟩
    · norm_num at below
    · exact absurd sell (by decide)

end Rasat
