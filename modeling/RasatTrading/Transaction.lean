import RasatTrading.Database

/-! The write transactions: each runs alone and commits all of its changes or none. -/

namespace Rasat

/-- The changes that a caller asks `set_risk_policy` for, after validation. -/
structure PolicyPatch where
  maxNotional : Option ℚ := none
  maxAggregate : Option ℚ := none
  symbols : List String := []
  clearNotional : Bool := false
  clearAggregate : Bool := false
  clearSymbols : Bool := false
  deriving DecidableEq

/-- A validated request to reserve an override. -/
structure OverrideDraft where
  accountId : String
  idempotencyKey : String
  actor : String
  reason : String
  createdAt : Int
  expiresAt : Int
  deriving DecidableEq

/-- What an account removal came to. -/
inductive Removal
  | missing
  | refused (reasons : List String)
  | removed
  deriving DecidableEq

/-- A write transaction; `audit` says whether the service keeps an audit log. -/
inductive Tx
  | insertOrder (draft : OrderDraft) (simulated : Bool) (audit : Option AuditEntry)
  | updateOrder (orderId : String) (update : OrderUpdate) (audit : Option AuditEntry)
  | appendAudit (entry : AuditEntry)
  | addAccount (tags : List String) (credentials : Bool) (actor : String) (audit : Bool)
  | removeAccount (accountId actor : String) (audit : Bool)
  | enableRealTrading (accountId actor : String) (audit : Bool)
  | disableRealTrading (accountId actor : String) (audit : Bool)
  | setRiskPolicy (accountId : String) (patch : PolicyPatch) (actor : String) (audit : Bool)
  | createOverride (draft : OverrideDraft) (audit : Bool)
  | consumeOverride (accountId : String) (policyVersion : Nat) (consumedByIdem : String)
      (now : Int) (audit : Bool)
  | reconcileOverrides (now : Int) (audit : Bool)
  | insertPending (spec : PendingSpec)
  | fillPendingEntry (orderId : String) (entry : ℚ)
  | approvePending (orderId : String)
  | rejectPending (orderId : String)
  | claimPending (orderId : String) (now : Int)
  | completePending (orderId : String) (executedOrderId : Option String)
  | failPending (orderId : String) (status : PendingStatus) (code : ErrorCode) (message : String)
  deriving DecidableEq

/-- What a transaction returns. -/
@[reducible] def Tx.Ans : Tx → Type
  | .insertOrder _ _ _ => Order
  | .addAccount _ _ _ _ => String
  | .removeAccount _ _ _ => Removal
  | .enableRealTrading _ _ _ => Bool
  | .disableRealTrading _ _ _ => Bool
  | .setRiskPolicy _ _ _ _ => RiskPolicy × Bool
  | .createOverride _ _ => RiskOverride
  | .consumeOverride _ _ _ _ _ => Option RiskOverride
  | .reconcileOverrides _ _ => Nat
  | .insertPending _ => String
  | _ => Unit

namespace Database

/-- Append an audit entry when there is one. -/
def record (db : Database) (entry : Option AuditEntry) : Database :=
  { db with audit := entry.toList ++ db.audit }

/-- Insert an order row; both its id and its account and key must be new. -/
def insertOrder (db : Database) (draft : OrderDraft) (simulated : Bool) (orderId : String)
    (now : Int) : Except Exc (Order × Database) :=
  if db.orders.any fun row => row.orderId = orderId then
    .error (.integrity "UNIQUE constraint failed: orders.order_id")
  else if (loadOrder db.orders draft.accountId draft.idempotencyKey).isSome then
    .error (.integrity "UNIQUE constraint failed: orders.account_id, orders.idempotency_key")
  else
    let row := newOrder draft simulated orderId now
    .ok (row, { db with orders := db.orders ++ [row] })

/-- Update the columns of the order with this id. -/
def updateOrder (db : Database) (orderId : String) (update : OrderUpdate) : Database :=
  { db with orders := updateRows orderId update db.orders }

/-- Set the trading lock of an account. -/
def setLock (db : Database) (accountId : String) (lock : TradingLock) : Database :=
  { db with
    accounts := db.accounts.map fun row =>
      if row.accountId = accountId then { row with tradingLock := lock } else row }

/-- `_removal_reasons`: what keeps an account from being removed. -/
def removalReasons (db : Database) (row : Account) : List String :=
  let openOrders := (db.orders.filter fun order =>
    order.accountId = row.accountId ∧ order.status.isOpen).length
  let active := (db.pending.filter fun pending =>
    pending.accountId = row.accountId ∧ pending.status.isActive).length
  let policies := (db.policies.filter fun policy => policy.accountId = row.accountId).length
  let overrides := (db.overrides.filter fun override => override.accountId = row.accountId).length
  (if row.tradingLock = .real then ["trading_lock=real"] else []) ++
  (if 0 < openOrders then ["open_orders=" ++ toString openOrders] else []) ++
  (if 0 < active then ["active_pending_orders=" ++ toString active] else []) ++
  (if 0 < policies then ["risk_policy=" ++ toString policies] else []) ++
  (if 0 < overrides then ["risk_overrides=" ++ toString overrides] else [])

/-- The override as it is closed for good. -/
def reconciledOverride (override : RiskOverride) (now : Int) (reason : String) : RiskOverride :=
  { override with state := .reconciled, reconciledAt := some now, reconcileReason := some reason }

/-- The audit entry of a closed override. -/
def reconciledEntry (actor reason : String) (override : RiskOverride) : AuditEntry where
  actor := actor
  action := "risk_override_reconciled"
  details := [("override_id", .text override.overrideId), ("account_id", .text override.accountId),
    ("reason", .text reason)]

/-- Close the overrides that meet a condition. -/
def reconcileWhere (db : Database) (closes : RiskOverride → Bool) (now : Int) (reason actor : String)
    (audit : Bool) : Database :=
  let entries := if audit then (db.overrides.filter closes).map (reconciledEntry actor reason) else []
  { db with
    overrides := db.overrides.map fun row =>
      if closes row then reconciledOverride row now reason else row
    audit := entries.reverse ++ db.audit }

/-- The symbols of a patch that has none keep the previous ones. -/
def mergeSymbols (patch : PolicyPatch) (previous : List String) : List String :=
  if patch.clearSymbols then []
  else if patch.symbols ≠ [] then patch.symbols else previous

/-- The policy row of an account, when there is one. -/
def policyRow (db : Database) (accountId : String) : Option RiskPolicy :=
  db.policies.find? fun row => row.accountId = accountId

/-- The policy after a patch and whether it is a change: an absent amount keeps the previous one,
a clear flag removes it. -/
def mergePolicy (db : Database) (accountId : String) (patch : PolicyPatch) : RiskPolicy × Bool :=
  let previous := db.policy accountId
  let notional := if patch.clearNotional then none
    else patch.maxNotional <|> previous.maxNotionalPerOrder
  let aggregate := if patch.clearAggregate then none
    else patch.maxAggregate <|> previous.maxAggregateExposure
  let symbols := mergeSymbols patch previous.allowedSymbols
  -- A first policy counts as a change even when it only holds the defaults.
  let changed := db.policyRow accountId = none ∨ notional ≠ previous.maxNotionalPerOrder ∨
    aggregate ≠ previous.maxAggregateExposure ∨ symbols ≠ previous.allowedSymbols
  ({ accountId := accountId
     maxNotionalPerOrder := notional
     maxAggregateExposure := aggregate
     allowedSymbols := symbols
     policyVersion := if changed then previous.policyVersion + 1 else previous.policyVersion },
    decide changed)

/-- The policy table with this row inserted or in place of the account's old one. -/
def storePolicy (db : Database) (merged : RiskPolicy) : Database :=
  { db with
    policies := match db.policyRow merged.accountId with
      | none => db.policies ++ [merged]
      | some _ => db.policies.map fun row =>
          if row.accountId = merged.accountId then merged else row }

/-- A reserved override of the account under another version than this one. -/
def outdated (accountId : String) (version : Nat) (row : RiskOverride) : Bool :=
  row.accountId = accountId ∧ row.state = .reserved ∧ row.policyVersion ≠ version

/-- `set_risk_policy`: a changed policy closes the reserved overrides of its other versions. -/
def setRiskPolicy (db : Database) (accountId : String) (patch : PolicyPatch) (now : Int)
    (actor : String) (audit : Bool) : Except Exc ((RiskPolicy × Bool) × Database) :=
  if db.account accountId = none then
    reject .accountNotFound ("account not found: " ++ accountId)
  else
    let (merged, changed) := db.mergePolicy accountId patch
    let stored := db.storePolicy merged
    let swept := if changed then
        stored.reconcileWhere (outdated accountId merged.policyVersion) now "policy_version_changed"
          actor audit
      else stored
    let entry : AuditEntry := {
      actor := actor
      action := "set_risk_policy"
      details := [("account_id", .text accountId), ("policy_version", .number merged.policyVersion),
        ("max_notional_per_order", .ofNumber merged.maxNotionalPerOrder),
        ("max_aggregate_exposure", .ofNumber merged.maxAggregateExposure),
        ("allowed_symbols", .texts merged.allowedSymbols),
        ("clear_max_notional", .flag patch.clearNotional),
        ("clear_max_exposure", .flag patch.clearAggregate),
        ("clear_allowed_symbols", .flag patch.clearSymbols), ("changed", .flag changed)] }
    .ok ((merged, changed), swept.record (if audit then some entry else none))

/-- `create_override`: the same account and key give the same override again. -/
def createOverride (db : Database) (draft : OverrideDraft) (overrideId : String) (audit : Bool) :
    Except Exc (RiskOverride × Database) :=
  if db.account draft.accountId = none then
    reject .accountNotFound ("account not found: " ++ draft.accountId)
  else
    match db.overrides.find? fun row => row.accountId = draft.accountId ∧
        row.idempotencyKey = draft.idempotencyKey with
    | some existing => .ok (existing, db)
    | none =>
      if db.overrides.any fun row => row.overrideId = overrideId then
        .error (.integrity "UNIQUE constraint failed: risk_override.override_id")
      else
        let row : RiskOverride := {
          overrideId := overrideId
          accountId := draft.accountId
          policyVersion := (db.policy draft.accountId).policyVersion
          idempotencyKey := draft.idempotencyKey
          actor := draft.actor
          reason := draft.reason
          state := .reserved
          createdAt := draft.createdAt
          expiresAt := draft.expiresAt }
        let entry : AuditEntry := {
          actor := draft.actor
          action := "override_risk_policy"
          details := [("override_id", .text overrideId), ("account_id", .text draft.accountId),
            ("policy_version", .number row.policyVersion), ("scope", .text "next_order"),
            ("reason", .text draft.reason), ("expires_at", .number draft.expiresAt)] }
        let stored : Database := { db with overrides := db.overrides ++ [row] }
        .ok (row, stored.record (if audit then some entry else none))

/-- An override that an order of this account and policy version may consume. -/
def consumable (accountId : String) (policyVersion : Nat) (now : Int) (row : RiskOverride) : Bool :=
  row.accountId = accountId ∧ row.state = .reserved ∧ row.policyVersion = policyVersion ∧
    now < row.expiresAt

/-- The override as the consuming order leaves it. -/
def appliedOverride (override : RiskOverride) (now : Int) (consumedByIdem : String) : RiskOverride :=
  { override with state := .applied, appliedAt := some now, consumedByIdem := some consumedByIdem }

/-- The earliest created of some overrides. -/
def oldestOverride (rows : List RiskOverride) : Option RiskOverride :=
  @List.argmin RiskOverride Int Int.instLinearOrder.toPreorder _ RiskOverride.createdAt rows

/-- `consume_override`: the oldest consumable override is applied. -/
def consumeOverride (db : Database) (accountId : String) (policyVersion : Nat)
    (consumedByIdem : String) (now : Int) (audit : Bool) : Option RiskOverride × Database :=
  match oldestOverride (db.overrides.filter (consumable accountId policyVersion now)) with
  | none => (none, db)
  | some candidate =>
    let entry : AuditEntry := {
      actor := "system"
      action := "risk_override_applied"
      details := [("override_id", .text candidate.overrideId), ("account_id", .text accountId),
        ("consumed_by_idem", .text consumedByIdem),
        ("policy_version", .number candidate.policyVersion)] }
    let stored : Database := { db with
      overrides := db.overrides.map fun row =>
        if row.overrideId = candidate.overrideId ∧ row.state = .reserved then
          appliedOverride row now consumedByIdem
        else row }
    (some (appliedOverride candidate now consumedByIdem),
      stored.record (if audit then some entry else none))

/-- A compare-and-set on the status of a pending order. -/
def casPending (db : Database) (orderId : String) (expected : PendingStatus)
    (refusal : PendingStatus → RasatError) (change : PendingOrder → PendingOrder) :
    Except Exc (Unit × Database) :=
  match db.pendingOrder orderId with
  | none => reject .notFound ("pending order not found: " ++ orderId)
  | some row =>
    if row.status = expected then
      .ok ((), { db with
        pending := db.pending.map fun other => if other.orderId = orderId then change other else other })
    else .error (.rasat (refusal row.status))

/-- `enable_real_trading`: only an account with credentials can trade for real. -/
def enableRealTrading (db : Database) (accountId actor : String) (audit : Bool) :
    Except Exc (Bool × Database) :=
  match db.account accountId with
  | none => reject .accountNotFound ("account not found: " ++ accountId)
  | some row =>
    if ¬row.credentialsConfigured then
      reject .accountNoCredentials
        "cannot enable real trading for a credential-less (public/read-only) account"
    else if row.tradingLock = .real then .ok (true, db)
    else
      let entry : AuditEntry := {
        actor := actor
        action := "enable_real_trading"
        details := [("account_id", .text accountId), ("trading_lock", .text "real")] }
      .ok (false, (db.setLock accountId .real).record (if audit then some entry else none))

/-- `disable_real_trading`. -/
def disableRealTrading (db : Database) (accountId actor : String) (audit : Bool) :
    Except Exc (Bool × Database) :=
  match db.account accountId with
  | none => reject .accountNotFound ("account not found: " ++ accountId)
  | some row =>
    if row.tradingLock ≠ .real then .ok (true, db)
    else
      let entry : AuditEntry := {
        actor := actor
        action := "disable_real_trading"
        details := [("account_id", .text accountId), ("trading_lock", .text "paper")] }
      .ok (false, (db.setLock accountId .paper).record (if audit then some entry else none))

/-- `remove_account`: only an account that nothing depends on. -/
def removeAccount (db : Database) (accountId actor : String) (audit : Bool) : Removal × Database :=
  match db.account accountId with
  | none => (.missing, db)
  | some row =>
    let reasons := db.removalReasons row
    if reasons ≠ [] then
      let entry : AuditEntry := {
        actor := actor
        action := "remove_account_refused"
        details := [("account_id", .text accountId), ("reasons", .texts reasons)] }
      (.refused reasons, db.record (if audit then some entry else none))
    else
      let entry : AuditEntry := {
        actor := actor
        action := "remove_account"
        details := [("account_id", .text accountId)] }
      let stored : Database :=
        { db with accounts := db.accounts.filter fun other => other.accountId ≠ accountId }
      (.removed, stored.record (if audit then some entry else none))

/-- `add_account`: a new account trades on paper. -/
def addAccount (db : Database) (accountId : String) (tags : List String) (credentials : Bool)
    (actor : String) (now : Int) (audit : Bool) : Except Exc (String × Database) :=
  if (db.account accountId).isSome then
    .error (.integrity "UNIQUE constraint failed: accounts.account_id")
  else
    let row : Account := {
      accountId := accountId
      tags := tags
      credentialsConfigured := credentials
      createdAt := now }
    let entry : AuditEntry := {
      actor := actor
      action := "add_account"
      details := [("account_id", .text accountId), ("tags", .texts tags),
        ("credentials_configured", .flag credentials)] }
    let stored : Database := { db with accounts := db.accounts ++ [row] }
    .ok (accountId, stored.record (if audit then some entry else none))

end Database

/-- Run a transaction; its clock reading and fresh id come from outside. -/
def Tx.run (db : Database) (now : Int) (uuid : Nat) : (tx : Tx) → Except Exc (tx.Ans × Database)
  | .insertOrder draft simulated audit =>
    -- The audit entry of an insertion carries the id that the insertion generated.
    (db.insertOrder draft simulated (uuidHex uuid) now).map fun (row, after) =>
      (row, after.record (audit.map fun entry =>
        { entry with details := ("order_id", .text row.orderId) :: entry.details }))
  | .updateOrder orderId update audit => .ok ((), (db.updateOrder orderId update).record audit)
  | .appendAudit entry => .ok ((), db.record (some entry))
  | .addAccount tags credentials actor audit =>
    db.addAccount (uuidHex uuid) tags credentials actor now audit
  | .removeAccount accountId actor audit => .ok (db.removeAccount accountId actor audit)
  | .enableRealTrading accountId actor audit => db.enableRealTrading accountId actor audit
  | .disableRealTrading accountId actor audit => db.disableRealTrading accountId actor audit
  | .setRiskPolicy accountId patch actor audit => db.setRiskPolicy accountId patch now actor audit
  | .createOverride draft audit => db.createOverride draft (uuidHex uuid) audit
  | .consumeOverride accountId policyVersion consumedByIdem at_ audit =>
    .ok (db.consumeOverride accountId policyVersion consumedByIdem at_ audit)
  | .reconcileOverrides at_ audit =>
    let expired (row : RiskOverride) : Bool := row.state = .reserved ∧ row.expiresAt ≤ at_
    .ok ((db.overrides.filter expired).length, db.reconcileWhere expired at_ "expired" "system" audit)
  | .insertPending spec =>
    if (db.pendingOrder (uuidHex uuid)).isSome then
      .error (.integrity "UNIQUE constraint failed: pending_orders.order_id")
    else
      .ok (uuidHex uuid, { db with
        pending := db.pending ++ [{ toPendingSpec := spec, orderId := uuidHex uuid }] })
  | .fillPendingEntry orderId entry =>
    .ok ((), { db with
      pending := db.pending.map fun row =>
        if row.orderId = orderId then { row with entry := some entry } else row })
  | .approvePending orderId =>
    db.casPending orderId .awaitingApproval
      (fun found => ⟨.invalidRequest, "not approvable in current state: " ++ found.name⟩)
      fun row => { row with status := .approved }
  | .rejectPending orderId =>
    db.casPending orderId .awaitingApproval
      (fun found => ⟨.invalidRequest, "not rejectable in current state: " ++ found.name⟩)
      fun row => { row with status := .rejected }
  | .claimPending orderId at_ => do
    -- Both transitions commit together.
    let (_, approved) ← db.casPending orderId .awaitingApproval
      (fun found => ⟨.invalidRequest, "not approvable in current state: " ++ found.name⟩)
      fun row => { row with status := .approved }
    approved.casPending orderId .approved
      (fun _ => ⟨.internalError, "could not claim execution"⟩)
      fun row => { row with
        status := .executing
        executionStartedAt := some at_
        executionErrorCode := none
        executionErrorMessage := none }
  | .completePending orderId executedOrderId =>
    db.casPending orderId .executing
      (fun found => ⟨.invalidRequest,
        "cannot transition to executed from current state: " ++ found.name⟩)
      fun row => { row with status := .executed, executedOrderId := executedOrderId }
  | .failPending orderId status code message =>
    db.casPending orderId .executing
      (fun found => ⟨.invalidRequest, "cannot transition to " ++ status.name
        ++ " (current state: " ++ found.name ++ ")"⟩)
      fun row => { row with
        status := status
        executionErrorCode := some code
        executionErrorMessage := some message }

end Rasat
