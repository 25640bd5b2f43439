import RasatTrading.Custody.Tables
import RasatTrading.Footprints

/-! What one transaction can do to the pending orders, seen through lookups by id. -/

namespace Rasat

variable {db after : Database} {tx : Tx} {answer : tx.Ans} {now : Int} {uuid : Nat}
  {orderId : String} {row changed : PendingOrder}

/-- The compare-and-set that a transaction makes: its pending order, the status before and after. -/
def Tx.cas : Tx → Option (String × PendingStatus × PendingStatus)
  | .approvePending orderId => some (orderId, .awaitingApproval, .approved)
  | .rejectPending orderId => some (orderId, .awaitingApproval, .rejected)
  | .claimPending orderId _ => some (orderId, .awaitingApproval, .executing)
  | .completePending orderId _ => some (orderId, .executing, .executed)
  | .failPending orderId status _ _ => some (orderId, .executing, status)
  | _ => none

/-- A compare-and-set is the transition of its transaction, and keeps all but the state of a row. -/
theorem Tx.cas_transition {expected status : PendingStatus}
    (moves : tx.cas = some (orderId, expected, status)) :
    ∃ change : PendingOrder → PendingOrder, tx.transition = some (orderId, expected, change) ∧
      ∀ row, (change row).status = status ∧ (change row).toPendingSpec = row.toPendingSpec := by
  cases tx <;> cases moves <;> exact ⟨_, rfl, fun _ => ⟨rfl, rfl⟩⟩

/-- What a transaction does to one pending order. -/
inductive RowChange (tx : Tx) (orderId : String) (row after : PendingOrder) : Prop
  | same (kept : after = row)
  | filled (entry : ℚ) (fills : tx = .fillPendingEntry orderId entry)
      (stored : after = { row with entry := some entry })
  | moved (moves : tx.cas = some (orderId, row.status, after.status))
      (spec : after.toPendingSpec = row.toPendingSpec)

/-- The row that a lookup finds has the id that was looked up. -/
theorem pendingOrder_id (found : db.pendingOrder orderId = some row) : row.orderId = orderId := by
  simpa using List.find?_some found

/-- A change of the row under one id that keeps the id, seen by any lookup. -/
theorem pendingOrder_map {named : String} {change : PendingOrder → PendingOrder}
    (kept : ∀ row, (change row).orderId = row.orderId) :
    ({ db with pending := db.pending.map fun row =>
      if row.orderId = named then change row else row } : Database).pendingOrder orderId =
        (db.pendingOrder orderId).map fun row => if row.orderId = named then change row else row := by
  unfold Database.pendingOrder
  dsimp only
  -- The search passes the same rows, because no id changes.
  rw [List.find?_map]
  have same : ((fun row : PendingOrder => decide (row.orderId = orderId)) ∘ fun row =>
      if row.orderId = named then change row else row) =
        fun row => decide (row.orderId = orderId) := by
    funext row
    by_cases named : row.orderId = named <;> simp [named, kept]
  rw [same]

/-- How a transaction changes the lookups of pending orders. -/
structure PendingEffect (db after : Database) (tx : Tx) : Prop where
  /-- No pending order is ever deleted. -/
  kept : ∀ orderId row, db.pendingOrder orderId = some row →
    ∃ changed, after.pendingOrder orderId = some changed ∧ RowChange tx orderId row changed
  /-- A new one waits for approval. -/
  joined : ∀ orderId row, db.pendingOrder orderId = none → after.pendingOrder orderId = some row →
    row.status = .awaitingApproval ∧ ∃ spec, tx = .insertPending spec
  /-- A compare-and-set that commits found the status that it expected. -/
  moved : ∀ orderId expected status, tx.cas = some (orderId, expected, status) →
    ∃ row changed, db.pendingOrder orderId = some row ∧ row.status = expected ∧
      after.pendingOrder orderId = some changed ∧ changed.status = status

/-- A transaction that leaves the table alone has no effect on it. -/
theorem pendingEffect_same (same : after.pending = db.pending) (free : tx.cas = none) :
    PendingEffect db after tx := by
  have lookup (orderId : String) : after.pendingOrder orderId = db.pendingOrder orderId := by
    unfold Database.pendingOrder
    rw [same]
  refine ⟨fun orderId row found => ⟨row, by rw [lookup, found], .same rfl⟩, ?_, ?_⟩
  · intro orderId row missing found
    rw [lookup, missing] at found
    cases found
  · intro orderId expected status moves
    rw [free] at moves
    cases moves

/-- A compare-and-set changes its own row only. -/
theorem pendingEffect_cas {expected status : PendingStatus} (shape : tx.cas = some (orderId, expected, status))
    (ran : tx.run db now uuid = .ok (answer, after)) : PendingEffect db after tx := by
  obtain ⟨change, moves, changes⟩ := Tx.cas_transition shape
  obtain ⟨stored, located, waiting, rfl⟩ := Tx.run_transition moves ran
  have ids := Tx.transition_orderId moves
  refine ⟨fun other row found => ?_, fun other row missing found => ?_, ?_⟩
  · rw [pendingOrder_map ids, found, Option.map_some]
    refine ⟨_, rfl, ?_⟩
    by_cases own : row.orderId = orderId
    · rw [if_pos own]
      -- The row of that id is the one that the transaction checked.
      have named := pendingOrder_id found
      rw [own] at named
      subst named
      rw [located] at found
      cases found
      exact .moved (by rw [shape, waiting, (changes stored).1]) (changes stored).2
    · rw [if_neg own]
      exact .same rfl
  · rw [pendingOrder_map ids, missing] at found
    cases found
  · intro other expected' status' moves'
    rw [shape] at moves'
    cases moves'
    refine ⟨stored, change stored, located, waiting, ?_, (changes stored).1⟩
    rw [pendingOrder_map ids, located, Option.map_some, if_pos (pendingOrder_id located)]

/-- Filling an entry changes the entry of its own row only. -/
theorem pendingEffect_fill {entry : ℚ} {answer : Unit}
    (ran : (Tx.fillPendingEntry orderId entry).run db now uuid = .ok (answer, after)) :
    PendingEffect db after (.fillPendingEntry orderId entry) := by
  cases ran
  refine ⟨fun other row found => ?_, fun other row missing found => ?_, fun _ _ _ moves => nomatch moves⟩
  · rw [pendingOrder_map fun _ => by rfl, found, Option.map_some]
    refine ⟨_, rfl, ?_⟩
    by_cases own : row.orderId = orderId
    · rw [if_pos own]
      have named := pendingOrder_id found
      rw [own] at named
      subst named
      exact .filled entry rfl rfl
    · rw [if_neg own]
      exact .same rfl
  · rw [pendingOrder_map fun _ => by rfl, missing] at found
    cases found

/-- The row under the id has the entry that was stored. -/
theorem Tx.run_fill {entry : ℚ} {answer : Unit}
    (ran : (Tx.fillPendingEntry orderId entry).run db now uuid = .ok (answer, after))
    (found : db.pendingOrder orderId = some row) :
    after.pendingOrder orderId = some { row with entry := some entry } := by
  cases ran
  rw [pendingOrder_map fun _ => by rfl, found, Option.map_some, if_pos (pendingOrder_id found)]

/-- A new pending order joins the others and waits. -/
theorem pendingEffect_insert {spec : PendingSpec} {answer : String}
    (ran : (Tx.insertPending spec).run db now uuid = .ok (answer, after)) :
    PendingEffect db after (.insertPending spec) := by
  obtain ⟨fresh, joined, rfl, rfl⟩ := Tx.run_insertPending ran
  refine ⟨fun other row found => ⟨row, ?_, .same rfl⟩, fun other row missing found => ?_,
    fun _ _ _ moves => nomatch moves⟩
  · unfold Database.pendingOrder at found ⊢
    dsimp only
    rw [List.find?_append, found]
    rfl
  · unfold Database.pendingOrder at missing found
    dsimp only at found
    rw [List.find?_append, missing, Option.none_or] at found
    have last := List.mem_of_find?_eq_some found
    obtain rfl := List.mem_singleton.mp last
    exact ⟨rfl, spec, rfl⟩

/-- The effect of every transaction on the pending orders. -/
theorem Tx.run_pending (ran : tx.run db now uuid = .ok (answer, after)) : PendingEffect db after tx := by
  -- Seven transactions write to pending orders, each under a condition; the others leave them alone.
  cases tx with
  | insertPending spec => exact pendingEffect_insert ran
  | fillPendingEntry orderId entry => exact pendingEffect_fill ran
  | approvePending orderId => exact pendingEffect_cas rfl ran
  | rejectPending orderId => exact pendingEffect_cas rfl ran
  | claimPending orderId at_ => exact pendingEffect_cas rfl ran
  | completePending orderId executed => exact pendingEffect_cas rfl ran
  | failPending orderId status code text => exact pendingEffect_cas rfl ran
  | _ => exact pendingEffect_same ((Tx.run_frame ran).pending rfl) rfl

end Rasat

/-! What a task has heard before it touches a pending order or calls the order service. -/

namespace Rasat

open Coop Prog

variable {svc : Service}

/-- A market order without an entry takes the daemon's price. -/
def Priced (row : PendingOrder) : Prop :=
  lower (if row.orderType = "" then "market" else row.orderType) = "market" ∧ row.entry = none

instance (row : PendingOrder) : Decidable (Priced row) := inferInstanceAs (Decidable (_ ∧ _))

/-- The task read this row of a pending order. -/
def ReadPending (hist : History) (orderId : String) (row : PendingOrder) : Prop :=
  ⟨.read (.pendingOrder orderId), .ok (some row)⟩ ∈ hist

/-- The task read this row and goes on with this entry: the row's own, or the price it stored. -/
structure Approving (hist : History) (orderId : String) (row : PendingOrder) (entry : Option ℚ) :
    Prop where
  read : ReadPending hist orderId row
  entry : (entry = row.entry ∧ ¬Priced row) ∨ (Priced row ∧ ∃ price, entry = some price ∧
    ⟨.write (.fillPendingEntry orderId price), .ok ()⟩ ∈ hist)

/-- The task obtained the executing claim of a pending order. -/
def Claimed (hist : History) (orderId : String) : Prop :=
  ∃ now, ⟨.write (.claimPending orderId now), .ok ()⟩ ∈ hist

/-- The task passes these arguments to the order service, its own or those of an approved order. -/
def Submits (record : TaskRecord) (args : ExecuteArgs) : Prop :=
  record.call = some (.executeOnAccounts args) ∨ ∃ orderId actor row entry,
    record.call = some (.approvePendingOrder orderId actor) ∧
      args = pendingExecution orderId row entry actor ∧ Approving record.hist orderId row entry ∧
      Claimed record.hist orderId

/-- A status that counts as a fill of a pending order. -/
def Filled (status : OrderStatus) : Prop := status = .paper ∨ status = .exchange .filled

/-- The task heard of a fill: in the result of its execution, or, at the startup, in the stored row. -/
def HeardFill (record : TaskRecord) (orderId : String) : Prop :=
  (∃ actor args reply result, record.call = some (.approvePendingOrder orderId actor) ∧
    ⟨.orderService args, .ok reply⟩ ∈ record.hist ∧ reply.results.head? = some result ∧
    Filled result.status) ∨
  (record.call = none ∧ ∃ accountId order,
    ⟨.read (.order accountId (pendingKey orderId)), .ok (some order)⟩ ∈ record.hist ∧
    Filled order.status)

/-- A task that ends an execution claimed it, or is the startup. -/
def Settling (record : TaskRecord) (orderId : String) : Prop :=
  (∃ actor, record.call = some (.approvePendingOrder orderId actor) ∧ Claimed record.hist orderId) ∨
    record.call = none

/-- What must have been heard before a request about pending orders. -/
def approvalRule (record : TaskRecord) : Req → Prop
  | .write (.fillPendingEntry orderId _) => ∃ row, ReadPending record.hist orderId row ∧ Priced row
  | .write (.claimPending orderId _) => ∃ actor row entry,
    record.call = some (.approvePendingOrder orderId actor) ∧ Approving record.hist orderId row entry
  | .write (.completePending orderId _) => Settling record orderId ∧ HeardFill record orderId
  | .write (.failPending orderId status _ _) =>
    Settling record orderId ∧ (status = .rejected ∨ status = .reconcileRequired)
  | .orderService args => Submits record args
  | _ => True

/-- The write that ends an execution, whatever it is answered. -/
def Ends (orderId : String) (event : Event Req Req.Ans Exc) : Prop :=
  ∃ tx status, event.request = .write tx ∧ tx.cas = some (orderId, .executing, status)

/-- A finished task has ended every execution that it claimed. -/
def approvalRest (record : TaskRecord) : Prop :=
  ∀ orderId, Claimed record.hist orderId → ∃ event ∈ record.hist, Ends orderId event

/-- The status of a failed execution follows its error. -/
theorem failureOf_kind (raised : Exc) :
    (failureOf raised).1 = .rejected ∨ (failureOf raised).1 = .reconcileRequired := by
  cases raised with
  | rasat error =>
    simp only [failureOf, failureStatus]
    split
    · exact .inr rfl
    · exact .inl rfl
  | _ => exact .inr rfl

/-- A failed execution is stored as rejected or as one to reconcile. -/
theorem judge_failed {result : Option AccountResult} {status : PendingStatus} {code : ErrorCode}
    {message : String} {raised : RasatError} (judged : judge result = .failed status code message raised) :
    status = .rejected ∨ status = .reconcileRequired := by
  have either (code : ErrorCode) : failureStatus code = .rejected ∨
      failureStatus code = .reconcileRequired := by
    unfold failureStatus
    split
    · exact .inr rfl
    · exact .inl rfl
  cases result with
  | none => cases judged; exact .inr rfl
  | some result =>
    simp only [judge] at judged
    split at judged
    -- A fill without any id is left to be reconciled.
    · split at judged <;> cases judged
      exact .inr rfl
    · split at judged <;> cases judged
      exact .inr rfl
    all_goals cases judged
    · exact either _
    · exact either _
    · exact either _
    all_goals exact .inr rfl

/-- Recording a failure under one of those states is one write. -/
theorem failPendingExecution_eq {orderId : String} {status : PendingStatus} {code : ErrorCode}
    {message : String} (kind : status = .rejected ∨ status = .reconcileRequired) :
    failPendingExecution orderId status code message =
      dbWrite (.failPending orderId status code message) := by
  unfold failPendingExecution
  rw [if_neg]
  rintro ⟨first, second⟩
  exact kind.elim first second

/-- An execution counts as executed only when its first result is a fill. -/
theorem judge_executed {result : Option AccountResult} {id : String}
    (judged : judge result = .executed id) : ∃ filled, result = some filled ∧ Filled filled.status := by
  cases result with
  | none => cases judged
  | some result =>
    refine ⟨result, rfl, ?_⟩
    simp only [judge] at judged
    split at judged
    · rename_i paper
      exact .inl paper
    · rename_i filled
      exact .inr filled
    all_goals cases judged

/-- A stored row counts as executed only when it is a fill, and fails as rejected or to reconcile. -/
theorem judgeRow_kind (order : Order) :
    (∃ executedOrderId, judgeRow order = (.executed, executedOrderId, none) ∧ Filled order.status) ∨
      ∃ status failure, judgeRow order = (status, none, some failure) ∧
        (status = .rejected ∨ status = .reconcileRequired) := by
  unfold judgeRow Filled
  cases status : order.status with
  | paper => exact .inl ⟨_, rfl, .inl rfl⟩
  | exchange inner =>
    cases inner with
    | filled => exact .inl ⟨_, rfl, .inr rfl⟩
    | rejected | canceled | expired => exact .inr ⟨_, _, rfl, .inl rfl⟩
    | new | partiallyFilled | unknown => exact .inr ⟨_, _, rfl, .inr rfl⟩

/-- The requests that touch no approval. -/
def Aside : Req → Prop
  | .write (.fillPendingEntry _ _) | .write (.claimPending _ _) => False
  | .write (.completePending _ _) | .write (.failPending _ _ _ _) => False
  | .orderService _ => False
  | _ => True

variable {request : Req}

theorem Trading.aside (trading : Trading request) : Aside request := by
  cases request with
  | write tx => cases tx <;> first | exact trading | trivial
  | _ => first | exact trading | trivial

theorem Admin.aside (admin : Admin request) : Aside request := by
  cases request with
  | write tx => cases tx <;> first | exact admin | trivial
  | _ => first | exact admin | trivial

/-- What touches no approval is always allowed. -/
theorem Aside.allowed (aside : Aside request) (record : TaskRecord) : approvalRule record request := by
  cases request with
  | write tx => cases tx <;> first | exact aside.elim | trivial
  | orderService args => exact aside.elim
  | _ => trivial

/-- A claim is not aside. -/
theorem Aside.claimed {answer : Except Exc request.Ans} {hist : History}
    {orderId : String} (aside : Aside request) (claimed : Claimed (⟨request, answer⟩ :: hist) orderId) :
    Claimed hist orderId := by
  obtain ⟨now, member⟩ := claimed
  rcases List.mem_cons.mp member with new | old
  · cases new
    exact aside.elim
  · exact ⟨now, old⟩

/-- A program that touches no approval keeps to the rule and claims nothing. -/
theorem aside_safe {α : Type} {program : Task α} (only : program.Only Aside) {record : TaskRecord}
    (free : ∀ orderId, ¬Claimed record.hist orderId) :
    Safe (recording approvalRule) program record fun _ learned =>
      learned.call = record.call ∧ ∀ orderId, ¬Claimed learned.hist orderId := by
  refine Safe.of_only Aside (fun learned : TaskRecord =>
    learned.call = record.call ∧ ∀ orderId, ¬Claimed learned.hist orderId) ?_ ?_ only ⟨rfl, free⟩
  · exact fun learned request _ aside => aside.allowed learned
  · rintro learned request answer _ ⟨call, free⟩ aside rfl
    exact ⟨call, fun orderId claimed => free orderId (aside.claimed claimed)⟩

/-- A call that touches no approval rests without a claim. -/
theorem aside_call {α : Type} {program : Task α} {call : Call} (only : program.Only Aside) :
    Safe (recording approvalRule) program ⟨some call, []⟩ fun _ learned => approvalRest learned := by
  have free : ∀ orderId, ¬Claimed (⟨some call, []⟩ : TaskRecord).hist orderId :=
    fun _ ⟨_, member⟩ => nomatch member
  refine (aside_safe only free).mono fun _ learned facts => ?_
  exact fun orderId claimed => absurd claimed (facts.2 orderId)

end Rasat
