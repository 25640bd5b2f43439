import RasatTrading.Broker.Submission
import RasatTrading.Solo

/-! What the broker reports of an order is what its row stores afterwards, and where it is dropped. -/

namespace Rasat

open Coop Prog

variable {svc : Service} {s after : Solo}

/-- A report of the broker about one order. -/
structure Report where
  /-- Whether it answers a cancellation. -/
  cancels : Bool
  result : OrderResult
  deriving DecidableEq

/-- The report that an event brings. -/
def reportOf : Event Req Req.Ans Exc → Option Report
  -- A submission is always answered with a state.
  | ⟨.broker (.placeOrder _), .ok result⟩ => some ⟨false, result⟩
  | ⟨.broker (.placeOco _), .ok result⟩ => some ⟨false, result⟩
  -- A lookup or a cancellation may find no order.
  | ⟨.broker (.queryOrder _ _ _), .ok found⟩ => found.map (Report.mk false)
  | ⟨.broker (.queryOco _ _), .ok found⟩ => found.map (Report.mk false)
  | ⟨.broker (.cancelOrder _ _ _), .ok found⟩ => found.map (Report.mk true)
  | ⟨.broker (.cancelOco _ _ _), .ok found⟩ => found.map (Report.mk true)
  | _ => none

/-- The last report that was heard. -/
def lastReport (heard : History) : Option Report := heard.findSome? reportOf

/-- The last thing that was heard is that a transaction failed. -/
def writeFailed : History → Bool
  | ⟨.write _, .error _⟩ :: _ => true
  | _ => false

/-- The row has the exchange id, the executed quantity and the average price of a result. -/
def SameFill (row : Order) (result : OrderResult) : Prop :=
  row.exchangeOrderId = result.exchangeOrderId ∧ row.executedQty = result.executedQty ∧
    row.avgPrice = result.avgPrice

/-- The row stores the report; a cancellation that did not settle the order may leave it UNKNOWN. -/
def Report.Kept (report : Report) (row : Order) : Prop :=
  SameFill row report.result ∧
    (row.status = .exchange report.result.status ∨
      report.cancels ∧ report.result.status.isOpen ∧ row.status = .exchange .unknown)

instance (row : Order) (result : OrderResult) : Decidable (SameFill row result) :=
  inferInstanceAs (Decidable (_ ∧ _ ∧ _))

instance (report : Report) (row : Order) : Decidable (report.Kept row) :=
  inferInstanceAs (Decidable (_ ∧ (_ ∨ _ ∧ _ ∧ _)))

/-- What the order service does in which the broker reports the state of an order. -/
inductive Operation
  /-- Submit the single order of a row that was just stored. -/
  | submit (p : Placement) (order : Order)
  /-- Submit the list of a row that was just stored. -/
  | submitList (account : Account) (o : OcoOrder) (order : Order)
  /-- Reconcile a submission that timed out. -/
  | timedOut (account : Account) (order : Order) (symbol actor : String)
  /-- Serve a retry of the order. -/
  | retry (account : Account) (order : Order)
  /-- Reconcile the order at the startup. -/
  | startup (report : ReconcileReport) (order : Order)
  /-- Cancel a target of the kill switch. -/
  | cancel (account : Account) (actor : String) (state : CancelState) (target : Target)
  /-- Look up an earlier SELL of the kill switch. -/
  | lookup (account : Account) (symbol : String) (order : Order)

/-- Run a program for its effects. -/
def forEffect {α : Type} (program : Task α) : Task Unit := program.bind fun _ => .done ()

/-- The code of an operation. -/
def Operation.program (svc : Service) : Operation → Task Unit
  | submit p order => forEffect (submitOrder svc p order)
  | submitList account o order => forEffect (Rasat.submitList svc account o order)
  | timedOut account order symbol actor =>
    forEffect (reconcileAfterTimeout svc account order symbol actor)
  | retry account order => forEffect (handleExisting svc account order)
  | startup report order => forEffect (reconcileOrder svc report order)
  | cancel account actor state target => forEffect (cancelOne svc account actor state target)
  | lookup account symbol order => forEffect (lookupClose account symbol order)

/-- The order that an operation updates, when there is one. -/
def Operation.order : Operation → Option Order
  | submit _ order | submitList _ _ order | timedOut _ order _ _ | retry _ order | startup _ order
  | lookup _ _ order => some order
  -- A target that is only open at the exchange has no local row.
  | cancel _ _ _ target => target.order

/-- The row is of the order that the operation is about. -/
def Operation.About (row : Order) : Operation → Prop
  | submit _ order | submitList _ _ order | timedOut _ order _ _ | retry _ order | startup _ order
  | lookup _ _ order => row = order
  -- The kill switch goes by the client order id, whatever state the row is in.
  | cancel account _ _ target =>
    row.accountId = account.accountId ∧ row.clientOrderId = target.clientOrderId

/-- The report loses nothing of what it says about the row, given where the operation takes it. -/
def Operation.Lossless (row : Order) (report : Report) : Operation → Prop
  -- The fill is stored with the state.
  | submit _ _ | submitList _ _ _ | timedOut _ _ _ _ | retry _ _ | lookup _ _ _ => True
  -- An unknown state is stored alone.
  | startup _ _ => report.result.status ≠ .unknown ∨ SameFill row report.result
  | cancel _ _ _ target =>
    if target.order = some row then
      if report.cancels then
        -- Only the other settled states are stored with their fill.
        (report.result.status ≠ .canceled ∧ report.result.status.isOpen = false) ∨
          SameFill row report.result
      else
        -- An open state is stored as UNKNOWN alone.
        report.result.status.isOpen = false ∨
          report.result.status = .unknown ∧ SameFill row report.result
    else
      -- A row that was not active when the targets were chosen is left as it is.
      report.Kept row

/-- The row comes to store the report, given what the operation heard in all. -/
def Operation.Stores (op : Operation) (row : Order) (heard : History) (report : Report) : Prop :=
  -- A transaction that fails is the last thing of an operation, and leaves the row as it was.
  if writeFailed heard then report.Kept row else op.Lossless row report

/-! What the pieces of the operations do to one row. -/

/-- The tables store this row, this was the last report, and no transaction failed just now. -/
structure Stands (row : Order) (report : Option Report) (g : Solo) : Prop where
  formed : g.db.WellFormed
  member : row ∈ g.db.orders
  last : lastReport g.heard = report
  saved : writeFailed g.heard = false

/-- The operation leaves a row of the order that has the report exactly when it should. -/
def Leaves (op : Operation) (row : Order) (g : Solo) : Prop :=
  g.db.WellFormed ∧ ∃ later ∈ g.db.orders, later.orderId = row.orderId ∧
    ∀ report, lastReport g.heard = some report → (report.Kept later ↔ op.Stores row g.heard report)

/-- Every outcome of a program leaves the row so. -/
abbrev Concludes {β : Type} (op : Operation) (row : Order) : β → Solo → Prop :=
  fun _ g => Leaves op row g

variable {op : Operation} {row later : Order} {report : Option Report}

/-- Where nothing was reported there is nothing to keep. -/
theorem Stands.silent (stands : Stands later none s) (same : later.orderId = row.orderId) :
    Leaves op row s := by
  refine ⟨stands.formed, later, stands.member, same, fun report heard => ?_⟩
  rw [stands.last] at heard
  cases heard

/-- A report settles the operation when the row that stands keeps it exactly when it should. -/
theorem Stands.reported {heard : Report} (stands : Stands later (some heard) s)
    (same : later.orderId = row.orderId) (kept : heard.Kept later ↔ op.Lossless row heard) :
    Leaves op row s := by
  refine ⟨stands.formed, later, stands.member, same, fun report last => ?_⟩
  rw [stands.last] at last
  cases last
  simpa only [Operation.Stores, stands.saved, Bool.false_eq_true, if_false] using kept

/-- A row that a result is stored in keeps its report. -/
theorem Report.kept_toUpdate {cancels : Bool} {result : OrderResult} :
    (Report.mk cancels result).Kept (row.apply result.toUpdate) :=
  ⟨⟨rfl, rfl, rfl⟩, .inl rfl⟩

variable {update : OrderUpdate} {audit : Option AuditEntry} {account : Account} {actor : String} {target : Target}

/-- A row of which only the state is stored keeps a report exactly when it had the fill already, and the
state is that of the report or may stand for it. -/
theorem Report.kept_status_iff {heard : Report} (alone : update.fill = none) :
    heard.Kept (row.apply update) ↔ SameFill row heard.result ∧
      (update.status = heard.result.status ∨
        heard.cancels ∧ heard.result.status.isOpen ∧ update.status = .unknown) := by
  unfold Report.Kept SameFill Order.apply
  rw [alone]
  simp only [Option.elim_none, OrderStatus.exchange.injEq]

/-- A broker call reports what its answer says. -/
theorem broker_stands {call : BrokerCall} (stands : Stands row none s) :
    Safe solo (broker call) s fun answer g => Stands row (reportOf ⟨.broker call, answer⟩) g := by
  refine Safe.call_iff.mpr ⟨trivial, fun answer g served => ?_⟩
  have spares : SparesOrders (.broker call) := trivial
  refine ⟨Solo.serve_wellFormed (fun _ => by simp) stands.formed served, ?_, ?_, ?_⟩
  · -- The tables stay, and what is heard grows by one event.
    rw [Solo.serve_orders spares served]
    exact stands.member
  · have before : s.heard.findSome? reportOf = none := stands.last
    rw [Solo.serve_heard served, lastReport, List.findSome?_cons, before]
    cases reportOf ⟨.broker call, answer⟩ <;> rfl
  · rw [Solo.serve_heard served]
    rfl

/-- The row after a write of this order, when there is one. -/
def written (row : Order) (order : Option Order) (update : OrderUpdate) : Order :=
  if order = some row then row.apply update else row

variable {order : Option Order}

theorem written_orderId : (written row order update).orderId = row.orderId := by
  unfold written
  split <;> rfl

/-- An update of an order changes its row and no other. -/
theorem update_stands {order : Order}
    (stands : Stands row report s) (apart : order = row ∨ order.orderId ≠ row.orderId) :
    Safe solo (dbWrite (.updateOrder order.orderId update audit)) s
      (Outcome (fun _ g => Stands (written row (some order) update) report g) (Concludes op row)) := by
  refine Safe.call_iff.mpr ⟨trivial, fun answer g served => ?_⟩
  cases answer with
  | error raised =>
    -- The row is left as it was, and that is all that the operation can do.
    have same : g.db = s.db := Solo.serve_error (fun _ => by simp) served
    refine ⟨same ▸ stands.formed, row, same ▸ stands.member, rfl, fun report heard => ?_⟩
    rw [Solo.serve_heard served]
    exact Iff.rfl
  | ok committed =>
    -- The update is committed: it changes the row with the order id.
    obtain ⟨choice, ran⟩ := Solo.serve_write served
    have orders : g.db.orders = updateRows order.orderId update s.db.orders := by
      rw [Tx.run_updateOrder ran]
      rfl
    refine ⟨Tx.run_wellFormed stands.formed ran, ?_, ?_, ?_⟩
    · rw [orders]
      unfold written
      rcases apart with rfl | differ
      · rw [if_pos rfl]
        exact mem_updateRows.mpr ⟨order, stands.member, by rw [if_pos rfl]⟩
      · rw [if_neg (fun same => differ (congrArg Order.orderId (Option.some.inj same)))]
        exact mem_updateRows_other stands.member differ.symm
    · rw [Solo.serve_heard served]
      exact stands.last
    · rw [Solo.serve_heard served]
      rfl

/-- The state of an order is asked for once, and a canonical error is no answer. -/
theorem orNone_stands {lookup : Task (Option OrderResult)}
    (looked : Safe solo lookup s fun answer g =>
      Stands row (answer.toOption.join.map (Report.mk false)) g) :
    Safe solo (orNone lookup) s
      (Outcome (fun found g => Stands row (found.map (Report.mk false)) g) (Concludes op row)) := by
  refine Safe.rescue looked (fun found g stands => stands) fun raised g stands => ?_
  cases raised with
  | rasat error => exact .done stands
  | _ => exact .fail (stands.silent rfl)

variable {accountId : String}

theorem queryState_stands {order : Order} (stands : Stands row none s) :
    Safe solo (queryState accountId order) s fun answer g =>
      Stands row (answer.toOption.join.map (Report.mk false)) g := by
  unfold queryState
  split
  · refine (broker_stands stands).mono fun answer g heard => ?_
    cases answer <;> exact heard
  · refine (broker_stands stands).mono fun answer g heard => ?_
    cases answer <;> exact heard

/-! The operations. -/

variable {α : Type} {value : α}

/-- An update of the operation's own row, at its end. -/
theorem update_ends (stands : Stands row report s)
    (leaves : ∀ g, Stands (row.apply update) report g → Leaves op row g) :
    Safe solo ((dbWrite (.updateOrder row.orderId update audit)).bind fun _ => .done value) s
      (Concludes op row) := by
  refine Safe.bind (update_stands stands (.inl rfl)) (fun _ g stands => .done (leaves g ?_))
    fun _ _ cut => cut
  unfold written at stands
  rw [if_pos rfl] at stands
  exact stands

/-- A reported state that is stored with its fill, at the end of an operation that always does so. -/
theorem result_ends {result : OrderResult}
    (stands : Stands row (some ⟨false, result⟩) s) (lossless : ∀ report, op.Lossless row report) :
    Safe solo ((dbWrite (.updateOrder row.orderId result.toUpdate audit)).bind fun _ => .done value) s
      (Concludes op row) :=
  update_ends stands fun _ stands =>
    stands.reported rfl (iff_of_true Report.kept_toUpdate (lossless _))

section Stands

variable (stands : Stands row none s)
include stands

/-- A state that the service makes up itself, when nothing was reported. -/
theorem silent_ends : Safe solo ((dbWrite (.updateOrder row.orderId update audit)).bind fun _ => .done value) s
      (Concludes op row) :=
  update_ends stands fun _ stands => stands.silent rfl

/-- `_reconcile_after_timeout` stores what it finds. -/
theorem reconcileAfterTimeout_ends {symbol : String} (lossless : ∀ report, op.Lossless row report) :
    Safe solo (reconcileAfterTimeout svc account row symbol actor) s (Concludes op row) := by
  unfold reconcileAfterTimeout
  refine Safe.bind (orNone_stands (queryState_stands stands)) (fun found g stands => ?_) fun _ _ cut => cut
  cases found with
  | none => exact silent_ends stands
  | some result => exact result_ends stands lossless

/-- So does what follows a failed submission. -/
theorem submissionFailed_ends {symbol timeoutText action : String} {raised : Exc}
    (lossless : ∀ report, op.Lossless row report) :
    Safe solo (submissionFailed svc account row symbol actor timeoutText action raised) s (Concludes op row) := by
  unfold submissionFailed
  split
  · exact .fail (stands.silent rfl)
  · split
    · exact reconcileAfterTimeout_ends stands lossless
    · exact silent_ends stands

/-- The submission of a single order stores what it is answered. -/
theorem submitOrder_ends {p : Placement} (lossless : ∀ report, op.Lossless row report) :
    Safe solo (submitOrder svc p row) s (Concludes op row) := by
  unfold submitOrder
  refine Safe.attempt_bind (broker_stands stands) fun submitted g stands => ?_
  cases submitted with
  | error raised => exact submissionFailed_ends stands lossless
  | ok result => exact result_ends stands lossless

/-- So does the submission of a list. -/
theorem submitList_ends {o : OcoOrder} (lossless : ∀ report, op.Lossless row report) :
    Safe solo (submitList svc account o row) s (Concludes op row) := by
  unfold submitList
  refine Safe.attempt_bind (broker_stands stands) fun submitted g stands => ?_
  cases submitted with
  | error raised => exact submissionFailed_ends stands lossless
  | ok result => exact result_ends stands lossless

/-- `_handle_existing` stores what it finds. -/
theorem handleExisting_ends (lossless : ∀ report, op.Lossless row report) :
    Safe solo (handleExisting svc account row) s (Concludes op row) := by
  unfold handleExisting
  split
  · -- A settled order is not looked up.
    exact .done (stands.silent rfl)
  · split
    · exact .done (stands.silent rfl)
    · refine Safe.bind (orNone_stands (queryState_stands stands)) (fun found g stands => ?_)
        fun _ _ cut => cut
      cases found with
      | none => exact .done (stands.silent rfl)
      | some result => exact result_ends stands lossless

/-- The lookup of an earlier SELL stores what it finds. -/
theorem lookupClose_ends {symbol : String} (lossless : ∀ report, op.Lossless row report) :
    Safe solo (lookupClose account symbol row) s (Concludes op row) := by
  have looked : Safe solo (broker (.queryOrder account.accountId symbol row.clientOrderId)) s
      fun answer g => Stands row (answer.toOption.join.map (Report.mk false)) g := by
    refine (broker_stands stands).mono fun answer g heard => ?_
    cases answer <;> exact heard
  unfold lookupClose
  refine Safe.bind (orNone_stands looked) (fun found g stands => ?_) fun _ _ cut => cut
  cases found with
  | none => exact .done (stands.silent rfl)
  | some result => exact result_ends stands lossless

/-- The reconciliation at the startup stores what it finds, but of an unknown state nothing else. -/
theorem reconcileOrder_ends {report : ReconcileReport} :
    Safe solo (reconcileOrder svc report row) s (Concludes (.startup report row) row) := by
  unfold reconcileOrder
  refine Safe.attempt_bind (queryState_stands stands) fun answer g stands => ?_
  cases answer with
  | error raised =>
    cases raised with
    | rasat error => exact .done (stands.silent rfl)
    | _ => exact .fail (stands.silent rfl)
  | ok answer =>
    dsimp only
    cases answer with
    | none => exact silent_ends stands
    | some result =>
      by_cases unknown : result.status = .unknown
      · rw [show (some result).filter (fun found => found.status ≠ .unknown) = none by simp [unknown]]
        refine update_ends stands fun _ stands => stands.reported rfl ?_
        rw [Report.kept_status_iff rfl]
        simp [Operation.Lossless, unverifiedUpdate, unknown]
      · rw [show (some result).filter (fun found => found.status ≠ .unknown) = some result by simp [unknown]]
        dsimp only
        split
        · -- The row stores all of the report already.
          rename_i same
          refine .done (stands.reported rfl (iff_of_true ?_ (.inl unknown)))
          exact ⟨⟨same.2.1.symm, same.2.2.1.symm, same.2.2.2.symm⟩, .inl same.1.symm⟩
        · refine update_ends stands fun _ stands => stands.reported rfl ?_
          exact iff_of_true Report.kept_toUpdate (.inl unknown)

omit stands in
/-- A write of the target's row, when it has one. -/
theorem writeRow_stands {action : String}
    {details : Order → List (String × Detail)} (stands : Stands row report s)
    (apart : ∀ other, order = some other → other = row ∨ other.orderId ≠ row.orderId) :
    Safe solo (writeRow svc account actor action order update details) s
      (Outcome (fun _ g => Stands (written row order update) report g) (Concludes op row)) := by
  unfold writeRow
  cases order with
  | none => exact .done stands
  | some other => exact update_stands stands (apart other rfl)

/-- The lookup after a cancellation that found nothing. -/
theorem querySafe_stands {isOco : Bool} : Safe solo (querySafe accountId target isOco) s (Outcome
      (fun answer g => Stands row (answer.toOption.join.map (Report.mk false)) g) (Concludes op row)) := by
  have looked : Safe solo (if isOco then broker (.queryOco accountId target.clientOrderId)
      else broker (.queryOrder accountId target.symbol target.clientOrderId) :
        Task (Option OrderResult)) s
      fun answer g => Stands row (answer.toOption.join.map (Report.mk false)) g := by
    split
    · refine (broker_stands stands).mono fun answer g heard => ?_
      cases answer <;> exact heard
    · refine (broker_stands stands).mono fun answer g heard => ?_
      cases answer <;> exact heard
  unfold querySafe
  refine Safe.attempt_bind looked fun answer g stands => ?_
  cases answer with
  | ok found => exact .done stands
  | error raised =>
    cases raised with
    | timeout => exact .done stands
    | rasat error => exact .done stands
    | _ => exact .fail (stands.silent rfl)

end Stands

/-- A write at the end of a cancellation. -/
theorem writeRow_concludes {action : String} {details : Order → List (String × Detail)}
    (stands : Stands row report s)
    (apart : ∀ other, target.order = some other → other = row ∨ other.orderId ≠ row.orderId)
    (leaves : ∀ g, Stands (written row target.order update) report g → Leaves op row g) :
    Safe solo ((writeRow svc account actor action target.order update details).bind fun _ => .done value) s
      (Concludes op row) :=
  Safe.bind (writeRow_stands stands apart) (fun _ g stands => .done (leaves g stands)) fun _ _ cut => cut

/-- Without a report any write will do. -/
theorem Stands.silentWrite (stands : Stands (written row order update) none s) : Leaves op row s :=
  stands.silent written_orderId

variable {state : CancelState}

/-- After the write of a cancellation, what remains to be seen is the row of the target itself. -/
theorem Stands.cancelWrite {heard : Report} (stands : Stands (written row target.order update) (some heard) s)
    (own : target.order = some row →
      (heard.Kept (row.apply update) ↔ (Operation.cancel account actor state target).Lossless row heard)) :
    Leaves (.cancel account actor state target) row s := by
  refine stands.reported written_orderId ?_
  unfold written
  by_cases linked : target.order = some row
  · rw [if_pos linked]
    exact own linked
  · -- Another order was written, or none.
    rw [if_neg linked]
    simp only [Operation.Lossless, if_neg linked]

/-- `_cancel_one` stores the fill of the settled states other than CANCELED. -/
theorem cancelOne_concludes (stands : Stands row none s)
    (apart : ∀ other, target.order = some other → other = row ∨ other.orderId ≠ row.orderId) :
    Safe solo (cancelOne svc account actor state target) s
      (Concludes (.cancel account actor state target) row) := by
  have cancelled : Safe solo (if (target.order.any fun row => row.orderType = .oco) then
        broker (.cancelOco account.accountId target.symbol target.clientOrderId)
      else broker (.cancelOrder account.accountId target.symbol target.clientOrderId) :
        Task (Option OrderResult)) s
      fun answer g => Stands row (answer.toOption.join.map (Report.mk true)) g := by
    split
    · refine (broker_stands stands).mono fun answer g heard => ?_
      cases answer <;> exact heard
    · refine (broker_stands stands).mono fun answer g heard => ?_
      cases answer <;> exact heard
  unfold cancelOne
  -- The answer to the cancellation decides, and a lookup only where it found nothing.
  refine Safe.attempt_bind cancelled fun answer g stands => ?_
  cases answer with
  | error raised =>
    dsimp only
    split
    · exact .fail (stands.silent rfl)
    · exact writeRow_concludes stands apart fun _ stands => stands.silentWrite
  | ok answer =>
    cases answer with
    | none =>
      refine Safe.bind (querySafe_stands stands) (fun found g stands => ?_) fun _ _ cut => cut
      cases found with
      | error raised => exact writeRow_concludes stands apart fun _ stands => stands.silentWrite
      | ok found =>
        cases found with
        | none => exact writeRow_concludes stands apart fun _ stands => stands.silentWrite
        | some result =>
          dsimp only
          split
          · -- The order is still open, and the row becomes UNKNOWN.
            rename_i live
            refine writeRow_concludes stands apart fun _ stands => stands.cancelWrite fun linked => ?_
            rw [Report.kept_status_iff rfl]
            simp [Operation.Lossless, linked, live, uncertainUpdate, and_comm, eq_comm]
          · rename_i settled
            refine writeRow_concludes stands apart fun _ stands => stands.cancelWrite fun linked => ?_
            refine iff_of_true Report.kept_toUpdate ?_
            simp [Operation.Lossless, linked, settled]
    | some result =>
      dsimp only
      split
      · -- Only the state of a cancelled order is stored.
        rename_i canceled
        refine writeRow_concludes stands apart fun _ stands => stands.cancelWrite fun linked => ?_
        rw [Report.kept_status_iff rfl]
        simp [Operation.Lossless, linked, canceled, canceledUpdate]
      · rename_i other
        split
        · rename_i live
          refine writeRow_concludes stands apart fun _ stands => stands.cancelWrite fun linked => ?_
          rw [Report.kept_status_iff rfl]
          simp [Operation.Lossless, linked, live, uncertainUpdate]
        · rename_i settled
          refine writeRow_concludes stands apart fun _ stands => stands.cancelWrite fun linked => ?_
          refine iff_of_true Report.kept_toUpdate ?_
          simp [Operation.Lossless, linked, settled, other]

/-- Every operation leaves its row with the last report exactly when that loses nothing. -/
theorem operation_concludes (formed : s.db.WellFormed) (silent : s.heard = [])
    (stored : ∀ order, op.order = some order → order ∈ s.db.orders) (member : row ∈ s.db.orders)
    (about : op.About row) : Safe solo (op.program svc) s (Concludes op row) := by
  have stands : Stands row none s := by
    refine ⟨formed, member, ?_, ?_⟩ <;> rw [silent] <;> rfl
  have effect {α : Type} {program : Task α} (safe : Safe solo program s (Concludes op row)) :
      Safe solo (forEffect program) s (Concludes op row) :=
    Safe.bind safe (fun _ _ leaves => .done leaves) fun _ _ cut => cut
  cases op with
  | submit p order =>
    obtain rfl : row = order := about
    exact effect (submitOrder_ends stands fun _ => trivial)
  | submitList account o order =>
    obtain rfl : row = order := about
    exact effect (submitList_ends stands fun _ => trivial)
  | timedOut account order symbol actor =>
    obtain rfl : row = order := about
    exact effect (reconcileAfterTimeout_ends stands fun _ => trivial)
  | retry account order =>
    obtain rfl : row = order := about
    exact effect (handleExisting_ends stands fun _ => trivial)
  | startup report order =>
    obtain rfl : row = order := about
    exact effect (reconcileOrder_ends stands)
  | cancel account actor state target =>
    refine effect (cancelOne_concludes stands fun other linked => ?_)
    -- The target's row is this one, or it has another order id.
    by_cases same : other.orderId = row.orderId
    · exact .inl (eq_of_orderId formed.orderIds (stored other linked) member same)
    · exact .inr same
  | lookup account symbol order =>
    obtain rfl : row = order := about
    exact effect (lookupClose_ends stands fun _ => trivial)

/-- What an operation that runs by itself comes to, and the state that it leaves. -/
def operate (svc : Service) (op : Operation) (db : Database) (script : List Choice) :
    Except Exc Unit × Solo :=
  exec Solo.serve (op.program svc) { db := db, script := script }

/-- After an operation the row of an order that it is about stores the last state that the broker reported
of it, exactly when that state was not one of those that are stored without their fill, or the row had
the fill already; a row that could not be written stores it only when it did so before. -/
theorem last_report_kept_iff {svc : Service} {op : Operation} {db : Database} {script : List Choice}
    {outcome : Except Exc Unit} {after : Solo} {row : Order} (formed : db.WellFormed)
    (stored : ∀ order, op.order = some order → order ∈ db.orders) (member : row ∈ db.orders)
    (about : op.About row) (ran : operate svc op db script = (outcome, after)) :
    (∀ report, lastReport after.heard = some report →
        ∃ later ∈ after.db.orders, later.orderId = row.orderId ∧ report.Kept later) ↔
      ∀ report, lastReport after.heard = some report → op.Stores row after.heard report := by
  let start : Solo := { db := db, script := script }
  have safe : Safe solo (op.program svc) start (Concludes op row) :=
    operation_concludes formed rfl stored member about
  have concludes := servedBy_iff.mp safe
  rw [show exec Solo.serve _ start = _ from ran] at concludes
  obtain ⟨wellFormed, later, kept, same, agrees⟩ := concludes
  constructor
  · intro all report heard
    obtain ⟨other, member', same', holds⟩ := all report heard
    -- There is one row with the order id.
    obtain rfl := eq_of_orderId wellFormed.orderIds member' kept (same'.trans same.symm)
    exact (agrees report heard).mp holds
  · exact fun all report heard => ⟨later, kept, same, (agrees report heard).mpr (all report heard)⟩

/-- The local row of a target of the kill switch is stored. -/
theorem cancelTargets_stored {db : Database} {exchange : List ExchangeOrder}
    (chosen : target ∈ cancelTargets (activeOrders db.orders accountId) exchange) :
    ∀ order, (Operation.cancel account actor state target).order = some order → order ∈ db.orders := by
  -- A target is linked to an active row of the account.
  intro order linked
  have active := (cancelTargets_row chosen linked).1
  exact (List.mem_filter.mp (List.mem_filter.mp active).1).1

/-- The real account of the shop. -/
def realAccount : Account :=
  { accountId := "main", tradingLock := .real, credentialsConfigured := true }

/-- An order that rests at the exchange. -/
def restingBuy : Order where
  accountId := "main"
  idempotencyKey := "k"
  symbol := "BTCUSDT"
  side := .buy
  orderType := .limit
  quantity := 1
  price := some 9
  clientOrderId := "k-1"
  notional := 9
  referencePrice := 10
  equitySnapshot := 1000
  orderId := "o1"
  createdAt := 0
  status := .exchange .new
  exchangeOrderId := some "77"

/-- The shop while that order rests. -/
def restingShop : Database := { shop with orders := [restingBuy] }

theorem restingShop_wellFormed : restingShop.WellFormed where
  accountIds := by decide
  strippedIds := by decide
  orderIds := by decide
  orderKeys := by decide
  overrideIds := by decide
  pendingIds := by decide

/-- The kill switch cancels the resting order. -/
def cancelResting : Operation :=
  .cancel realAccount "mcp-agent" {} ⟨"k-1", "BTCUSDT", some restingBuy⟩

/-- Two fifths of the order were filled before it was cancelled. -/
def partlyFilled : Choice :=
  { found := some { status := .canceled, exchangeOrderId := some "77", executedQty := 2 / 5, avgPrice := 9 } }

/-- The cancellation of an order that rests, step by step. -/
theorem cancelResting_kept_iff :
    (∀ report, lastReport (operate demo cancelResting restingShop [partlyFilled]).2.heard = some report →
        ∃ later ∈ (operate demo cancelResting restingShop [partlyFilled]).2.db.orders,
          later.orderId = restingBuy.orderId ∧ report.Kept later) ↔
      ∀ report, lastReport (operate demo cancelResting restingShop [partlyFilled]).2.heard = some report →
        cancelResting.Stores restingBuy
          (operate demo cancelResting restingShop [partlyFilled]).2.heard report := by
  have chosen : ⟨"k-1", "BTCUSDT", some restingBuy⟩ ∈
      cancelTargets (activeOrders restingShop.orders "main") [] := by decide +kernel
  exact last_report_kept_iff restingShop_wellFormed (cancelTargets_stored chosen) List.mem_cons_self
    ⟨rfl, rfl⟩ rfl

/-- What was filled before the cancellation is dropped. -/
theorem partial_fill_dropped :
    (operate demo cancelResting restingShop [partlyFilled]).1 = .ok () ∧
      ∃ report, lastReport (operate demo cancelResting restingShop [partlyFilled]).2.heard = some report ∧
        report.result.executedQty = 2 / 5 ∧
        ¬∃ later ∈ (operate demo cancelResting restingShop [partlyFilled]).2.db.orders,
          later.orderId = restingBuy.orderId ∧ report.Kept later := by
  refine ⟨by decide +kernel, ⟨true, ⟨.canceled, some "77", 2 / 5, 9⟩⟩, by decide +kernel, rfl, ?_⟩
  decide +kernel

end Rasat
