import RasatTrading.Broker.Binance
import RasatTrading.Coop.Outcome
import RasatTrading.Orders.CloseAll
import RasatTrading.Orders.Oco
import RasatTrading.Orders.Startup

/-! What the order service makes of the answers of the REST client, from the submission to the row. -/

namespace Rasat

open Coop Prog

variable {svc : Service} {text : Text}

/-- What the exchange answers to a submission, to a lookup and to a cancellation, and the legs of the list that is
looked up: it is done exactly when none of them is live. -/
structure Exchange (text : Text) where
  submission : HttpAnswer
  lookup : HttpAnswer
  cancellation : HttpAnswer := .failed "not asked"
  legs : List ExchangeStatus := []
  done : ∀ fields, lookup.fields = some fields → listStatusText text fields = "ALL_DONE" →
    ∀ leg ∈ legs, leg.isOpen = false
  executing : ∀ fields, lookup.fields = some fields → listStatusText text fields = "EXECUTING" →
    ∃ leg ∈ legs, leg.isOpen

/-- The answers that the order service gets over the REST client; its transactions succeed. -/
def Exchange.respond (x : Exchange text) : (request : Req) → Except Exc request.Ans
  | .broker (.placeOrder order) => binancePlaceOrder text order x.submission
  | .broker (.placeOco _) => binancePlaceOco text x.submission
  | .broker (.queryOrder _ _ _) => binanceQueryOrder text x.lookup
  | .broker (.queryOco _ _) => binanceQueryOco text x.lookup
  | .broker (.cancelOrder _ _ _) => binanceCancelOrder text x.cancellation
  | .broker (.cancelOco _ _ _) => binanceCancelOco text x.cancellation
  | .write (.updateOrder _ _ _) => .ok ()
  | _ => .error (.other "not asked")

/-- The end of `_place_and_record`, once the row is stored. -/
def submitOrder (svc : Service) (p : Placement) (order : Order) : Task AccountResult := do
  let submitted ← (broker (.placeOrder (p.order svc.text))).attempt
  match submitted with
  | .error raised =>
    submissionFailed svc p.account order p.symbol p.actor "order submission timed out"
      "place_order_failed" raised
  | .ok result =>
    dbWrite (.updateOrder order.orderId result.toUpdate
      (svc.entry p.actor "place_order"
        [("account_id", .text p.account.accountId), ("order_id", .text order.orderId),
          ("symbol", .text p.symbol), ("side", .text p.side.name),
          ("quantity", .number p.quantity), ("status", .text result.status.name),
          ("exchange_order_id", .ofText result.exchangeOrderId)]))
    return orderToResult (order.apply result.toUpdate) (some p.quantity)

/-- The end of `_execute_oco_direct`, once the row is stored. -/
def submitList (svc : Service) (account : Account) (o : OcoOrder) (order : Order) :
    Task AccountResult := do
  let submitted ← (broker (.placeOco (o.order svc.text))).attempt
  match submitted with
  | .error raised =>
    submissionFailed svc account order o.symbol o.actor "OCO submission timed out"
      "place_oco_failed" raised
  | .ok result =>
    dbWrite (.updateOrder order.orderId result.toUpdate
      (svc.entry o.actor "place_oco" (("order_id", .text order.orderId) :: o.details)))
    return orderToResult order (some o.quantity)

/-- A real placement stores its row and then submits it. -/
theorem placeAndRecord_submits {p : Placement} {again : Validated} (real : p.isReal = true)
    (passes : validateExecutionOrder svc.text {
      side := p.side.name
      orderType := .text p.orderType.name
      quantity := p.quantity
      price := p.price
      stopPrice := p.stopPrice
      marketPrice := some p.referencePrice } = .ok again) :
    placeAndRecord svc p = (dbWrite (.insertOrder (p.draft svc.text) false none)).bind (submitOrder svc p) := by
  unfold placeAndRecord
  simp only [sync, passes, bind_eq, pure_eq, Prog.ofExcept, done_bind]
  rw [if_neg (by simp [real])]
  rfl

variable {account : Account} {order : Order} {x : Exchange svc.text}

/-- A real list stores its row and then submits it. -/
theorem recordOco_submits {o : OcoOrder} {notional reference equity : ℚ} :
    recordOco svc account true o notional reference equity =
      (dbWrite (.insertOrder (o.draft svc.text notional reference equity) false none)).bind
        (submitList svc account o) := by
  unfold recordOco
  simp only [not_true_eq_false, if_false]
  rfl

/-- What a SELL of the kill switch looks up first: an earlier one of the symbol. -/
def lookupClose (account : Account) (symbol : String) (row : Order) : Task (Option OrderResult) := do
  match ← orNone (broker (.queryOrder account.accountId symbol row.clientOrderId)) with
  | none => return none
  | some found =>
    dbWrite (.updateOrder row.orderId found.toUpdate none)
    return some found

/-- `sellAfter` sells after the lookup, unless what it found blocks the sale. -/
theorem sellAfter_looksUp (account : Account) (actor symbol nonce : String) (quantity price : ℚ) (row : Order) :
    sellAfter svc account actor symbol nonce quantity price (some row) =
      (lookupClose account symbol row).bind fun found =>
        if found.any fun result => blocksSale result.status then
          .done (.sold symbol (some row.quantity)
            (.exchange ((found.map OrderResult.status).getD .unknown)) (some row.orderId))
        else sellNow svc account actor symbol nonce quantity price := by
  unfold sellAfter lookupClose
  simp only [bind_eq, pure_eq, bind_assoc]
  refine congrArg (Prog.bind _) (funext fun found => ?_)
  -- The lookup is stored before the state decides about the sale.
  cases found with
  | none => simp
  | some result => simp [bind_assoc]

/-- What the order service does with a stored row and the answers of the exchange. -/
inductive Activity
  /-- Submit the single order whose row was just stored. -/
  | submit (p : Placement)
  /-- Submit the OCO list whose row was just stored. -/
  | submitList (account : Account) (o : OcoOrder)
  /-- Reconcile the row when its call is made again. -/
  | retry (account : Account)
  /-- Reconcile the row at the startup. -/
  | startup (report : ReconcileReport)
  /-- Cancel the order with the kill switch, which looks it up when the cancellation finds nothing. -/
  | cancel (account : Account) (actor : String) (state : CancelState)
  /-- Look the row up with the kill switch, before it sells the symbol again. -/
  | lookupClose (account : Account) (symbol : String)

/-- The requests of an activity and their answers. -/
def Activity.events (svc : Service) (x : Exchange svc.text) (order : Order) :
    Activity → List (Event Req Req.Ans Exc)
  | .submit p => (replay x.respond (submitOrder svc p order)).1
  | .submitList account o => (replay x.respond (Rasat.submitList svc account o order)).1
  | .retry account => (replay x.respond (handleExisting svc account order)).1
  | .startup report => (replay x.respond (reconcileOrder svc report order)).1
  | .cancel account actor state =>
    (replay x.respond (cancelOne svc account actor state ⟨order.clientOrderId, order.symbol, some order⟩)).1
  | .lookupClose account symbol => (replay x.respond (Rasat.lookupClose account symbol order)).1

/-- A row after one request: an update of it changes it. -/
def updated (row : Order) (event : Event Req Req.Ans Exc) : Order :=
  match event.request with
  | .write (.updateOrder orderId update _) => if row.orderId = orderId then row.apply update else row
  | _ => row

/-- The stored row after an activity. -/
def Activity.row (svc : Service) (x : Exchange svc.text) (order : Order) (activity : Activity) : Order :=
  (activity.events svc x order).foldl updated order

/-- Whether the order is a list, which is looked up and cancelled as one. -/
def Order.isList (order : Order) : Bool := order.orderType = .oco

/-- The answer to a lookup of a single order, or of a list. -/
def Exchange.state (x : Exchange text) (list : Bool) : Except Exc (Option OrderResult) :=
  if list then binanceQueryOco text x.lookup else binanceQueryOrder text x.lookup

/-- The answer to a cancellation of a single order, or of a list. -/
def Exchange.cancelled (x : Exchange text) (list : Bool) : Except Exc (Option OrderResult) :=
  if list then binanceCancelOco text x.cancellation else binanceCancelOrder text x.cancellation

/-- The state of an order is asked for once. -/
theorem replay_queryState {x : Exchange text} {accountId : String} :
    ∃ call, replay x.respond (queryState accountId order) =
      ([⟨.broker call, x.respond (.broker call)⟩], x.state order.isList) := by
  unfold queryState Exchange.state Order.isList
  by_cases list : order.orderType = .oco
  · simp only [list, if_true, decide_true, broker, replay_call]
    exact ⟨_, rfl⟩
  · simp only [list, if_false, decide_false, Bool.false_eq_true, broker, replay_call]
    exact ⟨_, rfl⟩

/-- What a lookup leaves in an open row: the state that was reported, or an open one. -/
inductive FoundAs (answer : Except Exc (Option OrderResult)) (status : OrderStatus) : Prop
  | reported (result : OrderResult) (found : answer = .ok (some result))
      (stored : status = .exchange result.status)
  | unreported (silent : ∀ result, answer ≠ .ok (some result)) (live : status.isOpen)

/-- A canonical error counts as no answer. -/
theorem replay_orNone_of {x : Exchange text} {lookup : Task (Option OrderResult)} :
    replay x.respond (orNone lookup) =
      ((replay x.respond lookup).1,
        match (replay x.respond lookup).2 with
        | .error (.rasat _) => .ok none
        | answer => answer) := by
  simp only [orNone, rescue, replay_bind, replay_attempt]
  cases (replay x.respond lookup).2 with
  | ok found => simp only [replay_done, List.append_nil]
  | error raised => cases raised <;> simp only [replay_done, replay_fail, List.append_nil]

/-- So does one of the lookup of an order. -/
theorem replay_orNone {x : Exchange text} {accountId : String} :
    ∃ call, replay x.respond (orNone (queryState accountId order)) =
      ([⟨.broker call, x.respond (.broker call)⟩],
        match x.state order.isList with
        | .error (.rasat _) => .ok none
        | answer => answer) := by
  obtain ⟨call, asked⟩ := @replay_queryState _ order x accountId
  exact ⟨call, by rw [replay_orNone_of, asked]⟩

/-- Updating a row sets its status. -/
theorem updated_status {update : OrderUpdate} {audit : Option AuditEntry} {answer : Except Exc Unit} :
    (updated order ⟨.write (.updateOrder order.orderId update audit), answer⟩).status =
      .exchange update.status := by
  simp [updated]

/-- What the exchange is asked leaves the row alone. -/
theorem updated_broker {call : BrokerCall} {answer : Except Exc (Req.broker call).Ans} :
    updated order ⟨.broker call, answer⟩ = order := rfl

/-- A row that is updated behind a lookup has the status of the update. -/
theorem status_written {α : Type} {call : BrokerCall} {heard : Except Exc (Req.broker call).Ans} {update : OrderUpdate}
    {audit : Option AuditEntry} {value : α} :
    (((⟨.broker call, heard⟩ : Event Req Req.Ans Exc) :: (replay x.respond
      ((dbWrite (.updateOrder order.orderId update audit)).bind fun _ => .done value)).1).foldl updated order).status =
        .exchange update.status := by
  simp only [dbWrite, replay_bind, replay_call, Exchange.respond, replay_done, List.append_nil, List.foldl_cons,
    List.foldl_nil, updated_broker, updated_status]

/-- The reconciliation after a timeout leaves what the lookup says, or an open state. -/
theorem timeout_looksUp {symbol actor : String} (live : order.status.isOpen) :
    FoundAs (x.state order.isList)
      (((replay x.respond (reconcileAfterTimeout svc account order symbol actor)).1).foldl updated
        order).status := by
  obtain ⟨call, asked⟩ := @replay_orNone _ order x account.accountId
  unfold reconcileAfterTimeout
  simp only [bind_eq, pure_eq, dbWrite, replay_bind, asked]
  cases found : x.state order.isList with
  | error raised =>
    cases raised with
    | rasat error =>
      exact .unreported (fun _ same => nomatch same) (status_written ▸ rfl)
    | _ => exact .unreported (fun _ same => nomatch same) live
  | ok answer =>
    cases answer with
    | none =>
      exact .unreported (fun _ same => nomatch same) (status_written ▸ rfl)
    | some result =>
      exact .reported result rfl (status_written.trans rfl)

/-- So does the reconciliation of a call that is made again, for a real account. -/
theorem retry_looksUp (live : order.status.isOpen) :
    if account.tradingLock = .real then
      FoundAs (x.state order.isList) (Activity.row svc x order (.retry account)).status
    else (Activity.row svc x order (.retry account)).status.isOpen := by
  unfold Activity.row Activity.events
  dsimp only
  unfold handleExisting
  rw [if_neg (not_not.mpr live)]
  by_cases real : account.tradingLock = .real
  · rw [if_pos real, if_neg (not_not.mpr real)]
    obtain ⟨call, asked⟩ := @replay_orNone _ order x account.accountId
    simp only [bind_eq, pure_eq, dbWrite, replay_bind, asked]
    cases found : x.state order.isList with
    | error raised =>
      cases raised <;> exact .unreported (fun _ same => nomatch same) live
    | ok answer =>
      cases answer with
      | none => exact .unreported (fun _ same => nomatch same) live
      | some result =>
        exact .reported result rfl (status_written.trans rfl)
  · rw [if_neg real, if_pos real]
    exact live

/-- So does the reconciliation at the startup. -/
theorem startup_looksUp {report : ReconcileReport} (live : order.status.isOpen) :
    FoundAs (x.state order.isList) (Activity.row svc x order (.startup report)).status := by
  unfold Activity.row Activity.events
  dsimp only
  unfold reconcileOrder
  obtain ⟨call, asked⟩ := @replay_queryState _ order x order.accountId
  simp only [bind_eq, pure_eq, dbWrite, replay_bind, replay_attempt, asked]
  cases found : x.state order.isList with
  | error raised =>
    cases raised <;> exact .unreported (fun _ same => nomatch same) live
  | ok answer =>
    dsimp only
    cases heard : answer.filter fun found => found.status ≠ .unknown with
    | none =>
      simp only [replay_bind, replay_call, Exchange.respond, replay_done, List.append_nil,
        List.singleton_append, List.foldl_cons, List.foldl_nil]
      rw [updated_broker, updated_status]
      cases answer with
      | none => exact .unreported (fun _ same => nomatch same) rfl
      | some result =>
        -- A report of an unknown state is stored as one.
        have unknown : result.status = .unknown := by simpa using heard
        exact .reported result rfl (by rw [unknown]; rfl)
    | some result =>
      obtain ⟨rfl, known⟩ := Option.filter_eq_some_iff.mp heard
      dsimp only
      by_cases same : sameAsStored order result
      · rw [if_pos same]
        exact .reported result rfl same.1.symm
      · rw [if_neg same]
        exact .reported result rfl (status_written.trans rfl)

/-- So does the lookup of an earlier SELL of the kill switch, which is asked for as a single order. -/
theorem lookupClose_looksUp {symbol : String} (live : order.status.isOpen) :
    FoundAs (x.state false) (Activity.row svc x order (.lookupClose account symbol)).status := by
  unfold Activity.row Activity.events
  dsimp only
  unfold Rasat.lookupClose
  have asked : replay x.respond (broker (.queryOrder account.accountId symbol order.clientOrderId)) =
      ([⟨.broker (.queryOrder account.accountId symbol order.clientOrderId), _⟩], x.state false) := replay_call
  simp only [bind_eq, pure_eq, dbWrite, replay_bind, replay_orNone_of, asked]
  cases found : x.state false with
  | error raised => cases raised <;> exact .unreported (fun _ same => nomatch same) live
  | ok answer =>
    cases answer with
    | none => exact .unreported (fun _ same => nomatch same) live
    | some result =>
      exact .reported result rfl (status_written.trans rfl)

/-- The state that a report of the kill switch is stored as: one that is not settled is uncertain. -/
def settledAs (status : ExchangeStatus) : ExchangeStatus := if status.isOpen then .unknown else status

/-- What the kill switch leaves in the row of an order that it cancels. -/
inductive CancelLeaves (cancelled lookup : Except Exc (Option OrderResult)) (status : OrderStatus) : Prop
  | failed (raised : Exc) (same : cancelled = .error raised) (live : status.isOpen)
  | reported (result : OrderResult) (found : cancelled = .ok (some result))
      (stored : status = .exchange (settledAs result.status))
  | found (gone : cancelled = .ok none) (result : OrderResult) (reported : lookup = .ok (some result))
      (stored : status = .exchange (settledAs result.status))
  | unsure (gone : cancelled = .ok none) (raised : Exc) (same : lookup = .error raised)
      (odd : ∀ error, raised ≠ .rasat error) (live : status.isOpen)
  /-- A canonical error of the lookup counts as no order, like the answer that there is none. -/
  | dropped (gone : cancelled = .ok none)
      (silent : lookup = .ok none ∨ ∃ error, lookup = .error (.rasat error))
      (stored : status = .exchange .canceled)

/-- What the kill switch writes into a row is its status. -/
theorem row_written {α : Type} {actor action : String} {update : OrderUpdate} {details : Order → List (String × Detail)}
    {value : α} :
    ((replay x.respond ((writeRow svc account actor action (some order) update details).bind fun _ =>
      .done value)).1.foldl updated order).status = .exchange update.status := by
  simp only [writeRow, dbWrite, replay_bind, replay_call, Exchange.respond, replay_done, List.append_nil,
    List.foldl_cons, List.foldl_nil, updated_status]

/-- A cancellation that stays uncertain leaves the row UNKNOWN. -/
theorem uncertain_open {actor : String} {state : CancelState}
    {target : Target} {error : RasatError} (own : target.order = some order) :
    ((replay x.respond (uncertain svc account actor state target error)).1.foldl updated order).status =
      .exchange .unknown := by
  unfold uncertain writeUnknown
  rw [own]
  exact row_written

/-- A cancellation is asked for once. -/
theorem replay_cancel {x : Exchange text} {accountId : String} :
    ∃ call, replay x.respond (if order.isList then
        broker (.cancelOco accountId order.symbol order.clientOrderId)
      else broker (.cancelOrder accountId order.symbol order.clientOrderId) : Task (Option OrderResult)) =
      ([⟨.broker call, x.respond (.broker call)⟩], x.cancelled order.isList) := by
  unfold Exchange.cancelled
  by_cases list : order.isList
  · simp only [list, if_true, broker, replay_call]
    exact ⟨_, rfl⟩
  · simp only [list, if_false, Bool.false_eq_true, broker, replay_call]
    exact ⟨_, rfl⟩

/-- So is the lookup after one that found nothing. -/
theorem replay_querySafe {x : Exchange text} {accountId : String} :
    ∃ call, replay x.respond
        (querySafe accountId ⟨order.clientOrderId, order.symbol, some order⟩ order.isList) =
      ([⟨.broker call, x.respond (.broker call)⟩],
        match x.state order.isList with
        | .ok found => .ok (.ok found)
        | .error .timeout => .ok (.error ⟨.timeout, "cancel state query timed out"⟩)
        | .error (.rasat _) => .ok (.ok none)
        | .error raised => .error raised) := by
  have asked : ∃ call, replay x.respond (if order.isList then broker (.queryOco accountId order.clientOrderId)
      else broker (.queryOrder accountId order.symbol order.clientOrderId) : Task (Option OrderResult)) =
      ([⟨.broker call, x.respond (.broker call)⟩], x.state order.isList) := by
    unfold Exchange.state
    by_cases list : order.isList
    · simp only [list, if_true, broker, replay_call]
      exact ⟨_, rfl⟩
    · simp only [list, if_false, Bool.false_eq_true, broker, replay_call]
      exact ⟨_, rfl⟩
  obtain ⟨call, asked⟩ := asked
  refine ⟨call, ?_⟩
  simp only [querySafe, bind_eq, pure_eq, replay_bind, replay_attempt, asked]
  cases x.state order.isList with
  | ok found => rfl
  | error raised => cases raised <;> rfl

/-- The row after a cancellation by the kill switch. -/
theorem cancel_as {actor : String} {state : CancelState} (live : order.status.isOpen) :
    CancelLeaves (x.cancelled order.isList) (x.state order.isList)
      (Activity.row svc x order (.cancel account actor state)).status := by
  obtain ⟨call, asked⟩ := @replay_cancel _ order x account.accountId
  obtain ⟨query, looked⟩ := @replay_querySafe _ order x account.accountId
  have settles (found : OrderResult) : (found.status.isOpen → settledAs found.status = .unknown) ∧
      (¬found.status.isOpen → settledAs found.status = found.status) :=
    ⟨fun unsettled => if_pos unsettled, fun settled => if_neg settled⟩
  unfold Activity.row Activity.events
  dsimp only
  unfold cancelOne
  rw [show (some order).any (fun row => decide (row.orderType = .oco)) = order.isList from rfl]
  simp only [bind_eq, pure_eq, replay_bind, replay_attempt, asked]
  cases answered : x.cancelled order.isList with
  | error raised =>
    refine .failed raised rfl ?_
    cases raised with
    | rasat error =>
      dsimp only [canonical]
      rw [List.singleton_append, List.foldl_cons, updated_broker, uncertain_open rfl]
      rfl
    | timeout =>
      dsimp only [canonical]
      rw [List.singleton_append, List.foldl_cons, updated_broker, uncertain_open rfl]
      rfl
    | _ => exact live
  | ok cancelled =>
    cases cancelled with
    | some result =>
      refine .reported result rfl ?_
      obtain ⟨unsettled, settled⟩ := settles result
      by_cases canceled : result.status = .canceled
      · simp only [if_pos canceled, writeCancel, List.singleton_append, List.foldl_cons]
        rw [updated_broker, row_written, canceled]
        rfl
      · by_cases alive : result.status.isOpen
        · simp only [if_neg canceled, if_pos alive, List.singleton_append, List.foldl_cons]
          rw [updated_broker, uncertain_open rfl, unsettled alive]
        · simp only [if_neg canceled, if_neg alive, writeSync, List.singleton_append, List.foldl_cons]
          rw [updated_broker, row_written, settled alive]
          rfl
    | none =>
      -- The cancellation found nothing, so the order is looked up.
      simp only [replay_bind, looked]
      cases found : x.state order.isList with
      | error raised =>
        cases raised with
        | rasat error =>
          refine .dropped rfl (.inr ⟨error, rfl⟩) ?_
          simp only [writeCancel, List.singleton_append, List.foldl_cons]
          rw [updated_broker, updated_broker, row_written]
          rfl
        | timeout =>
          refine .unsure rfl _ rfl (fun _ same => nomatch same) ?_
          simp only [List.singleton_append, List.foldl_cons]
          rw [updated_broker, updated_broker, uncertain_open rfl]
          rfl
        | _ => exact .unsure rfl _ rfl (fun _ same => nomatch same) live
      | ok answer =>
        cases answer with
        | none =>
          refine .dropped rfl (.inl rfl) ?_
          simp only [writeCancel, List.singleton_append, List.foldl_cons]
          rw [updated_broker, updated_broker, row_written]
          rfl
        | some result =>
          refine .found rfl result rfl ?_
          obtain ⟨unsettled, settled⟩ := settles result
          by_cases alive : result.status.isOpen
          · simp only [if_pos alive, List.singleton_append, List.foldl_cons]
            rw [updated_broker, updated_broker, uncertain_open rfl, unsettled alive]
          · simp only [if_neg alive, writeSync, List.singleton_append, List.foldl_cons]
            rw [updated_broker, updated_broker, row_written, settled alive]
            rfl

/-- What a submission leaves in its row. -/
inductive SubmittedAs (lookup : Except Exc (Option OrderResult)) (submitted : Except Exc OrderResult)
    (status : OrderStatus) : Prop
  | reported (result : OrderResult) (found : submitted = .ok result)
      (stored : status = .exchange result.status)
  | timedOut (raised : Exc) (failed : submitted = .error raised)
      (late : (canonical "" raised).any fun error => error.code = .timeout)
      (looked : FoundAs lookup status)
  | rejected (error : RasatError) (failed : submitted = .error (.rasat error))
      (code : error.code = .orderRejected) (stored : status = .exchange .rejected)
  | open (raised : Exc) (failed : submitted = .error raised)
      (prompt : ¬(canonical "" raised).any fun error => error.code = .timeout)
      (other : ∀ error, raised = .rasat error → error.code ≠ .orderRejected) (live : status.isOpen)

/-- A failed submission is looked up after a timeout, and recorded otherwise. -/
theorem submissionFailed_as
    {symbol actor timeoutText action : String} {raised : Exc} (live : order.status.isOpen) :
    SubmittedAs (x.state order.isList) (.error raised)
      (((replay x.respond (submissionFailed svc account order symbol actor timeoutText action raised)).1
        ).foldl updated order).status := by
  unfold submissionFailed
  cases raised with
  | rasat error =>
    simp only [canonical]
    by_cases late : error.code = .timeout
    · rw [if_pos late]
      exact .timedOut _ rfl (by simpa [canonical] using late) (timeout_looksUp live)
    · rw [if_neg late]
      simp only [bind_eq, pure_eq, dbWrite, replay_bind, replay_call, Exchange.respond, replay_done,
        List.append_nil, List.foldl_cons, List.foldl_nil, updated_status]
      by_cases refused : error.code = .orderRejected
      · exact .rejected error rfl refused (by simp [failedUpdate, refused])
      · refine .open _ rfl (by simpa [canonical] using late) (fun _ same => ?_) ?_
        · cases same
          exact refused
        · simp [failedUpdate, refused, OrderStatus.isOpen, ExchangeStatus.isOpen]
  | timeout => exact .timedOut _ rfl rfl (timeout_looksUp live)
  | integrity reason => exact .open _ rfl (by simp [canonical]) (fun _ same => by cases same) live
  | other reason => exact .open _ rfl (by simp [canonical]) (fun _ same => by cases same) live

/-- The row of a single order after its submission. -/
theorem submit_as {p : Placement} (live : order.status.isOpen) :
    SubmittedAs (x.state order.isList) (binancePlaceOrder svc.text (p.order svc.text) x.submission)
      (Activity.row svc x order (.submit p)).status := by
  unfold Activity.row Activity.events
  dsimp only
  unfold submitOrder
  simp only [broker, bind_eq, pure_eq, replay_bind, replay_attempt, replay_call, Exchange.respond]
  cases sent : binancePlaceOrder svc.text (p.order svc.text) x.submission with
  | error raised => exact submissionFailed_as live
  | ok result =>
    simp only [dbWrite, replay_bind, replay_call, Exchange.respond, replay_done, List.append_nil,
      List.singleton_append, List.foldl_cons, List.foldl_nil]
    refine .reported result rfl ?_
    rw [updated_broker, updated_status]
    rfl

/-- The row of an OCO list after its submission. -/
theorem submitList_as {o : OcoOrder} (live : order.status.isOpen) :
    SubmittedAs (x.state order.isList) (binancePlaceOco svc.text x.submission)
      (Activity.row svc x order (.submitList account o)).status := by
  unfold Activity.row Activity.events
  dsimp only
  unfold submitList
  simp only [broker, bind_eq, pure_eq, replay_bind, replay_attempt, replay_call, Exchange.respond]
  cases sent : binancePlaceOco svc.text x.submission with
  | error raised => exact submissionFailed_as live
  | ok result =>
    simp only [dbWrite, replay_bind, replay_call, Exchange.respond, replay_done, List.append_nil,
      List.singleton_append, List.foldl_cons, List.foldl_nil]
    refine .reported result rfl ?_
    rw [updated_broker, updated_status]
    rfl

end Rasat
