import RasatTrading.Daemon
import RasatTrading.Coop.Simulation

/-! The part of the orders table that a task holds while it has an account's lock. -/

namespace Rasat

/-- The rows in a task's custody: those of one account, or all of them during startup. -/
structure View where
  scope : Option String
  rows : List Order

namespace View

/-- The rows of a table that a scope selects. -/
def select (scope : Option String) (orders : List Order) : List Order :=
  scope.elim orders fun accountId => ofAccount accountId orders

/-- Whether every row of the account is in the view. -/
def Covers (view : View) (accountId : String) : Prop := ∀ owner, view.scope = some owner → owner = accountId

/-- Ids and keys are unique, and every row is of an account that the view covers. -/
structure Valid (view : View) : Prop where
  ids : (view.rows.map Order.orderId).Nodup
  keys : (view.rows.map fun row => (row.accountId, row.idempotencyKey)).Nodup
  owned : ∀ row ∈ view.rows, view.Covers row.accountId

/-- The view after an insertion. -/
def insert (row : Order) (view : View) : View := { view with rows := view.rows ++ [row] }

/-- The view after an update. -/
def update (orderId : String) (change : OrderUpdate) (view : View) : View :=
  { view with rows := updateRows orderId change view.rows }

end View

variable {change : OrderUpdate} {rows : List Order} {orderId : String} {row : Order}

/-- A row of an updated table is an old row, changed exactly when its id is the updated one. -/
theorem mem_updateRows : row ∈ updateRows orderId change rows ↔
      ∃ old ∈ rows, row = if old.orderId = orderId then old.apply change else old := by
  simp only [updateRows, List.mem_map]
  constructor
  · rintro ⟨old, member, rfl⟩
    exact ⟨old, member, rfl⟩
  · rintro ⟨old, member, rfl⟩
    exact ⟨old, member, rfl⟩

/-- A row with another id is not touched by an update. -/
theorem mem_updateRows_other (member : row ∈ rows) (other : row.orderId ≠ orderId) :
    row ∈ updateRows orderId change rows :=
  mem_updateRows.mpr ⟨row, member, by simp [other]⟩

/-- Any column that an update leaves alone has the same values afterwards. -/
theorem updateRows_map {α : Type} {column : Order → α}
    (kept : ∀ row : Order, column (row.apply change) = column row) (rows : List Order) :
    (updateRows orderId change rows).map column = rows.map column := by
  simp only [updateRows, List.map_map]
  refine List.map_congr_left fun row _ => ?_
  simp only [Function.comp_apply]
  split
  · exact kept row
  · rfl

/-- An update of rows commutes with the choice of an account's rows. -/
theorem ofAccount_updateRows (accountId orderId : String) (change : OrderUpdate) (rows : List Order) :
    ofAccount accountId (updateRows orderId change rows) =
      updateRows orderId change (ofAccount accountId rows) := by
  -- The account of a row is not among the updated columns.
  induction rows with
  | nil => rfl
  | cons row rest ih =>
    have same : (if row.orderId = orderId then row.apply change else row).accountId
        = row.accountId := by
      split <;> rfl
    simp only [ofAccount, updateRows, List.map_cons, List.filter_cons, same] at ih ⊢
    split
    · rw [List.map_cons, ih]
    · exact ih

/-- Rows of other accounts are not touched by an update. -/
theorem updateRows_absent
    (absent : ∀ row ∈ rows, row.orderId ≠ orderId) : updateRows orderId change rows = rows := by
  unfold updateRows
  conv_rhs => rw [← List.map_id rows]
  refine List.map_congr_left fun row member => ?_
  simp [absent row member]

/-- Rows with unique ids are equal when their ids are. -/
theorem eq_of_orderId (ids : (rows.map Order.orderId).Nodup) {row other : Order}
    (member : row ∈ rows) (member' : other ∈ rows) (same : row.orderId = other.orderId) :
    row = other :=
  List.inj_on_of_nodup_map ids member member' same

variable {orders : List Order}

/-- Loading an order finds a row of that account and key. -/
theorem loadOrder_some {accountId key : String} (found : loadOrder orders accountId key = some row) :
    row ∈ orders ∧ row.accountId = accountId ∧ row.idempotencyKey = key := by
  have member := List.mem_of_find?_eq_some found
  have named := List.find?_some found
  simp only [decide_eq_true_eq] at named
  exact ⟨member, named⟩

/-- Loading an order finds nothing exactly when no row has that account and key. -/
theorem loadOrder_none {accountId key : String} : loadOrder orders accountId key = none ↔
      ∀ row ∈ orders, ¬(row.accountId = accountId ∧ row.idempotencyKey = key) := by
  simp [loadOrder, List.find?_eq_none]

/-- The open close SELL that is looked up is one of the candidates. -/
theorem loadOpenClose_some {accountId symbol : String} {pick : Nat}
    (found : loadOpenClose orders accountId symbol pick = some row) :
    row ∈ orders ∧ isOpenClose accountId symbol row := by
  have member := List.mem_of_getElem? found
  simp only [List.mem_filter] at member
  exact member.1

/-- When candidates exist, one of them is found. -/
theorem loadOpenClose_none {accountId symbol : String} {pick : Nat}
    (missing : loadOpenClose orders accountId symbol pick = none) :
    ∀ row ∈ orders, ¬isOpenClose accountId symbol row := by
  intro row member candidate
  -- A candidate with the latest creation time is among the newest rows, so there are some.
  set candidates := orders.filter (isOpenClose accountId symbol) with chosen
  have inside : row ∈ candidates := List.mem_filter.mpr ⟨member, candidate⟩
  obtain ⟨latest, located⟩ : ∃ latest, candidates.argmax Order.createdAt = some latest := by
    cases located : candidates.argmax Order.createdAt with
    | none => rw [List.argmax_eq_none.mp located] at inside; cases inside
    | some latest => exact ⟨latest, rfl⟩
  set newest := candidates.filter fun row => candidates.all fun other =>
    other.createdAt ≤ row.createdAt with top
  have among : latest ∈ newest := by
    refine List.mem_filter.mpr ⟨List.argmax_mem located, ?_⟩
    simp only [List.all_eq_true, decide_eq_true_eq]
    intro other listed
    exact List.le_of_mem_argmax listed located
  have positive : 0 < newest.length := List.length_pos_of_mem among
  have bounded : pick % newest.length < newest.length := Nat.mod_lt _ positive
  have absent : newest[pick % newest.length]? = none := missing
  rw [List.getElem?_eq_getElem bounded] at absent
  cases absent

end Rasat

/-! What a task must know before it may touch an order: custody of the row and its own history. -/

namespace Rasat

open Coop

/-- The account at which a broker call changes something. -/
def BrokerCall.mutates : BrokerCall → Option String
  | .placeOrder order => some order.accountId
  | .placeOco order => some order.accountId
  | .cancelOrder accountId _ _ => some accountId
  | .cancelOco accountId _ _ => some accountId
  | .cancelAllOpenOrders accountId _ => some accountId
  | .queryOrder _ _ _ | .queryOco _ _ | .getAllOpenOrders _ | .getBalance _ => none

/-- The account at which a request changes something at the broker. -/
def Req.mutates : Req → Option String
  | .broker call => call.mutates
  | _ => none

/-- The stripped idempotency key of an argument. -/
def Arg.key : Arg → Option String
  | .text s => some (strip s)
  | _ => none

/-- The stripped idempotency key under which a call places its orders. -/
def Call.key : Call → Option String
  | .placeOrder args => args.idempotencyKey.key
  | .placeOcoOrder args => args.idempotencyKey.key
  | .executeOnAccounts args => args.idempotencyKey.key
  | .approvePendingOrder orderId _ => some (strip (pendingKey orderId))
  | _ => none

/-- Whether the call is the kill switch. -/
def Call.isClose : Call → Bool
  | .closeAllPositions _ _ => true
  | _ => false

/-- An account row among those that a read returned. -/
def ReadsAccount (event : Event Req Req.Ans Exc) (row : Account) : Prop :=
  match event with
  | ⟨.read (.account _), .ok found⟩ => found = some row
  | ⟨.read .accounts, .ok listed⟩ => row ∈ listed
  | _ => False

/-- The task has read the account's trading lock as `real`. -/
def SawReal (hist : History) (accountId : String) : Prop :=
  ∃ event ∈ hist, ∃ row, ReadsAccount event row ∧ row.accountId = accountId ∧
    row.tradingLock = .real

/-- The task has read the account's trading lock as `paper`. -/
def SawPaper (hist : History) (accountId : String) : Prop :=
  ∃ event ∈ hist, ∃ row, ReadsAccount event row ∧ row.accountId = accountId ∧
    row.tradingLock = .paper

/-- The newest policy that the task has read, with its history since the beginning until then. -/
def lastPolicyRead : History → Option (RiskPolicy × History)
  | [] => none
  | event :: rest =>
    match event with
    | ⟨.read (.policy _), .ok (some policy)⟩ => some (policy, event :: rest)
    | _ => lastPolicyRead rest

/-- The exposure that the task computed after some point of its history. -/
def Exposed (hist seen : History) (accountId : String) (exposure : ℚ) : Prop :=
  ∃ until_, Reaches (currentExposure accountId quoteAsset) seen (.done exposure) until_ ∧ until_ <:+ hist

/-- The task applied an override for an order of this account and key under this version. -/
def Consumed (hist : History) (accountId : String) (version : Nat) (key : String) : Prop :=
  ∃ now audit override,
    (⟨.write (.consumeOverride accountId version key now audit), .ok (some override)⟩ :
      Event Req Req.Ans Exc) ∈ hist

/-- The draft passed the caps of the newest policy read, or an override was applied for it. -/
def Judged (text : Text) (hist : History) (draft : OrderDraft) : Prop :=
  ∃ policy seen exposure, lastPolicyRead hist = some (policy, seen) ∧
    Exposed hist seen draft.accountId exposure ∧
    (enforcePolicyCaps text draft.symbol draft.notional policy (exposure + draft.notional) = .ok () ∨
      Consumed hist draft.accountId policy.policyVersion draft.idempotencyKey)

/-- What the broker answered about the order with this account and client order id. -/
def brokerReport (accountId clientOrderId : String) (event : Event Req Req.Ans Exc) :
    Option (Except Exc (Option OrderResult)) :=
  match event with
  | ⟨.broker (.placeOrder order), answer⟩ =>
    if order.accountId = accountId ∧ order.clientOrderId = clientOrderId then some (answer.map some)
    else none
  | ⟨.broker (.placeOco order), answer⟩ =>
    if order.accountId = accountId ∧ order.clientOrderId = clientOrderId then some (answer.map some)
    else none
  | ⟨.broker (.queryOrder owner _ id), answer⟩ =>
    if owner = accountId ∧ id = clientOrderId then some answer else none
  | ⟨.broker (.queryOco owner id), answer⟩ =>
    if owner = accountId ∧ id = clientOrderId then some answer else none
  | ⟨.broker (.cancelOrder owner _ id), answer⟩ =>
    if owner = accountId ∧ id = clientOrderId then some answer else none
  | ⟨.broker (.cancelOco owner _ id), answer⟩ =>
    if owner = accountId ∧ id = clientOrderId then some answer else none
  | _ => none

/-- Whether an event asks the broker for the state of an order. -/
def isQuery (event : Event Req Req.Ans Exc) : Bool :=
  match event.request with
  | .broker (.queryOrder _ _ _) | .broker (.queryOco _ _) => true
  | _ => false

/-- The broker said that the order is CANCELED, or that it does not exist. -/
def ReportsCanceled (accountId clientOrderId : String) (event : Event Req Req.Ans Exc) : Prop :=
  (∃ result, brokerReport accountId clientOrderId event = some (.ok (some result)) ∧
    result.status = .canceled) ∨
  (isQuery event ∧ brokerReport accountId clientOrderId event = some (.ok none))

/-- The query for the state of the order raised a canonical error. -/
def ReportsError (accountId clientOrderId : String) (event : Event Req Req.Ans Exc) : Prop :=
  isQuery event ∧ ∃ error, brokerReport accountId clientOrderId event = some (.error (.rasat error))

/-- What a task knows: its call, its history, the rows in its custody and its doubtful lookups. -/
structure Knowledge where
  /-- Absent for the startup. -/
  call : Option Call
  hist : History
  view : Option View
  /-- The kill switch once sold without a definite answer about every open close order. -/
  suspect : Prop

/-- The answer to the lookup of an earlier close SELL leaves an open one unaccounted for: the lookup
failed, or it rules out that order while another one is open among the rows. -/
def DoubtfulAnswer (hist : History) (rows : List Order) :
    (request : Req) → Except Exc request.Ans → Prop
  | .broker (.queryOrder accountId symbol clientOrderId), answer =>
    ∃ row rest, hist = ⟨.read (.openClose accountId symbol), .ok (some row)⟩ :: rest ∧
      row.clientOrderId = clientOrderId ∧
      match answer with
      | .error (.rasat _) => True
      | .error _ => False
      | .ok found =>
        (∀ report, found = some report → ¬blocksSale report.status) ∧
          ∃ other ∈ rows, isOpenClose accountId symbol other ∧ other.orderId ≠ row.orderId
  | _, _ => False

/-- The answer is doubtful for what the task holds. -/
def Doubtful (known : Knowledge) (request : Req) (answer : Except Exc request.Ans) : Prop :=
  DoubtfulAnswer known.hist (known.view.elim [] View.rows) request answer

/-- What reads tell regardless of custody. -/
def ReadsTrue : (query : Query) → query.Ans → Prop
  | .account accountId, found =>
    ∀ row, found = some row → row.accountId = accountId ∧ strip row.accountId = row.accountId
  | .accounts, listed => ∀ row ∈ listed, strip row.accountId = row.accountId
  | _, _ => True

/-- What reads of orders tell about rows in custody. -/
def ReadsView (view : View) : (query : Query) → query.Ans → Prop
  | .order accountId key, found =>
    view.Covers accountId → found = loadOrder view.rows accountId key
  | .openNotional accountId, total =>
    view.Covers accountId → total = openOrderNotional view.rows accountId
  | .activeOrders accountId, rows =>
    view.Covers accountId → rows = activeOrders view.rows accountId
  | .openClose accountId symbol, found =>
    view.Covers accountId → ∃ pick, found = loadOpenClose view.rows accountId symbol pick
  | .stuckOrders accountIds, rows => view.scope = none → rows = stuckOrders view.rows accountIds
  | _, _ => True

/-- What an answer does to the rows in custody. -/
def ViewStep (view : Option View) : (request : Req) → Except Exc request.Ans → Option View → Prop
  | .lock accountId, .ok _, after => ∃ rows, after = some ⟨some accountId, rows⟩
  | .lock _, .error _, _ => False
  | .unlock _, .ok _, after => after = none
  | .unlock _, .error _, _ => False
  | .write (.insertOrder draft simulated _), .ok row, after =>
    row = newOrder draft simulated row.orderId row.createdAt ∧
      (∀ held, view = some held → row.orderId ∉ held.rows.map Order.orderId) ∧
      after = view.map (View.insert row)
  | .write (.updateOrder orderId change _), .ok _, after => after = view.map (View.update orderId change)
  | .read query, .ok answer, after =>
    after = view ∧ ReadsTrue query answer ∧ ∀ held, view = some held → ReadsView held query answer
  | _, _, after => after = view

/-- What a task learns from an answer. -/
structure Learns (known : Knowledge) (request : Req) (answer : Except Exc request.Ans)
    (learned : Knowledge) : Prop where
  call : learned.call = known.call
  hist : learned.hist = ⟨request, answer⟩ :: known.hist
  view : ViewStep known.view request answer learned.view
  valid : ∀ held, learned.view = some held → held.Valid
  suspect : learned.suspect ↔ known.suspect ∨ Doubtful known request answer

/-- The broker told in this call that the order ended without a fill or does not exist. -/
def Excused (hist : History) (row : Order) : Prop :=
  ∃ event ∈ hist, isQuery event ∧
    (brokerReport row.accountId row.clientOrderId event = some (.ok none) ∨
      ∃ report, brokerReport row.accountId row.clientOrderId event = some (.ok (some report)) ∧
        ¬blocksSale report.status)

/-- The task just committed the row of the order that it is about to send. -/
def Armed (known : Knowledge) (accountId : String) (row : Order) : Prop :=
  ∃ draft audit rest,
    known.hist = ⟨.write (.insertOrder draft false audit), .ok row⟩ :: rest ∧
      draft.accountId = accountId ∧
      ∀ key, known.call.bind Call.key = some key → draft.idempotencyKey = key

/-- Every open close SELL of the symbol, other than the new row, is accounted for. -/
def Accounted (known : Knowledge) (accountId symbol : String) (row : Order) : Prop :=
  (∃ call, known.call = some call ∧ call.isClose) →
    ∀ view other, known.view = some view → other ∈ view.rows →
      isOpenClose accountId symbol other → other.orderId ≠ row.orderId →
      known.suspect ∨ Excused known.hist other

/-- The row was among the active orders of its account, which had been read as paper before. -/
def ListedPaper (hist : History) (row : Order) : Prop :=
  ∃ newer active older, hist = newer ++ ⟨.read (.activeOrders row.accountId), .ok active⟩ :: older ∧
    row ∈ active ∧ SawPaper older row.accountId

/-- Why a row may become CANCELED. -/
inductive Cancelable (known : Knowledge) (row : Order) : Prop
  /-- The broker has just said so. -/
  | reported (event : Event Req Req.Ans Exc) (rest : History) (newest : known.hist = event :: rest)
      (report : ReportsCanceled row.accountId row.clientOrderId event)
  /-- The kill switch found the account in paper mode. -/
  | simulated (call : Call) (serving : known.call = some call) (closing : call.isClose)
      (listed : ListedPaper known.hist row)
  /-- The kill switch took a failed query, after a cancellation that found nothing, for a missing order. -/
  | unverified (event missed : Event Req Req.Ans Exc) (rest : History)
      (newest : known.hist = event :: missed :: rest)
      (failed : ReportsError row.accountId row.clientOrderId event)
      (missing : brokerReport row.accountId row.clientOrderId missed = some (.ok none))

/-- The requests that a task's knowledge permits. -/
def Permits (text : Text) (known : Knowledge) : Req → Prop
  | .lock _ => known.view = none
  | .unlock accountId => ∃ rows, known.view = some ⟨some accountId, rows⟩
  | .broker call =>
    (∀ accountId, call.mutates = some accountId → SawReal known.hist accountId) ∧
      match call with
      | .placeOrder order =>
        ∃ row, Armed known order.accountId row ∧ Accounted known order.accountId order.symbol row
      | .placeOco order => ∃ row, Armed known order.accountId row
      | _ => True
  | .write (.insertOrder draft _ _) =>
    (∃ rows, known.view = some ⟨some draft.accountId, rows⟩) ∧
      ((∃ call, known.call = some call ∧ call.isClose) ∨ Judged text known.hist draft)
  | .write (.updateOrder orderId change _) =>
    ∃ view row, known.view = some view ∧ row ∈ view.rows ∧ row.orderId = orderId ∧
      row.status.isOpen ∧ (change.status = .canceled → Cancelable known row)
  | .write (.consumeOverride _ version _ now _) =>
    ∃ policy seen rest, lastPolicyRead known.hist = some (policy, seen) ∧
      policy.policyVersion = version ∧ known.hist = ⟨.clock, .ok now⟩ :: rest
  | .write (.setRiskPolicy _ patch _ _) => parseSymbols patch.symbols = patch.symbols
  | .orderService _ => False
  | _ => True

/-- The discipline of custody. -/
def custody (text : Text) : Discipline Req Req.Ans Exc Knowledge where
  rule := Permits text
  learn := Learns

end Rasat
