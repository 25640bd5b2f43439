import RasatTrading.Orders.Judging
import RasatTrading.Solo

/-! What a call reports of an order is what the row of the order stores. -/

namespace Rasat

open Coop Prog

variable {svc : Service} {account : Account} {s after : Solo} {id key : String}

-- Programs are taken apart by the rules of footprints alone.
seal Prog.Only

/-- A result without the fields that no row of orders stores. -/
def AccountResult.common (result : AccountResult) : AccountResult :=
  { result with positionSize := none, error := none }

/-- What the broker answered to the lists that were placed, newest first. -/
def listAnswers (heard : History) : List OrderResult :=
  heard.filterMap fun
    | ⟨.broker (.placeOco _), .ok result⟩ => some result
    | _ => none

/-- Requests that neither write an order nor place a list. -/
def Beside : Req → Prop
  | .broker (.placeOco _) => False
  | request => SparesOrders request

variable {request : Req}

/-- What is asked beside spares the orders. -/
theorem Beside.spares (beside : Beside request) : SparesOrders request := by
  cases request with
  | broker call => trivial
  | _ => exact beside

/-- What requests beside the order leave: the same orders, and no list that was answered. -/
structure Meanwhile (before after : Solo) : Prop where
  formed : after.db.WellFormed
  orders : after.db.orders = before.db.orders
  lists : listAnswers after.heard = listAnswers before.heard

/-- Nothing may happen meanwhile, -/
theorem Meanwhile.refl (formed : s.db.WellFormed) : Meanwhile s s := ⟨formed, rfl, rfl⟩

/-- and one thing after the other. -/
theorem Meanwhile.trans {first second third : Solo} (one : Meanwhile first second)
    (two : Meanwhile second third) : Meanwhile first third :=
  ⟨two.formed, two.orders.trans one.orders, two.lists.trans one.lists⟩

/-- The rows stay meanwhile. -/
theorem Meanwhile.keeps (meanwhile : Meanwhile s after) : Keeps id s.db after.db :=
  .of_orders meanwhile.formed meanwhile.orders

/-- An event other than an answered list adds none. -/
theorem listAnswers_cons {answer : Except Exc request.Ans} {heard : History}
    (other : ∀ order, request ≠ .broker (.placeOco order)) :
    listAnswers (⟨request, answer⟩ :: heard) = listAnswers heard := by
  unfold listAnswers
  rw [List.filterMap_cons_none]
  cases request with
  | broker call => cases call <;> first | rfl | exact absurd rfl (other _)
  | _ => rfl

/-- No list is placed beside. -/
theorem Beside.unlisted (beside : Beside request) : ∀ order, request ≠ .broker (.placeOco order) := by
  rintro order rfl
  exact beside

/-- A request beside the order. -/
theorem serve_meanwhile {answer : Except Exc request.Ans} (beside : Beside request)
    (formed : s.db.WellFormed) (served : Solo.serve request s = (answer, after)) : Meanwhile s after := by
  refine ⟨Solo.serve_wellFormed (Solo.sparesOrders_direct beside.spares) formed served,
    Solo.serve_orders beside.spares served, ?_⟩
  -- What was heard grows by an event that answers no list.
  rw [Solo.serve_heard served, listAnswers_cons beside.unlisted]

/-- An error leaves everything as it is, unless a list was placed. -/
theorem serve_failed {raised : Exc} (direct : ∀ args, request ≠ .orderService args)
    (formed : s.db.WellFormed) (served : Solo.serve request s = (.error raised, after)) :
    Meanwhile s after := by
  have same := Solo.serve_error direct served
  refine ⟨same ▸ formed, by rw [same], ?_⟩
  rw [Solo.serve_heard served]
  unfold listAnswers
  -- An error answers no list, whatever was asked for.
  rw [List.filterMap_cons_none]
  cases request with
  | broker call => cases call <;> rfl
  | _ => rfl

/-- A program beside the order, in a sequence. -/
theorem beside_then {α β : Type} {program : Task α} {next : α → Task β}
    {post : Except Exc β → Solo → Prop} (only : program.Only Beside) (formed : s.db.WellFormed)
    (rest : ∀ value g, Meanwhile s g → Safe solo (next value) g post)
    (error : ∀ raised g, Meanwhile s g → post (.error raised) g) :
    Safe solo (program.bind next) s post := by
  have kept : Safe solo program s fun _ g => Meanwhile s g :=
    Safe.of_only Beside (Meanwhile s) (fun _ _ _ _ => trivial)
      (fun g request answer later meanwhile beside served =>
        meanwhile.trans (serve_meanwhile beside meanwhile.formed served)) only (.refl formed)
  exact Safe.bind kept rest error

variable {α : Type}

/-- Asking is beside the orders, -/
theorem beside_of_asking {program : Task α} (only : program.Only Asking) : program.Only Beside := by
  refine only.mono fun request asking => ?_
  cases request with
  | broker call => cases call <;> trivial
  | write tx => exact absurd asking id
  | orderService args => exact absurd asking id
  | _ => trivial

/-- and so is the gate, -/
theorem beside_of_gating {program : Task α} (only : program.Only Gating) : program.Only Beside := by
  refine only.mono fun request gating => ?_
  cases request with
  | broker call => exact absurd gating id
  | write tx => cases tx <;> trivial
  | orderService args => exact absurd gating id
  | _ => trivial

/-- the reading of filters, -/
theorem requireFilters_beside (symbol : String) : (requireFilters symbol).Only Beside := by
  refine only_asks trivial fun filters => ?_
  cases filters <;> first | exact only_done | exact only_fail

variable {accountId : String}

/-- and that of a state. -/
theorem queryState_beside (order : Order) : (queryState accountId order).Only Beside := by
  unfold queryState
  split <;> exact only_call.mpr trivial

/-! One account and key. -/

/-- What a program under the lock of an account leaves, when it places no list. -/
structure Worked (id : String) (began g : Solo) : Prop where
  keeps : Keeps id began.db g.db
  lists : listAnswers g.heard = listAnswers began.heard

variable {began : Solo} {result : AccountResult} {row : Order} {post : Except Exc AccountResult → Solo → Prop}
  {outcome : Except Exc AccountResult}

/-- What happens after the work changes nothing about it. -/
theorem Worked.then {middle : Solo} (worked : Worked id began middle)
    (meanwhile : Meanwhile middle after) : Worked id began after :=
  ⟨worked.keeps.trans meanwhile.keeps, meanwhile.lists.trans worked.lists⟩

/-- The work leaves a well-formed database. -/
theorem Worked.formed (worked : Worked id began s) : s.db.WellFormed := worked.keeps.formed

/-- A result and the row of the order that it reports. -/
structure Mirrors (id key : String) (before after : Database) (result : AccountResult) (row : Order) :
    Prop where
  member : row ∈ after.orders
  owner : row.accountId = id
  named : row.idempotencyKey = key
  account : result.accountId = id
  shown : (result.order.map fun view => view.orderId) = some row.orderId
  /-- An order of the key that had settled is reported as it was stored. -/
  settled : ∀ old ∈ before.orders, old.accountId = id → old.idempotencyKey = key →
    old.status.isOpen = false → result.common = orderToResult old

/-- A reply that mirrors a row carries an order. -/
theorem Mirrors.carried {before after : Database}
    (mirrors : Mirrors id key before after result row) : result.order.isSome := by
  obtain ⟨view, found, -⟩ := Option.map_eq_some_iff.mp mirrors.shown
  rw [found]
  rfl

/-- The row that a result shows is the one that it mirrors. -/
theorem Mirrors.stored {before after : Database} {other : Order}
    (mirrors : Mirrors id key before after result row) (formed : after.WellFormed)
    (member : other ∈ after.orders) (same : result.common = orderToResult other) : other = row := by
  -- The view of an order names its row by the order id, and there is one row with it.
  have views : result.common.order = (orderToResult other).order := congrArg AccountResult.order same
  have ids := mirrors.shown
  rw [show result.order = (orderToResult other).order from views] at ids
  exact eq_of_orderId formed.orderIds member mirrors.member (Option.some.inj ids)

/-- A program of one account and key that places no list reports its order as the row stores it. -/
def Replies (id key : String) (began : Solo) : Except Exc AccountResult → Solo → Prop :=
  Outcome
    (fun result g => Worked id began g ∧
      ∃ row, Mirrors id key began.db g.db result row ∧ result.common = orderToResult row)
    fun _ g => Worked id began g

/-- No settled order of the account and key was stored. -/
def Unsettled (id key : String) (db : Database) : Prop :=
  ∀ old ∈ db.orders, old.accountId = id → old.idempotencyKey = key → old.status.isOpen = true

/-- An order that was not there before is reported without a settled one. -/
theorem Unsettled.mirrors {before : Database}
    (unsettled : Unsettled id key before) (member : row ∈ after.db.orders) (owner : row.accountId = id)
    (named : row.idempotencyKey = key) (account : result.accountId = id)
    (shown : (result.order.map fun view => view.orderId) = some row.orderId) :
    Mirrors id key before after.db result row where
  member := member
  owner := owner
  named := named
  account := account
  shown := shown
  settled := by
    intro old listed owned keyed closed
    rw [unsettled old listed owned keyed] at closed
    cases closed

section Worked

variable (worked : Worked id began s)
include worked

/-- A stored row that is updated is reported as it is updated. -/
theorem update_replies {update : OrderUpdate} {audit : Option AuditEntry}
    {size : Option ℚ} {error : Option RasatError}
    (unsettled : Unsettled id key began.db) (member : row ∈ s.db.orders) (owner : row.accountId = id)
    (named : row.idempotencyKey = key) :
    Safe solo ((dbWrite (.updateOrder row.orderId update audit)).bind fun _ =>
      .done (orderToResult (row.apply update) size error)) s (Replies id key began) := by
  refine servedBy_then (fun committed g served => .done ?_) fun raised g served => ?_
  · -- The update is committed: the row stores exactly what is shown.
    obtain ⟨stored, keeps⟩ := Solo.serve_update worked.formed member served
    have lists : listAnswers g.heard = listAnswers began.heard := by
      rw [Solo.serve_heard served, listAnswers_cons (fun _ => by simp)]
      exact worked.lists
    exact ⟨⟨worked.keeps.trans (owner ▸ keeps), lists⟩, _,
      unsettled.mirrors stored owner named owner rfl, rfl⟩
  · exact worked.then (serve_failed (fun _ => by simp) worked.formed served)

/-- What a broker lookup returns, a canonical error being no answer, changes nothing. -/
theorem lookup_then {order : Order} {next : Option OrderResult → Task AccountResult}
    (rest : ∀ found g, Worked id began g → g.db.orders = s.db.orders →
      Safe solo (next found) g (Replies id key began)) :
    Safe solo ((orNone (queryState accountId order)).bind next) s (Replies id key began) := by
  refine beside_then (orNone_only (queryState_beside order)) worked.formed ?_ ?_
  · exact fun found g meanwhile => rest found g (worked.then meanwhile) meanwhile.orders
  · exact fun raised g meanwhile => worked.then meanwhile

/-- `_reconcile_after_timeout` reports the row. -/
theorem reconcileAfterTimeout_replies {symbol actor : String}
    (unsettled : Unsettled id key began.db) (member : row ∈ s.db.orders)
    (owner : row.accountId = id) (named : row.idempotencyKey = key) :
    Safe solo (reconcileAfterTimeout svc account row symbol actor) s (Replies id key began) := by
  unfold reconcileAfterTimeout
  refine lookup_then worked fun found g worked same => ?_
  rw [← same] at member
  cases found with
  | some result => exact update_replies worked unsettled member owner named
  | none => exact update_replies worked unsettled member owner named

/-- So does what follows a failed submission. -/
theorem submissionFailed_replies {symbol actor timeoutText action : String}
    {raised : Exc} (unsettled : Unsettled id key began.db)
    (member : row ∈ s.db.orders) (owner : row.accountId = id) (named : row.idempotencyKey = key) :
    Safe solo (submissionFailed svc account row symbol actor timeoutText action raised) s
      (Replies id key began) := by
  unfold submissionFailed
  split
  · -- What the service does not catch ends the call without a reply.
    exact .fail worked
  · split
    · exact reconcileAfterTimeout_replies worked unsettled member owner named
    · exact update_replies worked unsettled member owner named

/-- `_handle_existing` reports the row, as it was when it had settled. -/
theorem handleExisting_replies
    (same : s.db.orders = began.db.orders) (member : row ∈ s.db.orders) (owner : row.accountId = id)
    (named : row.idempotencyKey = key) :
    Safe solo (handleExisting svc account row) s (Replies id key began) := by
  -- The account and the key name one row.
  have only : ∀ old ∈ began.db.orders, old.accountId = id → old.idempotencyKey = key → old = row := by
    intro old listed owned keyed
    refine List.inj_on_of_nodup_map worked.formed.orderKeys (same ▸ listed) member ?_
    rw [owned, keyed, owner, named]
  have asStored : Replies id key began (.ok (orderToResult row)) s := by
    refine ⟨worked, row, ⟨member, owner, named, owner, rfl, fun old listed owned keyed _ => ?_⟩, rfl⟩
    rw [only old listed owned keyed]
    rfl
  unfold handleExisting
  -- A settled order is shown as it is, and an open one is looked up first.
  by_cases closed : ¬row.status.isOpen
  · rw [if_pos closed]
    exact .done asStored
  rw [if_neg closed]
  split
  · exact .done asStored
  · refine lookup_then worked fun found g worked kept => ?_
    have unsettled : Unsettled id key began.db := by
      intro old listed owned keyed
      rw [only old listed owned keyed]
      exact not_not.mp closed
    have listed : row ∈ g.db.orders := kept ▸ member
    cases found with
    | none => exact .done ⟨worked, row, unsettled.mirrors listed owner named owner rfl, rfl⟩
    | some result => exact update_replies worked unsettled listed owner named

omit worked in
/-- Nothing of a key that is not stored had settled. -/
theorem unsettled_of_missing {db : Database} (missing : loadOrder db.orders id key = none) :
    Unsettled id key db :=
  fun old listed owned keyed => absurd ⟨owned, keyed⟩ (loadOrder_none.mp missing old listed)

/-- An order is stored, and then looked after. -/
theorem stored_then {draft : OrderDraft} {simulated : Bool} {audit : Option AuditEntry}
    {next : Order → Task AccountResult}
    (rest : ∀ orderId now g, Worked id began g → newOrder draft simulated orderId now ∈ g.db.orders →
      Safe solo (next (newOrder draft simulated orderId now)) g post)
    (error : ∀ raised g, Worked id began g → post (.error raised) g) :
    Safe solo ((dbWrite (.insertOrder draft simulated audit)).bind next) s post := by
  refine servedBy_then (fun row g served => ?_) fun raised g served => ?_
  · obtain ⟨⟨orderId, now, rfl⟩, member, keeps⟩ := Solo.serve_insert worked.formed served
    refine rest orderId now g ⟨worked.keeps.trans keeps, ?_⟩ member
    rw [Solo.serve_heard served, listAnswers_cons (fun _ => by simp)]
    exact worked.lists
  · exact error raised g (worked.then (serve_failed (fun _ => by simp) worked.formed served))

/-- `_place_and_record` reports the row that it inserts. -/
theorem placeAndRecord_replies {p : Placement}
    (unsettled : Unsettled id key began.db) (owner : p.account.accountId = id)
    (named : p.idempotencyKey = key) :
    Safe solo (placeAndRecord svc p) s (Replies id key began) := by
  unfold placeAndRecord
  refine beside_then only_ofExcept worked.formed (fun again g meanwhile => ?_)
    fun raised g meanwhile => worked.then meanwhile
  have worked := worked.then meanwhile
  by_cases paper : ¬p.isReal
  · -- The row of a simulated order is never updated.
    rw [if_pos paper]
    refine stored_then worked (fun orderId now g worked member => .done ?_) fun _ _ worked => worked
    exact ⟨worked, _, unsettled.mirrors member owner named owner rfl, rfl⟩
  rw [if_neg paper]
  refine stored_then worked (fun orderId now g worked member => ?_) fun _ _ worked => worked
  -- The row is in the tables before the broker hears of the order.
  have submission : (broker (.placeOrder (p.order svc.text))).attempt.Only Beside :=
    only_attempt (only_call.mpr trivial)
  refine beside_then submission worked.formed (fun submitted g meanwhile => ?_)
    fun raised g meanwhile => worked.then meanwhile
  have worked := worked.then meanwhile
  rw [← meanwhile.orders] at member
  cases submitted with
  | error raised => exact submissionFailed_replies worked unsettled member owner named
  | ok result => exact update_replies worked unsettled member owner named

omit worked in
/-- The row of an account is read under its id. -/
theorem account_then {next : Account → Task α} {post : Except Exc α → Solo → Prop} (formed : s.db.WellFormed)
    (rest : ∀ account g, Meanwhile s g → account.accountId = accountId → Safe solo (next account) g post)
    (error : ∀ raised g, Meanwhile s g → post (.error raised) g) :
    Safe solo ((getAccount accountId).bind next) s post := by
  unfold getAccount
  rw [bind_eq, bind_assoc]
  have reads : Beside (.read (.account accountId)) := trivial
  refine servedBy_then (fun found g served => ?_)
    fun raised g served => error raised g (serve_meanwhile reads formed served)
  have meanwhile := serve_meanwhile reads formed served
  obtain ⟨-, pick, looked⟩ := Solo.serve_read served
  cases found with
  | none => exact .fail (error _ g meanwhile)
  | some account =>
    have named := List.find?_some looked.symm
    exact rest account g meanwhile (by simpa using named)

/-- The order of a key is looked up before anything else is done about it. -/
theorem order_then {next : Option Order → Task AccountResult} (same : s.db.orders = began.db.orders)
    (missing : ∀ g, Worked id began g → Unsettled id key began.db → Safe solo (next none) g post)
    (existing : ∀ row g, Worked id began g → g.db.orders = began.db.orders → row ∈ g.db.orders →
      row.accountId = id → row.idempotencyKey = key → Safe solo (next (some row)) g post)
    (error : ∀ raised g, Worked id began g → post (.error raised) g) :
    Safe solo ((dbRead (.order id key)).bind next) s post := by
  have reads : Beside (.read (.order id key)) := trivial
  refine servedBy_then (fun found g served => ?_)
    fun raised g served => error raised g (worked.then (serve_meanwhile reads worked.formed served))
  have meanwhile := serve_meanwhile reads worked.formed served
  obtain ⟨-, pick, looked⟩ := Solo.serve_read served
  -- The key decides between a new order and the one that is stored.
  cases found with
  | none =>
    have unsettled := unsettled_of_missing looked.symm
    exact missing g (worked.then meanwhile) fun old listed => unsettled old (same ▸ listed)
  | some row =>
    obtain ⟨member, owner, named⟩ := loadOrder_some looked.symm
    exact existing row g (worked.then meanwhile) (meanwhile.orders.trans same)
      (meanwhile.orders ▸ member) owner named

end Worked

/-- Sizing is beside the orders, -/
theorem sizeOrder_beside (account : Account) (o : SizedOrder) : (sizeOrder svc account o).Only Beside := by
  refine only_bind (beside_of_asking isReal_asks) fun real => ?_
  refine only_bind (beside_of_asking (accuracyPreflight_asks _ _ _ _)) fun _ => ?_
  refine only_asks trivial fun price => only_asks trivial fun held => ?_
  refine only_bind (beside_of_asking (equityFromBalances_asks _ _)) fun equity => ?_
  refine only_bind (requireFilters_beside _) fun filters => ?_
  exact only_bind only_ofExcept fun _ => only_bind only_ofExcept fun _ => only_done

/-- and so is the permission. -/
theorem allow_beside (accountId : String) (account : Account) (symbol key : String) (side : Side)
    (balances : Balances) (baseAsset : String) (quantity notional : ℚ) :
    (allow svc accountId account symbol key side balances baseAsset quantity notional).Only Beside := by
  refine only_bind only_ofExcept fun _ => only_bind (beside_of_gating (getPolicy_gating _)) fun policy => ?_
  refine only_bind (beside_of_asking (currentExposure_asks _ _)) fun exposure => ?_
  exact beside_of_gating (enforceCapsOrOverride_gating _ _ _ _ _)

/-- A program beside the order, on the way to a reply. -/
theorem worked_then {program : Task α} {next : α → Task AccountResult}
    (raises : ∀ raised g, Worked id began g → post (.error raised) g) (only : program.Only Beside)
    (worked : Worked id began s) (rest : ∀ value g, Worked id began g → Safe solo (next value) g post) :
    Safe solo (program.bind next) s post :=
  beside_then only worked.formed (fun value g meanwhile => rest value g (worked.then meanwhile))
    fun raised g meanwhile => raises raised g (worked.then meanwhile)

/-- An entry reports what is stored for its key, or what its placement reports. -/
theorem enterDirect_replies {accountId symbol : String} {input : SymbolFilters → Option ℚ → OrderInput}
    {quantity : Validated → ℚ} {place : Account → Bool → Validated → ℚ → ℚ → ℚ → Task AccountResult}
    (formed : s.db.WellFormed) (raises : ∀ raised g, Worked accountId s g → post (.error raised) g)
    (reported : ∀ outcome g, Replies accountId key s outcome g → post outcome g)
    (placed : ∀ account real validated notional reference equity g, account.accountId = accountId →
      Worked accountId s g → Unsettled accountId key s.db →
      Safe solo (place account real validated notional reference equity) g post) :
    Safe solo (enterDirect svc accountId symbol key input quantity place) s post := by
  have fresh : Worked accountId s s := ⟨.refl formed, rfl⟩
  unfold enterDirect
  refine account_then formed (fun account g meanwhile owner => ?_)
    fun raised g meanwhile => raises raised g (fresh.then meanwhile)
  refine order_then (fresh.then meanwhile) meanwhile.orders (fun g worked unsettled => ?_)
    (fun row g worked same member owner named => (handleExisting_replies worked same member owner named).mono
      reported) raises
  -- Everything up to the placement is beside the order.
  refine worked_then raises (beside_of_asking isReal_asks) worked fun real g worked => ?_
  refine worked_then raises (beside_of_asking (requireSymbol_asks _)) worked fun _ g worked => ?_
  refine worked_then raises (only_call.mpr trivial) worked fun marketPrice g worked => ?_
  refine worked_then raises only_ofExcept worked fun reference g worked => ?_
  refine worked_then raises (requireFilters_beside _) worked fun filters g worked => ?_
  refine worked_then raises only_ofExcept worked fun validated g worked => ?_
  refine worked_then raises only_ofExcept worked fun notional g worked => ?_
  refine worked_then raises (only_call.mpr trivial) worked fun balances g worked => ?_
  refine worked_then raises only_ofExcept worked fun _ g worked => ?_
  refine worked_then raises (beside_of_gating (getPolicy_gating _)) worked fun policy g worked => ?_
  refine worked_then raises (beside_of_asking (currentExposure_asks _ _)) worked fun exposure g worked => ?_
  refine worked_then raises (beside_of_gating (enforceCapsOrOverride_gating _ _ _ _ _)) worked fun _ g worked => ?_
  refine worked_then raises (beside_of_asking (equityFromBalances_asks _ _)) worked fun equity g worked => ?_
  exact placed account real validated notional reference equity g owner worked unsettled

/-- `_execute_one_direct` reports the row of its order. -/
theorem executeOneDirect_replies {o : DirectOrder} (formed : s.db.WellFormed) :
    Safe solo (executeOneDirect svc o) s (Replies o.accountId o.idempotencyKey s) := by
  exact enterDirect_replies formed (fun _ _ worked => worked) (fun _ _ replies => replies)
    fun _ _ _ _ _ _ _ owner worked unsettled => placeAndRecord_replies worked unsettled owner rfl

/-- `_execute_one_sized` reports the row of its order. -/
theorem executeOneSized_replies {o : SizedOrder} (formed : s.db.WellFormed) :
    Safe solo (executeOneSized svc account o) s (Replies account.accountId o.idempotencyKey s) := by
  have fresh : Worked account.accountId s s := ⟨.refl formed, rfl⟩
  have raises (raised : Exc) (g : Solo) (worked : Worked account.accountId s g) :
      Replies account.accountId o.idempotencyKey s (.error raised) g := worked
  -- The lookup of the key comes before everything that sizes and checks the order.
  rw [executeOneSized_eq]
  refine order_then fresh rfl (fun g worked unsettled => ?_)
    (fun row g worked same => handleExisting_replies worked same) raises
  refine worked_then raises (sizeOrder_beside account o) worked fun sizing g worked => ?_
  refine worked_then raises only_ofExcept worked fun judged g worked => ?_
  refine worked_then raises (allow_beside _ _ _ _ _ _ _ _ _) worked fun _ g worked => ?_
  exact placeAndRecord_replies worked unsettled rfl rfl

/-! Lists. -/

/-- The result shows its order as it is stored. -/
def AsStored (db : Database) (result : AccountResult) : Prop :=
  ∃ row ∈ db.orders, result.common = orderToResult row

instance (db : Database) (result : AccountResult) : Decidable (AsStored db result) :=
  decidable_of_iff (db.orders.any fun row => result.common = orderToResult row) (by simp [AsStored])

/-- The broker reported each answered list as a new order without a fill and without an id. -/
def PlainAnswers (answers : List OrderResult) : Prop := ∀ answer ∈ answers, answer = { status := .new }

/-- A list is reported as its row is inserted, which is what the row stores exactly when the broker's
answer was plain. -/
def RepliesList (id key : String) (began : Solo) : Except Exc AccountResult → Solo → Prop :=
  Outcome
    (fun result g => Keeps id began.db g.db ∧
      (∃ row, Mirrors id key began.db g.db result row) ∧
      ∃ answers, listAnswers g.heard = answers ++ listAnswers began.heard ∧
        (AsStored g.db result ↔ PlainAnswers answers))
    fun _ g => g.db.WellFormed

/-- What is reported without a list is reported as it is stored. -/
theorem Replies.list
    (replies : Replies id key began outcome after) : RepliesList id key began outcome after := by
  cases outcome with
  | error raised => exact Worked.formed replies
  | ok result =>
    obtain ⟨worked, row, mirrors, same⟩ := replies
    refine ⟨worked.keeps, ⟨row, mirrors⟩, [], worked.lists, ?_⟩
    exact iff_of_true ⟨row, mirrors.member, same⟩ (fun answer member => absurd member List.not_mem_nil)

/-- An open row without a fill shows an answer exactly when the answer is plain. -/
theorem plain_iff {answer : OrderResult} (open_ : row.status = .exchange .new)
    (unnamed : row.exchangeOrderId = none) (unfilled : row.executedQty = 0) (unpriced : row.avgPrice = 0) :
    orderToResult row = orderToResult (row.apply answer.toUpdate) ↔ answer = { status := .new } := by
  obtain ⟨status, exchangeOrderId, executedQty, avgPrice⟩ := answer
  constructor
  · intro same
    -- The four fields of the answer are read off the two views.
    have state := congrArg AccountResult.status same
    have shown := congrArg AccountResult.order same
    simp only [orderToResult, Order.apply, OrderResult.toUpdate, Option.elim_some, open_, unnamed, unfilled,
      unpriced, Option.some.injEq, OrderView.mk.injEq, true_and, and_true, OrderStatus.exchange.injEq]
      at state shown
    obtain ⟨rfl, rfl, rfl⟩ := shown
    rw [state]
  · intro same
    cases same
    simp only [orderToResult, Order.apply, OrderResult.toUpdate, Option.elim_some, open_, unnamed, unfilled,
      unpriced]

/-- The end of `_execute_oco_direct` reports the row as it inserts it. -/
theorem recordOco_replies {real : Bool} {o : OcoOrder} {notional reference equity : ℚ}
    (worked : Worked id began s) (unsettled : Unsettled id key began.db) (owner : o.accountId = id)
    (named : o.idempotencyKey = key) :
    Safe solo (recordOco svc account real o notional reference equity) s (RepliesList id key began) := by
  unfold recordOco
  dsimp only
  by_cases paper : ¬real
  · rw [if_pos paper]
    refine stored_then worked (fun orderId now g worked member => .done ?_) fun _ _ worked => worked.formed
    exact Replies.list ⟨worked, _, unsettled.mirrors member owner named owner rfl, rfl⟩
  rw [if_neg paper]
  refine stored_then worked (fun orderId now g worked member => ?_) fun _ _ worked => worked.formed
  -- From here on the reply is the row as it was inserted, whatever the broker answers.
  set row := newOrder (o.draft svc.text notional reference equity) false orderId now
  have placing : Safe solo (broker (.placeOco (o.order svc.text))) g
      fun answer later => Solo.serve (.broker (.placeOco (o.order svc.text))) g = (answer, later) :=
    Safe.call_iff.mpr ⟨trivial, fun _ _ served => served⟩
  refine Safe.attempt_bind placing fun submitted later served => ?_
  cases submitted with
  | error raised =>
    -- After an error the row is updated and shown like that of a single order.
    have meanwhile := serve_failed (fun _ => by simp) worked.formed served
    have listed : row ∈ later.db.orders := meanwhile.orders ▸ member
    exact (submissionFailed_replies (worked.then meanwhile) unsettled listed owner named).mono
      fun _ _ replies => replies.list
  | ok answer =>
    have formed := Solo.serve_wellFormed (fun _ => by simp) worked.formed served
    have spares : SparesOrders (.broker (.placeOco (o.order svc.text))) := trivial
    have orders : later.db.orders = g.db.orders := Solo.serve_orders spares served
    have listed : row ∈ later.db.orders := orders ▸ member
    refine servedBy_then (fun committed last written => .done ?_)
      fun raised last written => Solo.serve_wellFormed (fun _ => by simp) formed written
    obtain ⟨stored, keeps⟩ := Solo.serve_update formed listed written
    have whole : Keeps id began.db last.db :=
      (worked.keeps.trans (.of_orders formed orders)).trans (owner ▸ keeps)
    have mirrors : Mirrors id key began.db last.db (orderToResult row (some o.quantity))
        (row.apply answer.toUpdate) := unsettled.mirrors stored owner named owner rfl
    -- The reply was made before the update, so the two agree when the update says nothing new.
    refine ⟨whole, ⟨_, mirrors⟩, [answer], ?_, ?_⟩
    · rw [Solo.serve_heard written, listAnswers_cons (fun _ => by simp), Solo.serve_heard served,
        ← worked.lists]
      rfl
    · have plain : PlainAnswers [answer] ↔ answer = { status := .new } := by simp [PlainAnswers]
      have shows : orderToResult row = orderToResult (row.apply answer.toUpdate) ↔
          answer = { status := .new } := plain_iff rfl rfl rfl rfl
      rw [plain, ← shows]
      constructor
      · rintro ⟨other, present, shown⟩
        have same := mirrors.stored whole.formed present shown
        rw [same] at shown
        exact shown
      · intro shown
        exact ⟨_, stored, shown⟩

/-- `_execute_oco_direct` reports the row as it inserts it, or the one that is stored. -/
theorem executeOcoDirect_replies {o : OcoOrder} (formed : s.db.WellFormed) :
    Safe solo (executeOcoDirect svc o) s (RepliesList o.accountId o.idempotencyKey s) := by
  exact enterDirect_replies formed (fun _ _ worked => worked.formed) (fun _ _ replies => replies.list)
    fun _ _ _ _ _ _ _ _ worked unsettled => recordOco_replies worked unsettled rfl rfl

/-! Whole calls. -/

/-- Under a lock that nobody else holds, a program does what its body does. -/
theorem withLock_solo {body : Task α} {post : Except Exc α → Solo → Prop} (formed : s.db.WellFormed)
    (inside : ∀ g, Meanwhile s g → Safe solo body g fun outcome later =>
      later.db.WellFormed ∧ ∀ last, Meanwhile later last → post outcome last) :
    Safe solo (withLock accountId body) s post := by
  have locks : Beside (.lock accountId) := trivial
  have unlocks : Beside (.unlock accountId) := trivial
  unfold withLock
  -- Taking and releasing the lock are requests like others, and neither can fail.
  refine servedBy_then (fun _ g served => ?_) fun raised g served => by cases served
  refine Safe.ensuring (inside g (serve_meanwhile locks formed served)) fun outcome later held => ?_
  refine Safe.call_iff.mpr ⟨trivial, fun answer last served => ?_⟩
  have released := held.2 last (serve_meanwhile unlocks held.1 served)
  cases answer with
  | ok _ => exact released
  | error raised => cases served

/-- Requests beside the order before and after change no reply. -/
theorem Replies.around {first last : Solo}
    (before : Meanwhile began s) (replies : Replies id key s outcome first)
    (behind : Meanwhile first last) : Replies id key began outcome last := by
  have worked {g : Solo} (worked : Worked id s g) : Worked id began g :=
    ⟨before.keeps.trans worked.keeps, worked.lists.trans before.lists⟩
  cases outcome with
  | error raised => exact (worked replies).then behind
  | ok result =>
    obtain ⟨within, row, mirrors, same⟩ := replies
    refine ⟨(worked within).then behind, row, { mirrors with
      member := behind.orders ▸ mirrors.member
      settled := fun old listed => mirrors.settled old (before.orders ▸ listed) }, same⟩

/-- A list is replied to whatever happens around it. -/
theorem RepliesList.around {first last : Solo}
    (before : Meanwhile began s) (replies : RepliesList id key s outcome first)
    (behind : Meanwhile first last) : RepliesList id key began outcome last := by
  cases outcome with
  | error raised => exact behind.formed
  | ok result =>
    obtain ⟨keeps, ⟨row, mirrors⟩, answers, lists, shown⟩ := replies
    refine ⟨(before.keeps.trans keeps).trans behind.keeps, ⟨row, { mirrors with
      member := behind.orders ▸ mirrors.member
      settled := fun old listed => mirrors.settled old (before.orders ▸ listed) }⟩, answers, ?_, ?_⟩
    · rw [behind.lists, lists, before.lists]
    · rw [← shown]
      unfold AsStored
      rw [behind.orders]

/-- The results of the accounts in a reply of the order service. -/
def Reply.results : Reply → List AccountResult
  | .order result => [result]
  | .executed reply => reply.results
  | _ => []

/-- What a call of a key leaves, and what its reply says of its orders. -/
structure CallReplies (key : String) (began : Solo) (results : List AccountResult) (g : Solo) : Prop where
  formed : g.db.WellFormed
  mirrors : ∀ result ∈ results, result.order.isSome →
    ∃ row, Mirrors result.accountId key began.db g.db result row
  lists : ∃ answers, listAnswers g.heard = answers ++ listAnswers began.heard ∧
    ((∀ result ∈ results, result.order.isSome → AsStored g.db result) ↔ PlainAnswers answers)

/-- The reply of one order. -/
theorem RepliesList.call
    (replies : RepliesList id key began (.ok result) after) : CallReplies key began [result] after := by
  obtain ⟨keeps, ⟨row, mirrors⟩, answers, lists, shown⟩ := replies
  refine ⟨keeps.formed, fun other member _ => ?_, answers, lists, ?_⟩
  · obtain rfl := List.mem_singleton.mp member
    exact ⟨row, mirrors.account ▸ mirrors⟩
  · rw [← shown]
    constructor
    · exact fun all => all result (List.mem_singleton_self _) mirrors.carried
    · intro stored other member _
      obtain rfl := List.mem_singleton.mp member
      exact stored

/-- `place_order` reports the row of its order. -/
theorem placeOrder_replies {args : PlaceOrderArgs} (formed : s.db.WellFormed) :
    Safe solo (placeOrder svc args) s (Outcome
      (fun result g => ∃ key, args.idempotencyKey.key = some key ∧ CallReplies key s [result] g)
      fun _ _ => True) := by
  refine Safe.ofExcept_then (fun o valid => ?_) fun _ _ => trivial
  refine withLock_solo formed fun g before => (executeOneDirect_replies before.formed).mono ?_
  intro outcome later replies
  cases outcome with
  | error raised => exact ⟨replies.formed, fun _ _ => trivial⟩
  | ok result =>
    exact ⟨replies.1.formed, fun last behind =>
      ⟨_, validateDirect_key valid, (replies.around before behind).list.call⟩⟩

/-- `place_oco_order` reports the row as it inserts it, or the one that is stored. -/
theorem placeOcoOrder_replies {args : PlaceOcoArgs} (formed : s.db.WellFormed) :
    Safe solo (placeOcoOrder svc args) s (Outcome
      (fun result g => ∃ key, args.idempotencyKey.key = some key ∧ CallReplies key s [result] g)
      fun _ _ => True) := by
  refine Safe.ofExcept_then (fun o valid => ?_) fun _ _ => trivial
  refine withLock_solo formed fun g before => (executeOcoDirect_replies before.formed).mono ?_
  intro outcome later replies
  cases outcome with
  | error raised => exact ⟨replies, fun _ _ => trivial⟩
  | ok result =>
    exact ⟨replies.1.formed, fun last behind =>
      ⟨_, validateOco_key valid, (replies.around before behind).call⟩⟩

/-- What one account of a bulk order leaves, and its result when that has an order. -/
theorem executeFor_replies {o : SizedOrder} (formed : s.db.WellFormed) :
    Safe solo (executeFor svc o account) s (Outcome
      (fun result g => Worked account.accountId s g ∧ (result.order.isSome →
        ∃ row, Mirrors account.accountId o.idempotencyKey s.db g.db result row ∧
          result.common = orderToResult row))
      fun _ _ => True) := by
  refine withLock_solo formed fun g before => ?_
  refine Safe.rescue (executeOneSized_replies before.formed) ?_ ?_
  · rintro result later replies
    refine ⟨replies.1.formed, fun last behind => ?_⟩
    obtain ⟨worked, mirrored⟩ := replies.around before behind
    exact ⟨worked, fun _ => mirrored⟩
  · -- An account whose order raises gets a result that carries no order.
    rintro raised later replies
    refine .done ⟨Worked.formed replies, fun last behind => ?_⟩
    have around : Replies account.accountId o.idempotencyKey s (.error raised) last :=
      Replies.around before replies behind
    refine ⟨around, fun carried => ?_⟩
    cases raised <;> cases carried

/-- The state of a bulk order before the remaining accounts. -/
structure BulkReplies (key : String) (began : Solo) (rest : List Account) (results : List AccountResult)
    (g : Solo) : Prop where
  formed : g.db.WellFormed
  lists : listAnswers g.heard = listAnswers began.heard
  distinct : (rest.map Account.accountId).Nodup
  ahead : ∀ row ∈ began.db.orders, row.accountId ∈ rest.map Account.accountId → row ∈ g.db.orders
  behind : ∀ result ∈ results, result.order.isSome →
    result.accountId ∉ rest.map Account.accountId ∧
      ∃ row, Mirrors result.accountId key began.db g.db result row ∧ result.common = orderToResult row

/-- One more account. -/
theorem BulkReplies.turn {g later : Solo} {rest : List Account} {results : List AccountResult}
    (bulk : BulkReplies key began (account :: rest) results g) (worked : Worked account.accountId g later)
    (mirrored : result.order.isSome →
      ∃ row, Mirrors account.accountId key g.db later.db result row ∧ result.common = orderToResult row) :
    BulkReplies key began rest (results ++ [result]) later := by
  obtain ⟨fresh, distinct⟩ := List.nodup_cons.mp bulk.distinct
  refine ⟨worked.formed, worked.lists.trans bulk.lists, distinct, fun row listed owned => ?_, ?_⟩
  · -- The rows of the accounts ahead are those of other accounts, which this turn leaves alone.
    have kept := bulk.ahead row listed (List.mem_cons_of_mem _ owned)
    refine worked.keeps.others row kept fun same => fresh ?_
    rw [← same]
    exact owned
  intro other member carried
  -- A result belongs to an earlier account, whose row stays, or to this one.
  rcases List.mem_append.mp member with earlier | newest
  · obtain ⟨away, row, mirrors, same⟩ := bulk.behind other earlier carried
    rw [List.map_cons, List.mem_cons, not_or] at away
    obtain ⟨differs, away⟩ := away
    have kept := worked.keeps.others row mirrors.member (by rw [mirrors.owner]; exact differs)
    exact ⟨away, row, { mirrors with member := kept }, same⟩
  · obtain rfl := List.mem_singleton.mp newest
    obtain ⟨row, mirrors, same⟩ := mirrored carried
    rw [mirrors.account]
    refine ⟨fresh, row, { mirrors with settled := fun old listed owned => ?_ }, same⟩
    exact mirrors.settled old (bulk.ahead old listed (by rw [owned]; exact List.mem_cons_self)) owned

/-- The accounts of a bulk order are distinct. -/
theorem resolveTargets_distinct {accountIds tags : List String} (formed : s.db.WellFormed) :
    Safe solo (resolveTargets accountIds tags) s (Outcome
      (fun targets g => Meanwhile s g ∧ (targets.map Account.accountId).Nodup) fun _ _ => True) := by
  have reads : Beside (.read .accounts) := trivial
  unfold resolveTargets
  split
  · exact .fail trivial
  refine servedBy_then (fun listed g served => ?_) fun _ _ _ => trivial
  have meanwhile := serve_meanwhile reads formed served
  obtain ⟨-, pick, rfl⟩ := Solo.serve_read served
  split
  · exact .fail trivial
  · refine .done ⟨meanwhile, ?_⟩
    -- Sorting and filtering keep the account ids distinct.
    have sorted : ((s.db.accounts.insertionSort listedBefore).map Account.accountId).Nodup :=
      ((List.perm_insertionSort _ _).map _).nodup_iff.mpr formed.accountIds
    exact sorted.sublist (List.filter_sublist.map _)

/-- `execute_on_accounts` reports the rows of its orders. -/
theorem executeOnAccounts_replies {args : ExecuteArgs} (formed : s.db.WellFormed) :
    Safe solo (executeOnAccounts svc args) s (Outcome
      (fun reply g => ∃ key, args.idempotencyKey.key = some key ∧ CallReplies key s reply.results g)
      fun _ _ => True) := by
  refine Safe.ofExcept_then (fun o valid => ?_) fun _ _ => trivial
  refine Safe.bind (resolveTargets_distinct formed) ?_ fun _ _ _ => trivial
  rintro targets g ⟨before, distinct⟩
  have start : BulkReplies o.idempotencyKey s targets [] g :=
    ⟨before.formed, before.lists, distinct, fun row listed _ => before.orders ▸ listed,
      fun result member => absurd member List.not_mem_nil⟩
  -- The loop goes from account to account with the state of the bulk order.
  refine Safe.bind (Safe.foldlM (BulkReplies o.idempotencyKey s) (fun _ _ => True) start ?_) ?_
    fun _ _ _ => trivial
  · intro account rest results later bulk
    refine Safe.bind (executeFor_replies bulk.formed) ?_ fun _ _ _ => trivial
    rintro result last ⟨worked, mirrored⟩
    exact .done (bulk.turn worked mirrored)
  · rintro results later bulk
    refine .done ⟨_, validateSized_key valid, bulk.formed, fun result member carried => ?_, [], bulk.lists, ?_⟩
    · obtain ⟨-, row, mirrors, -⟩ := bulk.behind result member carried
      exact ⟨row, mirrors⟩
    · -- No list is placed, so there is no answer that could differ.
      refine iff_of_true (fun result member carried => ?_) fun answer member => absurd member List.not_mem_nil
      obtain ⟨-, row, mirrors, same⟩ := bulk.behind result member carried
      exact ⟨row, mirrors.member, same⟩

/-- The calls whose replies carry orders. -/
def Call.placesOrders : Call → Prop
  | .placeOrder _ | .placeOcoOrder _ | .executeOnAccounts _ => True
  | _ => False

/-- A call with orders reports the rows of its key. -/
theorem call_replies {call : Call} (formed : s.db.WellFormed) (places : call.placesOrders) :
    Safe solo (call.program svc (executeOnAccounts svc)) s (Outcome
      (fun reply g => ∃ key, call.key = some key ∧ CallReplies key s reply.results g)
      fun _ _ => True) := by
  cases call with
  | placeOrder args =>
    exact Safe.bind (placeOrder_replies formed) (fun _ _ replies => .done replies) fun _ _ _ => trivial
  | placeOcoOrder args =>
    exact Safe.bind (placeOcoOrder_replies formed) (fun _ _ replies => .done replies) fun _ _ _ => trivial
  | executeOnAccounts args =>
    exact Safe.bind (executeOnAccounts_replies formed) (fun _ _ replies => .done replies) fun _ _ _ => trivial
  | _ => exact places.elim

/-- What a call that runs by itself returns, and the state that it leaves. -/
def runAlone (svc : Service) (call : Call) (db : Database) (script : List Choice) :
    Except Exc Reply × Solo :=
  exec Solo.serve (call.program svc (executeOnAccounts svc)) { db := db, script := script }

/-- A later call of the key shows an order of it that has settled as this result does. -/
def Repeated (svc : Service) (key : Option String) (db : Database) (result : AccountResult) : Prop :=
  ∀ row ∈ db.orders, row.accountId = result.accountId → some row.idempotencyKey = key →
    row.status.isOpen = false →
      ∀ again script reply later, again.placesOrders → again.key = key →
        runAlone svc again db script = (.ok reply, later) →
          ∀ other ∈ reply.results, other.order.isSome → other.accountId = result.accountId →
            other.common = result.common

/-- A call that runs by itself replies with the rows of its key. -/
theorem runAlone_replies {call : Call} {db : Database} {script : List Choice} {reply : Reply}
    (formed : db.WellFormed) (places : call.placesOrders)
    (returned : runAlone svc call db script = (.ok reply, after)) :
    ∃ key, call.key = some key ∧
      CallReplies key { db := db, script := script } reply.results after := by
  let start : Solo := { db := db, script := script }
  have safe : Safe solo (call.program svc (executeOnAccounts svc)) start _ := call_replies formed places
  have replied := servedBy_iff.mp safe
  rw [show exec Solo.serve _ start = _ from returned] at replied
  exact replied

/-- Every result of a call that carries an order equals the row as stored when the call returned, and so
does every later result for a settled order of its key, exactly when the broker's answers to the lists
that the call placed report nothing that a fresh row does not store. -/
theorem replies_stored_iff {svc : Service} {call : Call} {db : Database} {script : List Choice}
    {reply : Reply} {after : Solo} (formed : db.WellFormed) (places : call.placesOrders)
    (returned : runAlone svc call db script = (.ok reply, after)) :
    (∀ result ∈ reply.results, result.order.isSome →
        AsStored after.db result ∧ Repeated svc call.key after.db result) ↔
      PlainAnswers (listAnswers after.heard) := by
  obtain ⟨key, named, replies⟩ := runAlone_replies formed places returned
  obtain ⟨answers, lists, shown⟩ := replies.lists
  -- The call began with nothing heard.
  obtain rfl : listAnswers after.heard = answers := lists.trans (List.append_nil answers)
  constructor
  · exact fun all => shown.mp fun result member carried => (all result member carried).1
  intro plain result member carried
  obtain ⟨kept, listed, same⟩ := shown.mpr plain result member carried
  refine ⟨⟨kept, listed, same⟩, ?_⟩
  intro row present owner keyed settled again script' reply' later places' same' returned' other
    member' carried' account
  -- The later call starts from the tables that this one left.
  obtain ⟨key', named', replies'⟩ := runAlone_replies replies.formed places' returned'
  obtain rfl : key' = key := Option.some.inj (named'.symm.trans (same'.trans named))
  obtain ⟨_, mirrors'⟩ := replies'.mirrors other member' carried'
  obtain ⟨mine, mirrors⟩ := replies.mirrors result member carried
  -- There is one row of the account and key, and both results show it.
  obtain rfl := mirrors.stored replies.formed listed same
  have only : row = kept := by
    refine List.inj_on_of_nodup_map replies.formed.orderKeys present listed ?_
    rw [owner, mirrors.owner, mirrors.named, Option.some.inj (keyed.trans named)]
  rw [mirrors'.settled row present (owner.trans account.symm) (Option.some.inj (keyed.trans named)) settled,
    same, only]

/-- A request to sell one coin at twelve, or at nine when the market falls. -/
def sellList : PlaceOcoArgs where
  accountId := .text "main"
  symbol := .text "BTCUSDT"
  side := .text "SELL"
  quantity := .number 1
  price := .number 12
  stopPrice := .number 9
  stopLimitPrice := .number 8
  idempotencyKey := .text "l"

/-- The broker accepts what it is sent under an id of its own. -/
def acceptedDay : Choice :=
  { calmDay with
    balances := [("USDT", 1000), ("BTC", 5)]
    order := { status := .new, exchangeOrderId := some "77" } }

/-- A call whose reply passes a check returns. -/
theorem runAlone_end (svc : Service) (call : Call) (db : Database) (script : List Choice)
    (check : Reply → Solo → Bool)
    (passes : ((runAlone svc call db script).1.toOption.any fun reply =>
      check reply (runAlone svc call db script).2) = true) :
    ∃ reply after, runAlone svc call db script = (.ok reply, after) ∧ check reply after = true := by
  rcases returned : runAlone svc call db script with ⟨outcome, after⟩
  rw [returned] at passes
  cases outcome with
  | error raised => cases passes
  | ok reply => exact ⟨reply, after, rfl, passes⟩

/-- A single order of that day is reported as it is stored. -/
theorem buyOne_shown_iff :
    ∃ reply after,
      runAlone demo (.placeOrder buyOne) shop (List.replicate 20 acceptedDay) = (.ok reply, after) ∧
        ((∀ result ∈ reply.results, result.order.isSome →
            AsStored after.db result ∧ Repeated demo (Call.placeOrder buyOne).key after.db result) ↔
          PlainAnswers (listAnswers after.heard)) := by
  obtain ⟨reply, after, returned, -⟩ := runAlone_end demo (.placeOrder buyOne) shop
    (List.replicate 20 acceptedDay) (fun _ _ => true) (by decide +kernel)
  exact ⟨reply, after, returned, replies_stored_iff shop_wellFormed trivial returned⟩

/-- The reply of a list shows no exchange id, and its row stores one. -/
theorem sellList_not_stored :
    ∃ reply after,
      runAlone demo (.placeOcoOrder sellList) shop (List.replicate 20 acceptedDay) = (.ok reply, after) ∧
        ∃ result ∈ reply.results, result.order.isSome ∧ ¬AsStored after.db result := by
  obtain ⟨reply, after, returned, differs⟩ := runAlone_end demo (.placeOcoOrder sellList) shop
    (List.replicate 20 acceptedDay)
    (fun reply after => reply.results.any fun result =>
      result.order.isSome && !decide (AsStored after.db result)) (by decide +kernel)
  -- The check names the result whose row differs.
  obtain ⟨result, member, shown⟩ := List.any_eq_true.mp differs
  simp only [Bool.and_eq_true, Bool.not_eq_true', decide_eq_false_iff_not] at shown
  exact ⟨reply, after, returned, result, member, shown⟩

end Rasat
