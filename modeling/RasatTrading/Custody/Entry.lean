import RasatTrading.Custody.Gate

/-! The order entry points keep custody: each submits only a judged order under the account's lock. -/

namespace Rasat

open Coop Prog

variable {svc : Service} {accountId : String} {known origin : Knowledge} {rows : List Order}

/-- The task read this account row. -/
structure Snapshot (hist : History) (row : Account) : Prop where
  read : ∃ event ∈ hist, ReadsAccount event row
  stripped : strip row.accountId = row.accountId

theorem Snapshot.mono {hist longer : History} {row : Account} (snapshot : Snapshot hist row)
    (suffix : hist <:+ longer) : Snapshot longer row := by
  obtain ⟨event, member, reads⟩ := snapshot.read
  exact ⟨⟨event, suffix.subset member, reads⟩, snapshot.stripped⟩

theorem Snapshot.sawReal {hist : History} {row : Account} (snapshot : Snapshot hist row)
    (real : row.tradingLock = .real) : SawReal hist row.accountId := by
  obtain ⟨event, member, reads⟩ := snapshot.read
  exact ⟨event, member, row, reads, rfl, real⟩

theorem Snapshot.sawPaper {hist : History} {row : Account} (snapshot : Snapshot hist row)
    (paper : row.tradingLock = .paper) : SawPaper hist row.accountId := by
  obtain ⟨event, member, reads⟩ := snapshot.read
  exact ⟨event, member, row, reads, rfl, paper⟩

/-- The task serves a call that places its orders under this key. -/
def Serves (known : Knowledge) (key : String) : Prop := known.call.bind Call.key = some key

/-- The kill switch places no order under a caller's key. -/
theorem Serves.notClosing {key : String} (serves : Serves known key) :
    ¬∃ call, known.call = some call ∧ call.isClose := by
  rintro ⟨call, serving, closing⟩
  -- Of all calls only the kill switch closes, and it has no key.
  cases call with
  | closeAllPositions named actor => simp [Serves, serving, Call.key] at serves
  | _ => cases closing

/-- `get_account` returns the row that it read, under the id that it was asked for. -/
theorem getAccount_safe :
    Safe (custody svc.text) (getAccount accountId) known
      (Outcome (fun account learned => Steady known learned ∧ account.accountId = accountId ∧
          Snapshot learned.hist account)
        fun _ learned => Steady known learned) := by
  unfold getAccount dbRead
  refine Safe.bind_iff.mpr (neutral_call trivial fun answer learned learns _ => ?_)
  cases answer with
  | error raised => exact learns.readSteady
  | ok found =>
    cases found with
    | none => exact .fail learns.readSteady
    | some account =>
      obtain ⟨named, stripped⟩ := learns.view.2.1 account rfl
      refine .done ⟨learns.readSteady, named, ⟨⟨.read (.account accountId), .ok (some account)⟩, ?_, ?_⟩,
        stripped⟩
      · rw [learns.hist]
        exact List.mem_cons_self
      · rfl

/-- Under the lock, the stored order of a key is the one among the rows in custody. -/
theorem storedOrder_safe {key : String} (held : Held accountId known rows) :
    Safe (custody svc.text) (dbRead (.order accountId key)) known fun outcome learned =>
      Steady known learned ∧ ∀ found, outcome = .ok found → found = loadOrder rows accountId key := by
  unfold dbRead
  refine neutral_call trivial fun answer learned learns _ => ⟨learns.readSteady, ?_⟩
  rintro found rfl
  -- The scope is this account, so the read is covered by the rows in custody.
  exact learns.view.2.2 _ held.1 fun owner same => (Option.some.inj same).symm

/-- A session that starts later is part of the one that started before. -/
theorem session_from {α : Type} {program : Task α} (held : Held accountId origin rows)
    (steady : Steady origin known)
    (safe : Safe (custody svc.text) program known fun _ g => Session accountId known g) :
    Safe (custody svc.text) program known fun _ g => Session accountId origin g :=
  safe.mono fun _ _ session => (steady.session held).trans session

variable {account : Account}

/-- A stored order is reported or reconciled, and never sent again. -/
theorem existing_then {existing : Order} {key : String}
    (held : Held account.accountId origin rows) (steady : Steady origin known)
    (stored : some existing = loadOrder rows account.accountId key) :
    Safe (custody svc.text) (handleExisting svc account existing) known
      fun _ g => Session account.accountId origin g := by
  obtain ⟨member, owner, -⟩ := loadOrder_some stored.symm
  exact session_from held steady (handleExisting_safe (steady.held held) rfl member owner)

/-- A new order is one of a real account only when the snapshot says so. -/
theorem isReal_then {next : Bool → Task AccountResult}
    (held : Held account.accountId origin rows) (steady : Steady origin known)
    (snapshot : Snapshot known.hist account)
    (rest : ∀ real learned, Held account.accountId learned rows → Steady origin learned →
      (real = true → SawReal learned.hist account.accountId) →
      Safe (custody svc.text) (next real) learned fun _ g => Session account.accountId learned g) :
    Safe (custody svc.text) ((isReal account).bind next) known
      fun _ g => Session account.accountId origin g := by
  refine Safe.bind isReal_safe ?_ ?_
  · intro real gated passed
    have steady' := steady.trans passed.1.steady
    refine session_from held steady' (rest real gated (steady'.held held) steady' ?_)
    rintro rfl
    exact (snapshot.sawReal (passed.2 true rfl)).mono passed.1.suffix
  · exact fun _ learned passed => (steady.trans passed.1.steady).session held

/-- A judgement is about an order's account, symbol, notional and key only. -/
theorem Judged.congr {text : Text} {hist : History} {draft other : OrderDraft}
    (judged : Judged text hist draft) (account : other.accountId = draft.accountId)
    (symbol : other.symbol = draft.symbol) (notional : other.notional = draft.notional)
    (key : other.idempotencyKey = draft.idempotencyKey) : Judged text hist other := by
  unfold Judged at judged ⊢
  rw [account, symbol, notional, key]
  exact judged

/-- A placement that passed every check is recorded and sent in the same session. -/
theorem place_then {p : Placement} (named : p.account.accountId = accountId)
    (held : Held accountId origin rows) (steady : Steady origin known) (serves : Serves origin p.idempotencyKey)
    (judged : Judged svc.text known.hist (p.draft svc.text)) (saw : p.isReal → SawReal origin.hist accountId) :
    Safe (custody svc.text) (placeAndRecord svc p) known
      fun _ learned => Session accountId origin learned := by
  subst named
  have serves' : Serves known p.idempotencyKey := by rw [Serves, steady.call]; exact serves
  have ready : Placeable svc.text p known rows := {
    held := steady.held held
    judged := .inr judged
    saw := fun real => (saw real).mono steady.suffix
    keyed := fun key same => Option.some.inj (serves'.symm.trans same)
    accounted := fun closing => absurd closing serves'.notClosing }
  exact session_from held steady (placeAndRecord_safe ready)

/-- An entry keeps custody of the account when its placement does. -/
theorem enterDirect_safe {symbol key : String} {input : SymbolFilters → Option ℚ → OrderInput}
    {quantity : Validated → ℚ} {place : Account → Bool → Validated → ℚ → ℚ → ℚ → Task AccountResult}
    (held : Held accountId known rows) (serves : Serves known key)
    (placed : ∀ account real validated notional reference equity learned, account.accountId = accountId →
      Held accountId learned rows → Serves learned key →
      (∀ draft : OrderDraft, draft.accountId = accountId → draft.symbol = symbol → draft.notional = notional →
        draft.idempotencyKey = key → Judged svc.text learned.hist draft) →
      (real = true → SawReal learned.hist accountId) →
      Safe (custody svc.text) (place account real validated notional reference equity) learned
        fun _ last => Session accountId learned last) :
    Safe (custody svc.text) (enterDirect svc accountId symbol key input quantity place) known
      fun _ learned => Session accountId known learned := by
  unfold enterDirect
  refine Safe.bind getAccount_safe ?_ fun _ learned steady => steady.session held
  rintro account read ⟨steady, rfl, snapshot⟩
  refine Safe.bind (storedOrder_safe (steady.held held)) ?_
    fun _ learned facts => (steady.trans facts.1).session held
  rintro found looked ⟨steady', stored⟩
  have steady := steady.trans steady'
  have snapshot := snapshot.mono steady'.suffix
  cases found with
  | some existing => exact existing_then held steady (stored _ rfl)
  | none =>
    refine isReal_then held steady snapshot fun real gated held began saw => ?_
    -- Every check is made before anything is recorded.
    refine quiet_then (requireSymbol_only _) held (Steady.refl _) fun _ _ steady _ => ?_
    refine quiet_then (only_call.mpr trivial) held steady fun marketPrice _ steady _ => ?_
    refine sync_then held steady fun reference _ => ?_
    refine quiet_then (requireFilters_only _) held steady fun filters _ steady _ => ?_
    refine sync_then held steady fun validated _ => ?_
    refine sync_then held steady fun notional _ => ?_
    refine quiet_then (only_call.mpr trivial) held steady fun balances _ steady _ => ?_
    refine sync_then held steady fun _ _ => ?_
    refine gate_then {
      accountId := account.accountId
      idempotencyKey := key
      symbol := symbol
      side := validated.side
      orderType := validated.orderType
      quantity := validated.quantity
      price := validated.price
      clientOrderId := toClientOrderId svc.text key
      notional := notional
      referencePrice := reference
      equitySnapshot := 0 } rfl snapshot.stripped held steady fun _ steady judged => ?_
    refine quiet_then (equityFromBalances_only _ _) held steady fun equity last steady kept => ?_
    refine session_from held steady (placed account real validated notional reference equity last rfl
      (steady.held held) ?_ (fun draft owner traded worth keyed => ?_) fun same => (saw same).mono steady.suffix)
    · rw [Serves, steady.call, began.call]
      exact serves
    · exact (kept.judged judged).congr owner traded worth keyed

/-- `_execute_one_direct` keeps custody of the account. -/
theorem executeOneDirect_safe {o : DirectOrder} (held : Held o.accountId known rows)
    (serves : Serves known o.idempotencyKey) :
    Safe (custody svc.text) (executeOneDirect svc o) known
      fun _ learned => Session o.accountId known learned := by
  refine enterDirect_safe held serves
    fun account real validated notional reference equity learned named held serves judged saw => ?_
  exact place_then named held (Steady.refl _) serves (judged _ named rfl rfl rfl) saw

/-- The end of `_execute_oco_direct` keeps custody of the account. -/
theorem recordOco_safe {real : Bool} (o : OcoOrder)
    {notional reference equity : ℚ} (named : account.accountId = o.accountId)
    (held : Held o.accountId known rows) (serves : Serves known o.idempotencyKey)
    (judged : Judged svc.text known.hist (o.draft svc.text notional reference equity))
    (saw : real = true → SawReal known.hist o.accountId) :
    Safe (custody svc.text) (recordOco svc account real o notional reference equity) known
      fun _ learned => Session o.accountId known learned := by
  unfold recordOco
  split
  · -- A paper list is only recorded.
    refine Safe.bind (insert_safe held rfl (.inr judged)) ?_ fun _ last inserted => inserted.1
    exact fun row last inserted => .done inserted.1
  rename_i isReal
  have real : real = true := by simpa using isReal
  refine Safe.bind (insert_safe held rfl (.inr judged)) ?_ fun _ last inserted => inserted.1
  rintro row stored ⟨session, facts⟩
  obtain ⟨shape, held', doubts, newest⟩ := facts row rfl
  have owner : row.accountId = o.accountId := by rw [shape]; rfl
  have isOpen : row.status.isOpen = true := by rw [shape]; exact newOrder_isOpen
  have member : row ∈ rows ++ [row] := by simp
  -- The committed row permits its own submission.
  have permitted : Permits svc.text stored (.broker (.placeOco (o.order svc.text))) := by
    refine ⟨?_, row, ?_⟩
    · intro target same
      cases same
      exact (saw real).mono session.hist
    · refine armed_of_insert newest session.call rfl fun key same => ?_
      exact Option.some.inj (serves.symm.trans same)
  refine Safe.attempt_bind (submit_safe row rfl held' permitted ?_) ?_
  · intro answer
    rw [shape]
    simp [brokerReport, OcoOrder.order, newOrder, OcoOrder.draft]
  · rintro outcome sent ⟨held'', step, event, newest', report⟩
    have session := session.trans step
    cases outcome with
    | error raised =>
      exact (submissionFailed_safe held'' named member owner isOpen).mono
        fun _ last step => session.trans step
    | ok result =>
      refine Safe.bind (update_safe held'' member isOpen ?_) ?_ ?_
      · exact fun canceled => cancelable_of_report newest' report canceled
      · exact fun _ last written => .done (session.trans written.1)
      · exact fun _ last written => session.trans written.1

/-- `_execute_oco_direct` keeps custody of the account. -/
theorem executeOcoDirect_safe {o : OcoOrder} (held : Held o.accountId known rows)
    (serves : Serves known o.idempotencyKey) :
    Safe (custody svc.text) (executeOcoDirect svc o) known
      fun _ learned => Session o.accountId known learned := by
  refine enterDirect_safe held serves
    fun account real validated notional reference equity learned named held serves judged saw => ?_
  exact recordOco_safe { o with side := validated.side } named held serves (judged _ rfl rfl rfl rfl) saw

theorem accuracyPreflight_only (symbol side : String) (entry stopLoss : ℚ) :
    (accuracyPreflight symbol side entry stopLoss).Only Quiet :=
  quiet_of_asking (accuracyPreflight_asks _ _ _ _)

/-- `_execute_one_sized` keeps custody of the account. -/
theorem executeOneSized_safe {o : SizedOrder}
    (held : Held account.accountId known rows) (snapshot : Snapshot known.hist account)
    (serves : Serves known o.idempotencyKey) :
    Safe (custody svc.text) (executeOneSized svc account o) known
      fun _ learned => Session account.accountId known learned := by
  unfold executeOneSized
  refine Safe.bind (storedOrder_safe held) ?_ fun _ learned facts => facts.1.session held
  rintro found looked ⟨steady, stored⟩
  have snapshot := snapshot.mono steady.suffix
  cases found with
  | some existing => exact existing_then held steady (stored _ rfl)
  | none =>
    refine isReal_then held steady snapshot fun real gated held began saw => ?_
    -- Every check is made before anything is recorded.
    refine quiet_then (accuracyPreflight_only _ _ _ _) held (Steady.refl _) fun _ _ steady _ => ?_
    refine quiet_then (only_call.mpr trivial) held steady fun price _ steady _ => ?_
    refine quiet_then (only_call.mpr trivial) held steady fun balances _ steady _ => ?_
    refine quiet_then (equityFromBalances_only _ _) held steady fun equity _ steady _ => ?_
    refine quiet_then (requireFilters_only _) held steady fun filters _ steady _ => ?_
    refine sync_then held steady fun sizing _ => ?_
    refine sync_then held steady fun sized _ => ?_
    refine sync_then held steady fun notional _ => ?_
    refine sync_then held steady fun validated _ => ?_
    refine sync_then held steady fun _ _ => ?_
    refine gate_then {
      accountId := account.accountId
      idempotencyKey := o.idempotencyKey
      symbol := o.symbol
      side := validated.side
      orderType := validated.orderType
      quantity := sized.quantity
      price := some o.entry
      clientOrderId := toClientOrderId svc.text o.idempotencyKey
      notional := notional
      referencePrice := price.getD 0
      equitySnapshot := equity } rfl snapshot.stripped held steady fun _ steady judged => ?_
    have serves' : Serves gated o.idempotencyKey := by rw [Serves, began.call]; exact serves
    have judged := judged.congr rfl rfl rfl rfl
    exact place_then rfl held steady serves' judged saw

end Rasat
