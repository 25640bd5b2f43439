import RasatTrading.Custody.Entry

/-! Calls take an account's lock before they touch its orders and leave without any lock. -/

namespace Rasat

open Coop Prog

variable {svc : Service} {accountId : String} {known origin : Knowledge}

/-- The task holds no lock and serves the same call with a longer history. -/
structure Idle (known learned : Knowledge) : Prop where
  call : learned.call = known.call
  view : learned.view = none
  hist : known.hist <:+ learned.hist

theorem Idle.refl (free : known.view = none) : Idle known known :=
  ⟨rfl, free, List.suffix_refl _⟩

theorem Idle.trans {a b c : Knowledge} (first : Idle a b) (second : Idle b c) : Idle a c :=
  ⟨second.call.trans first.call, second.view, first.hist.trans second.hist⟩

theorem Steady.idle {learned : Knowledge} (steady : Steady known learned)
    (free : known.view = none) : Idle known learned :=
  ⟨steady.call, steady.view.trans free, steady.suffix⟩

variable {α : Type}

/-- A program of neutral requests takes no lock. -/
theorem neutral_safe {program : Task α} (only : program.Only Neutral) (free : known.view = none) :
    Safe (custody svc.text) program known fun _ learned => Idle known learned := by
  refine Safe.of_only Neutral (Idle known) ?_ ?_ only (Idle.refl free)
  · exact fun ghost request _ neutral => neutral.permits ghost
  · intro ghost request answer learned idle neutral learns
    have hist : ghost.hist <:+ learned.hist := by rw [learns.hist]; exact List.suffix_cons _ _
    exact ⟨learns.call.trans idle.call, (learns.neutral neutral).trans idle.view,
      idle.hist.trans hist⟩

/-- Neutral requests leave the rows in custody as they are. -/
theorem neutral_held {scope : Option String} {rows : List Order} {program : Task α}
    (only : program.Only Neutral) (held : Held scope known rows) :
    Safe (custody svc.text) program known fun _ learned =>
      Held scope learned rows ∧ Session scope known learned := by
  refine Safe.of_only Neutral (fun g => Held scope g rows ∧ Session scope known g) ?_ ?_ only
    ⟨held, Session.refl held⟩
  · exact fun ghost request _ neutral => neutral.permits ghost
  · rintro ghost request answer learned ⟨now, session⟩ neutral learns
    exact ⟨⟨(learns.neutral neutral).trans now.1, now.2⟩, session.trans (learns.session neutral now)⟩

/-- Neutral requests in a sequence. -/
theorem neutral_then {α β : Type} {program : Task α} {next : α → Task β}
    (only : program.Only Neutral) (idle : Idle origin known)
    (rest : ∀ value learned, Idle origin learned →
      Safe (custody svc.text) (next value) learned fun _ g => Idle origin g) :
    Safe (custody svc.text) (program.bind next) known fun _ g => Idle origin g := by
  refine Safe.bind (neutral_safe only idle.view) ?_ ?_
  · exact fun value learned after => rest value learned (idle.trans after)
  · exact fun raised learned after => idle.trans after

/-- A body that keeps custody runs under the lock, which is released on every outcome. -/
theorem withLock_safe {body : Task α} (free : known.view = none)
    (safe : ∀ entered rows, entered.call = known.call → known.hist <:+ entered.hist →
      Held accountId entered rows →
      Safe (custody svc.text) body entered fun _ g => Session accountId entered g) :
    Safe (custody svc.text) (withLock accountId body) known fun _ g => Idle known g := by
  unfold withLock
  refine Safe.bind_iff.mpr (Safe.call_iff.mpr ⟨free, fun answer entered learns => ?_⟩)
  have step := learns.view
  have longer : known.hist <:+ entered.hist := by rw [learns.hist]; exact List.suffix_cons _ _
  cases answer with
  | error raised => exact False.elim step
  | ok _ =>
    obtain ⟨rows, locked⟩ := step
    have held : Held accountId entered rows := ⟨locked, learns.valid _ locked⟩
    refine Safe.ensuring (safe entered rows learns.call longer held) ?_
    -- The lock is still held, so it may be released.
    intro outcome last session
    obtain ⟨rows', held'⟩ := session.held
    refine Safe.call_iff.mpr ⟨⟨rows', held'.1⟩, fun answer left learns' => ?_⟩
    have released := learns'.view
    have hist : last.hist <:+ left.hist := by rw [learns'.hist]; exact List.suffix_cons _ _
    cases answer with
    | error raised => exact False.elim released
    | ok _ =>
      exact ⟨(learns'.call.trans session.call).trans learns.call, released,
        (longer.trans session.hist).trans hist⟩

/-- A loop whose every round leaves without a lock leaves without a lock. -/
theorem loop_safe {α σ : Type} {items : List α} {body : σ → α → Task σ} {start : σ} (idle : Idle origin known)
    (each : ∀ item ∈ items, ∀ state g, Idle origin g →
      Safe (custody svc.text) (body state item) g fun _ g' => Idle g g') :
    Safe (custody svc.text) (items.foldlM body start) known fun _ g => Idle origin g := by
  refine (Safe.foldlM (fun rest _ g => Idle origin g ∧ rest ⊆ items) (fun _ g => Idle origin g)
    ⟨idle, fun _ member => member⟩ ?_).mono ?_
  · rintro item rest state g ⟨before, inside⟩
    refine (each item (inside List.mem_cons_self) state g before).mono fun outcome g' after => ?_
    cases outcome with
    | ok _ => exact ⟨before.trans after, fun _ member => inside (List.mem_cons_of_mem _ member)⟩
    | error _ => exact before.trans after
  · rintro outcome g holds
    cases outcome with
    | ok _ => exact holds.1
    | error _ => exact holds

/-- A required string is its argument's stripped text. -/
theorem requireString_key {value : Arg} {name result : String}
    (required : requireString value name = .ok result) : value.key = some result := by
  unfold requireString at required
  -- Only a text that is not blank passes.
  cases value with
  | text s =>
    dsimp only at required
    by_cases blank : strip s = ""
    · rw [if_pos blank] at required
      cases required
    · rw [if_neg blank] at required
      exact congrArg some (Except.ok.inj required)
  | _ => cases required

/-- What `place_order` validates keeps the caller's account and key, stripped. -/
theorem validateDirect_key {args : PlaceOrderArgs} {order : DirectOrder}
    (valid : validateDirect svc args = .ok order) :
    args.idempotencyKey.key = some order.idempotencyKey := by
  unfold validateDirect at valid
  simp only [bind_ok, pure, Except.pure, Except.ok.injEq] at valid
  obtain ⟨_, _, key, keyed, _, _, _, _, _, _, _, _, _, _, _, _, rfl⟩ := valid
  exact requireString_key keyed

/-- `place_order` leaves without a lock. -/
theorem placeOrder_safe {args : PlaceOrderArgs} (free : known.view = none)
    (serving : known.call = some (.placeOrder args)) :
    Safe (custody svc.text) (placeOrder svc args) known fun _ g => Idle known g := by
  unfold placeOrder
  refine Safe.bind sync_safe ?_ ?_
  · rintro order _ ⟨rfl, valid⟩
    refine withLock_safe free fun entered rows call _ held => executeOneDirect_safe held ?_
    rw [Serves, call, serving]
    exact validateDirect_key valid.symm
  · rintro raised _ ⟨rfl, _⟩
    exact Idle.refl free

theorem validateOco_key {args : PlaceOcoArgs} {order : OcoOrder} (valid : validateOco svc args = .ok order) :
    args.idempotencyKey.key = some order.idempotencyKey := by
  unfold validateOco at valid
  simp only [bind_ok, pure, Except.pure, Except.ok.injEq] at valid
  obtain ⟨_, _, key, keyed, _, _, _, _, _, _, _, _, _, _, _, _, _, _, rfl⟩ := valid
  exact requireString_key keyed

theorem validateSized_key {args : ExecuteArgs} {order : SizedOrder}
    (valid : validateSized svc args = .ok order) :
    args.idempotencyKey.key = some order.idempotencyKey := by
  unfold validateSized at valid
  simp only [bind_ok, pure, Except.pure, Except.ok.injEq] at valid
  obtain ⟨key, keyed, _, _, _, _, _, _, _, _, _, _, _, _, rfl⟩ := valid
  exact requireString_key keyed

/-- `place_oco_order` leaves without a lock. -/
theorem placeOcoOrder_safe {args : PlaceOcoArgs} (free : known.view = none)
    (serving : known.call = some (.placeOcoOrder args)) :
    Safe (custody svc.text) (placeOcoOrder svc args) known fun _ g => Idle known g := by
  unfold placeOcoOrder
  refine Safe.bind sync_safe ?_ ?_
  · rintro order _ ⟨rfl, valid⟩
    refine withLock_safe free fun entered rows call _ held => executeOcoDirect_safe held ?_
    rw [Serves, call, serving]
    exact validateOco_key valid.symm
  · rintro raised _ ⟨rfl, _⟩
    exact Idle.refl free

/-- Every listed account is one that the task has read. -/
theorem accounts_safe (free : known.view = none) :
    Safe (custody svc.text) (dbRead .accounts) known
      (Outcome (fun listed learned => Idle known learned ∧
          ∀ account ∈ listed, Snapshot learned.hist account)
        fun _ learned => Idle known learned) := by
  unfold dbRead
  refine neutral_call trivial fun answer learned learns _ => ?_
  cases answer with
  | error raised => exact learns.readSteady.idle free
  | ok listed =>
    have facts := learns.view.2.1
    refine ⟨learns.readSteady.idle free, fun account member =>
      ⟨⟨⟨.read .accounts, .ok listed⟩, ?_, member⟩, facts account member⟩⟩
    rw [learns.hist]
    exact List.mem_cons_self

/-- `_resolve_targets` returns accounts that it read. -/
theorem resolveTargets_safe {accountIds tags : List String} (free : known.view = none) :
    Safe (custody svc.text) (resolveTargets accountIds tags) known
      (Outcome (fun targets learned => Idle known learned ∧
          ∀ account ∈ targets, Snapshot learned.hist account)
        fun _ learned => Idle known learned) := by
  unfold resolveTargets
  split
  · exact .fail (Idle.refl free)
  refine Safe.bind_iff.mpr ((accounts_safe free).mono fun outcome learned facts => ?_)
  cases outcome with
  | error raised => exact facts
  | ok listed =>
    dsimp only [Outcome]
    split
    · exact .fail facts.1
    · -- The targets are some of the listed accounts.
      exact .done ⟨facts.1, fun account member => facts.2 account (List.mem_filter.mp member).1⟩

/-- One account of a bulk order leaves without a lock. -/
theorem executeFor_safe {order : SizedOrder} {account : Account} (free : known.view = none)
    (snapshot : Snapshot known.hist account) (serves : Serves known order.idempotencyKey) :
    Safe (custody svc.text) (executeFor svc order account) known fun _ g => Idle known g := by
  unfold executeFor
  refine withLock_safe free fun entered rows call hist held => ?_
  have serves' : Serves entered order.idempotencyKey := by rw [Serves, call]; exact serves
  exact Safe.rescue (executeOneSized_safe held (snapshot.mono hist) serves')
    (fun _ _ session => session) fun _ _ session => .done session

/-- `execute_on_accounts` leaves without a lock. -/
theorem executeOnAccounts_safe (args : ExecuteArgs) (free : known.view = none)
    (keyed : known.call.bind Call.key = args.idempotencyKey.key) :
    Safe (custody svc.text) (executeOnAccounts svc args) known fun _ g => Idle known g := by
  unfold executeOnAccounts
  refine Safe.bind sync_safe ?_ ?_
  swap
  · rintro raised _ ⟨rfl, _⟩
    exact Idle.refl free
  rintro order _ ⟨rfl, valid⟩
  refine Safe.bind (resolveTargets_safe free) ?_ fun _ _ idle => idle
  rintro targets resolved ⟨idle, snapshots⟩
  -- Each account is served under its own lock, one after the other.
  refine Safe.bind (loop_safe (Idle.refl idle.view) ?_) (fun _ _ after => .done (idle.trans after))
    fun _ _ after => idle.trans after
  intro account member results g before
  have serves : Serves g order.idempotencyKey := by
    rw [Serves, before.call, idle.call, keyed]
    exact validateSized_key valid.symm
  have snapshot := (snapshots account member).mono before.hist
  exact Safe.bind (executeFor_safe before.view snapshot serves) (fun _ _ after => .done after)
    fun _ _ after => after

/-- Administration is neutral. -/
theorem Admin.neutral {request : Req} (admin : Admin request) : Neutral request := by
  cases request with
  | write tx => cases tx <;> first | exact admin | trivial
  | _ => first | exact admin | trivial

/-- What is administration is neutral throughout. -/
theorem neutral_of_admin {program : Task α} (only : program.Only Admin) :
    program.Only Neutral := only.mono fun _ admin => admin.neutral

/-- What settles a pending order is neutral throughout. -/
theorem neutral_of_pending {program : Task α} (only : program.Only PendingWork) : program.Only Neutral := by
  refine only.mono fun request pending => ?_
  cases request with
  | write tx => cases tx <;> trivial
  | broker call => exact absurd pending id
  | _ => trivial

/-- The approval handler executes under the pending order's key and leaves without a lock. -/
theorem approvePendingOrderHandler_safe {orderId actor actor' : String} (free : known.view = none)
    (serving : known.call = some (.approvePendingOrder orderId actor')) :
    Safe (custody svc.text) (approvePendingOrderHandler (executeOnAccounts svc) orderId actor) known
      fun _ g => Idle known g := by
  unfold approvePendingOrderHandler
  refine neutral_then (neutral_of_pending (pendingOrder_settles _)) (Idle.refl free) fun row read idle => ?_
  by_cases waiting : row.status ≠ .awaitingApproval
  · rw [if_pos waiting]
    exact .fail idle
  rw [if_neg waiting]
  refine neutral_then (neutral_of_pending (pendingEntry_settles _ _)) idle fun entry filled idle => ?_
  refine neutral_then only_ofExcept idle fun _ checked idle => ?_
  by_cases unprotected : row.stopLoss = none
  · rw [if_pos unprotected]
    exact .fail idle
  rw [if_neg unprotected]
  refine neutral_then (only_call.mpr trivial) idle fun now ticked idle => ?_
  refine neutral_then (only_call.mpr trivial) idle fun _ claimed idle => ?_
  -- The order service is called under the key that belongs to this pending order.
  have keyed : claimed.call.bind Call.key =
      (pendingExecution orderId row entry actor).idempotencyKey.key := by
    rw [idle.call, serving]
    rfl
  refine Safe.attempt_bind (executeOnAccounts_safe _ idle.view keyed) fun executed last after => ?_
  have idle := idle.trans after
  exact (neutral_safe (neutral_of_pending (settlePending_settles _ _)) idle.view).mono fun _ _ g => idle.trans g

end Rasat
