import RasatTrading.Guarantees.Rows

/-! CANCELED is earned: what must have been heard of a real order before its row is CANCELED. -/

namespace Rasat

open Coop

variable {svc : Service} {db : Database} {s after : State}

/-- The entry stores an order for the broker. -/
def StoresReal (entry : Entry Req Req.Ans Exc Call) (row : Order) : Prop :=
  ∃ task draft audit, entry = .answered task ⟨.write (.insertOrder draft false audit), .ok row⟩

/-- The broker said later that the stored order is CANCELED or does not exist. -/
def ToldCanceled (newer : List (Entry Req Req.Ans Exc Call)) (row : Order) : Prop :=
  ∃ task event, Entry.answered task event ∈ newer ∧
    ReportsCanceled row.accountId row.clientOrderId event

/-- A kill switch that had read the order's account as paper found the order among its active ones. -/
def CanceledOnPaper (s : State) (row : Order) : Prop :=
  ∃ task accountId actor newer active older, s.calls task = some (.closeAllPositions accountId actor) ∧
    s.hist task = newer ++ ⟨.read (.activeOrders row.accountId), .ok active⟩ :: older ∧
    SawPaper older row.accountId ∧ ∃ listed ∈ active, listed.orderId = row.orderId

/-- The lookup of an open order raises a canonical error right after its cancellation found nothing. -/
def Overlooking (s : State) : Move Choice Call → Prop
  | .resume task choice =>
    ∃ request next answer world missed rest, s.tasks task = some (.ask request next) ∧
      perform s.world task request choice = some (answer, world) ∧ s.hist task = missed :: rest ∧
      ∃ row ∈ s.world.db.orders, row.status.isOpen ∧
        brokerReport row.accountId row.clientOrderId missed = some (.ok none) ∧
        ReportsError row.accountId row.clientOrderId ⟨request, answer⟩
  | _ => False

/-- What a waiting task heard last from the broker, it heard after the orders of the account that it attends to
were stored. -/
def HeardLast (s : State) : Prop :=
  ∀ task request next call answer rest, s.tasks task = some (.ask request next) →
    s.hist task = ⟨.broker call, answer⟩ :: rest →
      ∀ newer entry older row, s.trace = newer ++ entry :: older → StoresReal entry row →
        Attends s task row.accountId → Entry.answered task ⟨.broker call, answer⟩ ∈ newer

variable {move : Move Choice Call} {calm : Prop}

theorem heardLast_step (represented : (custodySimulation svc.text calm).Represented s)
    (stepped : (machine svc).step s move = some after) (heard : HeardLast s) : HeardLast after := by
  intro task request next call answer rest waiting newest newer entry older row split stores attends
  rcases waiting_step represented stepped waiting (by rw [newest]; simp) with
    ⟨choice, asked, resume, reply, world, -, -, -, rfl⟩ | still
  · -- The task has just heard it.
    rw [Sys.hist_answered_self] at newest
    obtain ⟨event, -⟩ := List.cons.inj newest
    cases newer with
    | nil =>
      obtain ⟨_, _, _, rfl⟩ := stores
      cases (List.cons.inj split).1
      cases event
    | cons first newer =>
      rw [← event, ← (List.cons.inj split).1]
      exact List.mem_cons_self
  · obtain ⟨locked, same⟩ := still.frame _ attends
    rw [still.hist] at newest
    obtain ⟨added, grown, brought⟩ := step_trace stepped
    rw [grown] at split
    cases newer with
    | nil =>
      -- Nobody else stores an order of the account while the task attends to it.
      exfalso
      obtain ⟨owner, draft, audit, rfl⟩ := stores
      obtain ⟨choice, resume, world, rfl, running, performed, rfl⟩ :=
        brought owner _ (List.cons.inj split).1
      obtain ⟨-, joined⟩ := Tx.run_insertOrder (perform_write performed)
      have new : row ∈ ofAccount row.accountId world.db.orders := by
        simp [ofAccount, joined.orders]
      rw [show ofAccount row.accountId world.db.orders = _ from same] at new
      exact joined.id (List.mem_map_of_mem (List.mem_filter.mp new).1)
    | cons first newer =>
      exact List.mem_cons_of_mem _ (heard task request next call answer rest still.before newest newer
        entry older row (List.cons.inj split).2 stores (.inl locked))

/-- No waiting task has taken a failed lookup for a missing order of an account that it attends to. -/
def NoneOverlooked (s : State) : Prop :=
  ∀ task request next event missed rest, s.tasks task = some (.ask request next) →
    s.hist task = event :: missed :: rest →
      ∀ row ∈ s.world.db.orders, row.status.isOpen →
        brokerReport row.accountId row.clientOrderId missed = some (.ok none) →
        ReportsError row.accountId row.clientOrderId event → ¬Attends s task row.accountId

theorem noneOverlooked_step (represented : (custodySimulation svc.text calm).Represented s)
    (heeded : ¬Overlooking s move) (stepped : (machine svc).step s move = some after)
    (none : NoneOverlooked s) : NoneOverlooked after := by
  intro task request next event missed rest waiting newest row member isOpen missing failed attends
  rcases waiting_step represented stepped waiting (by rw [newest]; simp) with
    ⟨choice, asked, resume, reply, world, rfl, running, performed, rfl⟩ | still
  · -- The failed lookup is this very move, and it leaves the rows as they are.
    rw [Sys.hist_answered_self] at newest
    obtain ⟨rfl, older⟩ := List.cons.inj newest
    have stored : row ∈ s.world.db.orders := by
      obtain ⟨query, -⟩ := failed
      cases asked with
      | broker call => cases performed; exact member
      | _ => cases query
    exact heeded ⟨asked, resume, reply, world, missed, rest, running, performed, older, row, stored,
      isOpen, missing, failed⟩
  · obtain ⟨locked, same⟩ := still.frame _ attends
    rw [still.hist] at newest
    have kept : row ∈ ofAccount row.accountId s.world.db.orders := by
      rw [← same]
      simpa [ofAccount] using member
    exact none task request next event missed rest still.before newest row (List.mem_filter.mp kept).1
      isOpen missing failed (.inl locked)

/-- Every CANCELED row that was stored for the broker has a reason. -/
def CanceledEarned (s : State) : Prop :=
  ∀ newer entry older row, s.trace = newer ++ entry :: older → StoresReal entry row →
    ∀ later ∈ s.world.db.orders, later.orderId = row.orderId → later.status = .exchange .canceled →
      ToldCanceled newer row ∨ CanceledOnPaper s row

/-- What the kill switch listed of a paper account stays so. -/
theorem CanceledOnPaper.step {row : Order} (orderly : s.Orderly)
    (stepped : (machine svc).step s move = some after) (listed : CanceledOnPaper s row) :
    CanceledOnPaper after row := by
  obtain ⟨task, accountId, actor, newer, active, older, called, heard, paper, found⟩ := listed
  obtain ⟨added, grown, -⟩ := step_trace stepped
  have suffix : s.hist task <:+ after.hist task := by
    unfold Sys.hist
    rw [grown]
    exact (List.suffix_cons _ _).filterMap _
  obtain ⟨extra, longer⟩ := suffix
  refine ⟨task, accountId, actor, extra ++ newer, active, older, ?_, by rw [← longer, heard]; simp, paper,
    found⟩
  obtain ⟨opened, value, -, -, rfl⟩ | ⟨_, _, _, _, _, _, -, -, -, rfl⟩ | ⟨-, rfl⟩ :=
    Machine.step_cases stepped
  · -- A new call gets a number that no call had before.
    have other : task ≠ s.fresh := by
      rintro rfl
      rw [(orderly.unused s.fresh (Nat.le_refl _)).2.1] at called
      cases called
    simpa [Machine.opened, Function.update_of_ne other] using called
  · exact called
  · exact called

/-- Only the broker tells that an order is CANCELED. -/
theorem ReportsCanceled.of_broker {accountId clientOrderId : String} {event : Event Req Req.Ans Exc}
    (report : ReportsCanceled accountId clientOrderId event) :
    ∃ call answer, event = ⟨.broker call, answer⟩ := by
  obtain ⟨request, answer⟩ := event
  cases request with
  | broker call => exact ⟨call, answer, rfl⟩
  | _ =>
    rcases report with ⟨_, told, -⟩ | ⟨query, -⟩
    · cases told
    · cases query

/-- A task that makes a stored order CANCELED has a reason, as long as no failed lookup is taken for one. -/
theorem update_earned {task : Nat} {orderId : String} {change : OrderUpdate} {audit : Option AuditEntry}
    {next : Except Exc Unit → Task Reply}
    (represented : (custodySimulation svc.text calm).Represented s) (heard : HeardLast s)
    (none : NoneOverlooked s)
    (running : s.tasks task = some (.ask (.write (.updateOrder orderId change audit)) next))
    (canceled : change.status = .canceled) {row stored : Order} (kept : stored ∈ s.world.db.orders)
    (named : stored.orderId = orderId) (late : LaterRow row stored)
    {newer older : List (Entry Req Req.Ans Exc Call)} {entry : Entry Req Req.Ans Exc Call}
    (split : s.trace = newer ++ entry :: older) (stores : StoresReal entry row) :
    ToldCanceled newer row ∨ CanceledOnPaper s row := by
  obtain ⟨known, updated, truth, member, same, isOpen, attends, cancels⟩ :=
    attends_of_update represented running
  -- The row that the update is asked for is the stored one, since ids are unique.
  obtain rfl := eq_of_orderId represented.inv.formed.orderIds member kept (same.trans named.symm)
  have draft : updated.toOrderDraft = row.toOrderDraft := late.draft
  have owner : updated.accountId = row.accountId := congrArg OrderDraft.accountId draft
  have id : updated.clientOrderId = row.clientOrderId := congrArg OrderDraft.clientOrderId draft
  -- The discipline of the task says what it has heard before it cancels a row.
  cases cancels canceled with
  | reported event rest newest report =>
    obtain ⟨call, answer, rfl⟩ := report.of_broker
    have member := heard task _ _ call answer rest running (truth.hist ▸ newest) newer entry older row
      split stores (owner ▸ attends)
    exact .inl ⟨task, _, member, owner ▸ id ▸ report⟩
  | simulated call serving closing listed =>
    obtain ⟨before, active, earlier, heard, found, paper⟩ := listed
    cases call with
    | closeAllPositions accountId actor =>
      refine .inr ⟨task, accountId, actor, before, active, earlier, truth.call.symm.trans serving, ?_, ?_,
        updated, found, late.orderId⟩
      · rw [← owner, ← truth.hist]
        exact heard
      · rw [← owner]
        exact paper
    | _ => cases closing
  | unverified event missed rest newest failed missing =>
    exact absurd attends (none task _ _ event missed rest running (truth.hist ▸ newest) updated member
      isOpen missing failed)

theorem canceledEarned_step (represented : (custodySimulation svc.text calm).Represented s)
    (stepped : (machine svc).step s move = some after) (inserted : InsertedStored s) (heard : HeardLast s)
    (none : NoneOverlooked s) (earned : CanceledEarned s) : CanceledEarned after := by
  intro newer entry older row split stores later member same canceled
  obtain ⟨added, grown, brought⟩ := step_trace stepped
  rw [grown] at split
  cases newer with
  | nil =>
    -- The order has just been stored, as NEW.
    exfalso
    obtain ⟨owner, draft, audit, rfl⟩ := stores
    obtain ⟨choice, resume, world, rfl, running, performed, rfl⟩ := brought owner _ (List.cons.inj split).1
    obtain ⟨shape, joined⟩ := Tx.run_insertOrder (perform_write performed)
    rw [show (s.answered owner _ resume _ world).world.db.orders = _ from joined.orders] at member
    rcases List.mem_append.mp member with old | new
    · exact joined.id (List.mem_map.mpr ⟨later, old, same⟩)
    · rw [List.mem_singleton.mp new, shape] at canceled
      cases canceled
  | cons first newer =>
    have split := (List.cons.inj split).2
    have longer : ToldCanceled newer row → ToldCanceled (first :: newer) row :=
      fun ⟨task, event, told, report⟩ => ⟨task, event, List.mem_cons_of_mem _ told, report⟩
    have onPaper : CanceledOnPaper s row → CanceledOnPaper after row := fun listed =>
      listed.step represented.orderly stepped
    -- A row that was CANCELED before has its reason already.
    have before (old : later ∈ s.world.db.orders) :
        ToldCanceled (first :: newer) row ∨ CanceledOnPaper after row :=
      (earned newer entry older row split stores later old same canceled).imp longer onPaper
    rcases step_db represented stepped with
      untouched | ⟨task, choice, tx, next, committed, world, -, running, ran, rfl⟩
    · exact before (untouched ▸ member)
    by_cases quiet : tx.writes .orders = false
    · exact before ((Tx.run_frame ran).orders quiet ▸ member)
    cases tx with
    | insertOrder draft simulated audit =>
      obtain ⟨shape, joined⟩ := Tx.run_insertOrder ran
      rw [show (s.answered task _ next _ world).world.db.orders = _ from joined.orders] at member
      rcases List.mem_append.mp member with old | new
      · exact before old
      · rw [List.mem_singleton.mp new, shape] at canceled
        cases simulated <;> cases canceled
    | updateOrder orderId change audit =>
      have orders : world.db.orders = updateRows orderId change s.world.db.orders :=
        congrArg Database.orders (Tx.run_updateOrder ran)
      rw [show (s.answered task _ next _ world).world.db.orders = _ from orders] at member
      obtain ⟨old, kept, rfl⟩ := mem_updateRows.mp member
      by_cases changed : old.orderId = orderId
      · rw [if_pos changed] at same canceled
        obtain ⟨owner, draft, audit', rfl⟩ := stores
        have listed : Entry.answered owner ⟨.write (.insertOrder draft false audit'), .ok row⟩ ∈ s.trace := by
          rw [split]
          exact List.mem_append_right _ List.mem_cons_self
        obtain ⟨-, stored, there, late⟩ := inserted owner draft false audit' row listed
        obtain rfl := eq_of_orderId represented.inv.formed.orderIds there kept (late.orderId.trans same.symm)
        exact (update_earned represented heard none running (OrderStatus.exchange.inj canceled) there changed
          late split ⟨owner, draft, audit', rfl⟩).imp longer onPaper
      · rw [if_neg changed] at before
        exact before kept
    | _ => exact absurd rfl quiet

/-- In every run in which no lookup of an open order raises a canonical error right after its cancellation found
nothing, a stored order is CANCELED only when the broker said later that it is CANCELED or does not exist, or when a
kill switch that had read its account as paper found it among the active orders. -/
theorem canceled_earned (formed : db.WellFormed)
    (steps : (machine svc).Steps (fun s move => ¬Overlooking s move) (started svc db) s) :
    CanceledEarned s := by
  have sound : (custodySimulation svc.text False).Sound (machine svc) fun s move => ¬Overlooking s move :=
    custody_sound.mono fun _ _ _ => False.elim
  have invariant := sound.invariant
    (fun s => Reached svc db s ∧ HeardLast s ∧ NoneOverlooked s ∧ CanceledEarned s) ?_
    (started_represented formed) ?_ steps
  · exact invariant.2.2.2
  · rintro s move after represented heeded stepped ⟨reached, heard, none, earned⟩
    exact ⟨.tail reached ⟨move, trivial, stepped⟩, heardLast_step represented stepped heard,
      noneOverlooked_step represented heeded stepped none,
      canceledEarned_step represented stepped (reached.insertedStored formed) heard none earned⟩
  · refine ⟨.refl, fun _ _ _ _ _ _ _ newest => ?_, fun _ _ _ _ _ _ _ newest => ?_, fun newer _ _ _ split => ?_⟩
    · cases newest
    · cases newest
    · cases newer <;> cases split

/-- No lookup raises an exception. -/
def heedsCheck (s : State) : Move Choice Call → Bool
  | .resume task choice =>
    match s.tasks task with
    | some (.ask (.broker (.queryOrder _ _ _)) _) | some (.ask (.broker (.queryOco _ _)) _) =>
      choice.fault.isNone
    | _ => true
  | _ => true

theorem heedsCheck_spec {s : State} (checked : heedsCheck s move) : ¬Overlooking s move := by
  cases move with
  | resume task choice =>
    rintro ⟨request, next, answer, world, missed, rest, running, performed, -, row, -, -, -, query, error, failed⟩
    cases request with
    | broker call =>
      cases call with
      | queryOrder accountId symbol clientOrderId =>
        simp only [heedsCheck, running, Option.isNone_iff_eq_none] at checked
        cases performed
        simp [brokerReport, Choice.broker, checked, orFault] at failed
      | queryOco accountId clientOrderId =>
        simp only [heedsCheck, running, Option.isNone_iff_eq_none] at checked
        cases performed
        simp [brokerReport, Choice.broker, checked, orFault] at failed
      | _ => cases query
    | _ => cases query
  | _ => exact id

/-- A buy that rests at the exchange. -/
def restedBuy : List (Move Choice Call) :=
  booted ++ .open (.placeOrder buyOne) :: answers 1 (List.replicate 15 calmDay)

/-- The kill switch over it, whose cancellation the broker confirms. -/
def confirmedCancel : List (Move Choice Call) :=
  restedBuy ++ .open (.closeAllPositions (.text "main") "mcp-agent") ::
    answers 2 (List.replicate 10 { calmDay with found := some { status := .canceled } })

/-- The buy is CANCELED once the broker has confirmed it. -/
theorem confirmed_cancel_earned :
    ∃ s, (machine demo).Steps (fun s move => ¬Overlooking s move) (started demo shop) s ∧
      (s.world.db.orders.any fun row => row.status = .exchange .canceled) ∧ CanceledEarned s := by
  have passes : ((machine demo).checkedRun heedsCheck (started demo shop) confirmedCancel).any fun s =>
      s.world.db.orders.any fun row => row.status = .exchange .canceled := by decide +kernel
  obtain ⟨s, ran, canceled⟩ := run_end passes
  have steps : (machine demo).Steps (fun s move => ¬Overlooking s move) (started demo shop) s :=
    Machine.Steps.mono (fun _ _ => heedsCheck_spec) (Machine.checkedRun_steps ran)
  exact ⟨s, steps, canceled, canceled_earned shop_wellFormed steps⟩

/-- Whether the broker says in an entry that an order is CANCELED or does not exist. -/
def tellsCanceled (row : Order) : Entry Req Req.Ans Exc Call → Bool
  | .answered _ event =>
    match brokerReport row.accountId row.clientOrderId event with
    | some (.ok (some result)) => result.status = .canceled
    | some (.ok none) => isQuery event
    | _ => false
  | _ => false

theorem tellsCanceled_spec {row : Order} {newer : List (Entry Req Req.Ans Exc Call)}
    (told : ToldCanceled newer row) : ∃ entry ∈ newer, tellsCanceled row entry := by
  obtain ⟨task, event, member, report⟩ := told
  refine ⟨_, member, ?_⟩
  rcases report with ⟨result, reported, canceled⟩ | ⟨query, missing⟩
  · simp [tellsCanceled, reported, canceled]
  · simp [tellsCanceled, missing, query]

/-- The kill switch over the account of the resting buy, after real trading was disabled. -/
def paperCancel : List (Move Choice Call) :=
  restedBuy ++ .open (.disableRealTrading (.text "main") "mcp-agent") :: answers 2 [calmDay] ++
    .open (.closeAllPositions (.text "main") "mcp-agent") :: answers 3 (List.replicate 5 calmDay)

/-- The entry stores a real row that shows as CANCELED, although the broker told nothing of it. -/
def canceledUnasked (s : State) : Entry Req Req.Ans Exc Call → Bool
  | .answered _ ⟨.write (.insertOrder _ false _), .ok row⟩ =>
    s.trace.all (fun entry => !tellsCanceled row entry) && s.world.db.orders.any fun later =>
      later.orderId = row.orderId && later.status = .exchange .canceled
  | _ => false

/-- A resting order is CANCELED that the broker was never asked about. -/
theorem unasked_order_canceled :
    ¬∀ (svc : Service) (db : Database) (s : State), db.WellFormed → Reached svc db s →
      ∀ newer entry older row, s.trace = newer ++ entry :: older → StoresReal entry row →
        ∀ later ∈ s.world.db.orders, later.orderId = row.orderId →
          later.status = .exchange .canceled → ToldCanceled newer row := by
  intro claimed
  have passes : ((machine demo).run (started demo shop) paperCancel).any fun s =>
      s.trace.any (canceledUnasked s) := by decide +kernel
  obtain ⟨s, ran, checked⟩ := run_end passes
  obtain ⟨entry, listed, checked⟩ := List.any_eq_true.mp checked
  unfold canceledUnasked at checked
  split at checked
  case h_2 => cases checked
  case h_1 task draft audit row =>
  simp only [Bool.and_eq_true, List.all_eq_true, List.any_eq_true, decide_eq_true_eq,
    Bool.not_eq_true'] at checked
  obtain ⟨silent, later, stored, same, canceled⟩ := checked
  obtain ⟨older, newer, split⟩ := List.append_of_mem listed
  obtain ⟨entry, member, told⟩ := tellsCanceled_spec (claimed demo shop s shop_wellFormed (reached_of_run ran)
    older _ newer row split ⟨task, draft, audit, rfl⟩ later stored same canceled)
  rw [silent entry (split ▸ List.mem_append_left _ member)] at told
  cases told

end Rasat
