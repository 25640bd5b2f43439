import RasatTrading.Custody.Truth

/-! Runs of the daemon from well-formed tables, and what one move can do to them. -/

namespace Rasat

open Coop

variable {svc : Service} {db : Database} {s after : State}

/-- The daemon started over some tables. -/
def started (svc : Service) (db : Database) : State := (machine svc).start { db := db }

/-- A state that some run of the daemon reaches from some tables. -/
def Reached (svc : Service) (db : Database) (s : State) : Prop :=
  (machine svc).Steps (fun _ _ => True) (started svc db) s

/-- A state reached by a run in which no lookup of a close SELL is unsettling. -/
def ReachedCalmly (svc : Service) (db : Database) (s : State) : Prop :=
  (machine svc).Steps (fun before move => ¬Unsettling before move) (started svc db) s

/-- A start from well-formed tables and a list of moves that goes through reach a state. -/
theorem reached_of_run {moves : List (Move Choice Call)}
    (ran : (machine svc).run (started svc db) moves = some s) : Reached svc db s :=
  Machine.run_steps ran

/-- A freshly started daemon knows what is true. -/
theorem started_represented {calm : Prop} (formed : db.WellFormed) :
    (custodySimulation svc.text calm).Represented (started svc db) where
  orderly := Machine.start_orderly _
  inv := ⟨formed, fun _ _ locked => by cases locked⟩
  task := by
    intro task program running
    -- The boot task is the only one, and it holds every row.
    by_cases boot : task = 0
    · subst boot
      have same : startup svc = program := by simpa [started, machine, machineWith, Machine.start] using running
      refine ⟨{
        call := none
        hist := []
        view := some ⟨none, db.orders⟩
        suspect := False }, ⟨⟨rfl, rfl, fun _ => rfl, fun _ => ?_⟩, fun _ => id⟩, ?_⟩
      · exact ⟨(fun _ locked => by cases locked), rfl⟩
      · rw [← same]
        have valid : View.Valid ⟨none, db.orders⟩ := select_valid formed
        refine (startup_safe ⟨rfl, valid⟩).mono fun _ g session accountId rows held => ?_
        obtain ⟨kept, now⟩ := session.held
        rw [now.1] at held
        cases held
    · simp [started, machine, machineWith, Machine.start, boot] at running

/-- What every reachable state has in common. -/
theorem Reached.represented (reached : Reached svc db s) (formed : db.WellFormed) :
    (custodySimulation svc.text False).Represented s := by
  refine custody_sound.represented (started_represented formed) ?_
  exact Machine.Steps.mono (fun _ _ _ => False.elim) reached

theorem ReachedCalmly.represented (reached : ReachedCalmly svc db s) (formed : db.WellFormed) :
    (custodySimulation svc.text True).Represented s := by
  refine custody_sound.represented (started_represented formed) ?_
  exact Machine.Steps.mono (fun _ _ calm _ => calm) reached

/-- A property that every move from a represented state keeps holds of every reachable state. -/
theorem Reached.invariant (holds : State → Prop) (reached : Reached svc db s) (formed : db.WellFormed)
    (initial : holds (started svc db))
    (keeps : ∀ s move after, (custodySimulation svc.text False).Represented s →
      (machine svc).step s move = some after → holds s → holds after) : holds s := by
  refine custody_sound.invariant holds (fun s move after represented _ stepped held =>
    keeps s move after represented stepped held) (started_represented formed) initial ?_
  exact Machine.Steps.mono (fun _ _ _ => False.elim) reached

variable {move : Move Choice Call}

/-- The task that just moved heard nothing before, or its newest event is the one that moved it. -/
theorem step_mover {event : Event Req Req.Ans Exc} {rest : History}
    (orderly : s.Orderly) (stepped : (machine svc).step s move = some after)
    (heard : after.hist (Machine.mover s move) = event :: rest) :
    ∃ task choice next world, move = .resume task choice ∧
      s.tasks task = some (.ask event.request next) ∧
      perform s.world task event.request choice = some (event.answer, world) ∧
      after = s.answered task event.request next event.answer world := by
  have silent : s.hist s.fresh = [] := (orderly.unused s.fresh (Nat.le_refl _)).2.2
  obtain ⟨call, value, rfl, -, rfl⟩ |
    ⟨task, choice, request, next, answer, world, rfl, running, performed, rfl⟩ | ⟨rfl, rfl⟩ :=
    Machine.step_cases stepped
  · rw [Machine.hist_opened] at heard
    rw [show s.hist s.fresh = _ from heard] at silent
    cases silent
  · have newest : (⟨request, answer⟩ : Event Req Req.Ans Exc) :: s.hist task = event :: rest := by
      rw [← Sys.hist_answered_self]
      exact heard
    cases newest
    exact ⟨task, choice, next, world, rfl, running, performed, rfl⟩
  · rw [Machine.hist_crashed] at heard
    rw [show s.hist s.fresh = _ from heard] at silent
    cases silent

/-- A move adds one entry to the record; an answer in it is the one that the move brought. -/
theorem step_trace (stepped : (machine svc).step s move = some after) :
    ∃ entry, after.trace = entry :: s.trace ∧
      ∀ task event, entry = .answered task event → ∃ choice next world,
        move = .resume task choice ∧ s.tasks task = some (.ask event.request next) ∧
          perform s.world task event.request choice = some (event.answer, world) ∧
          after = s.answered task event.request next event.answer world := by
  obtain ⟨call, value, rfl, -, rfl⟩ |
    ⟨owner, choice, request, next, answer, world, rfl, running, performed, rfl⟩ | ⟨rfl, rfl⟩ :=
    Machine.step_cases stepped
  · exact ⟨_, rfl, fun _ _ same => nomatch same⟩
  · refine ⟨_, rfl, fun task event same => ?_⟩
    cases same
    exact ⟨choice, next, world, rfl, running, performed, rfl⟩
  · exact ⟨_, rfl, fun _ _ same => nomatch same⟩

variable {task : Nat}

/-- An event of the record is an older one or the answer that the move brought. -/
theorem step_answered {event : Event Req Req.Ans Exc}
    (stepped : (machine svc).step s move = some after) (member : Entry.answered task event ∈ after.trace) :
    Entry.answered task event ∈ s.trace ∨
      ∃ choice next world, move = .resume task choice ∧
        s.tasks task = some (.ask event.request next) ∧
        perform s.world task event.request choice = some (event.answer, world) ∧
        after = s.answered task event.request next event.answer world := by
  obtain ⟨entry, grown, brought⟩ := step_trace stepped
  rw [grown] at member
  rcases List.mem_cons.mp member with new | old
  · exact .inr (brought task event new.symm)
  · exact .inl old

/-- What every answer has in common when it is given, it has in the whole record of a run. -/
theorem Reached.every_answer (holds : List (Entry Req Req.Ans Exc Call) → Nat → Event Req Req.Ans Exc → Prop)
    (reached : Reached svc db s) (formed : db.WellFormed)
    (given : ∀ (s : State) task request next choice answer world, Reached svc db s →
      (custodySimulation svc.text False).Represented s → s.tasks task = some (.ask request next) →
      perform s.world task request choice = some (answer, world) →
      holds s.trace task ⟨request, answer⟩) :
    ∀ newer older task event, s.trace = newer ++ .answered task event :: older →
      holds older task event := by
  refine (reached.invariant (fun s => Reached svc db s ∧ ∀ newer older task event,
    s.trace = newer ++ .answered task event :: older → holds older task event) formed ?_ ?_).2
  · refine ⟨.refl, fun newer older task event split => ?_⟩
    have empty : (started svc db).trace = [] := rfl
    rw [empty] at split
    simp at split
  · rintro s move after represented stepped ⟨arrived, before⟩
    refine ⟨.tail arrived ⟨move, trivial, stepped⟩, fun newer older task event split => ?_⟩
    obtain ⟨entry, grown, brought⟩ := step_trace stepped
    cases newer with
    | nil =>
      -- The newest entry is the answer that this move brought.
      rw [split] at grown
      obtain ⟨newest, rfl⟩ := List.cons.inj grown
      obtain ⟨choice, next, world, -, running, performed, -⟩ := brought task event newest.symm
      exact given s task _ next choice _ world arrived represented running performed
    | cons first rest =>
      rw [grown] at split
      exact before rest older task event (List.cons.inj split).2

/-- A transaction that went through was run on the stored tables. -/
theorem perform_write {world later : World} {tx : Tx} {choice : Choice}
    {committed : tx.Ans} (performed : perform world task (.write tx) choice = some (.ok committed, later)) :
    tx.run world.db choice.now choice.uuid = .ok (committed, later.db) := by
  simp only [perform, commit] at performed
  cases fault : choice.dbFault with
  | some text => rw [fault] at performed; cases performed
  | none =>
    simp only [fault] at performed
    cases ran : tx.run world.db choice.now choice.uuid with
    | error raised => rw [ran] at performed; cases performed
    | ok result => rw [ran] at performed; cases performed; rfl

/-- The world after a request is served: the tables change by a committed transaction only. -/
theorem perform_db {world later : World} {request : Req} {choice : Choice}
    {answer : Except Exc request.Ans} (direct : ∀ args, request ≠ .orderService args)
    (performed : perform world task request choice = some (answer, later)) :
    later.db = world.db ∨ ∃ tx, ∃ committed : tx.Ans,
      (⟨request, answer⟩ : Event Req Req.Ans Exc) = ⟨.write tx, .ok committed⟩ ∧
        tx.run world.db choice.now choice.uuid = .ok (committed, later.db) := by
  cases request with
  | lock accountId =>
    simp only [perform] at performed
    split at performed
    · cases performed; exact .inl rfl
    · cases performed
  | read query =>
    simp only [perform] at performed
    split at performed <;> (cases performed; exact .inl rfl)
  | write tx =>
    cases answer with
    | ok committed => exact .inr ⟨tx, committed, rfl, perform_write performed⟩
    | error raised =>
      simp only [perform, commit] at performed
      split at performed
      · cases performed; exact .inl rfl
      · split at performed <;> cases performed
        exact .inl rfl
  | orderService args => exact absurd rfl (direct args)
  | _ => cases performed; exact .inl rfl

/-- A task that waits for an answer knows something true that permits its request. -/
theorem asking_permitted {calm : Prop} {request : Req} {next : Except Exc request.Ans → Task Reply}
    (represented : (custodySimulation svc.text calm).Represented s)
    (running : s.tasks task = some (.ask request next)) :
    ∃ known, Truth s task known ∧ (calm → ¬known.suspect) ∧ Holds s.world task known.view ∧
      Permits svc.text known request := by
  obtain ⟨known, ⟨truth, sure⟩, keeps⟩ := represented.task task _ running
  exact ⟨known, truth, sure, truth.asking running, (Safe.ask_iff.mp keeps).1⟩

/-- So no task leaves the order service open. -/
theorem asks_directly {calm : Prop} {request : Req} {next : Except Exc request.Ans → Task Reply}
    (represented : (custodySimulation svc.text calm).Represented s)
    (running : s.tasks task = some (.ask request next)) : ∀ args, request ≠ .orderService args := by
  rintro args rfl
  obtain ⟨known, -, -, -, permitted⟩ := asking_permitted represented running
  exact permitted

/-- Everything that one move of the daemon can do to its tables. -/
theorem step_db {calm : Prop} (represented : (custodySimulation svc.text calm).Represented s)
    (stepped : (machine svc).step s move = some after) :
    after.world.db = s.world.db ∨ ∃ task choice tx next, ∃ committed : tx.Ans, ∃ world,
      move = .resume task choice ∧ s.tasks task = some (.ask (.write tx) next) ∧
        tx.run s.world.db choice.now choice.uuid = .ok (committed, world.db) ∧
        after = s.answered task (.write tx) next (.ok committed) world := by
  obtain ⟨call, value, -, -, rfl⟩ |
    ⟨task, choice, request, next, answer, world, rfl, running, performed, rfl⟩ | ⟨-, rfl⟩ :=
    Machine.step_cases stepped
  · exact .inl rfl
  · rcases perform_db (asks_directly represented running) performed with
      same | ⟨tx, committed, event, ran⟩
    · exact .inl same
    · cases event
      exact .inr ⟨task, choice, tx, next, committed, world, rfl, running, ran, rfl⟩
  · exact .inl rfl

/-- How one move changes the orders: a row joins them, or an open one among them is updated. -/
inductive OrdersStep (text : Text) (s after : State) : Prop
  | same (orders : after.world.db.orders = s.world.db.orders)
  | inserted (task : Nat) (known : Knowledge) (draft : OrderDraft) (simulated : Bool)
      (audit : Option AuditEntry) (row : Order) (next : Except Exc Order → Task Reply) (world : World)
      (truth : Truth s task known)
      (permitted : Permits text known (.write (.insertOrder draft simulated audit)))
      (shape : row = newOrder draft simulated row.orderId row.createdAt)
      (joined : s.world.db.Inserted row after.world.db)
      (moved : after = s.answered task (.write (.insertOrder draft simulated audit)) next (.ok row) world)
  | updated (task : Nat) (known : Knowledge) (row : Order) (change : OrderUpdate)
      (audit : Option AuditEntry) (next : Except Exc Unit → Task Reply) (world : World)
      (truth : Truth s task known) (member : row ∈ s.world.db.orders) (pending : row.status.isOpen)
      (cancels : change.status = .canceled → Cancelable known row)
      (orders : after.world.db.orders = updateRows row.orderId change s.world.db.orders)
      (moved : after = s.answered task (.write (.updateOrder row.orderId change audit)) next (.ok ()) world)

theorem step_orders {calm : Prop} (represented : (custodySimulation svc.text calm).Represented s)
    (stepped : (machine svc).step s move = some after) : OrdersStep svc.text s after := by
  rcases step_db represented stepped with
    same | ⟨task, choice, tx, next, committed, world, -, running, ran, rfl⟩
  · exact .same (by rw [same])
  by_cases quiet : tx.writes .orders = false
  · exact .same ((Tx.run_frame ran).orders quiet)
  obtain ⟨known, truth, -, holds, permitted⟩ := asking_permitted represented running
  cases tx with
  | insertOrder draft simulated audit =>
    obtain ⟨shape, joined⟩ := Tx.run_insertOrder ran
    exact .inserted task known draft simulated audit committed next world truth permitted
      (by rw [shape]; rfl) joined rfl
  | updateOrder orderId change audit =>
    obtain ⟨held, row, view, member, rfl, pending, cancels⟩ := permitted
    rw [view] at holds
    exact .updated task known row change audit next world truth (holds.within member) pending cancels
      (congrArg Database.orders (Tx.run_updateOrder ran)) rfl
  | _ => exact absurd rfl quiet

section

/-- Renderings that are exact for whole numbers, plain words and the key `k`. -/
def plainText : Text where
  float value := toString value.num ++ ".0"
  fixed8 value := toString value.num ++ ".00000000"
  repr s := "'" ++ s ++ "'"
  parseFloat _ := none
  isAlnum := Char.isAlphanum
  sha1Hex _ := "13fbd79c3d390e5d6585a21e11ff5ec1970cff0c"

/-- A service with an audit log. -/
def demo : Service := { text := plainText }

/-- A shop with one real account and nothing else. -/
def shop : Database where
  accounts := [{ accountId := "main", tradingLock := .real, credentialsConfigured := true }]

theorem shop_wellFormed : shop.WellFormed where
  accountIds := by decide
  strippedIds := by decide
  orderIds := by decide
  orderKeys := by decide
  overrideIds := by decide
  pendingIds := by decide

/-- Some answers for one task. -/
def answers (task : Nat) (choices : List Choice) : List (Move Choice Call) := choices.map (.resume task)

/-- A startup over tables without open orders and pending executions. -/
def booted : List (Move Choice Call) := answers 0 (List.replicate 6 {})

/-- Whole units of one coin, whose only limits are generous. -/
def wholeCoins : SymbolFilters where
  symbol := "BTCUSDT"
  baseAsset := "BTC"
  stepSize := 1
  minQty := 1
  maxQty := some 1000
  minNotional := 1
  tickSize := 1
  minPrice := 1
  maxPrice := some 1000000

/-- An environment in which everything goes well: the coin costs 10 and there is cash for it. -/
def calmDay : Choice where
  price := some 10
  filters := some wholeCoins
  balances := [("USDT", 1000)]

/-- A request to buy one coin at the market. -/
def buyOne : PlaceOrderArgs where
  accountId := .text "main"
  symbol := .text "BTCUSDT"
  side := .text "BUY"
  orderType := .text "MARKET"
  quantity := .number 1
  idempotencyKey := .text "k"

/-- A result that a check accepts is there. -/
theorem run_end {result : Option State} {check : State → Bool} (passes : result.any check = true) :
    ∃ s, result = some s ∧ check s = true := by
  cases result with
  | none => cases passes
  | some s => exact ⟨s, rfl, passes⟩

end

end Rasat

/-! Account locks over whole runs: nobody takes a lock from a task that waits under it. -/

namespace Rasat

open Coop

variable {svc : Service} {db : Database} {s after : State} {calm : Prop} {accountId : String}

/-- A task that holds an account's lock knows that account's rows and no others. -/
theorem Holds.under_lock {world : World} {task : Nat} {view : Option View}
    (holds : Holds world task view) (locked : world.locks accountId = some task) :
    view = some ⟨some accountId, ofAccount accountId world.db.orders⟩ := by
  match view with
  | none => exact absurd locked (holds accountId)
  | some ⟨none, rows⟩ => exact absurd locked (holds.1 accountId)
  | some ⟨some owner, rows⟩ =>
    obtain rfl := (holds.1 accountId).mp locked
    rw [holds.2]

/-- What a task is served leaves the lock with another task that waits under it, and the rows as they are. -/
theorem lock_kept {owner task : Nat} {request asked : Req}
    {next : Except Exc request.Ans → Task Reply} {resume : Except Exc asked.Ans → Task Reply}
    {choice : Choice} {answer : Except Exc request.Ans} {world : World}
    (represented : (custodySimulation svc.text calm).Represented s)
    (running : s.tasks owner = some (.ask request next))
    (performed : perform s.world owner request choice = some (answer, world))
    (differ : task ≠ owner) (waiting : s.tasks task = some (.ask asked resume))
    (locked : s.world.locks accountId = some task) :
    world.locks accountId = some task ∧
      ofAccount accountId world.db.orders = ofAccount accountId s.world.db.orders := by
  obtain ⟨known, truth, -, holds, permitted⟩ := asking_permitted represented running
  obtain ⟨ghost, -, -, mine, -⟩ := asking_permitted represented waiting
  have served := perform_served represented.inv.formed holds permitted performed
  have under := mine.under_lock locked
  -- Two tasks are there, so the startup is over and the one that is served holds no whole table.
  have late : ¬Booting s :=
    not_booting_of_two represented.orderly differ (by rw [running]; simp) (by rw [waiting]; simp)
  have unbooted : ¬Unscoped known.view := by
    intro unscoped
    refine late fun value finished => ?_
    rw [← truth.boot unscoped, running] at finished
    cases finished
  have narrow : ¬Unscoped ghost.view := by
    rintro ⟨rows, unscoped⟩
    rw [under] at unscoped
    cases unscoped
  have kept := served.frame task ghost.view differ unbooted narrow mine
  rw [under] at kept
  exact ⟨(kept.1 accountId).mpr rfl, kept.2.symm⟩

/-- The account's rows are in the task's custody: it has the account's lock or is the boot task. -/
def Attends (s : State) (task : Nat) (accountId : String) : Prop :=
  s.world.locks accountId = some task ∨ task = s.booter

/-- A task that waits attends to every account whose row it may update. -/
theorem attends_of_update {task : Nat} {orderId : String} {change : OrderUpdate}
    {audit : Option AuditEntry} {next : Except Exc Unit → Task Reply}
    (represented : (custodySimulation svc.text calm).Represented s)
    (running : s.tasks task = some (.ask (.write (.updateOrder orderId change audit)) next)) :
    ∃ known row, Truth s task known ∧ row ∈ s.world.db.orders ∧ row.orderId = orderId ∧
      row.status.isOpen ∧ Attends s task row.accountId ∧
        (change.status = .canceled → Cancelable known row) := by
  obtain ⟨known, truth, -, holds, ⟨scope, rows⟩, row, view, member, named, isOpen, cancels⟩ :=
    asking_permitted represented running
  rw [view] at holds
  refine ⟨known, row, truth, holds.within member, named, isOpen, ?_, cancels⟩
  cases scope with
  | none => exact .inr (truth.boot ⟨rows, view⟩)
  | some owner =>
    have listed : row ∈ ofAccount owner s.world.db.orders := holds.2 ▸ member
    have own : row.accountId = owner := by simpa using (List.mem_filter.mp listed).2
    exact .inl (own ▸ (holds.1 owner).mpr rfl)

/-- Another task's move neither gives a waiting task an account nor touches the rows that it attends to. -/
theorem attends_frame {owner task : Nat} {request asked : Req}
    {next : Except Exc request.Ans → Task Reply} {resume : Except Exc asked.Ans → Task Reply}
    {choice : Choice} {answer : Except Exc request.Ans} {world : World}
    (represented : (custodySimulation svc.text calm).Represented s)
    (running : s.tasks owner = some (.ask request next))
    (performed : perform s.world owner request choice = some (answer, world))
    (differ : task ≠ owner) (waiting : s.tasks task = some (.ask asked resume))
    (attends : Attends (s.answered owner request next answer world) task accountId) :
    s.world.locks accountId = some task ∧
      ofAccount accountId world.db.orders = ofAccount accountId s.world.db.orders := by
  rcases attends with locked | boot
  · obtain ⟨known, -, -, holds, permitted⟩ := asking_permitted represented running
    have served := perform_served represented.inv.formed holds permitted performed
    have before := (served.locks accountId task locked).resolve_left differ
    exact ⟨before, (lock_kept represented running performed differ waiting before).2⟩
  · -- The boot task waits alone.
    have booting : Booting s := by
      intro value finished
      rw [show s.booter = task from boot.symm, waiting] at finished
      cases finished
    exact absurd booting (not_booting_of_two represented.orderly differ (by rw [running]; simp)
      (by rw [waiting]; simp))

/-- A task that waits as before: it keeps its locks and the rows that it attends to. -/
structure StillWaits (s after : State) (task : Nat) (request : Req)
    (next : Except Exc request.Ans → Task Reply) : Prop where
  before : s.tasks task = some (.ask request next)
  hist : after.hist task = s.hist task
  locks : ∀ accountId, s.world.locks accountId = some task → after.world.locks accountId = some task
  frame : ∀ accountId, Attends after task accountId → s.world.locks accountId = some task ∧
    ofAccount accountId after.world.db.orders = ofAccount accountId s.world.db.orders

/-- A waiting task that has asked before was told something by this very move, or waits as before. -/
theorem waiting_step {move : Move Choice Call} {task : Nat} {request : Req}
    {next : Except Exc request.Ans → Task Reply} (represented : (custodySimulation svc.text calm).Represented s)
    (stepped : (machine svc).step s move = some after)
    (waiting : after.tasks task = some (.ask request next)) (asked : after.hist task ≠ []) :
    (∃ choice asked resume answer world, move = .resume task choice ∧
      s.tasks task = some (.ask asked resume) ∧
      perform s.world task asked choice = some (answer, world) ∧
      after = s.answered task asked resume answer world) ∨
    StillWaits s after task request next := by
  have silent : s.hist s.fresh = [] := (represented.orderly.unused s.fresh (Nat.le_refl _)).2.2
  obtain ⟨call, value, rfl, booted, rfl⟩ |
    ⟨owner, choice, other, resume, answer, world, rfl, running, performed, rfl⟩ | ⟨rfl, rfl⟩ :=
    Machine.step_cases stepped
  · have old : task ≠ s.fresh := by
      rintro rfl
      exact asked silent
    have before : s.tasks task = some (.ask request next) := by
      simpa [Machine.opened, Function.update_of_ne old] using waiting
    refine .inr ⟨before, rfl, fun _ locked => locked, fun accountId attends => ⟨?_, rfl⟩⟩
    -- The boot task is done, so it is not the one that waits.
    refine attends.resolve_right fun boot => ?_
    rw [boot, show (Machine.opened (machine svc) s call).booter = s.booter from rfl, booted] at before
    cases before
  · by_cases own : task = owner
    · subst own
      exact .inl ⟨choice, other, resume, answer, world, rfl, running, performed, rfl⟩
    · have before : s.tasks task = some (.ask request next) := by
        simpa [Sys.answered, Function.update_of_ne own] using waiting
      exact .inr ⟨before, Sys.hist_answered_other own,
        fun _ locked => (lock_kept represented running performed own before locked).1,
        fun _ attends => attends_frame represented running performed own before attends⟩
  · -- Only the new boot task is there after a crash, and it has not asked yet.
    by_cases new : task = s.fresh
    · exact absurd (new ▸ silent) asked
    · simp [Machine.crashed, new] at waiting

/-- The order that the task stored for the broker as the newest event of its history. -/
def JustStored (hist : History) (row : Order) : Prop :=
  ∃ draft audit rest, hist = ⟨.write (.insertOrder draft false audit), .ok row⟩ :: rest

/-- A task that has just stored an order waits under the lock of its account. -/
def StoredUnderLock (s : State) : Prop :=
  ∀ task request next row, s.tasks task = some (.ask request next) → JustStored (s.hist task) row →
    s.world.locks row.accountId = some task

/-- A move keeps the lock over an order that was just stored. -/
theorem storedUnderLock_step {move : Move Choice Call}
    (represented : (custodySimulation svc.text calm).Represented s)
    (stepped : (machine svc).step s move = some after) (held : StoredUnderLock s) :
    StoredUnderLock after := by
  rintro task request next row waiting ⟨draft, audit, rest, newest⟩
  rcases waiting_step represented stepped waiting (by rw [newest]; simp) with
    ⟨choice, asked, resume, answer, world, -, running, performed, rfl⟩ | still
  · -- This very move stored the order, for which its task needs the lock.
    rw [Sys.hist_answered_self] at newest
    obtain ⟨event, -⟩ := List.cons.inj newest
    cases event
    obtain ⟨known, -, -, holds, ⟨rows, view⟩, -⟩ := asking_permitted represented running
    rw [view] at holds
    obtain ⟨shape, -⟩ := Tx.run_insertOrder (perform_write performed)
    have owner : row.accountId = draft.accountId := by rw [shape]; rfl
    have same : world.locks = s.world.locks := by
      simp only [perform, commit] at performed
      split at performed
      · cases performed
      · split at performed <;> cases performed
        rfl
    show world.locks row.accountId = some task
    rw [same, owner]
    exact (holds.1 _).mpr rfl
  · rw [still.hist] at newest
    exact still.locks _ (held task request next row still.before ⟨draft, audit, rest, newest⟩)

theorem Reached.storedUnderLock (reached : Reached svc db s) (formed : db.WellFormed) : StoredUnderLock s := by
  refine reached.invariant StoredUnderLock formed ?_ fun _ _ _ represented stepped held =>
    storedUnderLock_step represented stepped held
  rintro task request next row - ⟨draft, audit, rest, newest⟩
  cases newest

end Rasat
