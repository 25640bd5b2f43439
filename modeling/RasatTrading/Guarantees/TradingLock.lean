import RasatTrading.Guarantees.Runs
import RasatTrading.Sent.Orders

/-! The trading lock of every account follows the record of a run, and the broker follows the lock. -/

namespace Rasat

open Coop

variable {svc : Service} {db : Database} {s after : State}

/-- What the committed transactions of a record make of an initial value, the oldest first. -/
def replayed {σ : Type} (effect : (tx : Tx) → tx.Ans → σ → σ) (initial : σ) :
    List (Entry Req Req.Ans Exc Call) → σ
  | [] => initial
  | .answered _ ⟨.write tx, .ok committed⟩ :: older =>
    effect tx committed (replayed effect initial older)
  | _ :: older => replayed effect initial older

/-- A view of the tables that every transaction changes by its effect is what the record replays. -/
theorem Reached.replays {σ : Type} {effect : (tx : Tx) → tx.Ans → σ → σ} (view : Database → σ)
    (tells : ∀ (tx : Tx) (committed : tx.Ans) (db after : Database) now uuid,
      tx.run db now uuid = .ok (committed, after) → view after = effect tx committed (view db))
    (reached : Reached svc db s) (formed : db.WellFormed) :
    view s.world.db = replayed effect (view db) s.trace := by
  refine reached.invariant (fun s => view s.world.db = replayed effect (view db) s.trace) formed rfl ?_
  intro s move after represented stepped same
  obtain ⟨call, value, rfl, -, rfl⟩ |
    ⟨task, choice, request, next, answer, world, rfl, running, performed, rfl⟩ | ⟨rfl, rfl⟩ :=
    Machine.step_cases stepped
  · exact same
  · show view world.db = replayed effect (view db) (.answered task ⟨request, answer⟩ :: s.trace)
    by_cases written : ∃ tx, ∃ committed : tx.Ans,
        (⟨request, answer⟩ : Event Req Req.Ans Exc) = ⟨.write tx, .ok committed⟩
    · obtain ⟨tx, committed, event⟩ := written
      cases event
      have told := tells tx committed _ _ _ _
        (perform_write (show perform s.world task (.write tx) choice = _ from performed))
      rw [told, same]
      rfl
    · -- Nothing was committed, so the tables are the same and so is the replay.
      have quiet := perform_db (asks_directly represented running) performed
      have kept : world.db = s.world.db :=
        quiet.resolve_right fun ⟨tx, committed, event, _⟩ => written ⟨tx, committed, event⟩
      rw [kept, same]
      cases request with
      | write tx =>
        cases answer with
        | ok committed => exact absurd ⟨tx, committed, rfl⟩ written
        | error raised => rfl
      | _ => rfl
  · exact same

/-- The trading lock of every account that exists. -/
abbrev Locks := String → Option TradingLock

/-- The trading locks that the tables store. -/
def Database.tradingLocks (db : Database) : Locks := fun accountId =>
  (db.account accountId).map Account.tradingLock

/-- What a committed transaction does to the trading locks. -/
def lockEffect : (tx : Tx) → tx.Ans → Locks → Locks
  | .enableRealTrading accountId _ _, _, locks => Function.update locks accountId (some .real)
  | .disableRealTrading accountId _ _, _, locks => Function.update locks accountId (some .paper)
  | .addAccount _ _ _ _, accountId, locks => Function.update locks accountId (some .paper)
  | .removeAccount accountId _ _, .removed, locks => Function.update locks accountId none
  | _, _, locks => locks

variable {accountId : String}

/-- The account with this id once its rows are set to a lock. -/
theorem tradingLocks_setLock {row : Account} {lock : TradingLock}
    {entry : Option AuditEntry} (found : db.account accountId = some row) :
    ((db.setLock accountId lock).record entry).tradingLocks =
      Function.update db.tradingLocks accountId (some lock) := by
  have changed : ∀ owner, ((db.setLock accountId lock).record entry).account owner =
      (db.account owner).map fun row =>
        if row.accountId = accountId then { row with tradingLock := lock } else row := by
    intro owner
    show (db.accounts.map _).find? _ = _
    rw [List.find?_map]
    congr 1
    refine congrArg (fun test => db.accounts.find? test) ?_
    funext row
    simp only [Function.comp_apply]
    split <;> rfl
  funext owner
  by_cases same : owner = accountId
  · subst same
    have named : row.accountId = owner := by simpa using List.find?_some found
    simp [Database.tradingLocks, changed, found, named]
  · rw [Function.update_of_ne same, Database.tradingLocks, changed]
    cases other : db.account owner with
    | none => simp [Database.tradingLocks, other]
    | some kept =>
      have named : kept.accountId = owner := by simpa using List.find?_some other
      simp [Database.tradingLocks, other, named, same]

/-- Setting the lock that an account has changes nothing. -/
theorem tradingLocks_self {row : Account} {lock : TradingLock}
    (found : db.account accountId = some row) (already : row.tradingLock = lock) :
    db.tradingLocks = Function.update db.tradingLocks accountId (some lock) := by
  rw [eq_comm, Function.update_eq_self_iff]
  simp [Database.tradingLocks, found, already]

/-- Equal accounts have equal locks. -/
theorem tradingLocks_same {after : Database} (same : after.accounts = db.accounts) :
    after.tradingLocks = db.tradingLocks := by
  funext accountId
  unfold Database.tradingLocks Database.account
  rw [same]

/-- A new account is named by its fresh id. -/
theorem addAccount_answer {accountId actor answer : String} {tags : List String}
    {credentials audit : Bool} {now : Int} {after : Database}
    (ran : db.addAccount accountId tags credentials actor now audit = .ok (answer, after)) :
    answer = accountId := by
  unfold Database.addAccount at ran
  split at ran
  · cases ran
  · cases ran
    rfl

/-- Every committed transaction has its effect on the trading locks. -/
theorem tradingLocks_run (tx : Tx) (committed : tx.Ans) (db after : Database) (now : Int) (uuid : Nat)
    (ran : tx.run db now uuid = .ok (committed, after)) :
    after.tradingLocks = lockEffect tx committed db.tradingLocks := by
  cases tx with
  | enableRealTrading accountId actor audit =>
    simp only [Tx.run, Database.enableRealTrading] at ran
    cases found : db.account accountId with
    | none => rw [found] at ran; cases ran
    | some row =>
      simp only [found] at ran
      split at ran
      · cases ran
      · split at ran
        · rename_i already
          cases ran
          exact tradingLocks_self found already
        · cases ran
          exact tradingLocks_setLock found
  | disableRealTrading accountId actor audit =>
    simp only [Tx.run, Database.disableRealTrading] at ran
    cases found : db.account accountId with
    | none => rw [found] at ran; cases ran
    | some row =>
      simp only [found] at ran
      split at ran
      · rename_i already
        cases ran
        have paper : row.tradingLock = .paper := by
          cases lock : row.tradingLock with
          | paper => rfl
          | real => exact absurd lock already
        exact tradingLocks_self found paper
      · cases ran
        exact tradingLocks_setLock found
  | addAccount tags credentials actor audit =>
    simp only [Tx.run] at ran
    obtain ⟨missing, row, entry, named, paper, joined⟩ := Database.addAccount_ok ran
    have fresh : committed = uuidHex uuid := addAccount_answer ran
    subst joined
    rw [← fresh] at missing named
    funext owner
    show ((db.accounts ++ [row]).find? fun other => other.accountId = owner).map _ = _
    rw [List.find?_append]
    by_cases same : owner = committed
    · subst same
      have none : db.accounts.find? (fun other => other.accountId = owner) = none := missing
      simp [lockEffect, none, paper, named]
    · simp [lockEffect, Function.update_of_ne same, Database.tradingLocks, Database.account, named,
        Ne.symm same]
  | removeAccount accountId actor audit =>
    simp only [Tx.run, Database.removeAccount, Except.ok.injEq] at ran
    cases found : db.account accountId with
    | none => rw [found] at ran; cases ran; rfl
    | some row =>
      simp only [found] at ran
      split at ran
      · cases ran; rfl
      · cases ran
        funext owner
        show ((db.accounts.filter fun other => other.accountId ≠ accountId).find? fun other =>
          other.accountId = owner).map _ = _
        rw [List.find?_filter]
        by_cases same : owner = accountId
        · subst same
          simp [lockEffect]
        · simp only [lockEffect, Function.update_of_ne same, Database.tradingLocks, Database.account]
          congr 1
          refine congrArg (fun test => db.accounts.find? test) ?_
          funext other
          by_cases own : other.accountId = owner <;> simp [own, same]
  | _ => exact tradingLocks_same ((Tx.run_frame ran).accounts rfl)

/-- The trading locks after a record that begins with these tables. -/
def locksAfter (db : Database) (trace : List (Entry Req Req.Ans Exc Call)) : Locks :=
  replayed lockEffect db.tradingLocks trace

theorem Reached.tradingLocks (reached : Reached svc db s) (formed : db.WellFormed) :
    s.world.db.tradingLocks = locksAfter db s.trace :=
  reached.replays Database.tradingLocks tradingLocks_run formed

/-- An account row that a read returns is the stored one. -/
theorem read_account {query : Query} {pick : Nat} {row : Account} (formed : db.WellFormed)
    (told : ReadsAccount ⟨.read query, .ok (query.run db pick)⟩ row) :
    db.account row.accountId = some row := by
  cases query with
  | account accountId =>
    have found : db.account accountId = some row := told
    have named : row.accountId = accountId := by simpa using List.find?_some found
    exact named ▸ found
  | accounts =>
    have member : row ∈ db.accounts := (List.mem_insertionSort _).mp told
    unfold Database.account
    cases found : db.accounts.find? fun other => other.accountId = row.accountId with
    | none =>
      have differs := List.find?_eq_none.mp found row member
      simp at differs
    | some other =>
      have same : other.accountId = row.accountId := by simpa using List.find?_some found
      rw [List.inj_on_of_nodup_map formed.accountIds (List.mem_of_find?_eq_some found) member same]
  | _ => exact False.elim told

/-- A lock that a task read was the one that the record had left until then. -/
theorem Reached.read_lock (reached : Reached svc db s) (formed : db.WellFormed) :
    ∀ newer older task event, s.trace = newer ++ .answered task event :: older →
      ∀ row, ReadsAccount event row → locksAfter db older row.accountId = some row.tradingLock := by
  refine reached.every_answer (fun older _ event =>
    ∀ row, ReadsAccount event row → locksAfter db older row.accountId = some row.tradingLock) formed ?_
  intro s task request next choice answer world arrived represented running performed row told
  rw [← arrived.tradingLocks formed]
  -- Only a read that succeeded tells of an account.
  cases request with
  | read query =>
    cases answer with
    | error raised => cases query <;> exact False.elim told
    | ok found =>
      have brought : found = query.run s.world.db choice.pick := by
        simp only [perform] at performed
        split at performed <;> cases performed
        rfl
      subst brought
      have stored := read_account represented.inv.formed told
      simp only [Database.tradingLocks, stored, Option.map_some]
  | _ => exact False.elim told

/-- The startup asks the broker about orders and changes nothing there. -/
def Unmoving (request : Req) : Prop := request.mutates = none

theorem unmoving_of_admin {request : Req} (admin : Admin request) : Unmoving request := by
  cases request with
  | broker call => exact False.elim admin
  | _ => rfl

theorem unmoving_of_pending {request : Req} (settles : PendingWork request) : Unmoving request := by
  cases request with
  | broker call => exact False.elim settles
  | _ => rfl

theorem reconcileOrder_unmoving (report : ReconcileReport) (order : Order) :
    (reconcileOrder svc report order).Only Unmoving := by
  have asks : (queryState order.accountId order).Only Unmoving := by
    unfold queryState
    split <;> exact Prog.only_call.mpr rfl
  unfold reconcileOrder
  refine Prog.only_bind (Prog.only_attempt asks) fun answer => ?_
  split
  · exact Prog.only_done
  · exact Prog.only_fail
  · split
    · exact Prog.only_bind (Prog.only_call.mpr rfl) fun _ => Prog.only_done
    · split
      · exact Prog.only_done
      · exact Prog.only_bind (Prog.only_call.mpr rfl) fun _ => Prog.only_done

theorem reconcileOpenOrders_unmoving : (reconcileOpenOrders svc).Only Unmoving := by
  refine Prog.only_bind (Prog.only_call.mpr rfl) fun accounts => ?_
  dsimp only
  split
  · exact Prog.only_done
  · refine Prog.only_bind (Prog.only_call.mpr rfl) fun stuck => ?_
    exact Prog.only_foldlM (fun report order => reconcileOrder_unmoving report order) _ _

theorem startup_unmoving : (startup svc).Only Unmoving := by
  have overrides : (reconcileOverrides svc).Only Admin := reconcileOverrides_admin
  refine Prog.only_bind (overrides.mono fun _ => unmoving_of_admin) fun _ => ?_
  refine Prog.only_bind (Prog.only_attempt reconcileOpenOrders_unmoving) fun _ => ?_
  refine Prog.only_bind (Prog.only_attempt ?_) fun _ => Prog.only_done
  exact (reconcilePendingExecutions_settles _).mono fun _ => unmoving_of_pending

/-- A task that serves no call changes nothing at the broker. -/
def servingRule (record : TaskRecord) (request : Req) : Prop := record.call = none → Unmoving request

theorem startup_serving : Safe (recording servingRule) (startup svc) ⟨none, []⟩ fun _ _ => True :=
  only_recording (fun _ _ unmoving _ => unmoving) startup_unmoving

/-- The program of a call keeps its call, so the rule asks nothing of it. -/
theorem call_serving (call : Call) :
    Safe (recording servingRule) ((machine svc).program call) ⟨some call, []⟩ fun _ _ => True := by
  refine (Safe.of_only (fun _ => True) (fun record => record.call = some call) ?_ ?_
    (Prog.only_of_forall (fun _ => trivial) _) rfl).mono fun _ _ _ => trivial
  · intro record request serving _ idle
    rw [show record.call = _ from serving] at idle
    cases idle
  · rintro record request answer _ serving _ rfl
    exact serving

/-- A task that changes something at the broker serves a call. -/
theorem Reached.moves_serve (reached : Reached svc db s) {task : Nat} {request : Req}
    {next : Except Exc request.Ans → Task Reply}
    (running : s.tasks task = some (.ask request next)) (moves : request.mutates = some accountId) :
    ∃ call, s.calls task = some call := by
  have sound : (recorded servingRule fun _ => True).Sound (machine svc) fun _ _ => True :=
    recorded_sound startup_serving call_serving _
  have represented := sound.represented (recorded_started startup_serving) reached
  have allowed : servingRule (s.record task) request := recorded_asks represented running
  cases serving : s.calls task with
  | some call => exact ⟨call, rfl⟩
  | none =>
    have still : request.mutates = none := allowed serving
    rw [moves] at still
    cases still

/-- In every reachable state the stored trading locks are what the committed changes of the record
make of the first ones, and whatever changed something at the broker for an account was asked by a
call during which, at some moment, that replay had the account's lock at real. -/
theorem mutations_follow_lock (formed : db.WellFormed) (reached : Reached svc db s) :
    s.world.db.tradingLocks = locksAfter db s.trace ∧
    ∀ newer older task event accountId, s.trace = newer ++ .answered task event :: older →
      event.request.mutates = some accountId →
        ∃ since until_ call before, older = since ++ (until_ ++ .opened task call :: before) ∧
          locksAfter db (until_ ++ .opened task call :: before) accountId = some .real := by
  refine ⟨reached.tradingLocks formed, ?_⟩
  intro newer older task event accountId split moves
  refine reached.every_answer (fun older task event => ∀ accountId,
    event.request.mutates = some accountId →
      ∃ since until_ call before, older = since ++ (until_ ++ .opened task call :: before) ∧
        locksAfter db (until_ ++ .opened task call :: before) accountId = some .real) formed ?_
    newer older task event split accountId moves
  intro s task request next choice answer world arrived represented running performed accountId moves
  obtain ⟨call, serving⟩ := arrived.moves_serve running moves
  obtain ⟨during, before, entered, silent⟩ := Machine.steps_entered arrived task call serving
  obtain ⟨known, truth, -, -, permitted⟩ := asking_permitted represented running
  have saw : SawReal (s.hist task) accountId := by
    cases request with
    | broker asked => exact truth.hist ▸ permitted.1 accountId moves
    | _ => cases moves
  obtain ⟨told, heard, row, reads, named, real⟩ := saw
  -- The task heard of the lock after its call was opened.
  have inside : Entry.answered task told ∈ during := by
    refine mem_of_histOf ?_
    have all : s.hist task = histOf task during ++ histOf task (.opened task call :: before) := by
      show histOf task s.trace = _
      rw [entered]
      exact List.filterMap_append
    have quiet : histOf task (.opened task call :: before) = [] := silent
    rw [all, quiet, List.append_nil] at heard
    exact heard
  obtain ⟨since, until_, parts⟩ := List.append_of_mem inside
  have behind : s.trace = since ++ .answered task told :: (until_ ++ .opened task call :: before) := by
    rw [entered, parts, List.append_assoc]
    rfl
  refine ⟨since ++ [.answered task told], until_, call, before, ?_, ?_⟩
  · rw [behind, List.append_assoc]
    rfl
  · rw [← named, ← real]
    exact arrived.read_lock formed since _ task told behind row reads

/-- A purchase until the broker has answered it. -/
def sentPurchase : List (Move Choice Call) :=
  booted ++ .open (.placeOrder buyOne) :: answers 1 (List.replicate 13 calmDay)

/-- The newest entry of the record changed something at the broker for this account. -/
def justMoved (s : State) (accountId : String) : Bool :=
  match s.trace with
  | .answered _ event :: _ => event.request.mutates = some accountId
  | _ => false

/-- A purchase reached the broker under a lock that was real during its call. -/
theorem mutations_follow_lock_purchase :
    ∃ s task event older, Reached demo shop s ∧ s.trace = .answered task event :: older ∧
      event.request.mutates = some "main" ∧
      ∃ since until_ call before, older = since ++ (until_ ++ .opened task call :: before) ∧
        locksAfter shop (until_ ++ .opened task call :: before) "main" = some .real := by
  have passes : ((machine demo).run (started demo shop) sentPurchase).any
      (fun s => justMoved s "main") = true := by decide +kernel
  obtain ⟨s, ran, moved⟩ := run_end passes
  have reached : Reached demo shop s := reached_of_run ran
  unfold justMoved at moved
  split at moved
  case h_2 => cases moved
  case h_1 task event older newest =>
  have moves := of_decide_eq_true moved
  exact ⟨s, task, event, older, reached, newest, moves,
    (mutations_follow_lock shop_wellFormed reached).2 [] older task event "main" newest moves⟩

end Rasat
