import RasatTrading.Guarantees.Overrides
import RasatTrading.Overrides

/-! When an applied override has its order: nothing may fail between the two transactions. -/

namespace Rasat

open Coop

variable {svc : Service} {db : Database} {s after : State}

/-- An order was stored under the account and key that an override was consumed for. -/
def HasOrder (db : Database) (override : RiskOverride) : Prop :=
  ∃ row ∈ db.orders, row.accountId = override.accountId ∧
    some row.idempotencyKey = override.consumedByIdem

/-- A move that wastes an override: a crash, or an exception of an awaited operation, between the
consumption and the insertion of its order. -/
def Wasteful (s : State) : Move Choice Call → Prop
  | .crash => ∃ task request next, s.tasks task = some (.ask request next) ∧ owed (s.hist task) ≠ none
  | .resume task choice => owed (s.hist task) ≠ none ∧ ∃ request next raised world,
      s.tasks task = some (.ask request next) ∧
        perform s.world task request choice = some (.error raised, world)
  | .open _ => False

/-- A move that wastes nothing. -/
def Thrifty (s : State) (move : Move Choice Call) : Prop := ¬Wasteful s move

/-- A fresh task owes nothing. -/
theorem paid_fresh {call : Option Call} : Paid ⟨call, []⟩ := rfl

/-- Every task keeps to the rule of consumption. -/
theorem consumption_sound (allowed : State → Move Choice Call → Prop) :
    (recorded consumptionRule Paid).Sound (machine svc) allowed :=
  recorded_sound (startup_pays paid_fresh) (fun call => call_pays call paid_fresh) allowed

theorem started_consumption : (recorded consumptionRule Paid).Represented (started svc db) :=
  recorded_started (startup_pays paid_fresh)

/-- A task that is there holds the lock that it took and did not give back. -/
def LocksHeld (s : State) : Prop :=
  ∀ task locked, s.tasks task ≠ none → lockOf (s.hist task) = some locked →
    s.world.locks locked = some task

variable {task : Nat}

/-- Only locking and unlocking change the locks. -/
theorem perform_locks {world later : World} {request : Req} {choice : Choice}
    {answer : Except Exc request.Ans} (performed : perform world task request choice = some (answer, later)) :
    (∃ accountId, (⟨request, answer⟩ : Event Req Req.Ans Exc) = ⟨.lock accountId, .ok ()⟩ ∧
      world.locks accountId = none ∧
        later.locks = Function.update world.locks accountId (some task)) ∨
    (∃ accountId, (⟨request, answer⟩ : Event Req Req.Ans Exc) = ⟨.unlock accountId, .ok ()⟩ ∧
      later.locks = Function.update world.locks accountId none) ∨
    later.locks = world.locks ∧ ∀ hist, lockOf (⟨request, answer⟩ :: hist) = lockOf hist := by
  cases request with
  | lock accountId =>
    simp only [perform] at performed
    split at performed
    · rename_i free
      cases performed
      exact .inl ⟨accountId, rfl, free, rfl⟩
    · cases performed
  | unlock accountId =>
    cases performed
    exact .inr (.inl ⟨accountId, rfl, rfl⟩)
  | read query =>
    simp only [perform] at performed
    split at performed <;> (cases performed; exact .inr (.inr ⟨rfl, fun _ => rfl⟩))
  | write tx =>
    simp only [perform, commit] at performed
    split at performed
    · cases performed
      exact .inr (.inr ⟨rfl, fun _ => rfl⟩)
    · split at performed <;> (cases performed; exact .inr (.inr ⟨rfl, fun _ => rfl⟩))
  | _ => cases performed; exact .inr (.inr ⟨rfl, fun _ => rfl⟩)

variable {move : Move Choice Call}

theorem locksHeld_step {calm : Prop} (represented : (custodySimulation svc.text calm).Represented s)
    (stepped : (machine svc).step s move = some after) (held : LocksHeld s) : LocksHeld after := by
  have unused := represented.orderly.unused s.fresh (Nat.le_refl _)
  obtain ⟨call, value, rfl, -, rfl⟩ |
    ⟨owner, choice, request, next, answer, world, rfl, running, performed, rfl⟩ | ⟨rfl, rfl⟩ :=
    Machine.step_cases stepped
  · intro task locked there taken
    rw [Machine.hist_opened] at taken
    by_cases new : task = s.fresh
    · rw [new, unused.2.2] at taken
      cases taken
    · exact held task locked (by simpa [Machine.opened, Function.update_of_ne new] using there) taken
  · have served : perform s.world owner request choice = some (answer, world) := performed
    intro task locked there taken
    show world.locks locked = some task
    by_cases own : task = owner
    · subst own
      rw [Sys.hist_answered_self] at taken
      rcases perform_locks served with ⟨accountId, event, free, grown⟩ | ⟨accountId, event, given⟩ |
        ⟨same, quiet⟩
      · cases event
        cases taken
        rw [grown, Function.update_self]
      · cases event
        cases taken
      · rw [quiet] at taken
        rw [same]
        exact held task locked (by rw [running]; simp) taken
    · rw [Sys.hist_answered_other own] at taken
      have mine := held task locked
        (by simpa [Sys.answered, Function.update_of_ne own] using there) taken
      rcases perform_locks served with ⟨accountId, event, free, grown⟩ | ⟨accountId, event, given⟩ |
        ⟨same, quiet⟩
      · -- A lock is only taken when it is free.
        rw [grown, Function.update_of_ne ?_]
        · exact mine
        · rintro rfl
          rw [mine] at free
          cases free
      · -- A lock is only given back by the task that holds it.
        cases event
        obtain ⟨known, -, -, holds, rows, view⟩ := asking_permitted represented running
        rw [view] at holds
        have his : s.world.locks accountId = some owner := (holds.1 accountId).mpr rfl
        rw [given, Function.update_of_ne ?_]
        · exact mine
        · rintro rfl
          rw [mine] at his
          exact own (Option.some.inj his)
      · rw [same]
        exact mine
  · intro task locked there taken
    rw [Machine.hist_crashed] at taken
    by_cases new : task = s.fresh
    · rw [new, unused.2.2] at taken
      cases taken
    · exact absurd (by simp [Machine.crashed, new]) there

/-- What a task reads of accounts has the ids that were asked for, and they are stripped. -/
theorem subject_true (reached : Reached svc db s) (formed : db.WellFormed)
    {locked id : String} (subject : Subject (s.hist task) locked id) : id = locked ∧ strip id = id := by
  have answers := reached.every_answer (fun _ _ event =>
    (∀ accountId row, event = ⟨.read (.account accountId), .ok (some row)⟩ →
      row.accountId = accountId ∧ strip row.accountId = row.accountId) ∧
    ∀ rows, event = ⟨.read .accounts, .ok rows⟩ → ∀ row ∈ rows, strip row.accountId = row.accountId)
    formed ?_
  · have seen {event : Event Req Req.Ans Exc} (member : event ∈ s.hist task) :=
      let ⟨newer, older, split⟩ := List.append_of_mem (mem_trace_of_hist member)
      answers newer older task event split
    rcases subject with ⟨row, member, rfl⟩ | ⟨rows, member, row, listed, rfl, same⟩
    · exact (seen member).1 locked row rfl
    · exact ⟨same, (seen member).2 rows rfl row listed⟩
  · intro s task request next choice answer world _ represented _ performed
    have stripped := represented.inv.formed.strippedIds
    refine ⟨?_, ?_⟩
    · rintro accountId row ⟨⟩
      simp only [perform] at performed
      split at performed
      · cases performed
      · simp only [Option.some.injEq, Prod.mk.injEq, Except.ok.injEq, Query.run] at performed
        have named : row.accountId = accountId := by simpa using List.find?_some performed.1
        exact ⟨named, stripped row (List.mem_of_find?_eq_some performed.1)⟩
    · rintro rows ⟨⟩ row listed
      simp only [perform] at performed
      split at performed
      · cases performed
      · simp only [Option.some.injEq, Prod.mk.injEq, Except.ok.injEq, Query.run] at performed
        rw [← performed.1, List.mem_insertionSort] at listed
        exact stripped row listed

/-- Every applied override has its order, or a task still owes it. -/
def Covered (s : State) : Prop :=
  ∀ override ∈ s.world.db.overrides, override.state = .applied →
    HasOrder s.world.db override ∨ ∃ task key, s.tasks task ≠ none ∧
      override.consumedByIdem = some key ∧ owed (s.hist task) = some (override.accountId, key)

variable {override : RiskOverride}

/-- An order stays under its account and key. -/
theorem HasOrder.later {before later : Database}
    (has : HasOrder before override) (rows : RowsLater before.orders later.orders) :
    HasOrder later override := by
  obtain ⟨row, member, owner, named⟩ := has
  obtain ⟨row', member', late⟩ := rows row member
  have draft := late.draft
  exact ⟨row', member', (congrArg OrderDraft.accountId draft).trans owner,
    (congrArg (some ∘ OrderDraft.idempotencyKey) draft).trans named⟩

/-- An applied override of a table was applied before or is the one that this transaction consumed. -/
theorem applied_before {before later : Database} {tx : Tx} {answer : tx.Ans} {now : Int} {uuid : Nat}
    (formed : before.WellFormed) (ran : tx.run before now uuid = .ok (answer, later))
    (member : override ∈ later.overrides) (applied : override.state = .applied) :
    override ∈ before.overrides ∨ ∃ version key at_ audit consumed,
      (⟨.write tx, .ok answer⟩ : Event Req Req.Ans Exc) =
        ⟨.write (.consumeOverride override.accountId version key at_ audit), .ok (some consumed)⟩ ∧
      override.consumedByIdem = some key := by
  cases overrides_step ran with
  | same kept => exact .inl (kept ▸ member)
  | added row reserved version grown =>
    rw [grown] at member
    refine .inl ((List.mem_append.mp member).resolve_right fun new => ?_)
    rw [List.mem_singleton.mp new, reserved] at applied
    cases applied
  | reconciled closes at_ reason only closed =>
    rw [closed] at member
    obtain ⟨old, stored, rfl⟩ := List.mem_map.mp member
    split at applied
    · cases applied
    · rename_i kept
      rw [if_neg kept]
      exact .inl stored
  | applied accountId key version at_ audit candidate stored consumable used =>
    rw [used] at member
    obtain ⟨old, listed, rfl⟩ := List.mem_map.mp member
    by_cases picked : old.overrideId = candidate.overrideId ∧ old.state = .reserved
    · -- Ids are unique, so the applied override is the candidate.
      obtain rfl := List.inj_on_of_nodup_map formed.overrideIds listed stored picked.1
      rw [if_pos picked]
      simp only [Database.consumable, decide_eq_true_eq] at consumable
      obtain ⟨rfl, -⟩ := consumable
      exact .inr ⟨version, key, at_, audit, _, rfl, rfl⟩
    · rw [if_neg picked]
      exact .inl listed

/-- A task that owes an order inserts it, or an error writes the debt off. -/
theorem owing_answered (reached : Reached svc db s) (formed : db.WellFormed)
    (rules : (recorded consumptionRule Paid).Represented s) {choice : Choice}
    {request : Req} {next : Except Exc request.Ans → Task Reply} {answer : Except Exc request.Ans}
    {world : World} (running : s.tasks task = some (.ask request next))
    (performed : perform s.world task request choice = some (answer, world))
    {key : String} (consumed : override.consumedByIdem = some key)
    (owes : owed (s.hist task) = some (override.accountId, key)) :
    (∃ raised, answer = .error raised) ∨ HasOrder world.db override ∨
      owed (⟨request, answer⟩ :: s.hist task) = some (override.accountId, key) := by
  have allowed := recorded_asks rules running
  unfold consumptionRule at allowed
  simp only [Sys.record, owes] at allowed
  obtain ⟨locked, id, held, subject, named, settles⟩ := allowed
  obtain ⟨same, stripped⟩ := subject_true reached formed subject
  cases answer with
  | error raised => exact .inl ⟨raised, rfl⟩
  | ok result =>
    cases request with
    | market call => exact .inr (.inr owes)
    | write tx =>
      cases tx with
      | insertOrder draft simulated audit =>
        obtain ⟨owner, keyed⟩ := settles
        obtain ⟨shape, joined⟩ := Tx.run_insertOrder (perform_write performed)
        -- The account under the lock is the stripped one that the override names.
        have account : draft.accountId = override.accountId := by
          rw [← named, stripped]
          exact owner.elim (fun locks => locks.trans same.symm) fun works => works
        refine .inr (.inl ⟨result, ?_, by rw [shape]; exact account, ?_⟩)
        · rw [joined.orders]
          exact List.mem_append_right _ (List.mem_singleton_self _)
        · rw [consumed, ← keyed, shape]
          rfl
      | _ => exact False.elim settles
    | _ => exact False.elim settles

/-- A task that owes an order is not finished: it waits for an answer under its account's lock. -/
theorem owing_asks (reached : Reached svc db s) (formed : db.WellFormed)
    (rules : (recorded consumptionRule Paid).Represented s) {accountId key : String}
    (there : s.tasks task ≠ none) (owes : owed (s.hist task) = some (accountId, key)) :
    (∃ request next, s.tasks task = some (.ask request next)) ∧
      lockOf (s.hist task) = some accountId := by
  obtain ⟨program, running⟩ := Option.ne_none_iff_exists'.mp there
  cases program with
  | done value =>
    have paid : owed (s.hist task) = none :=
      recorded_rests rules (show s.tasks task = some (Prog.ofExcept (.ok value)) from running)
    rw [owes] at paid
    cases paid
  | fail raised =>
    have paid : owed (s.hist task) = none :=
      recorded_rests rules (show s.tasks task = some (Prog.ofExcept (.error raised)) from running)
    rw [owes] at paid
    cases paid
  | ask request next =>
    have allowed := recorded_asks rules running
    unfold consumptionRule at allowed
    simp only [Sys.record, owes] at allowed
    obtain ⟨locked, id, held, subject, named, -⟩ := allowed
    obtain ⟨same, stripped⟩ := subject_true reached formed subject
    refine ⟨⟨request, next, running⟩, ?_⟩
    rw [held, ← named, stripped, same]

/-- A move that wastes nothing keeps every applied override covered. -/
theorem covered_step (reached : Reached svc db s) (formed : db.WellFormed)
    (rules : (recorded consumptionRule Paid).Represented s) (thrifty : Thrifty s move)
    (stepped : (machine svc).step s move = some after) (covered : Covered s) : Covered after := by
  have represented := reached.represented formed
  have rows := step_rowsLater represented stepped
  obtain ⟨call, value, rfl, -, rfl⟩ |
    ⟨owner, choice, request, next, answer, world, rfl, running, performed, rfl⟩ | ⟨rfl, rfl⟩ :=
    Machine.step_cases stepped
  · intro override member applied
    refine (covered override member applied).imp_right ?_
    rintro ⟨task, key, there, consumed, owes⟩
    refine ⟨task, key, ?_, consumed, by rw [Machine.hist_opened]; exact owes⟩
    by_cases new : task = s.fresh
    · simp [Machine.opened, new]
    · simpa [Machine.opened, Function.update_of_ne new] using there
  · have served : perform s.world owner request choice = some (answer, world) := performed
    -- What was covered before stays covered.
    have kept : ∀ override ∈ s.world.db.overrides, override.state = .applied →
        HasOrder world.db override ∨ ∃ task key,
          (s.answered owner request next answer world).tasks task ≠ none ∧
          override.consumedByIdem = some key ∧
          owed ((s.answered owner request next answer world).hist task) =
            some (override.accountId, key) := by
      intro override member applied
      rcases covered override member applied with has | ⟨task, key, there, consumed, owes⟩
      · exact .inl (has.later rows)
      by_cases own : task = owner
      · subst own
        rcases owing_answered reached formed rules running served consumed owes with
          ⟨raised, rfl⟩ | has | still
        · refine absurd ⟨?_, request, next, raised, world, running, served⟩ thrifty
          rw [owes]
          simp
        · exact .inl has
        · refine .inr ⟨task, key, by simp [Sys.answered], consumed, ?_⟩
          rw [Sys.hist_answered_self]
          exact still
      · refine .inr ⟨task, key, ?_, consumed, ?_⟩
        · simpa [Sys.answered, Function.update_of_ne own] using there
        · rw [Sys.hist_answered_other own]
          exact owes
    intro override member applied
    rcases perform_db (asks_directly represented running) served with same | ⟨tx, committed, event, ran⟩
    · exact kept override (same ▸ member) applied
    · rcases applied_before represented.inv.formed ran member applied with
        old | ⟨version, key, at_, audit, consumed, consumption, named⟩
      · exact kept override old applied
      · -- The task that consumed it owes its order from now on.
        refine .inr ⟨owner, key, by simp [Sys.answered], named, ?_⟩
        rw [Sys.hist_answered_self, event, consumption]
        rfl
  · intro override member applied
    refine .inl ((covered override member applied).resolve_right ?_)
    rintro ⟨task, key, there, consumed, owes⟩
    -- The task that owes is not finished, so the crash would waste its override.
    obtain ⟨⟨request, next, running⟩, -⟩ := owing_asks reached formed rules there owes
    refine thrifty ⟨task, request, next, running, ?_⟩
    rw [owes]
    simp

/-- In runs that waste nothing, whenever no order call of an account is under way, which is when its
lock is free, every applied override of it has its order. -/
theorem overrides_never_burned {accountId : String} (formed : db.WellFormed)
    (used : ∀ override ∈ db.overrides, override.state = .applied → HasOrder db override)
    (steps : (machine svc).Steps Thrifty (started svc db) s) (idle : s.world.locks accountId = none) :
    ∀ override ∈ s.world.db.overrides, override.accountId = accountId → override.state = .applied →
      HasOrder s.world.db override := by
  have arrives {s : State} (steps : (machine svc).Steps Thrifty (started svc db) s) : Reached svc db s :=
    Machine.Steps.mono (fun _ _ _ => trivial) steps
  have keeps {s : State} (steps : (machine svc).Steps Thrifty (started svc db) s) :
      (recorded consumptionRule Paid).Represented s :=
    (consumption_sound Thrifty).represented started_consumption steps
  -- Along the run every applied override is covered.
  have covered : Covered s := by
    clear idle
    induction steps with
    | refl => exact fun override member applied => .inl (used override member applied)
    | tail before last ih =>
      obtain ⟨move, thrifty, stepped⟩ := last
      exact covered_step (arrives before) formed (keeps before) thrifty stepped ih
  have held : LocksHeld s := (arrives steps).invariant LocksHeld formed
    (fun _ _ _ taken => nomatch taken) fun _ _ _ represented stepped held =>
      locksHeld_step represented stepped held
  rintro override member rfl applied
  refine (covered override member applied).resolve_right ?_
  rintro ⟨task, key, there, consumed, owes⟩
  obtain ⟨-, taken⟩ := owing_asks (arrives steps) formed (keeps steps) there owes
  rw [held task _ there taken] at idle
  cases idle

/-- A sufficient check for a move that wastes nothing. -/
def checksDebt (s : State) : Move Choice Call → Bool
  | .crash => false
  | .resume task choice =>
    decide (owed (s.hist task) = none) || match s.tasks task with
      | some (.ask request _) => (perform s.world task request choice).all fun result => result.1.isOk
      | _ => true
  | .open _ => true

theorem thrifty_of_check {s : State} (checked : checksDebt s move = true) : Thrifty s move := by
  intro wasteful
  cases move with
  | crash => cases checked
  | «open» call => exact wasteful
  | resume task choice =>
    obtain ⟨owes, request, next, raised, world, running, performed⟩ := wasteful
    simp only [checksDebt, running, performed, Bool.or_eq_true, decide_eq_true_eq] at checked
    rcases checked with paid | succeeded
    · exact owes paid
    · cases succeeded

/-- The buy over the cap, to its end. -/
def thriftyBuy : List (Move Choice Call) :=
  booted ++ .open (.placeOrder buyOne) :: answers 1 (List.replicate 17 calmDay)

/-- The buy that used the override up has its order. -/
theorem capped_buy_has_order :
    ∃ s, (machine demo).checkedRun checksDebt (started demo cappedShop) thriftyBuy = some s ∧
      s.world.locks "main" = none ∧ (∃ override ∈ s.world.db.overrides, override.state = .applied) ∧
      ∀ override ∈ s.world.db.overrides, override.accountId = "main" → override.state = .applied →
        HasOrder s.world.db override := by
  have passes : ((machine demo).checkedRun checksDebt (started demo cappedShop) thriftyBuy).any fun s =>
      s.world.locks "main" = none ∧ ∃ override ∈ s.world.db.overrides, override.state = .applied := by
    decide +kernel
  obtain ⟨s, ran, checked⟩ := run_end passes
  simp only [decide_eq_true_eq] at checked
  have steps : (machine demo).Steps Thrifty (started demo cappedShop) s :=
    Machine.Steps.mono (fun _ _ => thrifty_of_check) (Machine.checkedRun_steps ran)
  have reserved : ∀ override ∈ cappedShop.overrides, override.state = .applied →
      HasOrder cappedShop override := by
    intro override member applied
    obtain rfl := List.mem_singleton.mp member
    cases applied
  exact ⟨s, ran, checked.1, checked.2, overrides_never_burned cappedShop_wellFormed reserved steps checked.1⟩

/-- A day on which another coin is held, too. -/
def twoCoins : Choice := { calmDay with balances := [("USDT", 1000), ("ETH", 1)] }

/-- A buy over the cap whose price lookup for the equity snapshot raises. -/
def burnedBuy : List (Move Choice Call) :=
  booted ++ .open (.placeOrder buyOne) :: answers 1 (List.replicate 14 twoCoins) ++
    answers 1 [{ fault := some .timeout }, {}]

/-- The override is used up, the call is over and there is no order. -/
theorem failed_buy_burns_override :
    ∃ s, (machine demo).run (started demo cappedShop) burnedBuy = some s ∧
      s.world.locks "main" = none ∧ ∃ override ∈ s.world.db.overrides,
        override.accountId = "main" ∧ override.state = .applied ∧ ¬HasOrder s.world.db override := by
  have passes : ((machine demo).run (started demo cappedShop) burnedBuy).any fun s =>
      s.world.locks "main" = none ∧ s.world.db.orders = [] ∧ ∃ override ∈ s.world.db.overrides,
        override.accountId = "main" ∧ override.state = .applied := by decide +kernel
  obtain ⟨s, ran, checked⟩ := run_end passes
  simp only [decide_eq_true_eq] at checked
  obtain ⟨free, empty, override, member, owner, applied⟩ := checked
  refine ⟨s, ran, free, override, member, owner, applied, ?_⟩
  rintro ⟨row, stored, -⟩
  rw [empty] at stored
  cases stored

end Rasat
