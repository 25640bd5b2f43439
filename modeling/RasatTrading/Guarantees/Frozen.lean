import RasatTrading.Guarantees.Approvals

/-! The parameters of an approved order: what freezes them, and what the winning handler submits. -/

namespace Rasat

open Coop

variable {svc : Service} {db : Database} {s after : State} {orderId : String}

/-- The move stores an entry for a pending order that no longer waits or already has one. -/
def refills (s : State) : Move Choice Call → Bool
  | .resume task choice =>
    match s.tasks task with
    | some (.ask (.write (.fillPendingEntry orderId _)) _) =>
      choice.dbFault.isNone && (s.world.db.pendingOrder orderId).any fun row =>
        row.status ≠ .awaitingApproval ∨ row.entry ≠ none
    | _ => false
  | _ => false

/-- The moves that store an entry only where none is and the order still waits. -/
def FillsOnce (s : State) (move : Move Choice Call) : Prop := (!refills s move) = true

/-- A state that a run with such moves only reaches. -/
def FrozenReached (svc : Service) (db : Database) (s : State) : Prop :=
  (openMachine svc).Steps FillsOnce (openStarted svc db) s

theorem FrozenReached.reached (frozen : FrozenReached svc db s) : OpenReached svc db s :=
  Machine.Steps.mono (fun _ _ _ => trivial) frozen

/-- A row that was read is still the stored one, but for the entry of an order that takes a price. -/
structure Faithful (row stored : PendingOrder) : Prop where
  columns : { row.toPendingSpec with entry := none } = { stored.toPendingSpec with entry := none }
  entry : stored.entry = row.entry ∨ Priced row

variable {row : PendingOrder}

/-- A committed entry went to a waiting order that had none. -/
theorem fillsOnce_committed {task : Nat} {choice : Choice} {price : ℚ}
    {next : Except Exc Unit → Task Reply} {world : World} (once : FillsOnce s (.resume task choice))
    (running : s.tasks task = some (.ask (.write (.fillPendingEntry orderId price)) next))
    (performed : perform s.world task (.write (.fillPendingEntry orderId price)) choice =
      some (.ok (), world)) (found : s.world.db.pendingOrder orderId = some row) :
    row.status = .awaitingApproval ∧ row.entry = none := by
  have calm : choice.dbFault = none := by
    cases fault : choice.dbFault with
    | none => rfl
    | some text => simp [perform, commit, fault] at performed
  simpa [FillsOnce, refills, running, calm, found] using once

/-- What the tasks that approve one pending order have heard is true of the stored row. -/
structure ReadStands (s : State) (orderId : String) : Prop where
  /-- A row that was read is stored still. -/
  read : ∀ task row, ReadPending (s.hist task) orderId row →
    ∃ stored, s.world.db.pendingOrder orderId = some stored ∧ Faithful row stored
  /-- So is an entry that was stored. -/
  filled : ∀ task price, ⟨.write (.fillPendingEntry orderId price), .ok ()⟩ ∈ s.hist task →
    ∃ stored, s.world.db.pendingOrder orderId = some stored ∧ stored.entry = some price

/-- A row with the same columns is as faithful. -/
theorem Faithful.of_spec {stored changed : PendingOrder} (faithful : Faithful row stored)
    (same : changed.toPendingSpec = stored.toPendingSpec) : Faithful row changed where
  columns := by rw [same]; exact faithful.columns
  entry := by rw [show changed.entry = stored.entry from congrArg PendingSpec.entry same]; exact faithful.entry

/-- Storing an entry where none is keeps every row that was read faithful. -/
theorem Faithful.fill {other stored : PendingOrder} {price : ℚ} (faithful : Faithful row stored)
    (vacant : stored.entry = none) (filler : Faithful other stored) (priced : Priced other) :
    Faithful row { stored with entry := some price } where
  columns := faithful.columns
  entry := by
    -- Both rows name the same order type, so the row that was read takes a price as well.
    have types : row.orderType = other.orderType := by
      have first := congrArg PendingSpec.orderType faithful.columns
      have second := congrArg PendingSpec.orderType filler.columns
      exact first.trans second.symm
    refine .inr ?_
    rcases faithful.entry with same | priced'
    · exact ⟨types ▸ priced.1, same.symm.trans vacant⟩
    · exact priced'

/-- One move that fills entries once keeps what the approving tasks heard true. -/
theorem kept_step {move : Move Choice Call}
    (represented : (recorded approvalRule approvalRest).Represented s) (once : FillsOnce s move)
    (stepped : (openMachine svc).step s move = some after) (kept : ReadStands s orderId) :
    ReadStands after orderId := by
  -- The stored row after the move, against any row that was read before it.
  have reads {task : Nat} {row : PendingOrder} (read : ReadPending (s.hist task) orderId row) :
      ∃ stored, after.world.db.pendingOrder orderId = some stored ∧ Faithful row stored := by
    obtain ⟨stored, found, faithful⟩ := kept.read task row read
    cases open_step stepped with
    | silent same entry grown quiet => exact ⟨stored, (same orderId).trans found, faithful⟩
    | committed owner choice tx next answer world moves running performed effect moved =>
      subst moved
      obtain ⟨changed, there, change⟩ := effect.kept orderId stored found
      refine ⟨changed, there, ?_⟩
      cases change with
      | same same => exact same ▸ faithful
      | moved moves spec => exact faithful.of_spec spec
      | filled price fills same =>
        subst fills moves same
        obtain ⟨-, vacant⟩ := fillsOnce_committed once running performed found
        obtain ⟨other, read', priced⟩ := recorded_asks represented running
        obtain ⟨stored', found', filler⟩ := kept.read owner other read'
        rw [found] at found'
        cases found'
        exact faithful.fill vacant filler priced
  -- And the stored entry after the move, against any that was stored before it.
  have fills {task : Nat} {price : ℚ}
      (filled : ⟨.write (.fillPendingEntry orderId price), .ok ()⟩ ∈ s.hist task) :
      ∃ stored, after.world.db.pendingOrder orderId = some stored ∧ stored.entry = some price := by
    obtain ⟨stored, found, entry⟩ := kept.filled task price filled
    cases open_step stepped with
    | silent same entry' grown quiet => exact ⟨stored, (same orderId).trans found, entry⟩
    | committed owner choice tx next answer world moves running performed effect moved =>
      subst moved
      obtain ⟨changed, there, change⟩ := effect.kept orderId stored found
      refine ⟨changed, there, ?_⟩
      cases change with
      | same same => exact same ▸ entry
      | moved moves spec =>
        rw [show changed.entry = stored.entry from congrArg PendingSpec.entry spec]
        exact entry
      | filled price' fills same =>
        subst fills moves same
        obtain ⟨-, vacant⟩ := fillsOnce_committed once running performed found
        rw [entry] at vacant
        cases vacant
  obtain ⟨call, value, rfl, -, rfl⟩ |
    ⟨owner, choice, request, next, answer, world, rfl, running, performed, rfl⟩ | ⟨rfl, rfl⟩ :=
    Machine.step_cases stepped
  · exact ⟨fun task row read => reads read, fun task price filled => fills filled⟩
  · have served : perform s.world owner request choice = some (answer, world) := performed
    constructor
    · intro task row read
      by_cases own : task = owner
      · subst own
        unfold ReadPending at read
        rw [Sys.hist_answered_self] at read
        rcases List.mem_cons.mp read with new | old
        · -- The row was read just now.
          cases new
          simp only [perform] at served
          split at served
          · cases served
          · simp only [Option.some.injEq, Prod.mk.injEq, Except.ok.injEq] at served
            obtain ⟨found, rfl⟩ := served
            exact ⟨row, found, rfl, .inl rfl⟩
        · exact reads old
      · unfold ReadPending at read
        rw [Sys.hist_answered_other own] at read
        exact reads read
    · intro task price filled
      by_cases own : task = owner
      · subst own
        rw [Sys.hist_answered_self] at filled
        rcases List.mem_cons.mp filled with new | old
        · -- The entry was stored just now, in the row that the task had read.
          cases new
          obtain ⟨row, read, -⟩ := recorded_asks represented running
          obtain ⟨stored, found, -⟩ := kept.read task row read
          exact ⟨_, Tx.run_fill (perform_write served) found, rfl⟩
        · exact fills old
      · rw [Sys.hist_answered_other own] at filled
        exact fills filled
  · exact ⟨fun task row read => reads read, fun task price filled => fills filled⟩

theorem FrozenReached.readStands (frozen : FrozenReached svc db s) : ReadStands s orderId := by
  refine (approvals_sound FillsOnce).invariant (fun s : State => ReadStands s orderId)
    (fun s move after represented once stepped => kept_step represented once stepped)
    openStarted_represented ?_ frozen
  exact ⟨(fun _ _ read => nomatch read), (fun _ _ filled => nomatch filled)⟩

/-- One move that fills entries once leaves the parameters of an order that no longer waits. -/
theorem frozen_step {move : Move Choice Call}
    (represented : (recorded approvalRule approvalRest).Represented s) (once : FillsOnce s move)
    (stepped : (openMachine svc).step s move = some after)
    (found : s.world.db.pendingOrder orderId = some row) (left : row.status ≠ .awaitingApproval) :
    ∃ changed, after.world.db.pendingOrder orderId = some changed ∧
      changed.status ≠ .awaitingApproval ∧ changed.toPendingSpec = row.toPendingSpec := by
  cases open_step stepped with
  | silent same entry grown quiet => exact ⟨row, (same orderId).trans found, left, rfl⟩
  | committed task choice tx next answer world moves running performed effect moved =>
    subst moved
    obtain ⟨changed, there, change⟩ := effect.kept orderId row found
    refine ⟨changed, there, ?_⟩
    cases change with
    | same same => exact ⟨same ▸ left, by rw [same]⟩
    | filled price fills stored =>
      subst fills moves
      exact absurd (fillsOnce_committed once running performed found).1 left
    | moved moves spec =>
      refine ⟨fun waiting => ?_, spec⟩
      -- No compare-and-set leads back to waiting.
      rw [waiting] at moves
      generalize row.status = expected at moves
      cases tx with
      | failPending named status code message =>
        cases moves
        rcases (recorded_asks represented running).2 with h | h <;> cases h
      | _ => cases moves

/-- The arguments of an execution depend on the parameters of the pending order only. -/
theorem pendingExecution_faithful {stored : PendingOrder} {entry : Option ℚ} {actor : String}
    (faithful : Faithful row stored) :
    pendingExecution orderId row entry actor = pendingExecution orderId stored entry actor := by
  have columns := faithful.columns
  simp only [PendingSpec.mk.injEq] at columns
  obtain ⟨account, symbol, side, type, -, stop, risk⟩ := columns
  simp only [pendingExecution, account, symbol, side, type, stop, risk]

/-- An approved order is submitted with the stored parameters. -/
theorem submitted_stored {task : Nat} {actor : String} {hist : History} {args : ExecuteArgs}
    (stands : ReadStands s orderId) (serves : s.calls task = some (.approvePendingOrder orderId actor))
    (submits : Submits ⟨s.calls task, hist⟩ args) (grown : hist <:+ s.hist task) :
    ∃ stored, s.world.db.pendingOrder orderId = some stored ∧
      args = pendingExecution orderId stored stored.entry actor := by
  rcases submits with own | ⟨named, actor', row, entry, call, rfl, approving, -⟩
  · rw [serves] at own
    cases own
  rw [serves] at call
  cases call
  obtain ⟨stored, found, faithful⟩ := stands.read task row (grown.mem approving.read)
  refine ⟨stored, found, ?_⟩
  rw [pendingExecution_faithful faithful]
  rcases approving.entry with ⟨rfl, unpriced⟩ | ⟨-, price, rfl, filled⟩
  · rw [faithful.entry.resolve_right unpriced]
  · obtain ⟨stored', found', entry⟩ := stands.filled task price (grown.mem filled)
    rw [found] at found'
    cases found'
    rw [entry]

/-- What an approved order keeps between two states of a run, and what its handler submits. -/
structure ParametersFrozen (s after : State) : Prop where
  /-- Once it no longer waits, none of its parameters changes. -/
  columns : ∀ orderId row, s.world.db.pendingOrder orderId = some row →
    row.status ≠ .awaitingApproval →
      ∃ changed, after.world.db.pendingOrder orderId = some changed ∧
        changed.toPendingSpec = row.toPendingSpec
  /-- The order that its handler submits or submitted has exactly the stored parameters. -/
  submitted : ∀ task orderId actor args,
    s.calls task = some (.approvePendingOrder orderId actor) →
      ((∃ next, s.tasks task = some (.ask (.orderService args) next)) ∨
        ∃ answer, ⟨.orderService args, answer⟩ ∈ s.hist task) →
      ∃ stored, s.world.db.pendingOrder orderId = some stored ∧
        args = pendingExecution orderId stored stored.entry actor

/-- Over runs that store an entry only where none is and the order waits, parameters are frozen. -/
theorem parameters_frozen (frozen : FrozenReached svc db s)
    (steps : (openMachine svc).Steps FillsOnce s after) : ParametersFrozen s after where
  columns := by
    intro orderId row found left
    have both : ∃ changed, after.world.db.pendingOrder orderId = some changed ∧
        changed.status ≠ .awaitingApproval ∧ changed.toPendingSpec = row.toPendingSpec := by
      refine (approvals_sound FillsOnce).invariant (fun later : State => ∃ changed,
        later.world.db.pendingOrder orderId = some changed ∧ changed.status ≠ .awaitingApproval ∧
          changed.toPendingSpec = row.toPendingSpec)
        (fun s move after represented once stepped before => ?_) frozen.reached.represented
        ⟨row, found, left, rfl⟩ steps
      obtain ⟨middle, there, left, same⟩ := before
      obtain ⟨changed, there', left', same'⟩ := frozen_step represented once stepped there left
      exact ⟨changed, there', left', same'.trans same⟩
    obtain ⟨changed, there, -, same⟩ := both
    exact ⟨changed, there, same⟩
  submitted := by
    intro task orderId actor args serves sent
    rcases sent with ⟨next, running⟩ | ⟨answer, member⟩
    · exact submitted_stored frozen.readStands serves
        (recorded_asks frozen.reached.represented running) (List.suffix_refl _)
    · obtain ⟨newer, older, split⟩ := List.append_of_mem member
      refine submitted_stored frozen.readStands serves
        (frozen.reached.history task newer _ older split) ?_
      rw [split]
      exact (List.suffix_cons _ _).trans (List.suffix_append _ _)

section

/-- What a lookup shows of the demonstration order. -/
def shown (s : State) : Option (PendingStatus × Option ℚ) :=
  (s.world.db.pendingOrder "p").map fun row => (row.status, row.entry)

/-- The run of one handler stores one entry and passes its parameters on as stored. -/
theorem approved_order_frozen :
    ∃ s, (openMachine demo).checkedRun (fun s move => !refills s move)
        (openStarted demo waitingShop) approvedRun = some s ∧
      shown s = some (.executed, some 10) ∧ ParametersFrozen s s := by
  have passes : ((openMachine demo).checkedRun (fun s move => !refills s move)
      (openStarted demo waitingShop) approvedRun).any fun s =>
        shown s = some (.executed, some 10) := by decide +kernel
  obtain ⟨s, ran, checked⟩ := run_end passes
  exact ⟨s, ran, by simpa using checked, parameters_frozen (Machine.checkedRun_steps ran) .refl⟩

/-- Two handlers read the order without an entry, and the first one claims it. -/
def firstClaims : List (Move Choice Call) :=
  booted ++ .open (.approvePendingOrder "p" "first") :: .open (.approvePendingOrder "p" "second") ::
    (answers 1 [{}, calmDay] ++ answers 2 [{}, { calmDay with price := some 11 }] ++
      answers 1 [{}, {}, {}])

/-- The second one then stores its own price, over the one that the first one submits. -/
theorem late_fill_changes_entry :
    ∃ s after, OpenReached demo waitingShop s ∧
      (openMachine demo).step s (.resume 2 {}) = some after ∧
      shown s = some (.executing, some 10) ∧ shown after = some (.executing, some 11) ∧
      ¬ParametersFrozen s after := by
  have passes : ((openMachine demo).run (openStarted demo waitingShop) firstClaims).any fun s =>
      shown s = some (.executing, some 10) ∧ ((openMachine demo).step s (.resume 2 {})).any fun after =>
        shown after = some (.executing, some 11) := by decide +kernel
  obtain ⟨s, ran, checked⟩ := run_end passes
  obtain ⟨before, stepped⟩ : shown s = some (.executing, some 10) ∧
      ((openMachine demo).step s (.resume 2 {})).any (fun after =>
        shown after = some (.executing, some 11)) = true := by simpa using checked
  obtain ⟨after, moved, changed⟩ := run_end stepped
  have later : shown after = some (.executing, some 11) := by simpa using changed
  refine ⟨s, after, Machine.run_steps ran, moved, before, later, fun frozen => ?_⟩
  -- The stored entry was 10 while the order no longer waited, and is 11 now.
  obtain ⟨row, found, shows⟩ := Option.map_eq_some_iff.mp before
  obtain ⟨status, entry⟩ := Prod.mk.inj shows
  obtain ⟨changed, found', same⟩ := frozen.columns "p" row found (by rw [status]; decide)
  obtain ⟨row', found'', shows'⟩ := Option.map_eq_some_iff.mp later
  rw [found'] at found''
  cases found''
  have kept : changed.entry = row.entry := congrArg PendingSpec.entry same
  rw [(Prod.mk.inj shows').2, entry] at kept
  exact absurd kept (by decide)

end

end Rasat
