import RasatTrading.Guarantees.Policies

/-! Rows that depend on an account, and when a removal can leave some of them behind. -/

namespace Rasat

open Coop

variable {svc : Service} {db after : Database} {accountId : String}

/-- A row that keeps an account from being removed: an open order, an active pending order, a risk
policy or a risk override. -/
inductive Depends (db : Database) (accountId : String) : Prop
  | order (row : Order) (member : row ∈ db.orders) (named : row.accountId = accountId)
      (live : row.status.isOpen)
  | pending (row : PendingOrder) (member : row ∈ db.pending) (named : row.accountId = accountId)
      (active : row.status.isActive)
  | policy (row : RiskPolicy) (member : row ∈ db.policies) (named : row.accountId = accountId)
  | override (row : RiskOverride) (member : row ∈ db.overrides) (named : row.accountId = accountId)

/-- Every row that depends on an account has one. -/
def NoOrphans (db : Database) : Prop :=
  ∀ accountId, Depends db accountId → (db.account accountId).isSome

/-- The account under which a transaction stores an open order or a waiting pending order. -/
def Tx.creates : Tx → Option String
  | .insertOrder draft false _ => some draft.accountId
  | .insertPending spec => some spec.accountId
  | _ => none

/-- An account exists when its id is listed. -/
theorem account_isSome : (db.account accountId).isSome ↔ accountId ∈ db.accounts.map Account.accountId := by
  unfold Database.account
  rw [List.find?_isSome]
  simp only [decide_eq_true_eq, List.mem_map]

/-- An account that nothing keeps from being removed has no dependents. -/
theorem removalReasons_nil {row : Account} (free : db.removalReasons row = []) : ¬Depends db row.accountId := by
  unfold Database.removalReasons at free
  simp only [List.append_eq_nil_iff, ite_eq_right_iff, List.cons_ne_nil, imp_false, not_lt,
    Nat.le_zero, List.length_eq_zero_iff, List.filter_eq_nil_iff, decide_eq_true_eq] at free
  obtain ⟨⟨⟨⟨-, orders⟩, pending⟩, policies⟩, overrides⟩ := free
  rintro (⟨row', member, named, live⟩ | ⟨row', member, named, active⟩ | ⟨row', member, named⟩ |
    ⟨row', member, named⟩)
  · exact orders row' member ⟨named, live⟩
  · exact pending row' member ⟨named, active⟩
  · exact policies row' member named
  · exact overrides row' member named

/-- Dependents stay what they are when the orders and pending orders do and no other row changes
its account. -/
theorem Depends.of_columns (depends : Depends after accountId) (orders : after.orders = db.orders)
    (pending : after.pending = db.pending)
    (policies : after.policies.map RiskPolicy.accountId = db.policies.map RiskPolicy.accountId)
    (overrides : after.overrides.map RiskOverride.accountId =
      db.overrides.map RiskOverride.accountId) : Depends db accountId := by
  rcases depends with ⟨row, member, named, live⟩ | ⟨row, member, named, active⟩ |
    ⟨row, member, named⟩ | ⟨row, member, named⟩
  · exact .order row (orders ▸ member) named live
  · exact .pending row (pending ▸ member) named active
  · have listed : row.accountId ∈ after.policies.map RiskPolicy.accountId := List.mem_map_of_mem member
    rw [policies] at listed
    obtain ⟨old, stored, same⟩ := List.mem_map.mp listed
    exact .policy old stored (same.trans named)
  · have listed : row.accountId ∈ after.overrides.map RiskOverride.accountId := List.mem_map_of_mem member
    rw [overrides] at listed
    obtain ⟨old, stored, same⟩ := List.mem_map.mp listed
    exact .override old stored (same.trans named)

variable {audit : Bool} {named actor : String}

/-- A removal that takes an account away leaves no dependents of it. -/
theorem removeAccount_accounts {answer : Removal}
    (done : db.removeAccount named actor audit = (answer, after)) :
    after.accounts = db.accounts ∨ ¬Depends after named ∧
      after.accounts = db.accounts.filter fun other => other.accountId ≠ named := by
  unfold Database.removeAccount at done
  cases found : db.account named with
  | none => rw [found] at done; cases done; exact .inl rfl
  | some row =>
    have own : row.accountId = named := by simpa using List.find?_some found
    simp only [found] at done
    by_cases used : db.removalReasons row ≠ []
    · rw [if_pos used] at done
      cases done
      exact .inl rfl
    · rw [if_neg used] at done
      cases done
      have free : ¬Depends db named := own ▸ removalReasons_nil (not_not.mp used)
      exact .inr ⟨fun left => free (left.of_columns rfl rfl rfl rfl), rfl⟩

variable {now : Int} {uuid : Nat}

/-- The account that a transaction takes away is left without dependents. -/
theorem Tx.run_accounts {tx : Tx} {answer : tx.Ans}
    (ran : tx.run db now uuid = .ok (answer, after)) (there : (db.account accountId).isSome) :
    (after.account accountId).isSome ∨ ¬Depends after accountId := by
  -- All but the removal keep the ids of the accounts that they find.
  have kept (same : after.accounts.map Account.accountId = db.accounts.map Account.accountId) :
      (after.account accountId).isSome ∨ ¬Depends after accountId :=
    .inl (account_isSome.mpr (same ▸ account_isSome.mp there))
  cases tx with
  | addAccount tags stored actor audit =>
    obtain ⟨-, row, entry, -, -, rfl⟩ := Database.addAccount_ok ran
    refine .inl (account_isSome.mpr ?_)
    rw [Database.record_accounts, List.map_append]
    exact List.mem_append_left _ (account_isSome.mp there)
  | removeAccount named actor audit =>
    rcases removeAccount_accounts (Except.ok.inj ran) with same | ⟨free, removed⟩
    · exact kept (by rw [same])
    · by_cases own : accountId = named
      · exact .inr (own ▸ free)
      · obtain ⟨row, member, rfl⟩ := List.mem_map.mp (account_isSome.mp there)
        refine .inl (account_isSome.mpr (List.mem_map_of_mem ?_))
        rw [removed]
        exact List.mem_filter.mpr ⟨member, by simpa using own⟩
  | enableRealTrading named actor audit =>
    rcases Database.enableRealTrading_ok ran with rfl | ⟨entry, rfl⟩
    · exact .inl there
    · exact kept (Database.setLock_columns _ _ _).accounts
  | disableRealTrading named actor audit =>
    rcases Database.disableRealTrading_ok ran with rfl | ⟨entry, rfl⟩
    · exact .inl there
    · exact kept (Database.setLock_columns _ _ _).accounts
  | _ => exact kept (by rw [(Tx.run_frame ran).accounts rfl])

variable {orderId : String}

/-- A transition moves an active pending order, so its account had a dependent before. -/
theorem Tx.transition_dependents {tx : Tx} {answer : tx.Ans}
    {expected : PendingStatus} {change : PendingOrder → PendingOrder}
    (moves : tx.transition = some (orderId, expected, change)) (formed : db.WellFormed)
    (ran : tx.run db now uuid = .ok (answer, after)) (depends : Depends after accountId) :
    Depends db accountId := by
  have shape : expected.isActive ∧ ∀ row, (change row).accountId = row.accountId := by
    cases tx <;> cases moves <;> exact ⟨rfl, fun _ => rfl⟩
  obtain ⟨moved, found, waiting, rfl⟩ := Tx.run_transition moves ran
  rcases depends with ⟨row, member, named, live⟩ | ⟨row, member, named, active⟩ |
    ⟨row, member, named⟩ | ⟨row, member, named⟩
  · exact .order row member named live
  · obtain ⟨old, stored, same⟩ := List.mem_map.mp member
    by_cases own : old.orderId = orderId
    · -- Ids are unique, so the changed row is the one that was found in the expected state.
      rw [if_pos own] at same
      have located := List.mem_of_find?_eq_some found
      have id : moved.orderId = orderId := by simpa using List.find?_some found
      obtain rfl := List.inj_on_of_nodup_map formed.pendingIds stored located (own.trans id.symm)
      exact .pending old stored (by rw [← shape.2 old, same, named]) (waiting ▸ shape.1)
    · rw [if_neg own] at same
      exact .pending old stored (same ▸ named) (same ▸ active)
  · exact .policy row member named
  · exact .override row member named

/-- An override is only added for an account that exists. -/
theorem createOverride_owned {draft : OverrideDraft} {overrideId : String}
    {answer : RiskOverride} (done : db.createOverride draft overrideId audit = .ok (answer, after)) :
    after.overrides = db.overrides ∨ ∃ row, after.overrides = db.overrides ++ [row] ∧
      (db.account row.accountId).isSome := by
  unfold Database.createOverride at done
  by_cases missing : db.account draft.accountId = none
  · rw [if_pos missing] at done
    cases done
  rw [if_neg missing] at done
  split at done
  · cases done
    exact .inl rfl
  by_cases taken : db.overrides.any fun row => row.overrideId = overrideId
  · rw [if_pos taken] at done
    cases done
  rw [if_neg taken] at done
  cases done
  exact .inr ⟨_, rfl, Option.isSome_iff_ne_none.mpr missing⟩

/-- A policy is only set for an account that exists. -/
theorem setRiskPolicy_owned {patch : PolicyPatch}
    {answer : RiskPolicy × Bool} (done : db.setRiskPolicy named patch now actor audit = .ok (answer, after)) :
    (db.account named).isSome := by
  unfold Database.setRiskPolicy at done
  by_cases missing : db.account named = none
  · rw [if_pos missing] at done
    cases done
  · exact Option.isSome_iff_ne_none.mpr missing

/-- A policy row of an account is found when there is one. -/
theorem policyRow_isSome : (db.policyRow accountId).isSome ↔
    accountId ∈ db.policies.map RiskPolicy.accountId := by
  unfold Database.policyRow
  rw [List.find?_isSome]
  simp only [decide_eq_true_eq, List.mem_map]

/-- An inserted order is a dependent only when it is open. -/
theorem Tx.insertOrder_dependents {draft : OrderDraft} {simulated : Bool} {audit : Option AuditEntry}
    {answer : (Tx.insertOrder draft simulated audit).Ans}
    (ran : (Tx.insertOrder draft simulated audit).run db now uuid = .ok (answer, after))
    (depends : Depends after accountId) :
    Depends db accountId ∨ (Tx.insertOrder draft simulated audit).creates = some accountId := by
  obtain ⟨shape, joined⟩ := run_insertOrder ran
  rcases depends with ⟨row, member, named, live⟩ | ⟨row, member, named, active⟩ |
    ⟨row, member, named⟩ | ⟨row, member, named⟩
  · rw [joined.orders] at member
    rcases List.mem_append.mp member with old | new
    · exact .inl (.order row old named live)
    · -- The new row is open, so it was not a simulated one.
      obtain rfl := List.mem_singleton.mp new
      subst shape
      cases simulated with
      | true => cases live
      | false => exact .inr (congrArg some named)
  · exact .inl (.pending row (joined.pending ▸ member) named active)
  · exact .inl (.policy row (joined.policies ▸ member) named)
  · exact .inl (.override row (joined.overrides ▸ member) named)

/-- An update of an open order makes no dependent. -/
theorem Tx.updateOrder_dependents {change : OrderUpdate} {audit : Option AuditEntry}
    {answer : (Tx.updateOrder orderId change audit).Ans}
    (ran : (Tx.updateOrder orderId change audit).run db now uuid = .ok (answer, after))
    (updates : ∀ row ∈ db.orders, row.orderId = orderId → row.status.isOpen)
    (depends : Depends after accountId) : Depends db accountId := by
  rw [run_updateOrder ran] at depends
  rcases depends with ⟨row, member, named, live⟩ | ⟨row, member, named, active⟩ |
    ⟨row, member, named⟩ | ⟨row, member, named⟩
  · obtain ⟨old, stored, rfl⟩ := mem_updateRows.mp member
    by_cases own : old.orderId = orderId
    · rw [if_pos own] at named
      exact .order old stored named (updates old stored own)
    · rw [if_neg own] at named live
      exact .order old stored named live
  · exact .pending row member named active
  · exact .policy row member named
  · exact .override row member named

/-- A policy is a dependent of an account that there is. -/
theorem Tx.setRiskPolicy_dependents {patch : PolicyPatch}
    {answer : (Tx.setRiskPolicy named patch actor audit).Ans}
    (ran : (Tx.setRiskPolicy named patch actor audit).run db now uuid = .ok (answer, after))
    (depends : Depends after accountId) : Depends db accountId ∨ (db.account accountId).isSome := by
  by_cases own : accountId = named
  · exact .inr (own ▸ setRiskPolicy_owned ran)
  obtain ⟨-, orders, pending, overrides⟩ := Database.setRiskPolicy_ok ran
  rcases depends with ⟨row, member, named, live⟩ | ⟨row, member, named, active⟩ |
    ⟨row, member, named⟩ | ⟨row, member, named⟩
  · exact .inl (.order row (orders ▸ member) named live)
  · exact .inl (.pending row (pending ▸ member) named active)
  · -- Another account has the policy row that it had.
    have listed : (after.policyRow accountId).isSome :=
      policyRow_isSome.mpr (List.mem_map.mpr ⟨row, member, named⟩)
    rw [(setRiskPolicy_effect ran).1 accountId, if_neg own] at listed
    obtain ⟨old, stored, same⟩ := List.mem_map.mp (policyRow_isSome.mp listed)
    exact .inl (.policy old stored same)
  · have listed : accountId ∈ after.overrides.map RiskOverride.accountId :=
      List.mem_map.mpr ⟨row, member, named⟩
    have columns : after.overrides.map RiskOverride.accountId =
        db.overrides.map RiskOverride.accountId := by
      rcases overrides with same | ⟨version, reason, closed⟩
      · rw [same]
      · rw [closed]
        exact Database.map_if_column (fun row => Database.reconciledOverride row now reason)
          (fun _ => rfl) _
    rw [columns] at listed
    obtain ⟨old, stored, same⟩ := List.mem_map.mp listed
    exact .inl (.override old stored same)

/-- An override is a dependent of an account that there is. -/
theorem Tx.createOverride_dependents {draft : OverrideDraft} {answer : (Tx.createOverride draft audit).Ans}
    (ran : (Tx.createOverride draft audit).run db now uuid = .ok (answer, after))
    (depends : Depends after accountId) : Depends db accountId ∨ (db.account accountId).isSome := by
  have frame := Tx.run_frame ran
  have orders := frame.orders rfl
  have pending := frame.pending rfl
  have policies := frame.policies rfl
  rcases createOverride_owned ran with same | ⟨added, grown, owned⟩
  · exact .inl (depends.of_columns orders pending (by rw [policies]) (by rw [same]))
  rcases depends with ⟨row, member, named, live⟩ | ⟨row, member, named, active⟩ |
    ⟨row, member, named⟩ | ⟨row, member, named⟩
  · exact .inl (.order row (orders ▸ member) named live)
  · exact .inl (.pending row (pending ▸ member) named active)
  · exact .inl (.policy row (policies ▸ member) named)
  · rw [grown] at member
    rcases List.mem_append.mp member with old | new
    · exact .inl (.override row old named)
    · obtain rfl := List.mem_singleton.mp new
      exact .inr (named ▸ owned)

/-- A new pending order is a dependent of its own account. -/
theorem Tx.insertPending_dependents {spec : PendingSpec} {answer : (Tx.insertPending spec).Ans}
    (ran : (Tx.insertPending spec).run db now uuid = .ok (answer, after)) (depends : Depends after accountId) :
    Depends db accountId ∨ (Tx.insertPending spec).creates = some accountId := by
  obtain ⟨-, added, rfl, rfl⟩ := run_insertPending ran
  rcases depends with ⟨row, member, named, live⟩ | ⟨row, member, named, active⟩ |
    ⟨row, member, named⟩ | ⟨row, member, named⟩
  · exact .inl (.order row member named live)
  · rcases List.mem_append.mp member with old | new
    · exact .inl (.pending row old named active)
    · obtain rfl := List.mem_singleton.mp new
      exact .inr (congrArg some named)
  · exact .inl (.policy row member named)
  · exact .inl (.override row member named)

/-- Filling the entry of a pending order keeps its account and its status. -/
theorem Tx.fillPendingEntry_dependents {entry : ℚ} {answer : (Tx.fillPendingEntry orderId entry).Ans}
    (ran : (Tx.fillPendingEntry orderId entry).run db now uuid = .ok (answer, after))
    (depends : Depends after accountId) : Depends db accountId := by
  cases ran
  rcases depends with ⟨row, member, named, live⟩ | ⟨row, member, named, active⟩ |
    ⟨row, member, named⟩ | ⟨row, member, named⟩
  · exact .order row member named live
  · obtain ⟨old, stored, rfl⟩ := List.mem_map.mp member
    by_cases own : old.orderId = orderId
    · rw [if_pos own] at named active
      exact .pending old stored named active
    · rw [if_neg own] at named active
      exact .pending old stored named active
  · exact .policy row member named
  · exact .override row member named

/-- Every dependent of an account was one before, was created by the transaction or has its account. -/
theorem Tx.run_dependents {tx : Tx} {answer : tx.Ans}
    (formed : db.WellFormed) (ran : tx.run db now uuid = .ok (answer, after))
    (updates : ∀ orderId change audit, tx = .updateOrder orderId change audit →
      ∀ row ∈ db.orders, row.orderId = orderId → row.status.isOpen)
    (depends : Depends after accountId) :
    Depends db accountId ∨ tx.creates = some accountId ∨ (db.account accountId).isSome := by
  -- Only transactions that add rows or change their accounts or states can add a dependent.
  cases tx with
  | insertOrder draft simulated audit => exact (insertOrder_dependents ran depends).imp_right .inl
  | updateOrder orderId change audit =>
    exact .inl (updateOrder_dependents ran (updates orderId change audit rfl) depends)
  | setRiskPolicy named patch actor audit => exact (setRiskPolicy_dependents ran depends).imp_right .inr
  | createOverride draft audit => exact (createOverride_dependents ran depends).imp_right .inr
  | consumeOverride named version key at_ audit =>
    rcases Database.consumeOverride_tables (Except.ok.inj ran) with
      ⟨-, rfl⟩ | ⟨_, -, -, -, entry, rfl⟩
    · exact .inl depends
    · exact .inl (depends.of_columns rfl rfl rfl
        (Database.map_if_column (fun row => Database.appliedOverride row at_ key) (fun _ => rfl) _))
  | insertPending spec => exact (insertPending_dependents ran depends).imp_right .inl
  | approvePending orderId => exact .inl (transition_dependents rfl formed ran depends)
  | rejectPending orderId => exact .inl (transition_dependents rfl formed ran depends)
  | claimPending orderId at_ => exact .inl (transition_dependents rfl formed ran depends)
  | completePending orderId executed => exact .inl (transition_dependents rfl formed ran depends)
  | failPending orderId status code text => exact .inl (transition_dependents rfl formed ran depends)
  | reconcileOverrides at_ audit =>
    cases ran
    exact .inl (depends.of_columns rfl rfl rfl
      (Database.map_if_column (fun row => Database.reconciledOverride row at_ "expired")
        (fun _ => rfl) _))
  | fillPendingEntry orderId entry => exact .inl (fillPendingEntry_dependents ran depends)
  | _ =>
    have frame := Tx.run_frame ran
    exact .inl (depends.of_columns (frame.orders rfl) (frame.pending rfl) (by rw [frame.policies rfl])
      (by rw [frame.overrides rfl]))

/-- A move under which no transaction stores an open order or a waiting pending order of an account
that is gone. -/
def Attached (s : State) : Move Choice Call → Prop
  | .resume task choice =>
    ∀ tx next committed world accountId, s.tasks task = some (.ask (.write tx) next) →
      perform s.world task (.write tx) choice = some (.ok committed, world) →
        tx.creates = some accountId → (s.world.db.account accountId).isSome
  | _ => True

variable {move : Move Choice Call}

/-- An attached move leaves no orphans. -/
theorem attached_step {calm : Prop} {s later : State}
    (represented : (custodySimulation svc.text calm).Represented s) (attached : Attached s move)
    (stepped : (machine svc).step s move = some later) (clean : NoOrphans s.world.db) :
    NoOrphans later.world.db := by
  obtain ⟨call, value, -, -, rfl⟩ |
    ⟨task, choice, request, next, answer, world, rfl, running, performed, rfl⟩ | ⟨-, rfl⟩ :=
    Machine.step_cases stepped
  · exact clean
  · show NoOrphans world.db
    rcases perform_db (asks_directly represented running) performed with
      same | ⟨tx, committed, event, ran⟩
    · rw [same]
      exact clean
    cases event
    intro accountId depends
    have formed := represented.inv.formed
    -- A task only updates open orders.
    have updates : ∀ orderId change audit, tx = .updateOrder orderId change audit →
        ∀ row ∈ s.world.db.orders, row.orderId = orderId → row.status.isOpen := by
      rintro orderId change audit rfl row member named
      obtain ⟨known, truth, -, holds, permitted⟩ := asking_permitted represented running
      obtain ⟨held, own, view, listed, same, live, -⟩ := permitted
      rw [view] at holds
      obtain rfl := eq_of_orderId formed.orderIds member (holds.within listed) (named.trans same.symm)
      exact live
    have there : (s.world.db.account accountId).isSome := by
      rcases Tx.run_dependents formed ran updates depends with before | created | there
      · exact clean accountId before
      · exact attached tx next committed world accountId running performed created
      · exact there
    exact (Tx.run_accounts ran there).resolve_right (not_not.mpr depends)
  · exact clean

/-- A move that stores such a row of an account that is gone leaves an orphan. -/
theorem detached_step {s later : State}
    (stepped : (machine svc).step s move = some later) (detached : ¬Attached s move) :
    ¬NoOrphans later.world.db := by
  cases move with
  | «open» call => exact absurd trivial detached
  | crash => exact absurd trivial detached
  | resume task choice =>
    simp only [Attached, not_forall] at detached
    obtain ⟨tx, next, committed, world, accountId, running, performed, created, gone⟩ := detached
    have moved : later.world = world := by
      have served : (machine svc).perform s.world task (.write tx) choice = some (.ok committed, world) :=
        performed
      simp only [Machine.step, running, served, Option.map_some, Option.some.injEq] at stepped
      rw [← stepped]
      rfl
    have ran := perform_write performed
    rw [moved]
    intro clean
    -- The stored row depends on an account that is missing before and after.
    cases tx with
    | insertOrder draft simulated audit =>
      cases simulated with
      | true => cases created
      | false =>
        cases created
        obtain ⟨shape, joined⟩ := Tx.run_insertOrder ran
        have stored : committed ∈ world.db.orders := by
          rw [joined.orders]
          exact List.mem_append_right _ (List.mem_singleton_self _)
        have there := clean draft.accountId
          (.order committed stored (by rw [shape]; rfl) (by rw [shape]; rfl))
        rw [account_isSome, joined.accounts] at there
        exact gone (account_isSome.mpr there)
    | insertPending spec =>
      cases created
      obtain ⟨-, row, named, same⟩ := Tx.run_insertPending ran
      have stored : row ∈ world.db.pending := by
        rw [same]
        exact List.mem_append_right _ (List.mem_singleton_self _)
      have there := clean spec.accountId (.pending row stored (by rw [named]) (by rw [named]; rfl))
      rw [account_isSome, same] at there
      exact gone (account_isSome.mpr there)
    | updateOrder | appendAudit | addAccount | removeAccount | enableRealTrading | disableRealTrading
    | setRiskPolicy | createOverride | consumeOverride | reconcileOverrides | fillPendingEntry
    | approvePending | rejectPending | claimPending | completePending | failPending => cases created

/-- From tables without orphans, every state that attached moves reach has none, and the next state
has none exactly when the move to it is attached. -/
theorem no_orphans_iff_attached {s : State} (formed : db.WellFormed) (clean : NoOrphans db)
    (steps : (machine svc).Steps Attached (started svc db) s) :
    NoOrphans s.world.db ∧ ∀ move later, (machine svc).step s move = some later →
      (NoOrphans later.world.db ↔ Attached s move) := by
  have sound : (custodySimulation svc.text False).Sound (machine svc) Attached :=
    custody_sound.mono fun _ _ _ => False.elim
  have initial : (custodySimulation svc.text False).Represented (started svc db) :=
    started_represented formed
  have kept : NoOrphans s.world.db :=
    sound.invariant (fun s : State => NoOrphans s.world.db)
      (fun _ _ _ represented attached stepped => attached_step represented attached stepped)
      initial clean steps
  refine ⟨kept, fun move later stepped => ⟨fun clear => ?_, fun attached => ?_⟩⟩
  · exact not_not.mp fun detached => detached_step stepped detached clear
  · exact attached_step (sound.represented initial steps) attached stepped kept

/-- A sufficient check for an attached move: what the task creates has its account. -/
def checksAccount (s : State) : Move Choice Call → Bool
  | .resume task _ =>
    match s.tasks task with
    | some (.ask (.write tx) _) => tx.creates.all fun accountId => (s.world.db.account accountId).isSome
    | _ => true
  | _ => true

theorem attached_of_check {s : State} (checked : checksAccount s move = true) : Attached s move := by
  cases move with
  | «open» call => trivial
  | crash => trivial
  | resume task choice =>
    intro tx next committed world accountId running _ created
    simp only [checksAccount, running, created] at checked
    exact checked

/-- A buy that is placed while its account exists. -/
def attachedBuy : List (Move Choice Call) :=
  booted ++ .open (.placeOrder buyOne) :: answers 1 (List.replicate 15 calmDay)

/-- The placed order of a shop has its account, also through a crash. -/
theorem placed_order_attached :
    ∃ s later, (machine demo).checkedRun checksAccount (started demo shop) attachedBuy = some s ∧
      (machine demo).step s .crash = some later ∧ s.world.db.orders.length = 1 ∧
      NoOrphans s.world.db ∧ (NoOrphans later.world.db ↔ Attached s .crash) := by
  have passes : ((machine demo).checkedRun checksAccount (started demo shop) attachedBuy).any fun s =>
      s.world.db.orders.length = 1 := by decide +kernel
  obtain ⟨s, ran, checked⟩ := run_end passes
  have clean : NoOrphans shop := by
    rintro accountId (⟨row, member, -⟩ | ⟨row, member, -⟩ | ⟨row, member, -⟩ | ⟨row, member, -⟩) <;>
      exact nomatch member
  have steps : (machine demo).Steps Attached (started demo shop) s :=
    Machine.Steps.mono (fun _ _ => attached_of_check) (Machine.checkedRun_steps ran)
  obtain ⟨kept, exactly⟩ := no_orphans_iff_attached shop_wellFormed clean steps
  exact ⟨s, _, ran, rfl, by simpa using checked, kept, exactly .crash _ rfl⟩

/-- A buy whose account is disabled and removed between its checks and its insertion. -/
def orphanedBuy : List (Move Choice Call) :=
  booted ++ .open (.placeOrder buyOne) :: answers 1 (List.replicate 11 calmDay) ++
    .open (.disableRealTrading (.text "main") "operator") :: answers 2 [{}] ++
    .open (.removeAccount (.text "main") "operator") :: answers 3 [{}] ++ answers 1 [calmDay]

/-- The insertion leaves an open order of an account that is gone. -/
theorem removed_account_orphans :
    ∃ s, (machine demo).run (started demo shop) orphanedBuy = some s ∧ ¬NoOrphans s.world.db := by
  have passes : ((machine demo).run (started demo shop) orphanedBuy).any fun s =>
      s.world.db.accounts = [] ∧ ∃ row ∈ s.world.db.orders, row.status.isOpen := by decide +kernel
  obtain ⟨s, ran, checked⟩ := run_end passes
  simp only [decide_eq_true_eq] at checked
  obtain ⟨gone, row, member, live⟩ := checked
  refine ⟨s, ran, fun clean => ?_⟩
  have there := clean row.accountId (.order row member rfl live)
  rw [account_isSome, gone] at there
  cases there

end Rasat
