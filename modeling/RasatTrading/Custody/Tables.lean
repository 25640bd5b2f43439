import RasatTrading.Custody.Discipline

/-! What each transaction can change, and that every transaction keeps the tables well formed. -/

namespace Rasat

variable {db after : Database} {now : Int} {uuid : Nat} {orderId : String} {expected : PendingStatus}

namespace Database

variable {entry : Option AuditEntry} {accountId : String} {audit : Bool}

@[simp] theorem record_accounts :
    (db.record entry).accounts = db.accounts := rfl

@[simp] theorem record_orders :
    (db.record entry).orders = db.orders := rfl

@[simp] theorem record_overrides :
    (db.record entry).overrides = db.overrides := rfl

@[simp] theorem record_pending :
    (db.record entry).pending = db.pending := rfl

/-- An insertion adds one row whose id and key are new. -/
structure Inserted (db : Database) (row : Order) (after : Database) : Prop where
  id : row.orderId ∉ db.orders.map Order.orderId
  key : ∀ old ∈ db.orders,
    ¬(old.accountId = row.accountId ∧ old.idempotencyKey = row.idempotencyKey)
  orders : after.orders = db.orders ++ [row]
  accounts : after.accounts = db.accounts
  policies : after.policies = db.policies
  overrides : after.overrides = db.overrides
  pending : after.pending = db.pending

theorem insertOrder_ok {draft : OrderDraft} {simulated : Bool} {row : Order}
    (inserted : db.insertOrder draft simulated orderId now = .ok (row, after)) :
    row = newOrder draft simulated orderId now ∧ db.Inserted row after := by
  unfold insertOrder at inserted
  by_cases taken : db.orders.any fun row => row.orderId = orderId
  · rw [if_pos taken] at inserted
    cases inserted
  rw [if_neg taken] at inserted
  by_cases present : (loadOrder db.orders draft.accountId draft.idempotencyKey).isSome
  · rw [if_pos present] at inserted
    cases inserted
  rw [if_neg present] at inserted
  simp only [Except.ok.injEq, Prod.mk.injEq] at inserted
  obtain ⟨rfl, rfl⟩ := inserted
  refine ⟨rfl, ?_, fun old member => ?_, rfl, rfl, rfl, rfl, rfl⟩
  · simpa [newOrder] using taken
  · have missing : loadOrder db.orders draft.accountId draft.idempotencyKey = none := by
      simpa using present
    exact loadOrder_none.mp missing old member

/-- The pending table after a compare-and-set that went through. -/
theorem casPending_ok
    {refusal : PendingStatus → RasatError} {change : PendingOrder → PendingOrder} {answer : Unit}
    (done : db.casPending orderId expected refusal change = .ok (answer, after)) :
    ∃ row, db.pendingOrder orderId = some row ∧ row.status = expected ∧
      after = { db with
        pending := db.pending.map fun other =>
          if other.orderId = orderId then change other else other } := by
  unfold casPending at done
  cases found : db.pendingOrder orderId with
  | none => rw [found] at done; cases done
  | some row =>
    rw [found] at done
    by_cases same : row.status = expected
    · simp only [if_pos same, Except.ok.injEq, Prod.mk.injEq, true_and] at done
      exact ⟨row, rfl, same, done.symm⟩
    · simp only [if_neg same] at done
      cases done

variable {actor : String}

/-- A real lock is only set for an account with credentials. -/
theorem enableRealTrading_ok {answer : Bool}
    (done : db.enableRealTrading accountId actor audit = .ok (answer, after)) :
    after = db ∨ ∃ entry, after = (db.setLock accountId .real).record entry := by
  unfold enableRealTrading at done
  cases found : db.account accountId with
  | none => rw [found] at done; cases done
  | some row =>
    simp only [found] at done
    by_cases bare : ¬row.credentialsConfigured
    · rw [if_pos bare] at done
      cases done
    rw [if_neg bare] at done
    by_cases already : row.tradingLock = .real
    · rw [if_pos already] at done
      cases done
      exact .inl rfl
    · rw [if_neg already] at done
      cases done
      exact .inr ⟨_, rfl⟩

theorem disableRealTrading_ok {answer : Bool}
    (done : db.disableRealTrading accountId actor audit = .ok (answer, after)) :
    after = db ∨ ∃ entry, after = (db.setLock accountId .paper).record entry := by
  unfold disableRealTrading at done
  cases found : db.account accountId with
  | none => rw [found] at done; cases done
  | some row =>
    simp only [found] at done
    by_cases already : row.tradingLock ≠ .real
    · rw [if_pos already] at done
      cases done
      exact .inl rfl
    · rw [if_neg already] at done
      cases done
      exact .inr ⟨_, rfl⟩

/-- A removal takes the account's rows away, a refused one only records itself. -/
theorem removeAccount_tables {answer : Removal}
    (done : db.removeAccount accountId actor audit = (answer, after)) :
    (∃ entry, after = db.record entry) ∨
      ∃ entry, after = ({ db with
        accounts := db.accounts.filter fun other => other.accountId ≠ accountId } : Database).record
          entry := by
  unfold removeAccount at done
  cases found : db.account accountId with
  | none =>
    rw [found] at done
    cases done
    exact .inl ⟨none, rfl⟩
  | some row =>
    simp only [found] at done
    split at done
    · cases done
      exact .inl ⟨_, rfl⟩
    · cases done
      exact .inr ⟨_, rfl⟩

theorem addAccount_ok {actor answer : String} {tags : List String} {stored : Bool}
    (done : db.addAccount accountId tags stored actor now audit = .ok (answer, after)) :
    db.account accountId = none ∧ ∃ row entry, row.accountId = accountId ∧ row.tradingLock = .paper ∧
      after = ({ db with accounts := db.accounts ++ [row] } : Database).record entry := by
  unfold addAccount at done
  by_cases taken : (db.account accountId).isSome
  · rw [if_pos taken] at done
    cases done
  · rw [if_neg taken] at done
    cases done
    exact ⟨by simpa using taken, _, _, rfl, rfl, rfl⟩

/-- Setting a policy touches no order, account or pending order, and only closes overrides. -/
theorem setRiskPolicy_ok {patch : PolicyPatch} {answer : RiskPolicy × Bool}
    (done : db.setRiskPolicy accountId patch now actor audit = .ok (answer, after)) :
    after.accounts = db.accounts ∧ after.orders = db.orders ∧ after.pending = db.pending ∧
      (after.overrides = db.overrides ∨ ∃ version reason,
        after.overrides = db.overrides.map fun row =>
          if outdated accountId version row then reconciledOverride row now reason else row) := by
  unfold setRiskPolicy at done
  by_cases missing : db.account accountId = none
  · rw [if_pos missing] at done
    cases done
  rw [if_neg missing] at done
  generalize db.mergePolicy accountId patch = result at done
  obtain ⟨merged, changed⟩ := result
  cases done
  -- Whatever policy row is stored, the other tables are those of before.
  cases changed with
  | false => exact ⟨rfl, rfl, rfl, .inl rfl⟩
  | true => exact ⟨rfl, rfl, rfl, .inr ⟨_, _, rfl⟩⟩

/-- An override of the same account and key is given again, otherwise a reserved one is added. -/
theorem createOverride_ok {draft : OverrideDraft} {overrideId : String} {answer : RiskOverride}
    (done : db.createOverride draft overrideId audit = .ok (answer, after)) :
    after = db ∨ (overrideId ∉ db.overrides.map RiskOverride.overrideId ∧
      answer.overrideId = overrideId ∧ answer.state = .reserved ∧
      ∃ entry, after = ({ db with overrides := db.overrides ++ [answer] } : Database).record entry) := by
  unfold createOverride at done
  by_cases missing : db.account draft.accountId = none
  · rw [if_pos missing] at done
    cases done
  rw [if_neg missing] at done
  split at done
  · cases done
    exact .inl rfl
  by_cases taken : db.overrides.any fun row => row.overrideId = overrideId
  · rw [if_pos taken] at done
    cases done
  rw [if_neg taken] at done
  cases done
  exact .inr ⟨by simpa using taken, rfl, rfl, _, rfl⟩

/-- A consumption applies one consumable override, or changes nothing. -/
theorem consumeOverride_tables {consumedByIdem : String} {version : Nat} {answer : Option RiskOverride}
    (done : db.consumeOverride accountId version consumedByIdem now audit = (answer, after)) :
    (answer = none ∧ after = db) ∨
      ∃ candidate ∈ db.overrides, consumable accountId version now candidate ∧
        answer = some (appliedOverride candidate now consumedByIdem) ∧
        ∃ entry, after = ({ db with
          overrides := db.overrides.map fun row =>
            if row.overrideId = candidate.overrideId ∧ row.state = .reserved then
              appliedOverride row now consumedByIdem
            else row } : Database).record entry := by
  unfold consumeOverride at done
  split at done
  · cases done
    exact .inl ⟨rfl, rfl⟩
  · rename_i candidate chosen
    cases done
    obtain ⟨member, meets⟩ := List.mem_filter.mp (List.argmin_mem chosen)
    exact .inr ⟨candidate, member, meets, rfl, _, rfl⟩

end Database

/-- The digits of a hexadecimal rendering are hexadecimal digits. -/
theorem hexDigits_mem {count n : Nat} {c : Char} (member : c ∈ hexDigits count n) :
    ∃ digit < 16, c = Nat.digitChar digit := by
  induction count generalizing n with
  | zero => cases member
  | succ count ih =>
    rcases List.mem_append.mp member with older | last
    · exact ih older
    · exact ⟨n % 16, Nat.mod_lt _ (by decide), List.mem_singleton.mp last⟩

/-- A fresh id has no spaces to strip. -/
theorem strip_uuidHex (n : Nat) : strip (uuidHex n) = uuidHex n := by
  have solid : ∀ digit < 16, isSpace (Nat.digitChar digit) = false := by decide
  have plain : ∀ c ∈ hexDigits 32 n, isSpace c = false := by
    intro c member
    obtain ⟨digit, small, rfl⟩ := hexDigits_mem member
    exact solid digit small
  unfold strip uuidHex
  rw [String.toList_ofList]
  -- Neither end has a character to drop.
  have front : (hexDigits 32 n).dropWhile isSpace = hexDigits 32 n := by
    refine List.dropWhile_eq_self_iff.mpr fun positive => ?_
    simp [plain _ (List.getElem_mem positive)]
  have back : (hexDigits 32 n).rdropWhile isSpace = hexDigits 32 n := by
    refine List.rdropWhile_eq_self_iff.mpr fun nonempty => ?_
    simp [plain _ (List.getLast_mem nonempty)]
  rw [front, back]

namespace Database

/-- The columns whose values are unique. -/
structure SameColumns (db after : Database) : Prop where
  accounts : after.accounts.map Account.accountId = db.accounts.map Account.accountId
  orderIds : after.orders.map Order.orderId = db.orders.map Order.orderId
  orderKeys : (after.orders.map fun row => (row.accountId, row.idempotencyKey)) =
    db.orders.map fun row => (row.accountId, row.idempotencyKey)
  overrides : after.overrides.map RiskOverride.overrideId = db.overrides.map RiskOverride.overrideId
  pending : after.pending.map PendingOrder.orderId = db.pending.map PendingOrder.orderId

theorem SameColumns.record (db : Database) (entry : Option AuditEntry) :
    SameColumns db (db.record entry) :=
  ⟨rfl, rfl, rfl, rfl, rfl⟩

/-- Tables are well formed as long as those columns stay. -/
theorem WellFormed.of_columns (formed : db.WellFormed) (same : SameColumns db after) :
    after.WellFormed where
  accountIds := same.accounts ▸ formed.accountIds
  strippedIds := by
    intro row member
    -- The id is one of the old ids, and those are stripped.
    have listed : row.accountId ∈ db.accounts.map Account.accountId :=
      same.accounts ▸ List.mem_map_of_mem member
    obtain ⟨old, stored, named⟩ := List.mem_map.mp listed
    rw [← named]
    exact formed.strippedIds old stored
  orderIds := same.orderIds ▸ formed.orderIds
  orderKeys := same.orderKeys ▸ formed.orderKeys
  overrideIds := same.overrides ▸ formed.overrideIds
  pendingIds := same.pending ▸ formed.pendingIds

/-- Changing rows in place keeps a column that the change keeps. -/
theorem map_if_column {α β : Type} {column : α → β} (change : α → α) {chosen : α → Prop}
    [DecidablePred chosen] (kept : ∀ row, column (change row) = column row) (rows : List α) :
    (rows.map fun row => if chosen row then change row else row).map column = rows.map column := by
  rw [List.map_map]
  refine List.map_congr_left fun row _ => ?_
  simp only [Function.comp_apply]
  split
  · exact kept row
  · rfl

/-- A row with a new value in a unique column keeps the column unique. -/
theorem nodup_append_new {α β : Type} (column : α → β) {rows : List α} {row : α}
    (distinct : (rows.map column).Nodup) (new : column row ∉ rows.map column) :
    ((rows ++ [row]).map column).Nodup := by
  rw [List.map_append, List.map_singleton]
  refine List.nodup_append.mpr ⟨distinct, List.nodup_singleton _, ?_⟩
  rintro value member other single rfl
  exact new (List.mem_singleton.mp single ▸ member)

theorem Inserted.wellFormed {row : Order} (formed : db.WellFormed) (inserted : db.Inserted row after) :
    after.WellFormed where
  accountIds := inserted.accounts ▸ formed.accountIds
  strippedIds := inserted.accounts ▸ formed.strippedIds
  orderIds := by
    rw [inserted.orders]
    exact nodup_append_new _ formed.orderIds inserted.id
  orderKeys := by
    rw [inserted.orders]
    refine nodup_append_new (fun row : Order => (row.accountId, row.idempotencyKey)) formed.orderKeys
      fun present => ?_
    obtain ⟨old, member, same⟩ := List.mem_map.mp present
    exact inserted.key old member (Prod.mk.inj same)
  overrideIds := inserted.overrides ▸ formed.overrideIds
  pendingIds := inserted.pending ▸ formed.pendingIds

theorem setLock_columns (accountId : String) (lock : TradingLock) (entry : Option AuditEntry) :
    SameColumns db ((db.setLock accountId lock).record entry) :=
  ⟨map_if_column (fun row : Account => { row with tradingLock := lock }) (fun _ => rfl) _,
    rfl, rfl, rfl, rfl⟩

end Database

/-- The tables whose rows transactions change. -/
inductive DataTable
  | accounts | orders | policies | overrides | pending

/-- The tables that a transaction may write to; a new policy closes overrides, too. -/
def Tx.writes (tx : Tx) (table : DataTable) : Bool :=
  match table, tx with
  | .accounts, .addAccount _ _ _ _ | .accounts, .removeAccount _ _ _ => true
  | .accounts, .enableRealTrading _ _ _ | .accounts, .disableRealTrading _ _ _ => true
  | .orders, .insertOrder _ _ _ | .orders, .updateOrder _ _ _ => true
  | .policies, .setRiskPolicy _ _ _ _ | .overrides, .setRiskPolicy _ _ _ _ => true
  | .overrides, .createOverride _ _ | .overrides, .consumeOverride _ _ _ _ _ => true
  | .overrides, .reconcileOverrides _ _ => true
  | .pending, .insertPending _ | .pending, .fillPendingEntry _ _ | .pending, .approvePending _ => true
  | .pending, .rejectPending _ | .pending, .claimPending _ _ | .pending, .completePending _ _ => true
  | .pending, .failPending _ _ _ _ => true
  | _, _ => false

/-- What a transaction does not write to is as it was. -/
structure Tx.Frame (tx : Tx) (db after : Database) : Prop where
  accounts : tx.writes .accounts = false → after.accounts = db.accounts
  orders : tx.writes .orders = false → after.orders = db.orders
  policies : tx.writes .policies = false → after.policies = db.policies
  overrides : tx.writes .overrides = false → after.overrides = db.overrides
  pending : tx.writes .pending = false → after.pending = db.pending

open Database

theorem Tx.run_insertOrder {draft : OrderDraft} {simulated : Bool} {audit : Option AuditEntry}
    {row : Order} (ran : (Tx.insertOrder draft simulated audit).run db now uuid = .ok (row, after)) :
    row = newOrder draft simulated (uuidHex uuid) now ∧ db.Inserted row after := by
  simp only [Tx.run] at ran
  cases stored : db.insertOrder draft simulated (uuidHex uuid) now with
  | error raised => rw [stored] at ran; cases ran
  | ok result =>
    obtain ⟨inserted, middle⟩ := result
    rw [stored] at ran
    cases ran
    obtain ⟨shape, facts⟩ := insertOrder_ok stored
    exact ⟨shape, ⟨facts.id, facts.key, facts.orders, facts.accounts, facts.policies, facts.overrides, facts.pending⟩⟩

theorem Tx.run_updateOrder {change : OrderUpdate} {audit : Option AuditEntry}
    {answer : Unit} (ran : (Tx.updateOrder orderId change audit).run db now uuid = .ok (answer, after)) :
    after = ({ db with orders := updateRows orderId change db.orders } : Database).record audit := by
  cases ran
  rfl

/-- The pending order that a transaction moves on, the state it must be in and what becomes of it. -/
def Tx.transition : Tx → Option (String × PendingStatus × (PendingOrder → PendingOrder))
  | .approvePending orderId =>
    some (orderId, .awaitingApproval, fun row => { row with status := .approved })
  | .rejectPending orderId =>
    some (orderId, .awaitingApproval, fun row => { row with status := .rejected })
  | .claimPending orderId at_ =>
    -- Both steps of a claim commit together, so the state between them is never seen.
    some (orderId, .awaitingApproval, fun row => { row with
      status := .executing
      executionStartedAt := some at_
      executionErrorCode := none
      executionErrorMessage := none })
  | .completePending orderId executedOrderId =>
    some (orderId, .executing, fun row => { row with
      status := .executed
      executedOrderId := executedOrderId })
  | .failPending orderId status code message =>
    some (orderId, .executing, fun row => { row with
      status := status
      executionErrorCode := some code
      executionErrorMessage := some message })
  | _ => none

variable {change : PendingOrder → PendingOrder} {tx : Tx}

/-- A transition keeps the id of the pending order that it moves on. -/
theorem Tx.transition_orderId (moves : tx.transition = some (orderId, expected, change))
    (row : PendingOrder) : (change row).orderId = row.orderId := by
  cases tx <;> cases moves <;> rfl

variable {answer : tx.Ans}

/-- A transition that commits found its pending order in the expected state. -/
theorem Tx.run_transition (moves : tx.transition = some (orderId, expected, change))
    (ran : tx.run db now uuid = .ok (answer, after)) :
    ∃ row, db.pendingOrder orderId = some row ∧ row.status = expected ∧
      after = { db with
        pending := db.pending.map fun other =>
          if other.orderId = orderId then change other else other } := by
  cases tx with
  | approvePending named => cases moves; simp only [Tx.run] at ran; exact casPending_ok ran
  | rejectPending named => cases moves; simp only [Tx.run] at ran; exact casPending_ok ran
  | completePending named executed => cases moves; simp only [Tx.run] at ran; exact casPending_ok ran
  | failPending named status code text =>
    cases moves; simp only [Tx.run] at ran; exact casPending_ok ran
  | claimPending named at_ =>
    cases moves
    simp only [Tx.run, bind_ok] at ran
    obtain ⟨⟨_, approved⟩, first, second⟩ := ran
    obtain ⟨row, found, waiting, rfl⟩ := casPending_ok first
    obtain ⟨-, -, -, rfl⟩ := casPending_ok second
    -- The second step overwrites the status that the first one set.
    refine ⟨row, found, waiting, ?_⟩
    simp only [List.map_map]
    congr 1
    refine List.map_congr_left fun other _ => ?_
    simp only [Function.comp_apply]
    by_cases same : other.orderId = orderId <;> simp [same]
  | _ => cases moves

/-- A new pending order waits for approval. -/
theorem Tx.run_insertPending {spec : PendingSpec} {answer : String}
    (ran : (Tx.insertPending spec).run db now uuid = .ok (answer, after)) :
    db.pendingOrder answer = none ∧ ∃ row : PendingOrder,
      row = { toPendingSpec := spec, orderId := answer } ∧
        after = { db with pending := db.pending ++ [row] } := by
  simp only [Tx.run] at ran
  generalize uuidHex uuid = id at ran
  by_cases taken : (db.pendingOrder id).isSome
  · rw [if_pos taken] at ran
    cases ran
  · rw [if_neg taken] at ran
    cases ran
    exact ⟨by simpa using taken, _, rfl, rfl⟩

/-- Every transaction keeps to its tables. -/
theorem Tx.run_frame (ran : tx.run db now uuid = .ok (answer, after)) : tx.Frame db after := by
  -- The pending transitions have one shape, and so have the transactions on accounts.
  have moved {orderId : String} {expected : PendingStatus} {change : PendingOrder → PendingOrder}
      (moves : tx.transition = some (orderId, expected, change)) (only : tx.writes .pending = true) :
      tx.Frame db after := by
    obtain ⟨-, -, -, rfl⟩ := run_transition moves ran
    exact ⟨fun _ => rfl, fun _ => rfl, fun _ => rfl, fun _ => rfl, fun quiet => nomatch only.symm.trans quiet⟩
  have accountsOnly (only : tx.writes .accounts = true) (rest : after.orders = db.orders ∧
      after.policies = db.policies ∧ after.overrides = db.overrides ∧ after.pending = db.pending) :
      tx.Frame db after :=
    ⟨fun quiet => (nomatch only.symm.trans quiet), fun _ => rest.1, fun _ => rest.2.1, fun _ => rest.2.2.1,
      fun _ => rest.2.2.2⟩
  cases tx with
  | insertOrder draft simulated audit =>
    have joined := (run_insertOrder ran).2
    exact ⟨fun _ => joined.accounts, nofun, fun _ => joined.policies, fun _ => joined.overrides,
      fun _ => joined.pending⟩
  | updateOrder orderId change audit =>
    cases ran
    exact ⟨fun _ => rfl, nofun, fun _ => rfl, fun _ => rfl, fun _ => rfl⟩
  | addAccount tags stored actor audit =>
    obtain ⟨-, row, entry, -, -, rfl⟩ := addAccount_ok ran
    exact accountsOnly rfl ⟨rfl, rfl, rfl, rfl⟩
  | removeAccount named actor audit =>
    refine accountsOnly rfl ?_
    rcases removeAccount_tables (Except.ok.inj ran) with ⟨entry, rfl⟩ | ⟨entry, rfl⟩ <;>
      exact ⟨rfl, rfl, rfl, rfl⟩
  | enableRealTrading named actor audit =>
    refine accountsOnly rfl ?_
    rcases enableRealTrading_ok ran with rfl | ⟨entry, rfl⟩ <;> exact ⟨rfl, rfl, rfl, rfl⟩
  | disableRealTrading named actor audit =>
    refine accountsOnly rfl ?_
    rcases disableRealTrading_ok ran with rfl | ⟨entry, rfl⟩ <;> exact ⟨rfl, rfl, rfl, rfl⟩
  | setRiskPolicy named patch actor audit =>
    obtain ⟨accounts, orders, pending, -⟩ := setRiskPolicy_ok ran
    exact ⟨fun _ => accounts, fun _ => orders, nofun, nofun, fun _ => pending⟩
  | createOverride draft audit =>
    rcases createOverride_ok ran with rfl | ⟨-, -, -, entry, rfl⟩ <;>
      exact ⟨fun _ => rfl, fun _ => rfl, fun _ => rfl, nofun, fun _ => rfl⟩
  | consumeOverride named version key at_ audit =>
    rcases consumeOverride_tables (Except.ok.inj ran) with ⟨-, rfl⟩ | ⟨_, -, -, -, entry, rfl⟩ <;>
      exact ⟨fun _ => rfl, fun _ => rfl, fun _ => rfl, nofun, fun _ => rfl⟩
  | reconcileOverrides at_ audit =>
    cases ran
    exact ⟨fun _ => rfl, fun _ => rfl, fun _ => rfl, nofun, fun _ => rfl⟩
  | insertPending spec =>
    obtain ⟨-, row, -, rfl⟩ := run_insertPending ran
    exact ⟨fun _ => rfl, fun _ => rfl, fun _ => rfl, fun _ => rfl, nofun⟩
  | fillPendingEntry orderId entry =>
    cases ran
    exact ⟨fun _ => rfl, fun _ => rfl, fun _ => rfl, fun _ => rfl, nofun⟩
  | appendAudit entry =>
    cases ran
    exact ⟨fun _ => rfl, fun _ => rfl, fun _ => rfl, fun _ => rfl, fun _ => rfl⟩
  | approvePending orderId | rejectPending orderId | claimPending orderId at_ | completePending orderId executed
  | failPending orderId status code text => exact moved rfl rfl

/-- A transition keeps the tables well formed. -/
theorem Tx.transition_wellFormed (formed : db.WellFormed)
    (moves : tx.transition = some (orderId, expected, change))
    (ran : tx.run db now uuid = .ok (answer, after)) : after.WellFormed := by
  obtain ⟨-, -, -, rfl⟩ := run_transition moves ran
  exact formed.of_columns ⟨rfl, rfl, rfl, rfl, map_if_column change (transition_orderId moves) _⟩

/-- Every transaction keeps the tables well formed. -/
theorem Tx.run_wellFormed (formed : db.WellFormed)
    (ran : tx.run db now uuid = .ok (answer, after)) : after.WellFormed := by
  cases tx with
  | insertOrder draft simulated audit => exact (run_insertOrder ran).2.wellFormed formed
  | updateOrder orderId change audit =>
    rw [run_updateOrder ran]
    exact formed.of_columns ⟨rfl, updateRows_map (fun _ => rfl) _, updateRows_map (fun _ => rfl) _,
      rfl, rfl⟩
  | addAccount tags stored actor audit =>
    obtain ⟨missing, row, entry, named, -, rfl⟩ := addAccount_ok ran
    refine ⟨?_, fun other member => ?_, formed.orderIds, formed.orderKeys, formed.overrideIds,
      formed.pendingIds⟩
    · refine nodup_append_new _ formed.accountIds fun present => ?_
      obtain ⟨old, member, same⟩ := List.mem_map.mp present
      have absent := List.find?_eq_none.mp missing old member
      simp only [decide_eq_true_eq] at absent
      exact absent (same.trans named)
    · -- The new id is a fresh one, which has no spaces.
      rcases List.mem_append.mp member with old | new
      · exact formed.strippedIds other old
      · rw [List.mem_singleton.mp new, named]
        exact strip_uuidHex uuid
  | removeAccount named actor audit =>
    rcases removeAccount_tables (Except.ok.inj ran) with ⟨entry, rfl⟩ | ⟨entry, rfl⟩
    · exact formed.of_columns (SameColumns.record db _)
    · refine ⟨(List.filter_sublist.map _).nodup formed.accountIds, fun row member => ?_,
        formed.orderIds, formed.orderKeys, formed.overrideIds, formed.pendingIds⟩
      exact formed.strippedIds row (List.mem_filter.mp member).1
  | enableRealTrading named actor audit =>
    rcases enableRealTrading_ok ran with rfl | ⟨entry, rfl⟩
    · exact formed
    · exact formed.of_columns (setLock_columns _ _ _)
  | disableRealTrading named actor audit =>
    rcases disableRealTrading_ok ran with rfl | ⟨entry, rfl⟩
    · exact formed
    · exact formed.of_columns (setLock_columns _ _ _)
  | setRiskPolicy named patch actor audit =>
    obtain ⟨accounts, orders, pending, same | ⟨version, reason, closed⟩⟩ := setRiskPolicy_ok ran
    · exact formed.of_columns ⟨by rw [accounts], by rw [orders], by rw [orders], by rw [same],
        by rw [pending]⟩
    · refine formed.of_columns ⟨by rw [accounts], by rw [orders], by rw [orders], ?_, by rw [pending]⟩
      rw [closed]
      exact map_if_column (fun row => reconciledOverride row now reason) (fun _ => rfl) _
  | createOverride draft audit =>
    rcases createOverride_ok ran with rfl | ⟨new, named, -, entry, rfl⟩
    · exact formed
    · exact ⟨formed.accountIds, formed.strippedIds, formed.orderIds, formed.orderKeys,
        nodup_append_new _ formed.overrideIds (named ▸ new), formed.pendingIds⟩
  | consumeOverride named version key at_ audit =>
    rcases consumeOverride_tables (Except.ok.inj ran) with ⟨-, rfl⟩ | ⟨_, -, -, -, entry, rfl⟩
    · exact formed
    · refine formed.of_columns ⟨rfl, rfl, rfl, ?_, rfl⟩
      exact map_if_column (fun row => appliedOverride row at_ key) (fun _ => rfl) _
  | reconcileOverrides at_ audit =>
    cases ran
    refine formed.of_columns ⟨rfl, rfl, rfl, ?_, rfl⟩
    exact map_if_column (fun row => reconciledOverride row at_ "expired") (fun _ => rfl) _
  | insertPending spec =>
    obtain ⟨missing, row, rfl, rfl⟩ := run_insertPending ran
    refine ⟨formed.accountIds, formed.strippedIds, formed.orderIds, formed.orderKeys,
      formed.overrideIds, nodup_append_new _ formed.pendingIds fun present => ?_⟩
    obtain ⟨old, member, same⟩ := List.mem_map.mp present
    have absent := List.find?_eq_none.mp missing old member
    simp only [decide_eq_true_eq] at absent
    exact absent same
  | fillPendingEntry orderId entry =>
    cases ran
    refine formed.of_columns ⟨rfl, rfl, rfl, rfl, ?_⟩
    exact map_if_column (fun row : PendingOrder => { row with entry := some entry }) (fun _ => rfl) _
  | approvePending orderId => exact transition_wellFormed formed rfl ran
  | rejectPending orderId => exact transition_wellFormed formed rfl ran
  | claimPending orderId at_ => exact transition_wellFormed formed rfl ran
  | completePending orderId executed => exact transition_wellFormed formed rfl ran
  | failPending orderId status code text => exact transition_wellFormed formed rfl ran
  | appendAudit entry => cases ran; exact formed.of_columns (SameColumns.record db _)

end Rasat
