import RasatTrading.Guarantees.Runs

/-! The orders table over whole runs: ended orders stay as they are and rows are never lost. -/

namespace Rasat

open Coop

variable {svc : Service} {db : Database} {s after : State}

/-- The states in which an order has ended. -/
def endedStatuses : List OrderStatus :=
  [.exchange .filled, .exchange .canceled, .exchange .rejected, .exchange .expired, .paper]

/-- An order has ended exactly when it is not open. -/
theorem mem_endedStatuses {status : OrderStatus} : status ∈ endedStatuses ↔ status.isOpen = false := by
  cases status with
  | paper => simp [endedStatuses, OrderStatus.isOpen]
  | exchange inner => cases inner <;> simp [endedStatuses, OrderStatus.isOpen, ExchangeStatus.isOpen]

/-- A later form of a row: its inserted columns are the same, and so is the rest once it has ended. -/
structure LaterRow (row later : Order) : Prop where
  orderId : later.orderId = row.orderId
  draft : later.toOrderDraft = row.toOrderDraft
  created : later.createdAt = row.createdAt
  ended : row.status.isOpen = false → later = row

/-- Every row of an orders table has a later form in another one. -/
def RowsLater (rows later : List Order) : Prop := ∀ row ∈ rows, ∃ row' ∈ later, LaterRow row row'

theorem LaterRow.refl (row : Order) : LaterRow row row := ⟨rfl, rfl, rfl, fun _ => rfl⟩

theorem LaterRow.trans {row middle later : Order} (first : LaterRow row middle)
    (second : LaterRow middle later) : LaterRow row later where
  orderId := second.orderId.trans first.orderId
  draft := second.draft.trans first.draft
  created := second.created.trans first.created
  ended := by
    intro ended
    have same := first.ended ended
    rw [second.ended (same ▸ ended), same]

theorem RowsLater.refl (rows : List Order) : RowsLater rows rows :=
  fun row member => ⟨row, member, .refl row⟩

theorem RowsLater.trans {rows middle later : List Order} (first : RowsLater rows middle)
    (second : RowsLater middle later) : RowsLater rows later := by
  intro row member
  obtain ⟨row', member', early⟩ := first row member
  obtain ⟨row'', member'', late⟩ := second row' member'
  exact ⟨row'', member'', early.trans late⟩

/-- An update of an open row leaves a later form of every row. -/
theorem rowsLater_update {rows : List Order} {row : Order} (ids : (rows.map Order.orderId).Nodup)
    (member : row ∈ rows) (pending : row.status.isOpen) (change : OrderUpdate) :
    RowsLater rows (updateRows row.orderId change rows) := by
  intro old listed
  by_cases same : old.orderId = row.orderId
  · -- Only the updated row has this id, and it was open.
    obtain rfl := eq_of_orderId ids listed member same
    refine ⟨old.apply change, mem_updateRows.mpr ⟨old, listed, by simp⟩, rfl, rfl, rfl, ?_⟩
    intro ended
    rw [pending] at ended
    cases ended
  · exact ⟨old, mem_updateRows_other listed same, .refl old⟩

/-- One move of the daemon only makes rows later. -/
theorem step_rowsLater {calm : Prop} {move : Move Choice Call}
    (represented : (custodySimulation svc.text calm).Represented s)
    (stepped : (machine svc).step s move = some after) :
    RowsLater s.world.db.orders after.world.db.orders := by
  cases step_orders represented stepped with
  | same orders => rw [orders]; exact .refl _
  | inserted task known draft simulated audit row next world truth permitted shape joined moved =>
    rw [joined.orders]
    exact fun old listed => ⟨old, List.mem_append_left _ listed, .refl old⟩
  | updated task known row change audit next world truth member pending cancels orders moved =>
    rw [orders]
    exact rowsLater_update represented.inv.formed.orderIds member pending change

/-- A run of the daemon only makes rows later. -/
theorem steps_rowsLater {calm : Prop} (represented : (custodySimulation svc.text calm).Represented s)
    (steps : (machine svc).Steps (Calm calm) s after) :
    RowsLater s.world.db.orders after.world.db.orders :=
  custody_sound.evolves (fun before later => RowsLater before.world.db.orders later.world.db.orders)
    (fun s => RowsLater.refl s.world.db.orders) RowsLater.trans
    (fun _ _ _ represented _ stepped => step_rowsLater represented stepped) represented steps

/-- Every row that a task was given when it inserted it is stored, in a later form. -/
def InsertedStored (s : State) : Prop :=
  ∀ task draft simulated audit row,
    Entry.answered task ⟨.write (.insertOrder draft simulated audit), .ok row⟩ ∈ s.trace →
      row = newOrder draft simulated row.orderId row.createdAt ∧
        ∃ later ∈ s.world.db.orders, LaterRow row later

theorem Reached.insertedStored (reached : Reached svc db s) (formed : db.WellFormed) : InsertedStored s := by
  refine reached.invariant InsertedStored formed (fun _ _ _ _ _ member => nomatch member) ?_
  rintro s move after represented stepped before task draft simulated audit row member
  rcases step_answered stepped member with old | ⟨choice, next, world, -, -, performed, rfl⟩
  · -- An older row is stored in a later form, which the move only makes later.
    obtain ⟨shape, kept, stored, late⟩ := before task draft simulated audit row old
    obtain ⟨later, stored', later'⟩ := step_rowsLater represented stepped kept stored
    exact ⟨shape, later, stored', late.trans later'⟩
  · obtain ⟨shape, joined⟩ := Tx.run_insertOrder (perform_write performed)
    refine ⟨by rw [shape]; rfl, row, ?_, .refl row⟩
    rw [show (s.answered task _ next _ world).world.db.orders = _ from joined.orders]
    exact List.mem_append_right _ (List.mem_singleton_self _)

/-- From any reachable state on, no row is lost, its inserted columns never change, an ended order
never changes at all, and no two rows share an account and key. -/
theorem ended_orders_absorbing (formed : db.WellFormed) (reached : Reached svc db s)
    (steps : (machine svc).Steps (fun _ _ => True) s after) :
    (after.world.db.orders.map fun row => (row.accountId, row.idempotencyKey)).Nodup ∧
      ∀ row ∈ s.world.db.orders, ∃ later ∈ after.world.db.orders,
        later.orderId = row.orderId ∧ later.toOrderDraft = row.toOrderDraft ∧
          (row.status ∈ endedStatuses → later = row) := by
  have represented := reached.represented formed
  have calm : (machine svc).Steps (Calm False) s after :=
    Machine.Steps.mono (fun _ _ _ => False.elim) steps
  refine ⟨(custody_sound.represented represented calm).inv.formed.orderKeys, fun row member => ?_⟩
  obtain ⟨later, stored, late⟩ := steps_rowsLater represented calm row member
  exact ⟨later, stored, late.orderId, late.draft, fun ended => late.ended (mem_endedStatuses.mp ended)⟩

/-- A buy that the broker fills at once. -/
def filledBuy : List (Move Choice Call) :=
  booted ++ .open (.placeOrder buyOne) ::
    answers 1 (List.replicate 14 { calmDay with order := { status := .filled, executedQty := 1 } })

/-- A crash and the startup after it. -/
def restarted : List (Move Choice Call) := .crash :: answers 2 (List.replicate 6 {})

/-- The filled order of a shop stays filled through a restart and another startup. -/
theorem filled_order_kept :
    ∃ s after, (machine demo).run (started demo shop) filledBuy = some s ∧
      (machine demo).run s restarted = some after ∧
      (after.world.db.orders.map fun row => (row.accountId, row.idempotencyKey)).Nodup ∧
      ∀ row ∈ s.world.db.orders, ∃ later ∈ after.world.db.orders,
        later.orderId = row.orderId ∧ later.toOrderDraft = row.toOrderDraft ∧
          (row.status ∈ endedStatuses → later = row) := by
  have passes : ((machine demo).run (started demo shop) filledBuy).any fun s =>
      ((machine demo).run s restarted).isSome && s.world.db.orders.any fun row =>
        row.status = .exchange .filled := by decide +kernel
  obtain ⟨s, ran, checked⟩ := run_end passes
  obtain ⟨after, ran'⟩ := Option.isSome_iff_exists.mp (Bool.and_eq_true_iff.mp checked).1
  exact ⟨s, after, ran, ran', ended_orders_absorbing shop_wellFormed (reached_of_run ran)
    (Machine.run_steps ran')⟩

end Rasat
