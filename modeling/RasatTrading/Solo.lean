import RasatTrading.Coop.Crash
import RasatTrading.Guarantees.Runs

/-! Calls that run by themselves: the tables that they work on, and what they are answered. -/

namespace Rasat

open Coop Prog

/-- A call that runs by itself: the tables, what the environment does at its next requests, and what it
has heard, newest first. -/
structure Solo where
  db : Database
  script : List Choice := []
  heard : History := []

/-- Serve the next request by the script; every lock is free when it is asked for. -/
def Solo.serve : Server Req Req.Ans Exc Solo := fun request solo =>
  match perform { db := solo.db } 0 request (solo.script.headD {}) with
  | some (answer, world) =>
    (answer, { db := world.db, script := solo.script.tail, heard := ⟨request, answer⟩ :: solo.heard })
  | none => (.error (.other "blocked"), solo)

/-- The logic of calls that run by themselves: the whole state is known. -/
abbrev solo : Discipline Req Req.Ans Exc Solo := servedBy Solo.serve

/-- Requests of a call itself, which leave the rows of orders as they are. -/
def SparesOrders : Req → Prop
  | .write (.insertOrder _ _ _) | .write (.updateOrder _ _ _) | .orderService _ => False
  | _ => True

/-- What a call under the lock of an account keeps: well-formed tables and the orders of other accounts. -/
structure Keeps (id : String) (before after : Database) : Prop where
  formed : after.WellFormed
  others : ∀ row ∈ before.orders, row.accountId ≠ id → row ∈ after.orders

variable {s after : Solo} {id : String}

theorem Keeps.refl {db : Database} (formed : db.WellFormed) : Keeps id db db :=
  ⟨formed, fun _ member _ => member⟩

theorem Keeps.trans {first second third : Database} (kept : Keeps id first second)
    (kept' : Keeps id second third) : Keeps id first third :=
  ⟨kept'.formed, fun row member other => kept'.others row (kept.others row member other) other⟩

/-- Unchanged rows are kept. -/
theorem Keeps.of_orders {before after : Database} (formed : after.WellFormed)
    (same : after.orders = before.orders) : Keeps id before after :=
  ⟨formed, fun _ member _ => same ▸ member⟩

namespace Solo

variable {request : Req} {answer : Except Exc request.Ans}

/-- A served request is performed on the tables, and heard. -/
theorem serve_eq (served : serve request s = (answer, after)) :
    after.heard = ⟨request, answer⟩ :: s.heard ∧
      ∃ world, perform { db := s.db } 0 request (s.script.headD {}) = some (answer, world) ∧
        after.db = world.db := by
  unfold serve at served
  split at served
  · rename_i reply world performed
    cases served
    exact ⟨rfl, world, performed, rfl⟩
  · -- Nobody else holds a lock, so nothing ever waits.
    rename_i waits
    cases request <;> simp [perform] at waits
    split at waits <;> cases waits

theorem serve_heard (served : serve request s = (answer, after)) : after.heard = ⟨request, answer⟩ :: s.heard :=
  (serve_eq served).1

/-- The tables after a request: a committed transaction is all that changes them. -/
theorem serve_db (direct : ∀ args, request ≠ .orderService args) (served : serve request s = (answer, after)) :
    after.db = s.db ∨ ∃ tx, ∃ committed : tx.Ans, ∃ choice : Choice,
      (⟨request, answer⟩ : Event Req Req.Ans Exc) = ⟨.write tx, .ok committed⟩ ∧
        tx.run s.db choice.now choice.uuid = .ok (committed, after.db) := by
  obtain ⟨-, world, performed, same⟩ := serve_eq served
  rw [same]
  obtain kept | ⟨tx, committed, event, ran⟩ := perform_db direct performed
  · exact .inl kept
  · exact .inr ⟨tx, committed, _, event, ran⟩

/-- A committed transaction ran on the tables. -/
theorem serve_write {tx : Tx} {committed : tx.Ans} (served : serve (.write tx) s = (.ok committed, after)) :
    ∃ choice : Choice, tx.run s.db choice.now choice.uuid = .ok (committed, after.db) := by
  obtain ⟨-, world, performed, same⟩ := serve_eq served
  exact ⟨_, same ▸ perform_write performed⟩

/-- A read is answered from the tables and leaves them as they are. -/
theorem serve_read {query : Query} {found : query.Ans} (served : serve (.read query) s = (.ok found, after)) :
    after.db = s.db ∧ ∃ pick, found = query.run s.db pick := by
  obtain ⟨-, world, performed, same⟩ := serve_eq served
  simp only [perform] at performed
  split at performed
  · cases performed
  · cases performed
    exact ⟨same, _, rfl⟩

theorem serve_wellFormed (direct : ∀ args, request ≠ .orderService args) (formed : s.db.WellFormed)
    (served : serve request s = (answer, after)) : after.db.WellFormed := by
  -- The tables change by a committed transaction or not at all.
  obtain kept | ⟨tx, committed, choice, -, ran⟩ := serve_db direct served
  · rw [kept]
    exact formed
  · exact Tx.run_wellFormed formed ran

/-- An error changes nothing. -/
theorem serve_error {raised : Exc} (direct : ∀ args, request ≠ .orderService args)
    (served : serve request s = (.error raised, after)) : after.db = s.db := by
  obtain kept | ⟨tx, committed, choice, event, -⟩ := serve_db direct served
  · exact kept
  · cases event

theorem sparesOrders_direct (spares : SparesOrders request) : ∀ args, request ≠ .orderService args := by
  rintro args rfl
  exact spares

/-- What is no write of an order leaves the orders as they are. -/
theorem serve_orders (spares : SparesOrders request)
    (served : serve request s = (answer, after)) : after.db.orders = s.db.orders := by
  obtain kept | ⟨tx, committed, choice, event, ran⟩ := serve_db (sparesOrders_direct spares) served
  · rw [kept]
  · -- Only insertions and updates touch the rows of orders.
    cases event
    refine (Tx.run_frame ran).orders ?_
    cases tx <;> first | rfl | exact absurd spares id

/-- An insertion adds its row. -/
theorem serve_insert {draft : OrderDraft} {simulated : Bool} {audit : Option AuditEntry} {row : Order}
    (formed : s.db.WellFormed)
    (served : serve (.write (.insertOrder draft simulated audit)) s = (.ok row, after)) :
    (∃ orderId now, row = newOrder draft simulated orderId now) ∧ row ∈ after.db.orders ∧
      Keeps id s.db after.db := by
  obtain ⟨choice, ran⟩ := serve_write served
  obtain ⟨shape, joined⟩ := Tx.run_insertOrder ran
  refine ⟨⟨_, _, shape⟩, ?_, Tx.run_wellFormed formed ran, fun old member _ => ?_⟩
  · rw [joined.orders]
    exact List.mem_append_right _ (List.mem_singleton_self _)
  · rw [joined.orders]
    exact List.mem_append_left _ member

/-- An update changes its row. -/
theorem serve_update {row : Order} {update : OrderUpdate} {audit : Option AuditEntry}
    (formed : s.db.WellFormed) (member : row ∈ s.db.orders)
    (served : serve (.write (.updateOrder row.orderId update audit)) s = (.ok (), after)) :
    row.apply update ∈ after.db.orders ∧ Keeps row.accountId s.db after.db := by
  obtain ⟨choice, ran⟩ := serve_write served
  have orders : after.db.orders = updateRows row.orderId update s.db.orders := by
    rw [Tx.run_updateOrder ran]
    rfl
  -- A row of another account has another order id.
  refine ⟨?_, Tx.run_wellFormed formed ran, fun old older away => ?_⟩
  · rw [orders]
    exact mem_updateRows.mpr ⟨row, member, by rw [if_pos rfl]⟩
  · rw [orders]
    refine mem_updateRows_other older fun same => away ?_
    rw [eq_of_orderId formed.orderIds older member same]

end Solo

end Rasat
