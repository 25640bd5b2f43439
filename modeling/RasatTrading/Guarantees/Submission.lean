import RasatTrading.Guarantees.Rows

/-! Each account and key is submitted at most once, and only after its row is stored. -/

namespace Rasat

open Coop

variable (svc : Service)

/-- The account at which a broker call places an order. -/
def BrokerCall.places : BrokerCall → Option String
  | .placeOrder order => some order.accountId
  | .placeOco order => some order.accountId
  | _ => none

/-- The account and stripped key for which a task is waiting on a placing call. -/
def sending (s : State) (task : Nat) : Option (String × String) :=
  match s.tasks task with
  | some (.ask (.broker call) _) =>
    call.places.bind fun accountId => ((s.calls task).bind Call.key).map fun key => (accountId, key)
  | _ => none

/-- How many placing calls for this account and key a list of moves makes: a coroutine makes the
call in the same move that brings it to the wait for the answer. -/
def submissions (pair : String × String) : State → List (Move Choice Call) → Nat
  | _, [] => 0
  | s, move :: rest =>
    match (machine svc).step s move with
    | none => 0
    | some after =>
      (if sending after (Machine.mover s move) = some pair then 1 else 0) + submissions pair after rest

/-- An order of this account and key is stored. -/
def Stored (db : Database) (pair : String × String) : Prop :=
  ∃ row ∈ db.orders, row.accountId = pair.1 ∧ row.idempotencyKey = pair.2

variable {svc} {db : Database} {s after : State} {pair : String × String}

/-- A task at a placing call has just committed the row of its account and key. -/
theorem sending_armed {calm : Prop} {task : Nat} (represented : (custodySimulation svc.text calm).Represented s)
    (placing : sending s task = some pair) :
    ∃ draft audit row rest, s.hist task = ⟨.write (.insertOrder draft false audit), .ok row⟩ :: rest ∧
      draft.accountId = pair.1 ∧ draft.idempotencyKey = pair.2 := by
  unfold sending at placing
  split at placing
  case h_2 => cases placing
  case h_1 call next running =>
  obtain ⟨accountId, placed, keyed⟩ := Option.bind_eq_some_iff.mp placing
  obtain ⟨key, named, rfl⟩ := Option.map_eq_some_iff.mp keyed
  obtain ⟨known, truth, -, -, permitted⟩ := asking_permitted represented running
  -- Either placing call needs a newest event that is the insertion.
  have armed : ∃ row, Armed known accountId row := by
    cases call with
    | placeOrder order =>
      cases placed
      obtain ⟨-, row, armed, -⟩ := permitted
      exact ⟨row, armed⟩
    | placeOco order =>
      cases placed
      obtain ⟨-, row, armed⟩ := permitted
      exact ⟨row, armed⟩
    | _ => cases placed
  obtain ⟨row, draft, audit, rest, newest, owner, keys⟩ := armed
  refine ⟨draft, audit, row, rest, truth.hist ▸ newest, owner, keys key ?_⟩
  rw [truth.call]
  exact named

/-- Once stored, an order stays stored. -/
theorem Stored.step {calm : Prop} {move : Move Choice Call} (stored : Stored s.world.db pair)
    (represented : (custodySimulation svc.text calm).Represented s)
    (stepped : (machine svc).step s move = some after) : Stored after.world.db pair := by
  obtain ⟨row, member, owner, key⟩ := stored
  obtain ⟨later, member', late⟩ := step_rowsLater represented stepped row member
  exact ⟨later, member', by rw [late.draft]; exact owner, by rw [late.draft]; exact key⟩

/-- A move that makes a placing call is the insertion of its row, which was not stored before. -/
theorem step_submits {calm : Prop} {move : Move Choice Call}
    (represented : (custodySimulation svc.text calm).Represented s)
    (represented' : (custodySimulation svc.text calm).Represented after)
    (stepped : (machine svc).step s move = some after)
    (placing : sending after (Machine.mover s move) = some pair) :
    ¬Stored s.world.db pair ∧ Stored after.world.db pair := by
  obtain ⟨draft, audit, row, rest, newest, owner, key⟩ := sending_armed represented' placing
  obtain ⟨task, choice, next, world, rfl, running, performed, rfl⟩ :=
    step_mover represented.orderly stepped newest
  obtain ⟨shape, joined⟩ := Tx.run_insertOrder (perform_write performed)
  have own : row.accountId = pair.1 := by rw [shape]; exact owner
  have named : row.idempotencyKey = pair.2 := by rw [shape]; exact key
  refine ⟨fun ⟨old, member, same⟩ => joined.key old member ?_, row, ?_, own, named⟩
  · rw [own, named]
    exact same
  · rw [show (s.answered task _ next _ world).world.db.orders = _ from joined.orders]
    exact List.mem_append_right _ (List.mem_singleton_self _)

/-- For a stored order nothing is submitted any more. -/
theorem submissions_stored {moves : List (Move Choice Call)}
    (represented : (custodySimulation svc.text False).Represented s)
    (stored : Stored s.world.db pair) : submissions svc pair s moves = 0 := by
  induction moves generalizing s with
  | nil => rfl
  | cons move rest ih =>
    cases stepped : (machine svc).step s move with
    | none => simp [submissions, stepped]
    | some after =>
      have represented' := custody_sound.step represented False.elim stepped
      have quiet : sending after (Machine.mover s move) ≠ some pair := fun placing =>
        (step_submits represented represented' stepped placing).1 stored
      simp [submissions, stepped, quiet, ih represented' (stored.step represented stepped)]

/-- At most one placing call is made on the way from any represented state. -/
theorem submissions_le_one {moves : List (Move Choice Call)}
    (represented : (custodySimulation svc.text False).Represented s) :
    submissions svc pair s moves ≤ 1 := by
  induction moves generalizing s with
  | nil => exact Nat.zero_le 1
  | cons move rest ih =>
    cases stepped : (machine svc).step s move with
    | none => simp [submissions, stepped]
    | some after =>
      have represented' := custody_sound.step represented False.elim stepped
      simp only [submissions, stepped]
      split
      · -- The call was made right now, and from here on its row is stored.
        rename_i placing
        have stored := (step_submits represented represented' stepped placing).2
        simp [submissions_stored represented' stored]
      · simpa using ih represented'

/-- Over every run at most one order is placed for an account and key, and while a placing call is
made its row is stored. -/
theorem submitted_at_most_once {moves : List (Move Choice Call)} (formed : db.WellFormed)
    (ran : (machine svc).run (started svc db) moves = some s) (pair : String × String) :
    submissions svc pair (started svc db) moves ≤ 1 ∧
      ∀ task, sending s task = some pair → Stored s.world.db pair := by
  have reached : Reached svc db s := reached_of_run ran
  refine ⟨submissions_le_one (started_represented formed), fun task placing => ?_⟩
  -- The row that the task inserted just before is still stored.
  obtain ⟨draft, audit, row, rest, newest, owner, key⟩ :=
    sending_armed (reached.represented formed) placing
  have listed := mem_trace_of_hist (newest ▸ List.mem_cons_self)
  obtain ⟨shape, later, member, late⟩ := reached.insertedStored formed _ _ _ _ _ listed
  have columns : later.toOrderDraft = draft := by rw [late.draft, shape]; rfl
  exact ⟨later, member, by rw [columns]; exact owner, by rw [columns]; exact key⟩

/-- A buy that a crash cuts off while it is being placed, and its retry after the restart. -/
def cutOffBuy : List (Move Choice Call) :=
  booted ++ .open (.placeOrder buyOne) :: answers 1 (List.replicate 12 calmDay) ++
    .crash :: answers 2 (List.replicate 8 {}) ++
    .open (.placeOrder buyOne) :: answers 3 (List.replicate 5 calmDay)

theorem cutOffBuy_submitted_once :
    submissions demo ("main", "k") (started demo shop) cutOffBuy = 1 ∧
      ∃ s, (machine demo).run (started demo shop) cutOffBuy = some s ∧
        submissions demo ("main", "k") (started demo shop) cutOffBuy ≤ 1 ∧
        ∀ task, sending s task = some ("main", "k") → Stored s.world.db ("main", "k") := by
  refine ⟨by decide +kernel, ?_⟩
  have passes : ((machine demo).run (started demo shop) cutOffBuy).any fun _ => true := by
    decide +kernel
  obtain ⟨s, ran, -⟩ := run_end passes
  exact ⟨s, ran, submitted_at_most_once shop_wellFormed ran ("main", "k")⟩

end Rasat
