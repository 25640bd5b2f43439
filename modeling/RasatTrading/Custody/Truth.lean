import RasatTrading.Custody.Programs
import RasatTrading.Custody.Tables

/-! What tasks know is true of the running daemon: the simulation between knowledge and world. -/

namespace Rasat

open Coop

/-- The boot task has not finished yet. -/
def Booting (s : State) : Prop := ∀ value, s.tasks s.booter ≠ some (.done value)

/-- The view of a task is what the world holds for it: all rows without a lock, or those of the
account whose lock it has. -/
def Holds (world : World) (task : Nat) : Option View → Prop
  | none => ∀ accountId, world.locks accountId ≠ some task
  | some ⟨none, rows⟩ => (∀ accountId, world.locks accountId ≠ some task) ∧ rows = world.db.orders
  | some ⟨some accountId, rows⟩ =>
    (∀ other, world.locks other = some task ↔ other = accountId) ∧
      rows = ofAccount accountId world.db.orders

/-- The view is that of the startup. -/
def Unscoped (view : Option View) : Prop := ∃ rows, view = some ⟨none, rows⟩

/-- The knowledge of a task is true; that of the startup only as long as it runs alone. -/
structure Truth (s : State) (task : Nat) (known : Knowledge) : Prop where
  call : known.call = s.calls task
  hist : known.hist = s.hist task
  boot : Unscoped known.view → task = s.booter
  holds : (Unscoped known.view → Booting s) → Holds s.world task known.view

/-- What holds between any two moves. -/
structure Consistent (s : State) : Prop where
  formed : s.world.db.WellFormed
  /-- A lock is held by a task that is still there. -/
  owned : ∀ accountId task, s.world.locks accountId = some task → (s.tasks task).isSome

/-- A finished task holds no account. -/
def AtRest (known : Knowledge) : Prop := ∀ accountId rows, known.view ≠ some ⟨some accountId, rows⟩

/-- The move answers a lookup of an earlier close SELL in a way that leaves an open one
unaccounted for. -/
def Unsettling (s : State) : Move Choice Call → Prop
  | .resume task choice =>
    ∃ request next answer world, s.tasks task = some (.ask request next) ∧
      perform s.world task request choice = some (answer, world) ∧
      DoubtfulAnswer (s.hist task) s.world.db.orders request answer
  | _ => False

/-- In a calm run no lookup is unsettling. -/
def Calm (calm : Prop) (s : State) (move : Move Choice Call) : Prop := calm → ¬Unsettling s move

/-- The simulation between what tasks know and what is; in a calm run no task has a doubt. -/
def custodySimulation (text : Text) (calm : Prop) :
    Simulation Req Req.Ans Exc World Call Reply Knowledge where
  discipline := custody text
  inv := Consistent
  rep := fun s task known => Truth s task known ∧ (calm → ¬known.suspect)
  rest := AtRest

variable {db : Database}

section

variable {orders : List Order} {accountId : String} {scope : Option String}

theorem ofAccount_idem : ofAccount accountId (ofAccount accountId orders) = ofAccount accountId orders := by
  simp [ofAccount, List.filter_filter]

/-- Within the scope, the rows of an account are those of the whole table. -/
theorem ofAccount_select (covers : ∀ owner, scope = some owner → owner = accountId) :
    ofAccount accountId (View.select scope orders) = ofAccount accountId orders := by
  cases scope with
  | none => rfl
  | some owner =>
    rw [covers owner rfl]
    exact ofAccount_idem

/-- Loading an order only looks at the rows of its account. -/
theorem loadOrder_ofAccount (key : String) :
    loadOrder (ofAccount accountId orders) accountId key = loadOrder orders accountId key := by
  unfold loadOrder ofAccount
  rw [List.find?_filter]
  congr 1
  funext row
  by_cases own : row.accountId = accountId <;> simp [own]

/-- So does the lookup of an open close SELL. -/
theorem loadOpenClose_ofAccount (symbol : String) (pick : Nat) :
    loadOpenClose (ofAccount accountId orders) accountId symbol pick =
      loadOpenClose orders accountId symbol pick := by
  have same : (ofAccount accountId orders).filter (isOpenClose accountId symbol) =
      orders.filter (isOpenClose accountId symbol) := by
    unfold ofAccount
    rw [List.filter_filter]
    refine List.filter_congr fun row _ => ?_
    by_cases own : row.accountId = accountId <;> simp [isOpenClose, own]
  unfold loadOpenClose
  rw [same]

/-- A read within the scope gives what the rows of the view give. -/
theorem readsView_select (query : Query) (pick : Nat) :
    ReadsView ⟨scope, View.select scope db.orders⟩ query (query.run db pick) := by
  -- For each query, both sides look at the same rows of one account.
  cases query with
  | order owner key =>
    intro covers
    show loadOrder db.orders owner key = loadOrder (View.select scope db.orders) owner key
    rw [← loadOrder_ofAccount, ← ofAccount_select covers, loadOrder_ofAccount]
  | openNotional owner =>
    intro covers
    show openOrderNotional db.orders owner = openOrderNotional (View.select scope db.orders) owner
    unfold openOrderNotional
    rw [ofAccount_select covers]
  | activeOrders owner =>
    intro covers
    show activeOrders db.orders owner = activeOrders (View.select scope db.orders) owner
    unfold activeOrders
    rw [ofAccount_select covers]
  | openClose owner symbol =>
    intro covers
    refine ⟨pick, ?_⟩
    show loadOpenClose db.orders owner symbol pick =
      loadOpenClose (View.select scope db.orders) owner symbol pick
    rw [← loadOpenClose_ofAccount, ← ofAccount_select covers, loadOpenClose_ofAccount]
  | stuckOrders owners =>
    rintro unscoped
    have none : scope = none := unscoped
    subst none
    rfl
  | _ => trivial

/-- A read gives account rows under their stripped ids. -/
theorem readsTrue_run (formed : db.WellFormed) (query : Query) (pick : Nat) :
    ReadsTrue query (query.run db pick) := by
  cases query with
  | account owner =>
    intro row found
    have member := List.mem_of_find?_eq_some found
    have named := List.find?_some found
    simp only [decide_eq_true_eq] at named
    exact ⟨named, formed.strippedIds row member⟩
  | accounts =>
    intro row member
    exact formed.strippedIds row ((List.mem_insertionSort _).mp member)
  | _ => trivial

/-- The rows that a scope selects from well-formed tables are a valid view. -/
theorem select_valid (formed : db.WellFormed) : View.Valid ⟨scope, View.select scope db.orders⟩ := by
  have sub : (View.select scope db.orders).Sublist db.orders := by
    cases scope with
    | none => exact List.Sublist.refl _
    | some owner => exact List.filter_sublist
  refine ⟨(sub.map _).nodup formed.orderIds, (sub.map _).nodup formed.orderKeys, ?_⟩
  rintro row member owner rfl
  exact (by simpa using (List.mem_filter.mp member).2 : row.accountId = owner).symm

/-- An inserted row of the scope joins the rows that it selects. -/
theorem select_insert {row : Order} (covers : ∀ owner, scope = some owner → owner = row.accountId) :
    View.select scope (orders ++ [row]) = View.select scope orders ++ [row] := by
  cases scope with
  | none => rfl
  | some owner =>
    have own := covers owner rfl
    simp [View.select, ofAccount, own]

/-- An update changes the selected rows as it changes the table. -/
theorem select_update (orderId : String) (change : OrderUpdate) :
    View.select scope (updateRows orderId change orders) =
      updateRows orderId change (View.select scope orders) := by
  cases scope with
  | none => rfl
  | some owner => exact ofAccount_updateRows owner orderId change orders

end

variable {request : Req} {answer : Except Exc request.Ans}

section

variable {world after : World} {task other : Nat} {known : Knowledge} {view : Option View}

/-- What is held is what the scope selects. -/
theorem Holds.rows {scope : Option String} {rows : List Order}
    (holds : Holds world task (some ⟨scope, rows⟩)) : rows = View.select scope world.db.orders := by
  cases scope <;> exact holds.2

/-- So every row that is held is stored. -/
theorem Holds.within {held : View} {row : Order} (holds : Holds world task (some held))
    (member : row ∈ held.rows) : row ∈ world.db.orders := by
  rw [holds.rows] at member
  cases scope : held.scope with
  | none => rw [scope] at member; exact member
  | some owner => rw [scope] at member; exact (List.mem_filter.mp member).1

theorem Holds.valid {held : View} (formed : world.db.WellFormed)
    (holds : Holds world task (some held)) : held.Valid := by
  obtain ⟨scope, rows⟩ := held
  rw [holds.rows]
  exact select_valid formed

/-- A change of the orders keeps what is held, when the rows change along with the table. -/
theorem Holds.change {scope : Option String} {rows : List Order}
    (holds : Holds world task (some ⟨scope, rows⟩)) :
    Holds { world with db := db } task (some ⟨scope, View.select scope db.orders⟩) := by
  cases scope with
  | none => exact ⟨holds.1, rfl⟩
  | some owner => exact ⟨holds.1, rfl⟩

/-- A change that leaves the orders alone keeps everything that is held. -/
theorem Holds.same (holds : Holds world task view)
    (orders : db.orders = world.db.orders) : Holds { world with db := db } task view := by
  match view with
  | none => exact holds
  | some ⟨none, rows⟩ => exact ⟨holds.1, holds.2.trans orders.symm⟩
  | some ⟨some owner, rows⟩ => exact ⟨holds.1, holds.2.trans (by rw [show _ = _ from orders])⟩

/-- A change of one account's orders keeps what is held of the others. -/
theorem Holds.frame (accountId : String) (holds : Holds world other view)
    (narrow : ¬Unscoped view) (locked : world.locks accountId ≠ some other)
    (elsewhere : ∀ owner, owner ≠ accountId → ofAccount owner db.orders = ofAccount owner world.db.orders) :
    Holds { world with db := db } other view := by
  match view with
  | none => exact holds
  | some ⟨none, rows⟩ => exact absurd ⟨rows, rfl⟩ narrow
  | some ⟨some owner, rows⟩ =>
    refine ⟨holds.1, holds.2.trans (elsewhere owner ?_).symm⟩
    rintro rfl
    exact locked ((holds.1 owner).mpr rfl)

/-- Behind a change of one lock, a lock has its new holder or the one that it had. -/
theorem held_relocked {locks : String → Option Nat} {accountId owner : String} {new : Option Nat} {holder : Nat}
    (held : Function.update locks accountId new owner = some holder) :
    (owner = accountId ∧ new = some holder) ∨ (owner ≠ accountId ∧ locks owner = some holder) := by
  by_cases same : owner = accountId
  · subst same
    rw [Function.update_self] at held
    exact .inl ⟨rfl, held⟩
  · rw [Function.update_of_ne same] at held
    exact .inr ⟨same, held⟩

/-- A change of a lock that a task has neither before nor behind it keeps what the task holds. -/
theorem Holds.relock {accountId : String} {new : Option Nat} (holds : Holds world other view)
    (narrow : ¬Unscoped view) (before : world.locks accountId ≠ some other) (behind : new ≠ some other) :
    Holds { world with locks := Function.update world.locks accountId new } other view := by
  have untouched : ∀ owner, Function.update world.locks accountId new owner = some other ↔
      world.locks owner = some other := by
    intro owner
    by_cases same : owner = accountId
    · simp [same, before, behind]
    · rw [Function.update_of_ne same]
  match view with
  | none => exact fun owner held => holds owner ((untouched owner).mp held)
  | some ⟨none, rows⟩ => exact absurd ⟨rows, rfl⟩ narrow
  | some ⟨some mine, rows⟩ => exact ⟨fun owner => (untouched owner).trans (holds.1 owner), holds.2⟩

/-- What serving a request does: to the asking task's view, and not to those of the others. -/
structure Served (world : World) (task : Nat) (known : Knowledge) (request : Req)
    (answer : Except Exc request.Ans) (after : World) : Prop where
  formed : after.db.WellFormed
  locks : ∀ accountId holder, after.locks accountId = some holder →
    holder = task ∨ world.locks accountId = some holder
  own : ∃ view, ViewStep known.view request answer view ∧ Holds after task view ∧
    (Unscoped view → Unscoped known.view)
  frame : ∀ other view, other ≠ task → ¬Unscoped known.view → ¬Unscoped view →
    Holds world other view → Holds after other view

/-- A request that leaves world and view alone. -/
theorem Served.quiet (formed : world.db.WellFormed)
    (holds : Holds world task known.view) (step : ViewStep known.view request answer known.view) :
    Served world task known request answer world where
  formed := formed
  locks := fun _ _ held => .inr held
  own := ⟨known.view, step, holds, id⟩
  frame := fun _ _ _ _ _ kept => kept

/-- A transaction that failed leaves world and view alone, whatever it was. -/
theorem ViewStep.failed {tx : Tx} {raised : Exc} (view : Option View) :
    ViewStep view (.write tx) (.error raised) view := by
  cases tx <;> rfl

/-- So does a transaction on other tables, as far as orders are concerned. -/
theorem ViewStep.elsewhere {tx : Tx} {answer : tx.Ans} (quiet : tx.writes .orders = false)
    (view : Option View) : ViewStep view (.write tx) (.ok answer) view := by
  cases tx <;> first | rfl | cases quiet

/-- An update of a row in custody changes the rows of its account only. -/
theorem ofAccount_update_elsewhere {orders : List Order} {row : Order} {owner : String}
    {change : OrderUpdate} (ids : (orders.map Order.orderId).Nodup) (member : row ∈ orders)
    (differ : owner ≠ row.accountId) :
    ofAccount owner (updateRows row.orderId change orders) = ofAccount owner orders := by
  rw [ofAccount_updateRows]
  refine updateRows_absent fun old listed same => differ ?_
  obtain ⟨stored, own⟩ := List.mem_filter.mp listed
  -- A row with the same id would be the updated row itself.
  have equal := eq_of_orderId ids stored member same
  simpa [equal, eq_comm] using own

/-- A committed transaction serves its task. -/
theorem commit_served {text : Text} {tx : Tx} {answer : tx.Ans} {now : Int}
    {uuid : Nat} (formed : world.db.WellFormed) (holds : Holds world task known.view)
    (permitted : Permits text known (.write tx)) (ran : tx.run world.db now uuid = .ok (answer, db)) :
    Served world task known (.write tx) (.ok answer) { world with db := db } := by
  have formed' := Tx.run_wellFormed formed ran
  by_cases quiet : tx.writes .orders = false
  · have orders := (Tx.run_frame ran).orders quiet
    exact ⟨formed', fun _ _ held => .inr held,
      ⟨known.view, ViewStep.elsewhere quiet _, holds.same orders, id⟩,
      fun _ _ _ _ _ kept => kept.same orders⟩
  cases tx with
  | insertOrder draft simulated audit =>
    -- The row joins the rows of the account whose lock the task has.
    obtain ⟨⟨rows, view⟩, -⟩ := permitted
    obtain ⟨shape, inserted⟩ := Tx.run_insertOrder ran
    rw [view] at holds
    have owner : answer.accountId = draft.accountId := by rw [shape]; rfl
    have select : View.select (some draft.accountId) db.orders = rows ++ [answer] := by
      rw [inserted.orders, select_insert (by rintro _ ⟨⟩; exact owner.symm), holds.rows]
    refine ⟨formed', fun _ _ held => .inr held,
      ⟨some ⟨some draft.accountId, rows ++ [answer]⟩, ⟨?_, fun held same member => ?_, ?_⟩, ?_, ?_⟩, ?_⟩
    · rw [shape]; rfl
    · rw [view] at same
      cases same
      have sub : rows.Sublist world.db.orders := by rw [holds.rows]; exact List.filter_sublist
      exact inserted.id ((sub.map _).subset member)
    · rw [view]; rfl
    · exact select ▸ holds.change
    · rintro ⟨_, impossible⟩; cases impossible
    · intro other view' differ _ narrow kept
      refine kept.frame draft.accountId narrow (fun locked => differ ?_) fun owner' away => ?_
      · exact Option.some.inj (locked.symm.trans ((holds.1 _).mpr rfl))
      · rw [inserted.orders]
        simp [ofAccount, owner, Ne.symm away]
  | updateOrder orderId change audit =>
    obtain ⟨⟨scope, rows⟩, row, view, member, rfl, -⟩ := permitted
    rw [view] at holds
    have orders : db.orders = updateRows row.orderId change world.db.orders := by
      rw [Tx.run_updateOrder ran]
      rfl
    have select : View.select scope db.orders = updateRows row.orderId change rows := by
      rw [orders, select_update, holds.rows]
    refine ⟨formed', fun _ _ held => .inr held,
      ⟨some ⟨scope, updateRows row.orderId change rows⟩, ?_, ?_, ?_⟩, ?_⟩
    · show _ = known.view.map (View.update row.orderId change)
      rw [view]
      rfl
    · exact select ▸ holds.change
    · rintro ⟨_, same⟩
      cases same
      exact ⟨rows, view⟩
    · intro other view' differ unscoped narrow kept
      cases scope with
      | none => exact absurd ⟨rows, view⟩ unscoped
      | some accountId =>
        have stored : row ∈ world.db.orders ∧ row.accountId = accountId := by
          rw [holds.rows] at member
          simpa [View.select, ofAccount] using member
        refine kept.frame accountId narrow (fun locked => differ ?_) fun owner away => ?_
        · exact Option.some.inj (locked.symm.trans ((holds.1 _).mpr rfl))
        · rw [orders]
          exact ofAccount_update_elsewhere formed.orderIds stored.1 (stored.2 ▸ away)
  | _ => exact absurd rfl quiet

/-- A free lock goes to a task that has no other. -/
theorem lock_served {accountId : String} (formed : world.db.WellFormed) (holds : Holds world task known.view)
    (free : known.view = none) (unlocked : world.locks accountId = none) :
    Served world task known (.lock accountId) (.ok ())
      { world with locks := Function.update world.locks accountId (some task) } := by
  rw [free] at holds
  refine ⟨formed, fun owner holder held => ?_, ⟨_, ⟨_, rfl⟩, ⟨fun owner => ?_, rfl⟩, ?_⟩, ?_⟩
  · rcases held_relocked held with ⟨-, new⟩ | ⟨-, old⟩
    · exact .inl (Option.some.inj new).symm
    · exact .inr old
  · by_cases same : owner = accountId
    · simp [same]
    · simp [same, holds owner]
  · rintro ⟨_, impossible⟩; cases impossible
  · intro other view differ _ narrow kept
    exact kept.relock narrow (by simp [unlocked]) (by simp [Ne.symm differ])

/-- A task that gives its lock back holds nothing. -/
theorem unlock_served {accountId : String} {rows : List Order} (formed : world.db.WellFormed)
    (holds : Holds world task known.view) (view : known.view = some ⟨some accountId, rows⟩) :
    Served world task known (.unlock accountId) (.ok ())
      { world with locks := Function.update world.locks accountId none } := by
  rw [view] at holds
  have own : world.locks accountId = some task := (holds.1 accountId).mpr rfl
  refine ⟨formed, fun owner holder held => ?_, ⟨none, rfl, fun owner held => ?_, ?_⟩, ?_⟩
  · rcases held_relocked held with ⟨-, new⟩ | ⟨-, old⟩
    · cases new
    · exact .inr old
  · -- This task had no lock but the one it gave back.
    rcases held_relocked held with ⟨-, new⟩ | ⟨differs, old⟩
    · cases new
    · exact differs ((holds.1 owner).mp old)
  · rintro ⟨_, impossible⟩; cases impossible
  · intro other view' differ _ narrow kept
    exact kept.relock narrow (by simp [own, Ne.symm differ]) (by simp)

/-- Whatever the daemon serves under the discipline, custody stays true. -/
theorem perform_served {text : Text} {choice : Choice} (formed : world.db.WellFormed)
    (holds : Holds world task known.view) (permitted : Permits text known request)
    (performed : perform world task request choice = some (answer, after)) :
    Served world task known request answer after := by
  -- Locks and transactions change what is held; everything else leaves world and view alone.
  cases request with
  | lock accountId =>
    simp only [perform] at performed
    cases locked : world.locks accountId with
    | some holder => rw [locked] at performed; cases performed
    | none =>
      rw [locked] at performed
      cases performed
      exact lock_served formed holds permitted locked
  | unlock accountId =>
    obtain ⟨rows, view⟩ := permitted
    cases performed
    exact unlock_served formed holds view
  | read query =>
    simp only [perform] at performed
    cases fault : choice.dbFault with
    | some text => rw [fault] at performed; cases performed; exact .quiet formed holds rfl
    | none =>
      rw [fault] at performed
      cases performed
      refine .quiet formed holds ⟨rfl, readsTrue_run formed query _, ?_⟩
      rintro ⟨scope, rows⟩ view
      rw [view] at holds
      rw [holds.rows]
      exact readsView_select query _
  | write tx =>
    simp only [perform, commit] at performed
    cases fault : choice.dbFault with
    | some text =>
      rw [fault] at performed
      cases performed
      exact .quiet formed holds (ViewStep.failed _)
    | none =>
      simp only [fault] at performed
      cases ran : tx.run world.db choice.now choice.uuid with
      | error raised =>
        rw [ran] at performed
        cases performed
        exact .quiet formed holds (ViewStep.failed _)
      | ok result =>
        obtain ⟨committed, db⟩ := result
        rw [ran] at performed
        cases performed
        exact commit_served formed holds permitted ran
  | orderService args => exact False.elim permitted
  | broker call => cases performed; exact .quiet formed holds rfl
  | market call => cases performed; exact .quiet formed holds rfl
  | clock => cases performed; exact .quiet formed holds rfl
  | uuid => cases performed; exact .quiet formed holds rfl
  | credentials accountId => cases performed; exact .quiet formed holds rfl

end

section

variable {svc : Service} {calm : Prop} {s : State}

/-- A doubt about what a task holds is one about the table. -/
theorem Doubtful.of_holds {task : Nat} {known : Knowledge} (hist : known.hist = s.hist task)
    (holds : Holds s.world task known.view) (doubt : Doubtful known request answer) :
    DoubtfulAnswer (s.hist task) s.world.db.orders request answer := by
  have within : ∀ row ∈ known.view.elim [] View.rows, row ∈ s.world.db.orders := by
    intro row member
    cases view : known.view with
    | none => rw [view] at member; cases member
    | some held =>
      rw [view] at member holds
      exact holds.within member
  unfold Doubtful at doubt
  rw [hist] at doubt
  -- Only the lookup of an order can be doubtful.
  cases request with
  | broker call =>
    cases call with
    | queryOrder owner symbol id =>
      obtain ⟨row, rest, newest, named, doubt⟩ := doubt
      refine ⟨row, rest, newest, named, ?_⟩
      cases answer with
      | error raised => cases raised <;> exact doubt
      | ok found =>
        obtain ⟨ended, other, member, candidate, differ⟩ := doubt
        exact ⟨ended, other, within other member, candidate, differ⟩
    | _ => exact False.elim doubt
  | _ => exact False.elim doubt

/-- Two tasks can only be there when the startup is done. -/
theorem not_booting_of_two {s : State} {task other : Nat} (orderly : s.Orderly)
    (differ : other ≠ task) (first : s.tasks task ≠ none) (second : s.tasks other ≠ none) :
    ¬Booting s := by
  intro booting
  by_cases boot : task = s.booter
  · exact second (orderly.alone booting other (boot ▸ differ))
  · exact first (orderly.alone booting task boot)

/-- A task that waits for an answer holds what it knows, the startup included. -/
theorem Truth.asking {task : Nat} {known : Knowledge}
    {next : Except Exc request.Ans → Task Reply} (truth : Truth s task known)
    (running : s.tasks task = some (.ask request next)) : Holds s.world task known.view := by
  refine truth.holds fun unscoped value finished => ?_
  rw [← truth.boot unscoped, running] at finished
  cases finished

/-- The moves of the daemon keep what every task knows true. -/
theorem custody_sound : (custodySimulation svc.text calm).Sound (machine svc) (Calm calm) where
  resume := by
    rintro s task choice request next answer world known represented settled running
      ⟨truth, sure⟩ keeps performed
    have permitted : Permits svc.text known request := (Safe.ask_iff.mp keeps).1
    have holds := truth.asking running
    have served := perform_served represented.inv.formed holds permitted performed
    have orderly : (s.answered task request next answer world).Orderly :=
      Machine.answered_orderly represented.orderly running
    have present : (s.answered task request next answer world).tasks task = some (next answer) := by
      simp [Sys.answered]
    obtain ⟨view, step, now, narrowed⟩ := served.own
    refine ⟨⟨served.formed, fun accountId holder locked => ?_⟩, ?_, ?_⟩
    · -- A lock is held by this task or was held before.
      by_cases own : holder = task
      · rw [own, present]; rfl
      · have old := (served.locks accountId holder locked).resolve_left own
        have there := represented.inv.owned accountId holder old
        simpa [Sys.answered, Function.update_of_ne own] using there
    · -- The task learns the event and what became of its view.
      let learned : Knowledge := {
        call := known.call
        hist := ⟨request, answer⟩ :: known.hist
        view := view
        suspect := known.suspect ∨ Doubtful known request answer }
      have learns : Learns known request answer learned := by
        refine ⟨rfl, rfl, step, fun held same => ?_, Iff.rfl⟩
        have there : Holds world task (some held) := same ▸ now
        exact there.valid served.formed
      refine ⟨learned, learns, ⟨truth.call, ?_, fun boot => truth.boot (narrowed boot), fun _ => now⟩, ?_⟩
      · show ⟨request, answer⟩ :: known.hist = _
        rw [Sys.hist_answered_self, truth.hist]
      · rintro quiet (before | doubt)
        · exact sure quiet before
        · exact settled quiet ⟨request, next, answer, world, running, performed,
            doubt.of_holds truth.hist holds⟩
    · -- The other tasks hold what they held.
      rintro other program ghost differ found ⟨truth', sure'⟩ -
      have there : (s.answered task request next answer world).tasks other = some program := by
        simpa [Sys.answered, Function.update_of_ne differ] using found
      have late : ¬Booting (s.answered task request next answer world) :=
        not_booting_of_two orderly differ (by rw [present]; simp) (by rw [there]; simp)
      have late' : ¬Booting s :=
        not_booting_of_two represented.orderly differ (by rw [running]; simp) (by rw [found]; simp)
      have unbooted : ¬Unscoped known.view := by
        intro unscoped
        refine late' fun value finished => ?_
        rw [← truth.boot unscoped, running] at finished
        cases finished
      refine ⟨⟨truth'.call, ?_, truth'.boot, fun scoped' => ?_⟩, sure'⟩
      · rw [Sys.hist_answered_other differ]
        exact truth'.hist
      · have narrow : ¬Unscoped ghost.view := fun unscoped => late (scoped' unscoped)
        exact served.frame other ghost.view differ unbooted narrow
          (truth'.holds fun unscoped => absurd unscoped narrow)
  «open» := by
    intro s call value represented _ booted
    have unused := represented.orderly.unused s.fresh (Nat.le_refl _)
    have free : ∀ accountId, s.world.locks accountId ≠ some s.fresh := by
      intro accountId locked
      have there := represented.inv.owned accountId s.fresh locked
      rw [unused.1] at there
      cases there
    refine ⟨⟨represented.inv.formed, fun accountId holder locked => ?_⟩, ?_, ?_⟩
    · have there := represented.inv.owned accountId holder locked
      by_cases new : holder = s.fresh
      · simp [Machine.opened, new]
      · simpa [Machine.opened, Function.update_of_ne new] using there
    · -- A new call knows nothing and holds nothing.
      refine ⟨{ call := some call, hist := [], view := none, suspect := False }, ⟨?_, fun _ => id⟩, ?_⟩
      · refine ⟨by simp [Machine.opened], ?_, ?_, fun _ => free⟩
        · rw [Machine.hist_opened]
          exact unused.2.2.symm
        · rintro ⟨_, impossible⟩; cases impossible
      · refine (program_safe rfl rfl).mono fun _ g idle accountId rows held => ?_
        rw [idle.view] at held
        cases held
    · rintro other program ghost differ found ⟨truth, sure⟩ -
      have late : ¬Booting s := fun booting => booting value booted
      refine ⟨⟨?_, truth.hist, truth.boot, fun unscoped => ?_⟩, sure⟩
      · rw [truth.call]
        simp [Machine.opened, Function.update_of_ne differ]
      · refine truth.holds fun boot => absurd (unscoped boot) fun booting => ?_
        refine booting value ?_
        have older : s.booter ≠ s.fresh := by have := represented.orderly.booted; omega
        simpa [Machine.opened, Function.update_of_ne older] using booted
  crash := by
    intro s represented _
    have unused := represented.orderly.unused s.fresh (Nat.le_refl _)
    refine ⟨⟨represented.inv.formed, fun accountId holder locked => by cases locked⟩, ?_⟩
    -- The new boot task holds every row.
    refine ⟨{
      call := none
      hist := []
      view := some ⟨none, s.world.db.orders⟩
      suspect := False }, ⟨?_, fun _ => id⟩, ?_⟩
    · refine ⟨unused.2.1.symm, ?_, fun _ => rfl, fun _ => ⟨(fun _ locked => by cases locked), rfl⟩⟩
      rw [Machine.hist_crashed]
      exact unused.2.2.symm
    · have valid : View.Valid ⟨none, s.world.db.orders⟩ := select_valid represented.inv.formed
      refine (startup_safe ⟨rfl, valid⟩).mono fun _ g session accountId rows held => ?_
      obtain ⟨kept, now⟩ := session.held
      rw [now.1] at held
      cases held

end

end Rasat
