import RasatTrading.Approvals.Handler
import RasatTrading.Guarantees.Runs

/-! The life of a pending order over every run, whatever the order service answers. -/

namespace Rasat

open Coop

variable {svc : Service} {db : Database} {s after : State} {orderId : String}

/-- The open daemon started over some tables. -/
def openStarted (svc : Service) (db : Database) : State := (openMachine svc).start { db := db }

/-- A state that some run of the open daemon reaches from some tables. -/
def OpenReached (svc : Service) (db : Database) (s : State) : Prop :=
  (openMachine svc).Steps (fun _ _ => True) (openStarted svc db) s

/-- The moves in which the database does not fail. -/
def Healthy (_ : State) : Move Choice Call → Prop
  | .resume _ choice => choice.dbFault = none
  | _ => True

/-- A state that a run without database failures reaches. -/
def HealthyReached (svc : Service) (db : Database) (s : State) : Prop :=
  (openMachine svc).Steps Healthy (openStarted svc db) s

/-- Every task of the open daemon keeps to the rule of approvals. -/
theorem approvals_sound (allowed : State → Move Choice Call → Prop) :
    (recorded approvalRule approvalRest).Sound (openMachine svc) allowed :=
  recorded_sound startup_rule call_rule allowed

theorem openStarted_represented :
    (recorded approvalRule approvalRest).Represented (openStarted svc db) :=
  recorded_started startup_rule

theorem HealthyReached.reached (reached : HealthyReached svc db s) : OpenReached svc db s :=
  Machine.Steps.mono (fun _ _ _ => trivial) reached

theorem OpenReached.represented (reached : OpenReached svc db s) :
    (recorded approvalRule approvalRest).Represented s :=
  (approvals_sound _).represented openStarted_represented reached

/-- Everything that a task asked was allowed after what it had heard. -/
theorem OpenReached.history (reached : OpenReached svc db s) :
    ∀ task newer event older, s.hist task = newer ++ event :: older →
      approvalRule ⟨s.calls task, older⟩ event.request :=
  recorded_history (approvals_sound _) openStarted_represented (fun _ => rfl) reached

/-- How one move changes the pending orders: by a committed transaction of one task, or not at all. -/
inductive PendingStep (s after : State) (move : Move Choice Call) : Prop
  | committed (task : Nat) (choice : Choice) (tx : Tx) (next : Except Exc tx.Ans → Task Reply)
      (answer : tx.Ans) (world : World) (moves : move = .resume task choice)
      (running : s.tasks task = some (.ask (.write tx) next))
      (performed : perform s.world task (.write tx) choice = some (.ok answer, world))
      (effect : PendingEffect s.world.db world.db tx)
      (moved : after = s.answered task (.write tx) next (.ok answer) world)
  | silent (same : ∀ orderId, after.world.db.pendingOrder orderId = s.world.db.pendingOrder orderId)
      (entry : Entry Req Req.Ans Exc Call) (grown : after.trace = entry :: s.trace)
      (quiet : ∀ task tx answer, entry ≠ .answered task ⟨.write tx, .ok answer⟩)

variable {move : Move Choice Call}

theorem open_step (stepped : (openMachine svc).step s move = some after) : PendingStep s after move := by
  obtain ⟨call, value, rfl, -, rfl⟩ |
    ⟨task, choice, request, next, answer, world, rfl, running, performed, rfl⟩ | ⟨rfl, rfl⟩ :=
    Machine.step_cases stepped
  · exact .silent (fun _ => rfl) _ rfl fun _ _ _ same => by cases same
  · have served : perform s.world task request choice = some (answer, world) := performed
    -- Only a write that went through touches the table.
    by_cases writes : ∃ tx committed, (⟨request, answer⟩ : Event Req Req.Ans Exc) =
        ⟨.write tx, .ok committed⟩
    · obtain ⟨tx, committed, same⟩ := writes
      cases same
      exact .committed task choice tx next committed _ rfl running served
        (Tx.run_pending (perform_write served)) rfl
    · have quiet : ∀ orderId, world.db.pendingOrder orderId = s.world.db.pendingOrder orderId := by
        intro orderId
        cases request with
        | lock accountId =>
          simp only [perform] at served
          split at served <;> cases served
          rfl
        | read query =>
          simp only [perform] at served
          split at served <;> (cases served; rfl)
        | write tx =>
          cases answer with
          | ok committed => exact absurd ⟨tx, committed, rfl⟩ writes
          | error raised =>
            simp only [perform, commit] at served
            split at served
            · cases served; rfl
            · split at served <;> cases served
              rfl
        | _ => cases served; rfl
      refine .silent quiet _ rfl fun owner tx committed same => writes ⟨tx, committed, ?_⟩
      cases same
      rfl
  · exact .silent (fun _ => rfl) _ rfl fun _ _ _ same => by cases same

/-- The edges of the status graph. -/
inductive StatusEdge : PendingStatus → PendingStatus → Prop
  | approve : StatusEdge .awaitingApproval .approved
  | decline : StatusEdge .awaitingApproval .rejected
  | claim : StatusEdge .approved .executing
  | execute : StatusEdge .executing .executed
  | fail : StatusEdge .executing .rejected
  | reconcile : StatusEdge .executing .reconcileRequired

/-- The statuses that a pending order can have later. -/
def Follows : PendingStatus → PendingStatus → Prop := Relation.ReflTransGen StatusEdge

/-- The statuses from the claim of an execution on. -/
def Begun (status : PendingStatus) : Prop :=
  status = .executing ∨ status = .executed ∨ status = .rejected ∨ status = .reconcileRequired

/-- The statuses in which an execution has ended. -/
def Ended (status : PendingStatus) : Prop :=
  status = .executed ∨ status = .rejected ∨ status = .reconcileRequired

/-- A compare-and-set that a task asks for follows the status graph. -/
theorem cas_follows {record : TaskRecord} {tx : Tx} {expected status : PendingStatus}
    (allowed : approvalRule record (.write tx)) (moves : tx.cas = some (orderId, expected, status)) :
    Follows expected status ∧ (expected = .awaitingApproval ∨ expected = .executing ∧ Ended status) := by
  cases tx with
  | approvePending named => cases moves; exact ⟨.single .approve, .inl rfl⟩
  | rejectPending named => cases moves; exact ⟨.single .decline, .inl rfl⟩
  | claimPending named now =>
    cases moves
    -- A claim passes through `approved` within its transaction.
    exact ⟨(Relation.ReflTransGen.single .approve).tail .claim, .inl rfl⟩
  | completePending named executed => cases moves; exact ⟨.single .execute, .inr ⟨rfl, .inl rfl⟩⟩
  | failPending named failed code message =>
    cases moves
    rcases allowed.2 with rfl | rfl
    · exact ⟨.single .fail, .inr ⟨rfl, .inr (.inl rfl)⟩⟩
    · exact ⟨.single .reconcile, .inr ⟨rfl, .inr (.inr rfl)⟩⟩
  | _ => cases moves

variable {row : PendingOrder}

/-- One move keeps every pending order and moves it along the status graph, never out of an end. -/
theorem status_step (represented : (recorded approvalRule approvalRest).Represented s)
    (stepped : (openMachine svc).step s move = some after)
    (found : s.world.db.pendingOrder orderId = some row) :
    ∃ changed, after.world.db.pendingOrder orderId = some changed ∧
      Follows row.status changed.status ∧ (Begun row.status → Begun changed.status) ∧
      (Ended row.status → changed.status = row.status) := by
  cases open_step stepped with
  | silent same entry grown quiet => exact ⟨row, (same orderId).trans found, .refl, id, fun _ => rfl⟩
  | committed task choice tx next answer world moves running performed effect moved =>
    subst moved
    obtain ⟨changed, there, change⟩ := effect.kept orderId row found
    refine ⟨changed, there, ?_⟩
    cases change with
    | same kept => rw [kept]; exact ⟨.refl, id, fun _ => rfl⟩
    | filled entry fills stored => rw [stored]; exact ⟨.refl, id, fun _ => rfl⟩
    | moved moves spec =>
      obtain ⟨follows, source⟩ := cas_follows (recorded_asks represented running) moves
      refine ⟨follows, fun begun => ?_, fun ended => ?_⟩
      · -- From a begun execution only an end is reached.
        rcases source with waiting | ⟨-, ended⟩
        · rw [waiting] at begun
          rcases begun with h | h | h | h <;> cases h
        · exact .inr ended
      · rcases source with waiting | ⟨executing, -⟩
        · rw [waiting] at ended
          rcases ended with h | h | h <;> cases h
        · rw [executing] at ended
          rcases ended with h | h | h <;> cases h

/-- Over any run a pending order stays and its status follows the graph. -/
theorem status_follows (reached : OpenReached svc db s)
    (steps : (openMachine svc).Steps (fun _ _ => True) s after)
    (found : s.world.db.pendingOrder orderId = some row) :
    ∃ changed, after.world.db.pendingOrder orderId = some changed ∧ Follows row.status changed.status := by
  refine (approvals_sound (fun _ _ => True)).invariant (fun later : State =>
    ∃ changed, later.world.db.pendingOrder orderId = some changed ∧ Follows row.status changed.status)
    (fun s move after represented _ stepped before => ?_) reached.represented ⟨row, found, .refl⟩ steps
  obtain ⟨middle, there, follows⟩ := before
  obtain ⟨changed, there', follows', -⟩ := status_step represented stepped there
  exact ⟨changed, there', follows.trans follows'⟩

/-- The entry of the record in which a task obtains the claim of a pending order. -/
def claims (orderId : String) : Entry Req Req.Ans Exc Call → Bool
  | .answered _ ⟨.write (.claimPending named _), .ok _⟩ => named = orderId
  | _ => false

/-- The entry in which a pending order is rejected. -/
def declines (orderId : String) : Entry Req Req.Ans Exc Call → Bool
  | .answered _ ⟨.write (.rejectPending named), .ok _⟩ => named = orderId
  | _ => false

/-- The status of a pending order agrees with the record: one claim at most, and none if rejected. -/
structure ClaimState (s : State) (orderId : String) : Prop where
  once : s.trace.countP (claims orderId) ≤ 1
  begun : 0 < s.trace.countP (claims orderId) →
    ∃ row, s.world.db.pendingOrder orderId = some row ∧ Begun row.status
  declined : 0 < s.trace.countP (declines orderId) →
    (∃ row, s.world.db.pendingOrder orderId = some row ∧ row.status = .rejected) ∧
      s.trace.countP (claims orderId) = 0

/-- A claim is a write that went through. -/
theorem claims_committed {entry : Entry Req Req.Ans Exc Call} (claim : claims orderId entry = true) :
    ∃ task now, entry = .answered task ⟨.write (.claimPending orderId now), .ok ()⟩ := by
  unfold claims at claim
  split at claim
  · rename_i task named now committed
    obtain rfl : named = orderId := by simpa using claim
    exact ⟨task, now, rfl⟩
  · cases claim

theorem declines_committed {entry : Entry Req Req.Ans Exc Call} (decline : declines orderId entry = true) :
    ∃ task, entry = .answered task ⟨.write (.rejectPending orderId), .ok ()⟩ := by
  unfold declines at decline
  split at decline
  · rename_i task named committed
    obtain rfl : named = orderId := by simpa using decline
    exact ⟨task, rfl⟩
  · cases decline

/-- Every move keeps the agreement of status and record. -/
theorem claimState_step (represented : (recorded approvalRule approvalRest).Represented s)
    (stepped : (openMachine svc).step s move = some after) (state : ClaimState s orderId) :
    ClaimState after orderId := by
  -- Begun and rejected pending orders stay what they are.
  have begins (before : 0 < s.trace.countP (claims orderId)) :
      ∃ row, after.world.db.pendingOrder orderId = some row ∧ Begun row.status := by
    obtain ⟨row, found, begun⟩ := state.begun before
    obtain ⟨changed, there, -, stays, -⟩ := status_step represented stepped found
    exact ⟨changed, there, stays begun⟩
  have rejects (before : 0 < s.trace.countP (declines orderId)) :
      ∃ row, after.world.db.pendingOrder orderId = some row ∧ row.status = .rejected := by
    obtain ⟨⟨row, found, rejected⟩, -⟩ := state.declined before
    obtain ⟨changed, there, -, -, stays⟩ := status_step represented stepped found
    exact ⟨changed, there, (stays (.inr (.inl rejected))).trans rejected⟩
  cases open_step stepped with
  | silent same entry grown quiet =>
    have unclaimed : claims orderId entry = false := by
      refine Bool.eq_false_iff.mpr fun claim => ?_
      obtain ⟨task, now, shape⟩ := claims_committed claim
      exact quiet _ _ _ shape
    have undeclined : declines orderId entry = false := by
      refine Bool.eq_false_iff.mpr fun decline => ?_
      obtain ⟨task, shape⟩ := declines_committed decline
      exact quiet _ _ _ shape
    have count := @List.countP_cons_of_neg _ _ _ s.trace (by simp [unclaimed] : ¬claims orderId entry)
    have count' := @List.countP_cons_of_neg _ _ _ s.trace (by simp [undeclined] : ¬declines orderId entry)
    refine ⟨by rw [grown, count]; exact state.once, fun some => ?_, fun some => ?_⟩
    · rw [grown, count] at some
      exact begins some
    · rw [grown, count'] at some
      exact ⟨rejects some, by rw [grown, count]; exact (state.declined some).2⟩
  | committed task choice tx next answer world moves running performed effect moved =>
    subst moved
    have fresh (moves : tx.cas = some (orderId, .awaitingApproval, .executing) ∨
        tx.cas = some (orderId, .awaitingApproval, .rejected)) :
        s.trace.countP (claims orderId) = 0 ∧ s.trace.countP (declines orderId) = 0 := by
      -- The transaction found the pending order waiting, so nothing was claimed or rejected.
      obtain ⟨row, found, waiting⟩ : ∃ row, s.world.db.pendingOrder orderId = some row ∧
          row.status = .awaitingApproval := by
        rcases moves with moves | moves
        all_goals
          obtain ⟨row, -, found, waiting, -⟩ := effect.moved _ _ _ moves
          exact ⟨row, found, waiting⟩
      constructor
      · refine Nat.eq_zero_of_not_pos fun before => ?_
        obtain ⟨row', found', begun⟩ := state.begun before
        rw [found] at found'
        cases found'
        rw [waiting] at begun
        rcases begun with h | h | h | h <;> cases h
      · refine Nat.eq_zero_of_not_pos fun before => ?_
        obtain ⟨⟨row', found', rejected⟩, -⟩ := state.declined before
        rw [found] at found'
        cases found'
        rw [waiting] at rejected
        cases rejected
    have grown : (s.answered task (.write tx) next (.ok answer) world).trace =
      .answered task ⟨.write tx, .ok answer⟩ :: s.trace := rfl
    by_cases claim : claims orderId (.answered task ⟨.write tx, .ok answer⟩)
    · obtain ⟨owner, now, shape⟩ := claims_committed claim
      cases shape
      obtain ⟨none, none'⟩ := fresh (.inl rfl)
      obtain ⟨-, changed, -, -, there, status⟩ := effect.moved orderId _ _ rfl
      refine ⟨by rw [grown, List.countP_cons_of_pos claim, none], fun _ => ?_, fun some => ?_⟩
      · exact ⟨changed, there, .inl status⟩
      · rw [grown, List.countP_cons_of_neg (by simp [declines]), none'] at some
        cases some
    · have count := @List.countP_cons_of_neg _ _ _ s.trace claim
      refine ⟨by rw [grown, count]; exact state.once, fun some => ?_, fun some => ?_⟩
      · rw [grown, count] at some
        exact begins some
      · rw [grown, count]
        by_cases decline : declines orderId (.answered task ⟨.write tx, .ok answer⟩)
        · obtain ⟨owner, shape⟩ := declines_committed decline
          cases shape
          obtain ⟨none, -⟩ := fresh (.inr rfl)
          obtain ⟨-, changed, -, -, there, status⟩ := effect.moved orderId _ _ rfl
          exact ⟨⟨changed, there, status⟩, none⟩
        · rw [grown, List.countP_cons_of_neg decline] at some
          exact ⟨rejects some, (state.declined some).2⟩

/-- In every reachable state a pending order was claimed at most once, and not at all if rejected. -/
theorem OpenReached.claimState (reached : OpenReached svc db s) : ClaimState s orderId := by
  refine (approvals_sound (fun _ _ => True)).invariant (fun s : State => ClaimState s orderId)
    (fun s move after represented _ stepped => claimState_step represented stepped)
    openStarted_represented ?_ reached
  exact ⟨Nat.zero_le _, (fun some => nomatch some), (fun some => nomatch some)⟩

/-- A claim in a task's history is one of the record. -/
theorem Claimed.counted {task : Nat} (claimed : Claimed (s.hist task) orderId) :
    0 < s.trace.countP (claims orderId) := by
  obtain ⟨now, member⟩ := claimed
  obtain ⟨entry, listed, found⟩ := List.mem_filterMap.mp member
  refine List.countP_pos_iff.mpr ⟨entry, listed, ?_⟩
  cases entry with
  | answered owner event =>
    simp only [Entry.eventOf] at found
    split at found <;> cases found
    simp [claims]
  | _ => cases found

/-- An execution that is still running can be ended. -/
theorem ends_running {tx : Tx} {status : PendingStatus} (now : Int)
    (uuid : Nat) (ends : tx.cas = some (orderId, .executing, status))
    (found : db.pendingOrder orderId = some row) (running : row.status = .executing) :
    ∃ answer after, tx.run db now uuid = .ok (answer, after) := by
  cases tx <;> cases ends
  all_goals
    simp only [Tx.run, Database.casPending, found, running, if_true]
    exact ⟨_, _, rfl⟩

/-- In a healthy run every execution whose claimant wrote its end has ended. -/
def EndsWritten (s : State) : Prop :=
  ∀ task newer event older orderId, s.hist task = newer ++ event :: older →
    Claimed older orderId → Ends orderId event →
      ∃ row, s.world.db.pendingOrder orderId = some row ∧ Ended row.status

theorem endsWritten_step (reached : OpenReached svc db s)
    (healthy : Healthy s move) (stepped : (openMachine svc).step s move = some after)
    (written : EndsWritten s) : EndsWritten after := by
  have represented := reached.represented
  -- An end stays an end.
  have stays {orderId : String} {row : PendingOrder} (found : s.world.db.pendingOrder orderId = some row)
      (ended : Ended row.status) :
      ∃ row, after.world.db.pendingOrder orderId = some row ∧ Ended row.status := by
    obtain ⟨changed, there, -, -, same⟩ := status_step represented stepped found
    exact ⟨changed, there, same ended ▸ ended⟩
  intro task newer event older orderId split claimed ends
  have unused := represented.orderly.unused s.fresh (Nat.le_refl _)
  obtain ⟨call, value, rfl, -, rfl⟩ |
    ⟨owner, choice, request, next, answer, world, rfl, running, performed, rfl⟩ | ⟨rfl, rfl⟩ :=
    Machine.step_cases stepped
  · rw [Machine.hist_opened] at split
    obtain ⟨row, found, ended⟩ := written task newer event older orderId split claimed ends
    exact stays found ended
  · by_cases own : task = owner
    · subst own
      rw [Sys.hist_answered_self] at split
      cases newer with
      | cons first newer =>
        obtain ⟨row, found, ended⟩ :=
          written task newer event older orderId (List.cons.inj split).2 claimed ends
        exact stays found ended
      | nil =>
        obtain ⟨rfl, rfl⟩ := List.cons.inj split
        obtain ⟨tx, status, asks, moves⟩ := ends
        dsimp only at asks
        subst asks
        have source := (cas_follows (recorded_asks represented running) moves).2
        obtain ⟨-, ended⟩ := source.resolve_left fun waiting => nomatch waiting
        -- The claim was obtained, so the pending order has begun; if it still runs the write ends it.
        obtain ⟨row, found, begun⟩ := (reached.claimState).begun claimed.counted
        rcases begun with executing | ended'
        · cases open_step stepped with
          | committed task' choice' tx' next' answer' world' moves' running' performed' effect moved =>
            cases moves'
            rw [running] at running'
            cases running'
            obtain ⟨-, changed, -, -, there, same⟩ := effect.moved _ _ _ moves
            rw [moved]
            exact ⟨changed, there, same ▸ ended⟩
          | silent same entry grown quiet =>
            exfalso
            obtain ⟨committed, stored, ran⟩ :=
              ends_running choice.now choice.uuid moves found executing
            have served : perform s.world task (.write tx) choice = some (answer, world) := performed
            have calm : choice.dbFault = none := healthy
            simp only [perform, commit] at served
            rw [calm] at served
            simp only [ran] at served
            cases served
            exact quiet task tx committed (List.cons.inj grown).1.symm
        · exact stays found ended'
    · rw [Sys.hist_answered_other own] at split
      obtain ⟨row, found, ended⟩ := written task newer event older orderId split claimed ends
      exact stays found ended
  · rw [Machine.hist_crashed] at split
    obtain ⟨row, found, ended⟩ := written task newer event older orderId split claimed ends
    exact stays found ended

theorem HealthyReached.endsWritten (reached : HealthyReached svc db s) : EndsWritten s := by
  have both : HealthyReached svc db s ∧ EndsWritten s := by
    refine (approvals_sound Healthy).invariant (fun s => HealthyReached svc db s ∧ EndsWritten s)
      (fun s move after represented healthy stepped before => ?_) openStarted_represented ?_ reached
    · exact ⟨.tail before.1 ⟨move, healthy, stepped⟩,
        endsWritten_step before.1.reached healthy stepped before.2⟩
    · exact ⟨.refl, fun task newer event older orderId split => by cases newer <;> cases split⟩
  exact both.2

/-- An approval handler that claimed an execution and finished has left it ended. -/
theorem finished_handler_ended {task : Nat} {actor : String} {outcome : Except Exc Reply}
    (reached : HealthyReached svc db s) (serves : s.calls task = some (.approvePendingOrder orderId actor))
    (finished : s.tasks task = some (Prog.ofExcept outcome)) (claimed : Claimed (s.hist task) orderId) :
    ∃ row, s.world.db.pendingOrder orderId = some row ∧ Ended row.status := by
  have rests := recorded_rests reached.reached.represented finished
  obtain ⟨event, member, ends⟩ := rests orderId claimed
  obtain ⟨newer, older, split⟩ := List.append_of_mem member
  obtain ⟨tx, status, asks, moves⟩ := id ends
  -- The end was only written after the claim.
  have allowed := reached.reached.history task newer event older split
  rw [asks] at allowed
  have settling : Settling ⟨s.calls task, older⟩ orderId := by
    cases tx <;> cases moves
    · exact allowed.1
    · exact allowed.1
  rcases settling with ⟨-, -, claimed⟩ | booting
  · exact reached.endsWritten task newer event older orderId split claimed ends
  · rw [serves] at booting
    cases booting

/-- An executed pending order was executed from the start or completed by some task. -/
theorem OpenReached.completed (reached : OpenReached svc db s)
    (found : s.world.db.pendingOrder orderId = some row) (executed : row.status = .executed) :
    (∃ initial, db.pendingOrder orderId = some initial ∧ initial.status = .executed) ∨
      ∃ task id, .answered task ⟨.write (.completePending orderId id), .ok ()⟩ ∈ s.trace := by
  revert row
  refine (approvals_sound (fun _ _ => True)).invariant (fun s : State => ∀ {row},
    s.world.db.pendingOrder orderId = some row → row.status = .executed →
    (∃ initial, db.pendingOrder orderId = some initial ∧ initial.status = .executed) ∨
      ∃ task id, .answered task ⟨.write (.completePending orderId id), .ok ()⟩ ∈ s.trace)
    (fun s move after represented _ stepped before => ?_) openStarted_represented
    (fun found executed => .inl ⟨_, found, executed⟩) reached
  intro changed there executed
  cases open_step stepped with
  | silent same entry grown quiet =>
    rw [same] at there
    refine (before there executed).imp_right ?_
    rintro ⟨task, id, member⟩
    exact ⟨task, id, grown ▸ List.mem_cons_of_mem _ member⟩
  | committed task choice tx next answer world moves running performed effect moved =>
    subst moved
    have older {row : PendingOrder} (found : s.world.db.pendingOrder orderId = some row)
        (executed : row.status = .executed) :
        (∃ initial, db.pendingOrder orderId = some initial ∧ initial.status = .executed) ∨
          ∃ owner id, .answered owner ⟨.write (.completePending orderId id), .ok ()⟩ ∈
            (s.answered task (.write tx) next (.ok answer) world).trace :=
      (before found executed).imp_right fun ⟨owner, id, member⟩ =>
        ⟨owner, id, List.mem_cons_of_mem _ member⟩
    cases located : s.world.db.pendingOrder orderId with
    | none =>
      obtain ⟨waiting, -⟩ := effect.joined orderId changed located there
      rw [waiting] at executed
      cases executed
    | some row =>
      obtain ⟨changed', there', change⟩ := effect.kept orderId row located
      obtain rfl : changed' = changed := Option.some.inj (there'.symm.trans there)
      cases change with
      | same kept => exact older located (kept ▸ executed)
      | filled entry fills stored => exact older located (by rw [stored] at executed; exact executed)
      | moved moves spec =>
        rw [executed] at moves
        generalize row.status = expected at moves
        have allowed := recorded_asks represented running
        -- Completing is the only transaction that makes a pending order executed.
        cases tx with
        | completePending named id => cases moves; exact .inr ⟨task, id, List.mem_cons_self⟩
        | failPending named status code message =>
          cases moves
          rcases allowed.2 with h | h <;> cases h
        | _ => cases moves

/-- What a task has heard of a fill it goes on having heard. -/
theorem HeardFill.older {record : TaskRecord} {hist : History}
    (heard : HeardFill ⟨record.call, hist⟩ orderId) (grown : hist <:+ record.hist) :
    HeardFill record orderId := by
  rcases heard with ⟨actor, args, reply, result, call, member, first, filled⟩ |
    ⟨call, accountId, order, member, filled⟩
  · exact .inl ⟨actor, args, reply, result, call, grown.mem member, first, filled⟩
  · exact .inr ⟨call, accountId, order, grown.mem member, filled⟩

/-- What holds of all pending orders in every state of every run. -/
structure PendingLife (db : Database) (s : State) : Prop where
  /-- At most one handler ever obtains the executing claim. -/
  claimedOnce : ∀ orderId, s.trace.countP (claims orderId) ≤ 1
  /-- A rejected order is never passed to the order service. -/
  declined : ∀ orderId owner, .answered owner ⟨.write (.rejectPending orderId), .ok ()⟩ ∈ s.trace →
    ∀ task actor, s.calls task = some (.approvePendingOrder orderId actor) → ∀ args,
      (∀ answer, ⟨.orderService args, answer⟩ ∉ s.hist task) ∧
        ∀ next, s.tasks task ≠ some (.ask (.orderService args) next)
  /-- An executed order was so from the start, or a task heard of its fill. -/
  executed : ∀ orderId row, s.world.db.pendingOrder orderId = some row → row.status = .executed →
    (∃ initial, db.pendingOrder orderId = some initial ∧ initial.status = .executed) ∨
      ∃ task, HeardFill (s.record task) orderId

theorem OpenReached.pendingLife (reached : OpenReached svc db s) : PendingLife db s where
  claimedOnce := fun orderId => reached.claimState.once
  declined := by
    intro orderId owner rejected task actor serves args
    have declined : 0 < s.trace.countP (declines orderId) :=
      List.countP_pos_iff.mpr ⟨_, rejected, by simp [declines]⟩
    have unclaimed := (reached.claimState.declined declined).2
    -- Whoever submits an approved order has claimed it.
    have submitted {hist : History} (submits : Submits ⟨s.calls task, hist⟩ args)
        (grown : hist <:+ s.hist task) : False := by
      rcases submits with own | ⟨named, actor', row, entry, call, -, -, now, member⟩
      · rw [serves] at own
        cases own
      · rw [serves] at call
        cases call
        have claimed : Claimed (s.hist task) orderId := ⟨now, grown.mem member⟩
        have counted := claimed.counted
        omega
    constructor
    · intro answer member
      obtain ⟨newer, older, split⟩ := List.append_of_mem member
      refine submitted (reached.history task newer _ older split) ?_
      rw [split]
      exact (List.suffix_cons _ _).trans (List.suffix_append _ _)
    · intro next running
      exact submitted (recorded_asks reached.represented running) (List.suffix_refl _)
  executed := by
    intro orderId row found executed
    refine (reached.completed found executed).imp_right ?_
    rintro ⟨task, id, member⟩
    obtain ⟨newer, older, split⟩ := List.append_of_mem (mem_hist_of_trace member)
    have heard := (reached.history task newer _ older split).2
    refine ⟨task, HeardFill.older heard ?_⟩
    rw [Sys.record, split]
    exact (List.suffix_cons _ _).trans (List.suffix_append _ _)

/-- Over every run with an order service that answers at will, pending orders live as they should:
claimed once, never sent once rejected, executed only after a fill, along the status graph, and
with no execution left running by its finished handler while the database works. -/
theorem pending_orders_sound (reached : OpenReached svc db s) :
    PendingLife db s ∧
      (∀ after orderId row, (openMachine svc).Steps (fun _ _ => True) s after →
        s.world.db.pendingOrder orderId = some row →
          ∃ changed, after.world.db.pendingOrder orderId = some changed ∧
            Follows row.status changed.status) ∧
      (HealthyReached svc db s → ∀ task orderId actor outcome,
        s.calls task = some (.approvePendingOrder orderId actor) →
        s.tasks task = some (Prog.ofExcept outcome) → Claimed (s.hist task) orderId →
          ∀ row, s.world.db.pendingOrder orderId = some row → row.status ≠ .executing) := by
  refine ⟨reached.pendingLife, fun after orderId row steps found => status_follows reached steps found, ?_⟩
  intro healthy task orderId actor outcome serves finished claimed row found executing
  obtain ⟨row', found', ended⟩ := finished_handler_ended healthy serves finished claimed
  rw [found] at found'
  cases found'
  rw [executing] at ended
  rcases ended with h | h | h <;> cases h

section

/-- A pending order at the market that waits for its approval. -/
def waitingOrder : PendingOrder where
  accountId := "main"
  symbol := "BTCUSDT"
  side := "BUY"
  entry := none
  stopLoss := some 8
  riskPct := some 1
  orderId := "p"

/-- The shop with that order. -/
def waitingShop : Database := { shop with pending := [waitingOrder] }

/-- The reply of an order service that filled one order. -/
def filledReply : ExecuteReply := replyOf [{
    accountId := "main"
    status := .exchange .filled
    symbol := "BTCUSDT"
    order := some {
      side := .buy
      orderType := .market
      quantity := 1
      price := none
      stopPrice := none
      stopLimitPrice := none
      notional := 10
      orderId := "o"
      exchangeOrderId := some "7"
      executedQty := 1
      avgPrice := 10
      equitySnapshot := 100 } }]

/-- One handler approves the order, and the order service fills it. -/
def approvedRun : List (Move Choice Call) :=
  booted ++ .open (.approvePendingOrder "p" "agent") ::
    answers 1 [{}, calmDay, {}, {}, {}, { reply := filledReply }, {}]

/-- The approved order is executed under the exchange's id. -/
theorem approved_order_sound :
    ∃ s, (openMachine demo).run (openStarted demo waitingShop) approvedRun = some s ∧
      (s.world.db.pendingOrder "p").map (fun row => (row.status, row.executedOrderId)) =
        some (.executed, some "7") ∧ PendingLife waitingShop s := by
  have passes : ((openMachine demo).run (openStarted demo waitingShop) approvedRun).any fun s =>
      (s.world.db.pendingOrder "p").map (fun row => (row.status, row.executedOrderId)) =
        some (.executed, some "7") := by decide +kernel
  obtain ⟨s, ran, checked⟩ := run_end passes
  exact ⟨s, ran, by simpa using checked, (pending_orders_sound (Machine.run_steps ran)).1⟩

end

end Rasat
