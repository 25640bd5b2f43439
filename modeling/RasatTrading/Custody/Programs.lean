import RasatTrading.Custody.Closing

/-! Every program of the daemon keeps to the discipline of custody, the startup included. -/

namespace Rasat

open Coop Prog

variable {svc : Service} {known : Knowledge} {rows : List Order}

/-- What the startup relies on while orders are still to come. -/
structure Stuck (known : Knowledge) (rest : List Order) (learned : Knowledge) : Prop where
  session : Session none known learned
  distinct : (rest.map Order.orderId).Nodup
  stored : ∃ rows, Held none learned rows ∧ ∀ row ∈ rest, row ∈ rows ∧ row.status.isOpen

/-- One order of the startup: only its own row may change, and it was open. -/
theorem reconcileOrder_safe {report : ReconcileReport} {order : Order} (held : Held none known rows)
    (member : order ∈ rows) (isOpen : order.status.isOpen) :
    Safe (custody svc.text) (reconcileOrder svc report order) known
      (Outcome (fun _ learned => Session none known learned ∧ ∃ after, Held none learned after ∧
          (after = rows ∨ ∃ change, after = updateRows order.orderId change rows))
        fun _ learned => Session none known learned) := by
  unfold reconcileOrder
  refine Safe.attempt_bind (queryState_safe order held) fun outcome learned facts => ?_
  obtain ⟨now, session, event, newest, -, report⟩ := facts
  -- An update ends the handling of the order.
  have written : ∀ {change audit} (result : ReconcileReport),
      (change.status = .canceled → Cancelable learned order) →
      Safe (custody svc.text)
        ((dbWrite (.updateOrder order.orderId change audit)).bind fun _ => .done result) learned
        (Outcome (fun _ g => Session none known g ∧ ∃ after, Held none g after ∧
            (after = rows ∨ ∃ change, after = updateRows order.orderId change rows))
          fun _ g => Session none known g) := by
    intro change audit result cancel
    refine Safe.bind (update_safe now member isOpen cancel) ?_ fun _ _ step => session.trans step.1
    rintro done g ⟨step, -, updated⟩
    exact .done ⟨session.trans step, _, updated done rfl, .inr ⟨change, rfl⟩⟩
  cases outcome with
  | error raised =>
    cases raised with
    | rasat error => exact .done ⟨session, rows, now, .inl rfl⟩
    | _ => exact .fail session
  | ok answer =>
    dsimp only
    cases verified : answer.filter fun found => found.status ≠ .unknown with
    | none => exact written _ fun impossible => nomatch impossible
    | some found =>
      dsimp only
      split
      · exact .done ⟨session, rows, now, .inl rfl⟩
      · refine written _ fun canceled => cancelable_of_report newest ?_ canceled
        rw [report, (Option.filter_eq_some_iff.mp verified).1]

/-- `reconcile_open_orders` keeps custody of all rows. -/
theorem reconcileOpenOrders_safe (held : Held none known rows) :
    Safe (custody svc.text) (reconcileOpenOrders svc) known
      fun _ learned => Session none known learned := by
  unfold reconcileOpenOrders dbRead
  refine Safe.bind_iff.mpr (neutral_call trivial fun answer read learns _ => ?_)
  have steady := learns.readSteady
  cases answer with
  | error raised => exact steady.session held
  | ok accounts =>
    dsimp only [Outcome]
    split
    · exact .done (steady.session held)
    refine Safe.bind_iff.mpr (neutral_call trivial fun answer looked learns _ => ?_)
    have steady := steady.trans learns.readSteady
    cases answer with
    | error raised => exact steady.session held
    | ok stuck =>
      have now := steady.held held
      -- The stuck orders are some of the rows, so their ids are distinct.
      have listed := learns.view.2.2 _ (learns.readSteady.view.symm.trans now.1) rfl
      have sub : stuck.Sublist rows := listed ▸ List.filter_sublist
      have start : Stuck known stuck looked := by
        refine ⟨steady.session held, (sub.map _).nodup held.2.ids, rows, now, fun row member => ?_⟩
        rw [listed] at member
        have facts := (List.mem_filter.mp member).2
        simp only [decide_eq_true_eq] at facts
        exact ⟨(List.mem_filter.mp member).1, facts.2⟩
      refine (Safe.foldlM (fun rest _ g => Stuck known rest g) (fun _ g => Session none known g)
        start ?_).mono ?_
      · intro order rest report g before
        obtain ⟨rows, held, stored⟩ := before.stored
        obtain ⟨member, isOpen⟩ := stored order List.mem_cons_self
        refine (reconcileOrder_safe held member isOpen).mono fun outcome after facts => ?_
        cases outcome with
        | error _ => exact before.session.trans facts
        | ok _ =>
          obtain ⟨step, changed, now, touched⟩ := facts
          have distinct := before.distinct
          rw [List.map_cons, List.nodup_cons] at distinct
          refine ⟨before.session.trans step, distinct.2, changed, now, fun row later => ?_⟩
          obtain ⟨listed, isOpen⟩ := stored row (List.mem_cons_of_mem _ later)
          refine ⟨?_, isOpen⟩
          rcases touched with rfl | ⟨change, rfl⟩
          · exact listed
          · refine mem_updateRows_other listed fun same => distinct.1 ?_
            exact List.mem_map.mpr ⟨row, later, same⟩
      · intro outcome after facts
        cases outcome with
        | ok _ => exact facts.session
        | error _ => exact facts

/-- The startup keeps custody of all rows. -/
theorem startup_safe (held : Held none known rows) :
    Safe (custody svc.text) (startup svc) known fun _ learned => Session none known learned := by
  unfold startup
  refine Safe.bind (neutral_held (neutral_of_admin reconcileOverrides_admin) held) ?_ fun _ _ facts => facts.2
  rintro _ swept ⟨held, session⟩
  refine Safe.attempt_bind (reconcileOpenOrders_safe held) fun _ settled step => ?_
  have session := session.trans step
  obtain ⟨rows, held⟩ := step.held
  refine Safe.attempt_bind (neutral_held (neutral_of_pending (reconcilePendingExecutions_settles _)) held) ?_
  exact fun _ _ facts => .done (session.trans facts.2)

/-- A call of the daemon leaves without a lock. -/
theorem program_safe {call : Call} (free : known.view = none) (serving : known.call = some call) :
    Safe (custody svc.text) (call.program svc (executeOnAccounts svc)) known
      fun _ learned => Idle known learned := by
  -- Calls that place orders take the lock; the others write to no order.
  cases call with
  | placeOrder args =>
    exact Safe.bind (placeOrder_safe free serving) (fun _ _ idle => .done idle) fun _ _ idle => idle
  | placeOcoOrder args =>
    exact Safe.bind (placeOcoOrder_safe free serving) (fun _ _ idle => .done idle) fun _ _ idle => idle
  | executeOnAccounts args =>
    refine Safe.bind (executeOnAccounts_safe args free ?_) (fun _ _ idle => .done idle)
      fun _ _ idle => idle
    rw [serving]
    rfl
  | approvePendingOrder orderId actor =>
    exact Safe.bind (approvePendingOrderHandler_safe free serving) (fun _ _ idle => .done idle)
      fun _ _ idle => idle
  | closeAllPositions named actor =>
    exact Safe.bind (closeAllPositions_safe free ⟨_, serving, rfl⟩) (fun _ _ idle => .done idle)
      fun _ _ idle => idle
  | approvePending orderId =>
    exact neutral_safe (only_asks trivial fun _ => only_done) free
  | rejectPending orderId =>
    exact neutral_safe (only_asks trivial fun _ => only_done) free
  | triggerAlert spec =>
    exact neutral_safe (only_asks trivial fun _ => only_done) free
  | enableRealTrading named actor =>
    exact neutral_safe (only_bind (neutral_of_admin (enableRealTrading_admin _ _)) fun _ => only_done) free
  | disableRealTrading named actor =>
    exact neutral_safe (only_bind (neutral_of_admin (disableRealTradingHandler_admin _ _)) fun _ => only_done) free
  | addAccount tags credentials actor =>
    exact neutral_safe (only_bind (neutral_of_admin (addAccount_admin _ _ _)) fun _ => only_done) free
  | removeAccount named actor =>
    exact neutral_safe (only_bind (neutral_of_admin (removeAccount_admin _ _)) fun _ => only_done) free
  | setRiskPolicy args =>
    exact neutral_safe (only_bind (neutral_of_admin (setRiskPolicy_admin _)) fun _ => only_done) free
  | createOverride args =>
    exact neutral_safe (only_bind (neutral_of_admin (createOverride_admin _)) fun _ => only_done) free

end Rasat
