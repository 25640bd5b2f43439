import RasatTrading.Approvals.Rules

/-! The approval handler and the startup keep to the rule over an order service that answers at will. -/

namespace Rasat

open Coop Prog

variable {svc : Service} {record : TaskRecord} {orderId actor : String} {row : PendingOrder}

/-- The order service of the open daemon: its reply comes from outside. -/
def openOrderService (args : ExecuteArgs) : Task ExecuteReply :=
  Prog.call (Req.orderService args)

/-- The daemon over an order service that answers at will. -/
def openMachine (svc : Service) : Machine Req Req.Ans Exc World Choice Call Reply :=
  machineWith svc openOrderService

variable {request : Req} {answer : Except Exc request.Ans}

/-- A record grows by one answer. -/
theorem mem_after {event : Event Req Req.Ans Exc} (member : event ∈ record.hist) :
    event ∈ (record.after request answer).hist := List.mem_cons_of_mem _ member

theorem Approving.after {entry : Option ℚ} (approving : Approving record.hist orderId row entry) :
    Approving (record.after request answer).hist orderId row entry where
  read := mem_after approving.read
  entry := approving.entry.imp_right fun ⟨priced, price, same, stored⟩ =>
    ⟨priced, price, same, mem_after stored⟩

theorem Claimed.after
    (claimed : Claimed record.hist orderId) : Claimed (record.after request answer).hist orderId :=
  claimed.imp fun _ member => mem_after member

/-- Without claims, one more answer that is no claim leaves a record to rest at. -/
def Unclaimed (record : TaskRecord) : Prop := ∀ orderId, ¬Claimed record.hist orderId

theorem Unclaimed.rest (free : Unclaimed record) : approvalRest record :=
  fun orderId claimed => absurd claimed (free orderId)

theorem Unclaimed.after (request : Req) (answer : Except Exc request.Ans) (free : Unclaimed record)
    (differs : ∀ named now, (⟨request, answer⟩ : Event Req Req.Ans Exc) ≠
      ⟨.write (.claimPending named now), .ok ()⟩) : Unclaimed (record.after request answer) := by
  rintro named ⟨now, member⟩
  rcases List.mem_cons.mp member with new | old
  · exact differs named now new.symm
  · exact free named ⟨now, old⟩

/-- A fresh record has no claims. -/
theorem unclaimed_fresh {call : Option Call} : Unclaimed ⟨call, []⟩ :=
  fun _ ⟨_, member⟩ => nomatch member

/-- The entry of an approved order is the stored one, or a price that was stored for it. -/
theorem pendingEntry_safe (free : Unclaimed record) (read : ReadPending record.hist orderId row) :
    Safe (recording approvalRule) (pendingEntry orderId row) record
      (Outcome (fun entry learned => learned.call = record.call ∧ Unclaimed learned ∧
          Approving learned.hist orderId row entry)
        fun _ learned => approvalRest learned) := by
  have asked (answer : Except Exc (Option ℚ)) :
      Unclaimed (record.after (.market (.price row.symbol)) answer) :=
    Unclaimed.after _ _ free fun _ _ same => nomatch congrArg Event.request same
  simp only [pendingEntry, market, dbWrite, bind_eq, pure_eq, raise]
  by_cases priced : lower (if row.orderType = "" then "market" else row.orderType) = "market" ∧
      row.entry = none
  · rw [if_pos priced]
    refine recording_then trivial (fun price => ?_) fun raised => (asked (.error raised)).rest
    cases price with
    | none => exact .fail (asked (.ok none)).rest
    | some price =>
      have stored (answer : Except Exc Unit) := Unclaimed.after
        (.write (.fillPendingEntry orderId price)) answer (asked (.ok (some price)))
        fun _ _ same => nomatch congrArg Event.request same
      refine recording_then ⟨row, mem_after read, priced⟩ (fun _ => ?_) fun raised =>
        (stored (.error raised)).rest
      refine .done ⟨rfl, stored (.ok ()), mem_after (mem_after read), .inr ⟨priced, price, rfl, ?_⟩⟩
      exact List.mem_cons_self
  · rw [if_neg priced]
    exact .done ⟨rfl, free, read, .inl ⟨rfl, priced⟩⟩


/-- What the handler relies on once it obtained the claim. -/
structure Executing (record : TaskRecord) (orderId actor : String) : Prop where
  call : record.call = some (.approvePendingOrder orderId actor)
  claimed : Claimed record.hist orderId
  /-- It claims nothing else. -/
  only : ∀ other, Claimed record.hist other → other = orderId

theorem Executing.after (executing : Executing record orderId actor)
    (differs : ∀ named now, (⟨request, answer⟩ : Event Req Req.Ans Exc) ≠
      ⟨.write (.claimPending named now), .ok ()⟩) :
    Executing (record.after request answer) orderId actor where
  call := executing.call
  claimed := executing.claimed.after
  only := by
    rintro other ⟨now, member⟩
    rcases List.mem_cons.mp member with new | old
    · exact absurd new.symm (differs other now)
    · exact executing.only other ⟨now, old⟩

/-- The write that ends the execution leaves a record to rest at. -/
theorem Executing.rest {tx : Tx} {answer : Except Exc tx.Ans} {status : PendingStatus}
    (executing : Executing record orderId actor) (ends : tx.cas = some (orderId, .executing, status)) :
    approvalRest (record.after (.write tx) answer) := by
  rintro other ⟨now, member⟩
  refine ⟨⟨.write tx, answer⟩, List.mem_cons_self, tx, status, rfl, ?_⟩
  rcases List.mem_cons.mp member with new | old
  · cases new
    cases ends
  · rw [executing.only other ⟨now, old⟩]
    exact ends

/-- Failing an execution ends it, and the handler then raises. -/
theorem failPendingExecution_safe {α : Type} {status : PendingStatus} {code : ErrorCode}
    {message : String} {raised : Exc} (executing : Executing record orderId actor)
    (kind : status = .rejected ∨ status = .reconcileRequired) :
    Safe (recording approvalRule)
      ((failPendingExecution orderId status code message).bind fun _ => (.fail raised : Task α))
      record fun _ learned => approvalRest learned := by
  rw [failPendingExecution_eq kind]
  refine recording_then ⟨.inl ⟨actor, executing.call, executing.claimed⟩, kind⟩ (fun _ => ?_)
    fun _ => executing.rest rfl
  exact .fail (executing.rest rfl)

/-- Whatever the order service did, the handler ends the execution, as executed only after a fill. -/
theorem settlePending_safe {executed : Except Exc ExecuteReply} {args : ExecuteArgs}
    (executing : Executing record orderId actor) (heard : ⟨.orderService args, executed⟩ ∈ record.hist) :
    Safe (recording approvalRule) (settlePending orderId executed) record
      fun _ learned => approvalRest learned := by
  cases executed with
  | error raised => exact failPendingExecution_safe executing (failureOf_kind raised)
  | ok reply =>
    simp only [settlePending]
    cases judged : judge reply.results.head? with
    | executed executedOrderId =>
      obtain ⟨result, first, filled⟩ := judge_executed judged
      have fill : HeardFill record orderId :=
        .inl ⟨actor, args, reply, result, executing.call, heard, first, filled⟩
      refine recording_then ⟨.inl ⟨actor, executing.call, executing.claimed⟩, fill⟩ (fun _ => ?_)
        fun _ => executing.rest rfl
      exact .done (executing.rest rfl)
    | failed status code message raised =>
      exact failPendingExecution_safe executing (judge_failed judged)

/-- The approval handler keeps to the rule and ends what it claimed. -/
theorem approvePendingOrderHandler_rule :
    Safe (recording approvalRule) (approvePendingOrderHandler openOrderService orderId actor)
      ⟨some (.approvePendingOrder orderId actor), []⟩ fun _ learned => approvalRest learned := by
  simp only [approvePendingOrderHandler, pendingOrder, dbRead, dbWrite, clock, sync, bind_eq, pure_eq,
    raise, bind_assoc]
  have read (answer : Except Exc (Option PendingOrder)) :
      Unclaimed (Record.after ⟨some (.approvePendingOrder orderId actor), []⟩
        (.read (.pendingOrder orderId)) answer) :=
    Unclaimed.after _ _ unclaimed_fresh fun _ _ same => nomatch congrArg Event.request same
  refine recording_then trivial (fun found => ?_) fun raised => (read (.error raised)).rest
  cases found with
  | none => exact .fail (read (.ok none)).rest
  | some row =>
    rw [done_bind]
    by_cases waiting : row.status ≠ .awaitingApproval
    · rw [if_pos waiting]
      exact .fail (read (.ok (some row))).rest
    rw [if_neg waiting]
    refine Safe.bind (pendingEntry_safe (read (.ok (some row))) List.mem_cons_self) ?_
      fun raised learned rest => rest
    rintro entry learned ⟨call, free, approving⟩
    refine Safe.ofExcept_then (fun _ _ => ?_) fun _ _ => free.rest
    by_cases unprotected : row.stopLoss = none
    · rw [if_pos unprotected]
      exact .fail free.rest
    rw [if_neg unprotected]
    have ticked (answer : Except Exc Int) : Unclaimed (learned.after .clock answer) :=
      Unclaimed.after _ _ free fun _ _ same => nomatch congrArg Event.request same
    refine recording_then trivial (fun now => ?_) fun raised => (ticked (.error raised)).rest
    refine recording_then ⟨actor, row, entry, call, approving.after⟩ (fun _ => ?_) fun raised => ?_
    · -- The claim is obtained: from here on the execution is ended on every path.
      have executing : Executing ((learned.after .clock (.ok now)).after
          (.write (.claimPending orderId now)) (.ok ())) orderId actor := by
        refine ⟨call, ⟨now, List.mem_cons_self⟩, ?_⟩
        rintro other ⟨at_, member⟩
        rcases List.mem_cons.mp member with new | old
        · cases new; rfl
        · exact absurd ⟨at_, old⟩ (ticked (.ok now) other)
      refine Safe.attempt_bind (recording_call.mpr ⟨?_, fun answer => ?_⟩) fun executed g held => held
      · exact .inr ⟨orderId, actor, row, entry, call, rfl, approving.after.after, executing.claimed⟩
      · refine settlePending_safe (executing.after ?_) List.mem_cons_self
        exact fun _ _ same => nomatch congrArg Event.request same
    · -- A refused claim leaves nothing to end.
      refine Unclaimed.rest (Unclaimed.after _ _ (ticked (.ok now)) ?_)
      exact fun named at_ same => nomatch same

/-- The startup has claimed nothing and serves no call. -/
def Recovering (record : TaskRecord) : Prop := record.call = none ∧ Unclaimed record

theorem Recovering.after (request : Req) (answer : Except Exc request.Ans) (recovering : Recovering record)
    (differs : ∀ named now, (⟨request, answer⟩ : Event Req Req.Ans Exc) ≠
      ⟨.write (.claimPending named now), .ok ()⟩) : Recovering (record.after request answer) :=
  ⟨recovering.1, recovering.2.after _ _ differs⟩

/-- One executing order of the restart recovery. -/
theorem recoverPending_rule {now staleAfter : Int} {report : RecoveryReport} (recovering : Recovering record) :
    Safe (recording approvalRule) (recoverPending now staleAfter report row) record
      (Outcome (fun _ learned => Recovering learned) fun _ learned => Recovering learned) := by
  -- A failed execution is one write.
  have failing {learned : TaskRecord} (recovering : Recovering learned) {status : PendingStatus}
      {code : ErrorCode} {message : String} (result : RecoveryReport)
      (kind : status = .rejected ∨ status = .reconcileRequired) :
      Safe (recording approvalRule)
        ((failPendingExecution row.orderId status code message).bind fun _ => .done result)
        learned (Outcome (fun _ g => Recovering g) fun _ g => Recovering g) := by
    rw [failPendingExecution_eq kind]
    refine recording_then ⟨.inr recovering.1, kind⟩ (fun _ => .done ?_) fun _ => ?_
    all_goals exact Recovering.after _ _ recovering fun _ _ same => nomatch congrArg Event.request same
  have asked (answer : Except Exc (Option Order)) : Recovering
      (record.after (.read (.order row.accountId (pendingKey row.orderId))) answer) :=
    Recovering.after _ _ recovering fun _ _ same => nomatch congrArg Event.request same
  simp only [recoverPending, dbRead, dbWrite, bind_eq, pure_eq]
  refine recording_then trivial (fun found => ?_) fun raised => asked (.error raised)
  cases found with
  | none =>
    dsimp only
    split
    · exact failing (asked (.ok none)) _ (.inr rfl)
    · exact .done (asked (.ok none))
  | some order =>
    dsimp only
    rcases judgeRow_kind order with ⟨executedOrderId, judged, filled⟩ | ⟨status, failure, judged, kind⟩
    · rw [judged]
      have fill : HeardFill (record.after (.read (.order row.accountId (pendingKey row.orderId)))
          (.ok (some order))) row.orderId :=
        .inr ⟨recovering.1, row.accountId, order, List.mem_cons_self, filled⟩
      refine recording_then ⟨.inr recovering.1, fill⟩ (fun _ => .done ?_) fun _ => ?_
      all_goals
        exact Recovering.after _ _ (asked (.ok (some order))) fun _ _ same =>
          nomatch congrArg Event.request same
    · rw [judged]
      exact failing (asked (.ok (some order))) _ kind

/-- The restart recovery of the executions keeps to the rule. -/
theorem reconcilePendingExecutions_rule {staleAfter : Int} (recovering : Recovering record) :
    Safe (recording approvalRule) (reconcilePendingExecutions staleAfter) record
      fun _ learned => Recovering learned := by
  have other (request : Req) (answer : Except Exc request.Ans) {learned : TaskRecord}
      (recovering : Recovering learned) (reads : ∀ tx, request ≠ .write tx) :
      Recovering (learned.after request answer) :=
    Recovering.after _ _ recovering fun _ _ same => reads _ (congrArg Event.request same)
  simp only [reconcilePendingExecutions, clock, dbRead, bind_eq]
  refine recording_then trivial (fun now => ?_) fun raised => other _ _ recovering fun _ => by simp
  have ticked := other .clock (.ok now) recovering fun _ => by simp
  refine recording_then trivial (fun rows => ?_) fun raised => other _ _ ticked fun _ => by simp
  have listed := other (.read .executing) (.ok rows) ticked fun _ => by simp
  refine (Safe.foldlM (fun _ _ learned => Recovering learned) (fun _ learned => Recovering learned) listed
    fun row rest report learned recovering => recoverPending_rule recovering).mono fun outcome _ held => ?_
  cases outcome <;> exact held

/-- The startup keeps to the rule and claims nothing. -/
theorem startup_rule :
    Safe (recording approvalRule) (startup svc) ⟨none, []⟩ fun _ learned => approvalRest learned := by
  have aside {α : Type} {program : Task α} {record : TaskRecord} (only : program.Only Aside)
      (recovering : Recovering record) :
      Safe (recording approvalRule) program record fun _ learned => Recovering learned :=
    (aside_safe only recovering.2).mono fun _ _ facts => ⟨facts.1.trans recovering.1, facts.2⟩
  have fresh : Recovering ⟨none, []⟩ := ⟨rfl, unclaimed_fresh⟩
  unfold startup
  refine Safe.bind (aside (reconcileOverrides_admin.mono fun _ admin => admin.aside) fresh)
    (fun _ swept recovering => ?_) fun _ _ recovering => recovering.2.rest
  have orders : (reconcileOpenOrders svc).Only Aside :=
    reconcileOpenOrders_work.mono fun _ work => work.trading.aside
  refine Safe.attempt_bind (aside orders recovering) fun _ settled recovering => ?_
  exact Safe.attempt_bind (reconcilePendingExecutions_rule recovering)
    fun _ _ recovering => .done recovering.2.rest

/-- Every call keeps to the rule over an order service that answers at will. -/
theorem call_rule (call : Call) :
    Safe (recording approvalRule) (call.program svc openOrderService) ⟨some call, []⟩
      fun _ learned => approvalRest learned := by
  have admin {program : Task Unit} {reply : Reply} (only : program.Only Admin) :
      Safe (recording approvalRule) (program.bind fun _ => .done reply) ⟨some call, []⟩
        fun _ learned => approvalRest learned :=
    aside_call (only_bind (only.mono fun _ admin => admin.aside) fun _ => only_done)
  have trading {program : Task Reply} (only : program.Only Trading) :
      Safe (recording approvalRule) program ⟨some call, []⟩ fun _ learned => approvalRest learned :=
    aside_call (only.mono fun _ trading => trading.aside)
  -- Only the approval handler claims an order; all other calls stay aside of pending orders.
  cases call with
  | placeOrder args => exact trading (only_bind (placeOrder_trading args) fun _ => only_done)
  | placeOcoOrder args => exact trading (only_bind (placeOcoOrder_trading args) fun _ => only_done)
  | executeOnAccounts args =>
    have free (answer : Except Exc ExecuteReply) : Unclaimed
        (Record.after ⟨some (.executeOnAccounts args), []⟩ (.orderService args) answer) :=
      Unclaimed.after _ _ unclaimed_fresh fun _ _ same => nomatch congrArg Event.request same
    exact recording_then (.inl rfl) (fun reply => .done (free (.ok reply)).rest)
      fun raised => (free (.error raised)).rest
  | approvePendingOrder orderId actor =>
    exact Safe.bind approvePendingOrderHandler_rule (fun _ _ rest => .done rest) fun _ _ rest => rest
  | closeAllPositions named actor =>
    exact trading (only_bind (trading_of_work (closeAllPositions_work named)) fun _ => only_done)
  | approvePending orderId => exact aside_call (only_asks trivial fun _ => only_done)
  | rejectPending orderId => exact aside_call (only_asks trivial fun _ => only_done)
  | triggerAlert spec => exact aside_call (only_asks trivial fun _ => only_done)
  | enableRealTrading named actor => exact admin (enableRealTrading_admin _ _)
  | disableRealTrading named actor => exact admin (disableRealTradingHandler_admin _ _)
  | addAccount tags stored actor =>
    exact aside_call (only_bind ((addAccount_admin _ _ _).mono fun _ admin => admin.aside)
      fun _ => only_done)
  | removeAccount named actor => exact admin (removeAccount_admin _ _)
  | setRiskPolicy args =>
    exact aside_call (only_bind ((setRiskPolicy_admin _).mono fun _ admin => admin.aside)
      fun _ => only_done)
  | createOverride args =>
    exact aside_call (only_bind ((createOverride_admin _).mono fun _ admin => admin.aside)
      fun _ => only_done)

end Rasat
