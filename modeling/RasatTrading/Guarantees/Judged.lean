import RasatTrading.Coop.Crash
import RasatTrading.Guarantees.Runs
import RasatTrading.Orders.Judging
import RasatTrading.Overrides

/-! Sized and direct orders of the same size are judged alike, or why they are not. -/

namespace Rasat

open Coop Prog

-- Programs are taken apart by the rules of footprints alone.
seal Prog.Only

variable {svc : Service} {env : Req → Choice} {db after : Database}

/-- A call that runs alone: no lock is held, and the environment answers every request as it always does. -/
def alone (env : Req → Choice) : Server Req Req.Ans Exc Database := fun request db =>
  match perform { db := db } 0 request (env request) with
  | some (answer, world) => (answer, world.db)
  | none => (.error (.other "blocked"), db)

/-- The columns of an order that the claim of equal treatment is about. -/
structure Recorded where
  notional : ℚ
  price : Option ℚ
  stopPrice : Option ℚ
  referencePrice : ℚ
  deriving DecidableEq

/-- The row that a request inserts, when it inserts an order. -/
def inserted : Req → Option Recorded
  | .write (.insertOrder draft _ _) =>
    some ⟨draft.notional, draft.price, draft.stopPrice, draft.referencePrice⟩
  | _ => none

/-- The code under which an exception is reported. -/
def Exc.code : Exc → ErrorCode
  | .rasat error => error.code
  | _ => .internalError

/-- The error code of a call of one account. -/
def codeOf : Except Exc AccountResult → ErrorCode
  | .ok result => (result.error.map RasatError.code).getD .internalError
  | .error raised => raised.code

/-- Whether a call accepts its order, with what it records, or rejects it with an error code. -/
def verdict (env : Req → Choice) (program : Task AccountResult) (db : Database) :
    Except ErrorCode Recorded :=
  match (requests (alone env) program db).findSome? inserted with
  | some recorded => .ok recorded
  | none => .error (codeOf (exec (alone env) program db).1)

/-- Requests that insert no order. -/
def Unplaced (request : Req) : Prop := inserted request = none

/-- What a program passes on as its first value, when it gets that far. -/
def passed {α : Type} (env : Req → Choice) (program : Task (ℚ × α)) (db : Database) : Option ℚ :=
  (exec (alone env) program db).1.toOption.map Prod.fst

/-- How an order is judged: the notional at the balance gate and the caps, and the verdict. -/
structure Judgement where
  notional : Option ℚ
  verdict : Except ErrorCode Recorded
  deriving DecidableEq

/-- How one account of `execute_on_accounts` judges a sized order. -/
def sizedJudgement (svc : Service) (env : Req → Choice) (db : Database) (account : Account)
    (o : SizedOrder) : Judgement where
  notional := passed env ((sizeOrder svc account o).bind fun s => sync (judgeSized svc o s)) db
  verdict := verdict env (executeFor svc o account) db

/-- How `place_order` judges its order. -/
def directJudgement (svc : Service) (env : Req → Choice) (db : Database) (args : PlaceOrderArgs) :
    Judgement where
  notional := passed env ((sync (validateDirect svc args)).bind fun o =>
    (getAccount o.accountId).bind fun account => (readDirect account o).bind fun r =>
      sync (judgeDirect svc o r)) db
  verdict := verdict env (placeOrder svc args) db

/-- The direct order of the computed quantity, at the entry of a sized order with a limit price. -/
def directArgs (args : ExecuteArgs) (accountId : Arg) (o : SizedOrder) (s : Sizing)
    (stop : Option ℚ) : PlaceOrderArgs where
  accountId := accountId
  symbol := args.symbol
  side := args.side
  orderType := args.orderType
  quantity := .number s.sized.quantity
  price := .ofOption (limitPrice o.orderType o.entry)
  stopPrice := .ofOption stop
  idempotencyKey := args.idempotencyKey
  actor := args.actor

/-! A single run. -/

/-- A quiet request leaves the database alone. -/
theorem alone_quiet {request : Req} (quiet : Quiet request) (db : Database) :
    (alone env request db).2 = db := by
  cases request with
  | broker call => rfl
  | market call => rfl
  | clock => rfl
  | uuid => rfl
  | credentials accountId => rfl
  | read query =>
    simp only [alone, perform]
    cases (env (.read query)).dbFault <;> rfl
  | _ => exact absurd quiet id

variable {α : Type} {program : Task α} {next : α → Task AccountResult} {orderType : OrderType} {input : OrderInput}

/-- A verdict goes by what was inserted first. -/
theorem verdict_bind_ok {value : α} (only : program.Only Unplaced)
    (returned : exec (alone env) program db = (.ok value, after)) :
    verdict env (program.bind next) db = verdict env (next value) after := by
  have silent : (requests (alone env) program db).findSome? inserted = none :=
    List.findSome?_eq_none_iff.mpr (requests_only only)
  unfold verdict
  rw [requests_bind_ok returned, exec_bind_ok returned, List.findSome?_append, silent, Option.none_or]

variable {raised : Exc}

/-- A program that raises before anything is inserted rejects with its code. -/
theorem verdict_bind_error (only : program.Only Unplaced)
    (failed : exec (alone env) program db = (.error raised, after)) :
    verdict env (program.bind next) db = .error raised.code := by
  have silent : (requests (alone env) program db).findSome? inserted = none :=
    List.findSome?_eq_none_iff.mpr (requests_only only)
  unfold verdict
  rw [requests_bind_error failed, exec_bind_error failed, silent]
  rfl

variable {outcome : Except Exc α}

/-- A synchronous check that fails rejects with its code. -/
theorem verdict_sync_error (failed : outcome = .error raised) :
    verdict env ((sync outcome).bind next) db = .error raised.code := by
  subst failed
  rfl

/-- A synchronous check that passes leaves the verdict to the rest. -/
theorem verdict_sync_ok {value : α} (passed : outcome = .ok value) :
    verdict env ((sync outcome).bind next) db = verdict env (next value) db := by
  subst passed
  rfl

/-- The lock of the account decides nothing. -/
theorem verdict_withLock {accountId : String} {body : Task AccountResult} :
    verdict env (withLock accountId body) db = verdict env body db := by
  have taken : exec (alone env) (Prog.call (Req.lock accountId)) db = (.ok (), db) := exec_call
  have lock : Unplaced (.lock accountId) := rfl
  have unlock : Unplaced (.unlock accountId) := rfl
  unfold withLock
  rw [verdict_bind_ok (only_call.mpr lock) taken]
  have attempted : exec (alone env) body.attempt db =
      (.ok (exec (alone env) body db).1, (exec (alone env) body db).2) := exec_attempt
  have released (state : Database) :
      exec (alone env) (Prog.call (Req.unlock accountId)) state = (.ok (), state) := exec_call
  unfold verdict ensuring
  rw [requests_bind_ok attempted, exec_bind_ok attempted, requests_attempt,
    requests_bind_ok (released _), exec_bind_ok (released _), requests_call]
  -- Nothing is inserted after the body, and its outcome is passed on.
  have kept : ∀ outcome : Except Exc AccountResult, ∀ state,
      requests (alone env) (Prog.ofExcept outcome : Task AccountResult) state = [] ∧
        (exec (alone env) (Prog.ofExcept outcome) state).1 = outcome := by
    intro outcome state
    cases outcome <;> exact ⟨rfl, rfl⟩
  rw [(kept _ _).1, (kept _ _).2, List.findSome?_append]
  simp only [List.append_nil, List.findSome?_cons, List.findSome?_nil, inserted, Option.or_none]

/-- An error that becomes a result keeps its code. -/
theorem verdict_failedResult {body : Task AccountResult} {accountId symbol : String} :
    verdict env (body.rescue fun raised => return failedResult accountId symbol raised) db =
      verdict env body db := by
  have attempted : exec (alone env) body.attempt db =
      (.ok (exec (alone env) body db).1, (exec (alone env) body db).2) := exec_attempt
  unfold verdict rescue
  rw [requests_bind_ok attempted, exec_bind_ok attempted, requests_attempt]
  cases (exec (alone env) body db).1 with
  | ok result => simp [requests]
  | error raised => cases raised <;> simp [requests, failedResult, codeOf, Exc.code]

/-- An order that passes the validator once more is recorded as it is. -/
theorem verdict_place {p : Placement} {validated : Validated}
    (passes : validateExecutionOrder svc.text {
      side := p.side.name
      orderType := .text p.orderType.name
      quantity := p.quantity
      price := p.price
      stopPrice := p.stopPrice
      marketPrice := some p.referencePrice } = .ok validated) :
    verdict env (placeAndRecord svc p) db =
      .ok ⟨p.notional, p.price, p.stopPrice, p.referencePrice⟩ := by
  unfold placeAndRecord
  simp only [Prog.bind_eq]
  rw [verdict_sync_ok passes]
  cases p.isReal <;> rfl

/-! What both runs read. -/

/-- A sequence that returns came through its first part, which changed nothing when it only read. -/
theorem of_exec_quiet {β : Type} {next : α → Task β} {result : β} (only : program.Only Quiet)
    (returned : (exec (alone env) (program.bind next) db).1 = .ok result) :
    ∃ value, exec (alone env) program db = (.ok value, db) ∧
      (exec (alone env) (next value) db).1 = .ok result := by
  obtain ⟨value, after, first, rest⟩ := of_exec_bind returned
  have same : after = db := by
    have kept : (exec (alone env) program db).2 = db :=
      exec_only only fun request state quiet => alone_quiet quiet state
    rw [← kept, first]
  subst same
  exact ⟨value, first, rest⟩

/-- A synchronous check that a sequence came through. -/
theorem of_exec_sync {β : Type} {next : α → Task β} {result : β}
    (returned : (exec (alone env) ((sync outcome).bind next) db).1 = .ok result) :
    ∃ value, outcome = .ok value ∧ (exec (alone env) (next value) db).1 = .ok result := by
  cases outcome with
  | ok value => exact ⟨value, rfl, returned⟩
  | error raised => cases returned

/-- What a sized order has read when its quantity is computed. -/
structure Sizes (svc : Service) (env : Req → Choice) (db : Database) (account : Account)
    (o : SizedOrder) (s : Sizing) : Prop where
  real : exec (alone env) (isReal account) db = (.ok s.isReal, db)
  symbol : exec (alone env) (requireSymbol o.symbol) db = (.ok (), db)
  price : exec (alone env) (market (.price o.symbol)) db = (.ok s.price, db)
  fresh : ∃ value, s.price = some value
  balances : exec (alone env) (broker (.getBalance account.accountId)) db = (.ok s.balances, db)
  equity : (exec (alone env) (equityFromBalances s.balances quoteAsset) db).1 = .ok s.equity
  filters : exec (alone env) (requireFilters o.symbol) db = (.ok s.filters, db)
  sized : ∃ balance, calculatePositionSize svc.text o.symbol balance o.riskPct o.entry o.stopLoss
    s.filters o.side svc.defaultFeeRate = .ok s.sized

/-- What sizing came to was told from these readings. -/
theorem sizes_of {account : Account} {o : SizedOrder} {s : Sizing}
    (sized : (exec (alone env) (sizeOrder svc account o) db).1 = .ok s) :
    Sizes svc env db account o s := by
  have balanced : Quiet (.broker (.getBalance account.accountId)) := trivial
  have priced : Quiet (.market (.price o.symbol)) := trivial
  unfold sizeOrder at sized
  simp only [Prog.bind_eq, Prog.pure_eq] at sized
  obtain ⟨real, isReal, sized⟩ := of_exec_quiet (isReal_only account) sized
  obtain ⟨_, preflight, sized⟩ := of_exec_quiet (accuracyPreflight_only _ _ _ _) sized
  obtain ⟨price, read, sized⟩ := of_exec_quiet (only_call.mpr priced) sized
  obtain ⟨balances, held, sized⟩ := of_exec_quiet (only_call.mpr balanced) sized
  obtain ⟨equity, valued, sized⟩ := of_exec_quiet (equityFromBalances_only _ _) sized
  obtain ⟨filters, filtered, sized⟩ := of_exec_quiet (requireFilters_only _) sized
  obtain ⟨balance, _, sized⟩ := of_exec_sync sized
  obtain ⟨quantity, computed, same⟩ := of_exec_sync sized
  cases same
  -- The preflight has read the price before.
  have checked : (exec (alone env) (accuracyPreflight o.symbol o.side o.entry o.stopLoss) db).1 =
      .ok () := congrArg Prod.fst preflight
  unfold accuracyPreflight at checked
  simp only [Prog.bind_eq] at checked
  obtain ⟨_, symbol, checked⟩ := of_exec_quiet (requireSymbol_only _) checked
  obtain ⟨earlier, before, checked⟩ := of_exec_quiet (only_call.mpr priced) checked
  obtain ⟨reference, fresh, -⟩ := of_exec_sync checked
  have again : earlier = price := by
    have twice := before.symm.trans read
    simpa using twice
  exact ⟨isReal, symbol, read, ⟨reference, again ▸ checkPriceFresh_ok fresh⟩, held,
    congrArg Prod.fst valued, filtered, balance, computed⟩

variable {direct : DirectOrder}

/-- The same market, as a direct order reads it. -/
theorem Sizes.readDirect {account : Account} {o : SizedOrder} {s : Sizing} {price : ℚ}
    (sizes : Sizes svc env db account o s) (priced : s.price = some price) (named : direct.symbol = o.symbol) :
    exec (alone env) (Rasat.readDirect account direct) db =
      (.ok ⟨s.isReal, s.price, price, s.filters⟩, db) := by
  obtain ⟨accountId, symbol, side, orderType, quantity, limit, stop, key, actor⟩ := direct
  obtain rfl : symbol = o.symbol := named
  unfold Rasat.readDirect
  simp only [Prog.bind_eq, Prog.pure_eq]
  rw [exec_bind_ok sizes.real, exec_bind_ok sizes.symbol, exec_bind_ok sizes.price, priced]
  exact exec_bind_ok sizes.filters

/-! The two verdicts. -/

/-- Quiet requests place nothing. -/
theorem unplaced_of_quiet {request : Req} (quiet : Quiet request) : Unplaced request := by
  cases request <;> first | rfl | exact absurd quiet id

/-- Sizing asks only for readings. -/
theorem sizeOrder_only (account : Account) (o : SizedOrder) : (sizeOrder svc account o).Only Quiet := by
  refine only_bind (isReal_only account) fun _ => ?_
  refine only_bind (accuracyPreflight_only _ _ _ _) fun _ => ?_
  refine only_asks trivial fun _ => only_asks trivial fun _ => ?_
  refine only_bind (equityFromBalances_only _ _) fun _ => only_bind (requireFilters_only _) fun _ => ?_
  exact only_bind only_ofExcept fun _ => only_bind only_ofExcept fun _ => only_done

/-- So does the reading of a direct order, -/
theorem readDirect_only (account : Account) (o : DirectOrder) : (readDirect account o).Only Quiet := by
  refine only_bind (isReal_only account) fun _ => only_bind (requireSymbol_only _) fun _ => ?_
  refine only_asks trivial fun _ => only_bind only_ofExcept fun _ => ?_
  exact only_bind (requireFilters_only _) fun _ => only_done

/-- and of an account. -/
theorem getAccount_only (accountId : String) : (getAccount accountId).Only Quiet :=
  quiet_of_asking (getAccount_asks accountId)

/-- The gate places nothing. -/
theorem unplaced_of_gating (only : program.Only Gating) : program.Only Unplaced := by
  refine only.mono fun request gating => ?_
  cases request with
  | write tx => cases tx <;> first | rfl | exact absurd gating id
  | _ => rfl

/-- So the permission of an order places nothing. -/
theorem allow_only (accountId : String) (account : Account) (symbol key : String) (side : Side)
    (balances : Balances) (baseAsset : String) (quantity notional : ℚ) :
    (allow svc accountId account symbol key side balances baseAsset quantity notional).Only Unplaced := by
  refine only_bind only_ofExcept fun _ => only_bind (unplaced_of_gating (getPolicy_gating _)) fun _ => ?_
  refine only_bind ((currentExposure_only _).mono fun _ => unplaced_of_quiet) fun _ => ?_
  exact unplaced_of_gating (enforceCapsOrOverride_gating _ _ _ _ _)

/-- A program that only reads and returns leaves the state as it is. -/
theorem exec_quiet {value : α} (only : program.Only Quiet)
    (returned : (exec (alone env) program db).1 = .ok value) :
    exec (alone env) program db = (.ok value, db) :=
  Prod.ext returned (exec_only only fun _ state quiet => alone_quiet quiet state)

/-- The part of a verdict that follows the judgement: the gate, the caps and the recorded columns. -/
def settle (svc : Service) (env : Req → Choice) (db : Database) (account : Account) (o : SizedOrder)
    (s : Sizing) (judged : ℚ × Validated) (recorded : Recorded) : Except Exc Recorded :=
  (exec (alone env) (allow svc account.accountId account o.symbol o.idempotencyKey judged.2.side
    s.balances s.filters.baseAsset s.sized.quantity judged.1) db).1.map fun _ => recorded

/-- A run that is allowed and then places its order, as a verdict. -/
theorem verdict_allow {account : Account} {o : SizedOrder} {s : Sizing} {judged : ℚ × Validated}
    {next : Unit → Task AccountResult} {recorded : Recorded}
    (places : ∀ after, verdict env (next ()) after = .ok recorded) :
    verdict env ((allow svc account.accountId account o.symbol o.idempotencyKey judged.2.side
      s.balances s.filters.baseAsset s.sized.quantity judged.1).bind next) db =
      (settle svc env db account o s judged recorded).mapError Exc.code := by
  unfold settle
  rcases ran : exec (alone env) (allow svc account.accountId account o.symbol o.idempotencyKey
    judged.2.side s.balances s.filters.baseAsset s.sized.quantity judged.1) db with ⟨outcome, after⟩
  cases outcome with
  | error raised => exact verdict_bind_error (allow_only _ _ _ _ _ _ _ _ _) ran
  | ok _ => exact (verdict_bind_ok (allow_only _ _ _ _ _ _ _ _ _) ran).trans (places after)

/-- The market price of a sized order is positive when its fields are valid, and its judgement says so. -/
theorem judgeSized_ok {o : SizedOrder} {s : Sizing} {judged : ℚ × Validated}
    (passes : judgeSized svc o s = .ok judged) :
    timesPrice s.sized.quantity s.price = .ok judged.1 ∧
      validateExecutionOrder svc.text (sizedInput o s) = .ok judged.2 := by
  unfold judgeSized at passes
  simp only [bind_ok] at passes
  obtain ⟨notional, times, validated, valid, same⟩ := passes
  cases same
  exact ⟨times, valid⟩

variable {account : Account} {o : SizedOrder} {s : Sizing}

/-- The verdict on a new sized order: its judgement, then the gate and the caps. -/
theorem sized_verdict
    (fresh : (exec (alone env) (dbRead (.order account.accountId o.idempotencyKey)) db).1 = .ok none)
    (sized : (exec (alone env) (sizeOrder svc account o) db).1 = .ok s) :
    verdict env (executeFor svc o account) db =
      (judgeSized svc o s >>= fun judged => settle svc env db account o s judged
        ⟨judged.1, some o.entry, triggerPrice o.orderType o.stopLoss, s.price.getD 0⟩).mapError
          Exc.code := by
  have looked : (dbRead (.order account.accountId o.idempotencyKey)).Only Quiet :=
    only_call.mpr trivial
  have sizes := sizes_of sized
  obtain ⟨price, priced⟩ := sizes.fresh
  obtain ⟨balance, computed⟩ := sizes.sized
  unfold executeFor
  rw [verdict_withLock, verdict_failedResult, executeOneSized_eq,
    verdict_bind_ok (looked.mono fun _ => unplaced_of_quiet) (exec_quiet looked fresh)]
  unfold orExisting
  rw [verdict_bind_ok ((sizeOrder_only account o).mono fun _ => unplaced_of_quiet)
    (exec_quiet (sizeOrder_only account o) sized)]
  cases passes : judgeSized svc o s with
  | error raised => exact verdict_sync_error rfl
  | ok judged =>
    rw [verdict_sync_ok rfl]
    -- The order passes the validator again, now with its entry as the price.
    have positive : ∀ value ∈ some o.entry, 0 < value := by
      rintro value ⟨⟩
      exact calculatePositionSize_entry computed
    obtain ⟨again, valid⟩ := validateExecutionOrder_again (judgeSized_ok passes).2 rfl positive
      fun _ => Option.some_ne_none _
    refine verdict_allow fun after => verdict_place (?_ : _ = Except.ok again)
    have reference : s.price = some (s.price.getD 0) := by rw [priced]; rfl
    show validateExecutionOrder svc.text {
      side := judged.2.side.name
      orderType := .text judged.2.orderType.name
      quantity := s.sized.quantity
      price := some o.entry
      stopPrice := triggerPrice o.orderType o.stopLoss
      marketPrice := some (s.price.getD 0) } = .ok again
    rw [← reference]
    exact valid

/-- A direct order that passes has the notional of its validation. -/
theorem judgeDirect_ok {r : Reading} {judged : ℚ × Validated} (passes : judgeDirect svc direct r = .ok judged) :
    judged.2.notional = some judged.1 ∧
      validateExecutionOrder svc.text (directInput direct r) = .ok judged.2 := by
  unfold judgeDirect at passes
  simp only [bind_ok] at passes
  obtain ⟨validated, valid, notional, required, same⟩ := passes
  cases same
  refine ⟨?_, valid⟩
  unfold requireNotional at required
  split at required
  · cases required
  · rename_i amount found
    exact found.trans (congrArg some (Except.ok.inj required))

/-- The equity asks for prices only. -/
theorem equityFromBalances_prices (balances : Balances) (quote : String) :
    (equityFromBalances balances quote).Only fun request => ∃ call, request = .market call := by
  unfold equityFromBalances
  refine only_foldlM (fun equity entry => ?_) _ _
  obtain ⟨asset, amount⟩ := entry
  dsimp only
  split
  · exact only_done
  · refine only_bind (only_call.mpr ⟨_, rfl⟩) fun price => ?_
    cases price <;> exact only_done

/-- The verdict on a new direct order that names the same market: its judgement, then the gate and the
caps. -/
theorem direct_verdict {args : PlaceOrderArgs} {price : ℚ}
    (sizes : Sizes svc env db account o s) (priced : s.price = some price)
    (valid : validateDirect svc args = .ok direct)
    (listed : (exec (alone env) (getAccount account.accountId) db).1 = .ok account)
    (fresh : (exec (alone env) (dbRead (.order account.accountId o.idempotencyKey)) db).1 = .ok none)
    (named : direct.accountId = account.accountId) (keyed : direct.idempotencyKey = o.idempotencyKey)
    (traded : direct.symbol = o.symbol) (amount : direct.quantity = s.sized.quantity) :
    verdict env (placeOrder svc args) db =
      (judgeDirect svc direct ⟨s.isReal, s.price, price, s.filters⟩ >>= fun judged =>
        settle svc env db account o s judged ⟨judged.1, direct.price, direct.stopPrice, price⟩).mapError
          Exc.code := by
  have looked : (dbRead (.order account.accountId o.idempotencyKey)).Only Quiet :=
    only_call.mpr trivial
  have balanced : (broker (.getBalance account.accountId)).Only Quiet := only_call.mpr trivial
  unfold placeOrder
  simp only [Prog.bind_eq]
  rw [verdict_sync_ok valid, verdict_withLock, executeOneDirect_eq, named, keyed, traded,
    verdict_bind_ok ((getAccount_only _).mono fun _ => unplaced_of_quiet)
      (exec_quiet (getAccount_only _) listed),
    verdict_bind_ok (looked.mono fun _ => unplaced_of_quiet) (exec_quiet looked fresh)]
  unfold orExisting
  rw [verdict_bind_ok ((readDirect_only account direct).mono fun _ => unplaced_of_quiet)
    (sizes.readDirect priced traded)]
  cases passes : judgeDirect svc direct ⟨s.isReal, s.price, price, s.filters⟩ with
  | error raised => exact verdict_sync_error rfl
  | ok judged =>
    rw [verdict_sync_ok rfl,
      verdict_bind_ok (balanced.mono fun _ => unplaced_of_quiet) sizes.balances]
    obtain ⟨notional, validated⟩ := judged
    have checked := (judgeDirect_ok passes).2
    obtain ⟨quantity, limit, stop, -, positive, -⟩ := validateExecutionOrder_ok checked
    have above : ∀ value ∈ validated.price, 0 < value := limit ▸ positive
    obtain ⟨again, valid⟩ := validateExecutionOrder_again checked rfl above fun given => limit ▸ given
    have size : validated.quantity = s.sized.quantity := quantity.trans amount
    dsimp only
    rw [size]
    refine @verdict_allow _ _ _ _ _ _ (notional, validated) _ _ fun after => ?_
    -- The equity was read before, and the market answers the same in every state.
    have valued : (exec (alone env) (equityFromBalances s.balances quoteAsset) after).1 =
        .ok s.equity := by
      rw [← sizes.equity]
      refine exec_apart (equityFromBalances_prices _ _) (fun request state asks => ?_)
        fun request state other asks => ?_
      · obtain ⟨call, rfl⟩ := asks
        rfl
      · obtain ⟨call, rfl⟩ := asks
        rfl
    rw [verdict_bind_ok ((equityFromBalances_only _ _).mono fun _ => unplaced_of_quiet)
      (exec_quiet (equityFromBalances_only _ _) valued)]
    have placed := @verdict_place svc env after
      (directPlacement account direct ⟨s.isReal, s.price, price, s.filters⟩ (notional, validated) s.equity)
      again ?_
    · rw [placed]
      show Except.ok (Recorded.mk notional validated.price validated.stopPrice price) = _
      rw [limit, stop]
      rfl
    · show validateExecutionOrder svc.text {
        side := validated.side.name
        orderType := .text validated.orderType.name
        quantity := validated.quantity
        price := validated.price
        stopPrice := validated.stopPrice
        marketPrice := some price } = .ok again
      rw [quantity, stop, ← priced]
      exact valid

/-! The two inputs of the validator. -/

/-- A check that rejects with one code only. -/
def Refuses {α : Type} (code : ErrorCode) (check : Except Exc α) : Prop :=
  ∀ raised, check = .error raised → raised.code = code

variable {code : ErrorCode}

/-- A check refuses with its own code, -/
theorem refuses_rejectIf {condition : Prop} [Decidable condition]
    {message : String} : Refuses code (rejectIf condition code message) := by
  intro raised failed
  unfold rejectIf reject at failed
  split at failed
  · exact Except.error.inj failed ▸ rfl
  · cases failed

/-- a value refuses nothing, -/
theorem refuses_ok {value : α} : Refuses code (.ok value) := by
  intro raised failed
  cases failed

/-- and a sequence refuses as its parts do. -/
theorem refuses_bind {β : Type} {first : Except Exc α}
    {next : α → Except Exc β} (check : Refuses code first) (rest : ∀ value, Refuses code (next value)) :
    Refuses code (first >>= next) := by
  intro raised failed
  cases first with
  | ok value => exact rest value raised failed
  | error early => exact check raised (congrArg Except.error (Except.error.inj failed))

/-- A number that has to be positive is an invalid request otherwise, -/
theorem refuses_positive {value : Option ℚ} {name : String} :
    Refuses .invalidRequest (requirePositiveOptional value name) := by
  cases value with
  | none => exact refuses_ok
  | some number => exact refuses_rejectIf

/-- and so are the wrong fields of a conditional order. -/
theorem refuses_conditionalFields {side : Side} {price stopPrice stopLimitPrice marketPrice : Option ℚ} :
    Refuses .invalidRequest
      (checkConditionalFields side orderType price stopPrice stopLimitPrice marketPrice) := by
  have against (label reference : String) :
      Refuses .invalidRequest (checkStopAgainstMarket side stopPrice marketPrice label reference) :=
    refuses_bind refuses_rejectIf fun _ => refuses_rejectIf
  have geometry : Refuses .invalidRequest (checkOcoGeometry side price stopPrice stopLimitPrice) := by
    cases side <;> exact refuses_bind refuses_rejectIf fun _ => refuses_rejectIf
  cases orderType with
  | market => exact refuses_ok
  | limit => exact refuses_rejectIf
  | stopLossLimit =>
    exact refuses_bind refuses_rejectIf fun _ => refuses_bind refuses_rejectIf fun _ => against _ _
  | oco =>
    refine refuses_bind refuses_rejectIf fun _ => refuses_bind refuses_rejectIf fun _ => ?_
    exact refuses_bind refuses_rejectIf fun _ => refuses_bind geometry fun _ => against _ _

variable {filters : SymbolFilters} {text : Text}

/-- A price off the filters violates them, -/
theorem refuses_priceFilter {name : String}
    {price : Option ℚ} : Refuses .filterViolation (checkPriceFilter text filters name price) := by
  cases price with
  | none => exact refuses_ok
  | some value => exact refuses_bind refuses_rejectIf fun _ => refuses_rejectIf

/-- as does anything else that they exclude. -/
theorem refuses_filters {quantity amount : ℚ} {price stopPrice stopLimitPrice : Option ℚ} :
    Refuses .filterViolation (checkFilters text filters orderType quantity price stopPrice
      stopLimitPrice (some amount)) := by
  refine refuses_bind refuses_rejectIf fun _ => refuses_bind refuses_rejectIf fun _ => ?_
  refine refuses_bind refuses_rejectIf fun _ => refuses_bind refuses_rejectIf fun _ => ?_
  refine refuses_bind refuses_rejectIf fun _ => refuses_bind refuses_priceFilter fun _ => ?_
  exact refuses_bind refuses_priceFilter fun _ => refuses_bind refuses_priceFilter fun _ =>
    refuses_rejectIf

/-- The checks of the validator that need no filters. -/
def checkFields (side : Side) (orderType : OrderType) (input : OrderInput) : Except Exc Unit := do
  requirePositive input.quantity "quantity"
  requirePositiveOptional input.price "price"
  requirePositiveOptional input.stopPrice "stop_price"
  requirePositiveOptional input.stopLimitPrice "stop_limit_price"
  requirePositiveOptional input.marketPrice "market_price"
  checkConditionalFields side orderType input.price input.stopPrice input.stopLimitPrice
    input.marketPrice

/-- The checks of the validator against given filters. -/
def checkAgainst (text : Text) (filters : SymbolFilters) (orderType : OrderType)
    (input : OrderInput) : Except Exc Unit :=
  checkFilters text filters orderType input.quantity input.price input.stopPrice
    input.stopLimitPrice (notionalOf input.quantity input.price input.marketPrice)

/-- The fields of an order are checked as a request. -/
theorem refuses_fields {side : Side} : Refuses .invalidRequest (checkFields side orderType input) := by
  refine refuses_bind refuses_rejectIf fun _ => refuses_bind refuses_positive fun _ => ?_
  refine refuses_bind refuses_positive fun _ => refuses_bind refuses_positive fun _ => ?_
  exact refuses_bind refuses_positive fun _ => refuses_conditionalFields

/-- The validator checks the fields and then, when there are filters, against them. -/
theorem validateFields_eq {side : Side} : validateFields text side orderType input =
      (checkFields side orderType input >>= fun _ =>
        input.filters.elim (.ok ()) (fun filters => checkAgainst text filters orderType input) >>=
          fun _ => .ok {
            side := side
            orderType := orderType
            quantity := input.quantity
            price := input.price
            stopPrice := input.stopPrice
            stopLimitPrice := input.stopLimitPrice
            notional := notionalOf input.quantity input.price input.marketPrice }) := by
  unfold validateFields checkFields
  simp only [LawfulMonad.bind_assoc]
  cases input.filters <;> rfl

/-- What both orders give to the validator, with the stop price of one of them. -/
def stopped (o : SizedOrder) (s : Sizing) (stop : Option ℚ) : OrderInput :=
  { sizedInput o s with stopPrice := stop }

/-- The stop price of the direct order: that of the sized one, or a limit order is given one as well. -/
def StopGiven (o : SizedOrder) (stop : Option ℚ) : Prop :=
  stop = triggerPrice o.orderType o.stopLoss ∨ (o.orderType = .limit ∧ stop = some o.stopLoss)

/-- A positive stop price of a limit order is checked against nothing but the filters. -/
theorem checkFields_limit {side : Side} {stopLoss : ℚ} (positive : 0 < stopLoss) :
    checkFields side .limit { input with stopPrice := some stopLoss } =
      checkFields side .limit { input with stopPrice := none } := by
  have passes : requirePositiveOptional (some stopLoss) "stop_price" = .ok () :=
    requirePositiveOptional_ok.mpr fun number same => Option.mem_some_iff.mp same ▸ positive
  unfold checkFields
  dsimp only
  rw [passes]
  rfl

/-- An order that passes the filters with its stop price passes them without it. -/
theorem checkAgainst_stopless (passes : checkAgainst text filters orderType input = .ok ()) :
    checkAgainst text filters orderType { input with stopPrice := none } = .ok () := by
  unfold checkAgainst checkFilters at passes ⊢
  simp only [bind_ok] at passes ⊢
  obtain ⟨_, finite, _, finitePrice, _, low, _, high, _, aligned, _, limit, _, -, rest⟩ := passes
  exact ⟨(), finite, (), finitePrice, (), low, (), high, (), aligned, (), limit, (), rfl, rest⟩

/-- The fields that pass with a market price pass before it is known. -/
theorem checkFields_unpriced {side : Side} (passes : checkFields side orderType input = .ok ()) :
    checkFields side orderType { input with filters := none, marketPrice := none } = .ok () := by
  unfold checkFields at passes ⊢
  simp only [bind_ok] at passes ⊢
  obtain ⟨_, quantity, _, price, _, stop, _, limit, _, -, conditional⟩ := passes
  refine ⟨(), quantity, (), price, (), stop, (), limit, (), rfl, ?_⟩
  -- Without a market price no stop is beyond it.
  have open_ (label reference : String) :
      checkStopAgainstMarket side input.stopPrice none label reference = .ok () := by
    cases stops : input.stopPrice <;> simp [checkStopAgainstMarket, related, rejectIf] <;> rfl
  cases orderType with
  | market => rfl
  | limit => exact conditional
  | stopLossLimit =>
    simp only [checkConditionalFields, bind_ok] at conditional ⊢
    obtain ⟨_, priced, _, triggered, -⟩ := conditional
    exact ⟨(), priced, (), triggered, open_ _ _⟩
  | oco =>
    simp only [checkConditionalFields, bind_ok] at conditional ⊢
    obtain ⟨_, priced, _, triggered, _, limited, _, geometry, -⟩ := conditional
    exact ⟨(), priced, (), triggered, (), limited, (), geometry, open_ _ _⟩

section Inputs

variable {side : Side} {price : ℚ} {stop : Option ℚ}

/-- The fields of both orders are checked alike. -/
theorem checkFields_given (given : StopGiven o stop) (positive : 0 < o.stopLoss) :
    checkFields side o.orderType (stopped o s stop) =
      checkFields side o.orderType (stopped o s (triggerPrice o.orderType o.stopLoss)) := by
  rcases given with rfl | ⟨limit, rfl⟩
  · rfl
  · rw [limit]
    exact checkFields_limit positive

/-- Fields that both orders share, in what the validator makes of them. -/
theorem validateFields_stopped :
    validateFields svc.text side o.orderType (stopped o s stop) =
      (checkFields side o.orderType (stopped o s stop) >>= fun _ =>
        checkAgainst svc.text s.filters o.orderType (stopped o s stop) >>= fun _ => .ok {
          side := side
          orderType := o.orderType
          quantity := s.sized.quantity
          price := limitPrice o.orderType o.entry
          stopPrice := stop
          stopLimitPrice := none
          notional := notionalOf s.sized.quantity (limitPrice o.orderType o.entry) s.price }) :=
  validateFields_eq

/-- When the validator rejects the sized order, it rejects the direct one with the same code. -/
theorem rejected_alike (given : StopGiven o stop) (positive : 0 < o.stopLoss)
    (priced : s.price = some price) (rejects : validateFields svc.text side o.orderType
      (stopped o s (triggerPrice o.orderType o.stopLoss)) = .error raised) :
    ∃ other, validateFields svc.text side o.orderType (stopped o s stop) = .error other ∧
      other.code = raised.code := by
  have notional : ∃ amount, notionalOf s.sized.quantity (limitPrice o.orderType o.entry) s.price =
      some amount := by
    rw [priced]
    unfold limitPrice
    split <;> exact ⟨_, rfl⟩
  obtain ⟨amount, worth⟩ := notional
  have filtered (stop : Option ℚ) : Refuses .filterViolation
      (checkAgainst svc.text s.filters o.orderType (stopped o s stop)) := by
    show Refuses .filterViolation (checkFilters svc.text s.filters o.orderType s.sized.quantity
      (limitPrice o.orderType o.entry) stop none
        (notionalOf s.sized.quantity (limitPrice o.orderType o.entry) s.price))
    rw [worth]
    exact refuses_filters
  rcases given with rfl | ⟨limit, rfl⟩
  · exact ⟨raised, rejects, rfl⟩
  rw [validateFields_stopped] at rejects ⊢
  rw [checkFields_given (.inr ⟨limit, rfl⟩) positive]
  cases fields : checkFields side o.orderType
      (stopped o s (triggerPrice o.orderType o.stopLoss)) with
  | error early =>
    rw [fields] at rejects
    exact ⟨early, rfl, congrArg Exc.code (Except.error.inj rejects)⟩
  | ok _ =>
    rw [fields] at rejects
    cases against : checkAgainst svc.text s.filters o.orderType
        (stopped o s (triggerPrice o.orderType o.stopLoss)) with
    | ok _ =>
      rw [against] at rejects
      cases rejects
    | error first =>
      rw [against] at rejects
      cases later : checkAgainst svc.text s.filters o.orderType (stopped o s (some o.stopLoss)) with
      | ok _ =>
        -- The limit order has no trigger, so it would have passed as well.
        have passes := checkAgainst_stopless later
        have none_ : triggerPrice o.orderType o.stopLoss = none := by rw [limit]; rfl
        rw [none_] at against
        cases against.symm.trans passes
      | error second =>
        refine ⟨second, rfl, (filtered _ _ later).trans ?_⟩
        rw [← Except.error.inj rejects]
        exact (filtered _ _ against).symm

/-- What `place_order` gives to the validator before it takes the lock. -/
def early (o : SizedOrder) (s : Sizing) (stop : Option ℚ) : OrderInput :=
  { stopped o s stop with filters := none, marketPrice := none }

/-- The fields that pass early or not: what fails early fails later, with the same code. -/
theorem validateFields_early
    (rejects : validateFields svc.text side o.orderType (early o s stop) = .error raised) :
    ∃ other, checkFields side o.orderType (stopped o s stop) = .error other ∧
      other.code = raised.code := by
  have invalid : raised.code = .invalidRequest := by
    rw [validateFields_eq] at rejects
    exact refuses_bind refuses_fields (fun _ => refuses_bind refuses_ok fun _ => refuses_ok) raised rejects
  cases fields : checkFields side o.orderType (stopped o s stop) with
  | error other => exact ⟨other, rfl, (refuses_fields other fields).trans invalid.symm⟩
  | ok _ =>
    -- Fields that pass at the market pass before it is known.
    have passes : checkFields side o.orderType (early o s stop) = .ok () := checkFields_unpriced fields
    rw [validateFields_eq, passes] at rejects
    cases rejects

/-- The order that `place_order` makes of these arguments. -/
def directOrder (account : Account) (o : SizedOrder) (s : Sizing) (stop : Option ℚ) (side : Side) :
    DirectOrder where
  accountId := account.accountId
  symbol := o.symbol
  side := side
  orderType := o.orderType
  quantity := s.sized.quantity
  price := limitPrice o.orderType o.entry
  stopPrice := stop
  idempotencyKey := o.idempotencyKey
  actor := o.actor

/-- A number that may be absent is read back. -/
theorem optionalNumber_ofOption (text : Text) (value : Option ℚ) (name : String) :
    optionalNumber text (.ofOption value) name = .ok value := by
  cases value <;> rfl

/-- A computation that came out goes on with its value. -/
theorem ok_bind {α β : Type} {value : α} {next : α → Except Exc β} :
    (Except.ok value >>= next) = next value := rfl

/-- The direct order is checked early, and its fields are those of the sized one. -/
theorem validateDirect_eq {args : ExecuteArgs} {accountId : Arg} (parsed : validateSized svc args = .ok o)
    (named : requireString accountId "account_id" = .ok account.accountId) :
    validateDirect svc (directArgs args accountId o s stop) =
      (normalizeSide svc.text o.side >>= fun side =>
        (validateFields svc.text side o.orderType (early o s stop)).map fun _ =>
          directOrder account o s stop side) := by
  unfold validateSized at parsed
  simp only [bind_ok] at parsed
  obtain ⟨key, keyed, symbol, traded, side, sided, entry, -, stopLoss, -, risk, -, orderType, typed, same⟩ :=
    parsed
  cases same
  unfold validateDirect directArgs
  dsimp only
  -- The direct call parses again what the bulk call has parsed, with the same outcome.
  rw [named, keyed, traded, sided, optionalNumber_ofOption, optionalNumber_ofOption]
  simp only [ok_bind, requireNumber]
  unfold validateExecutionOrder
  dsimp only
  cases sideOk : normalizeSide svc.text side with
  | error raised => rfl
  | ok normal =>
    rw [typed]
    show (validateFields svc.text normal orderType (early
        ⟨symbol, side, entry, stopLoss, risk, key, orderType, actorOr args.actor⟩ s stop) >>= _) =
      (validateFields svc.text normal orderType (early
        ⟨symbol, side, entry, stopLoss, risk, key, orderType, actorOr args.actor⟩ s stop)).map _
    cases fields : validateFields svc.text normal orderType (early
        ⟨symbol, side, entry, stopLoss, risk, key, orderType, actorOr args.actor⟩ s stop) with
    | error raised => rfl
    | ok validated =>
      obtain rfl := validateFields_ok fields
      rfl

/-- What the validator accepts passes its checks with the side and the order type of the order. -/
theorem validateFields_of {validated : Validated}
    (valid : validateExecutionOrder svc.text (stopped o s stop) = .ok validated) {side : Side}
    (sided : normalizeSide svc.text o.side = .ok side) :
    validateFields svc.text side o.orderType (stopped o s stop) = .ok validated := by
  unfold validateExecutionOrder at valid
  rw [show normalizeSide svc.text (stopped o s stop).side = _ from sided] at valid
  have typed : normalizeOrderType svc.text (stopped o s stop).orderType = .ok o.orderType :=
    normalizeOrderType_name _ _
  rw [typed] at valid
  exact valid

/-- An order that passes the validator has a limit price exactly when it is no market order. -/
theorem limitPrice_of_valid {validated : Validated}
    (valid : validateExecutionOrder svc.text (stopped o s stop) = .ok validated) :
    limitPrice o.orderType o.entry = if o.orderType = .market then none else some o.entry := by
  cases sided : normalizeSide svc.text o.side with
  | error raised =>
    unfold validateExecutionOrder at valid
    rw [show normalizeSide svc.text (stopped o s stop).side = _ from sided] at valid
    cases valid
  | ok side =>
    have fields := validateFields_of valid sided
    cases typed : o.orderType with
    | market => rfl
    | limit => rfl
    | stopLossLimit => rfl
    | oco =>
      -- A list of two orders has no single price, so it does not pass.
      obtain ⟨-, -, -, -, -, -, -, conditional⟩ := validateExecutionOrder_ok valid
      rw [validateFields_ok fields] at conditional
      have none_ : (stopped o s stop).price = none := by
        show limitPrice o.orderType o.entry = none
        rw [typed]
        rfl
      dsimp only at conditional
      rw [typed, none_] at conditional
      cases conditional

/-- The judgement of the sized order, at the market price. -/
theorem judgeSized_eq (priced : s.price = some price) :
    judgeSized svc o s = (normalizeSide svc.text o.side >>= fun side =>
      (validateFields svc.text side o.orderType
        (stopped o s (triggerPrice o.orderType o.stopLoss))).map fun validated =>
          (s.sized.quantity * price, validated)) := by
  unfold judgeSized validateExecutionOrder
  rw [show timesPrice s.sized.quantity s.price = .ok _ by rw [priced]; rfl]
  simp only [ok_bind, sizedInput, normalizeOrderType_name]
  cases normalizeSide svc.text o.side with
  | error raised => rfl
  | ok normal =>
    show (validateFields svc.text normal o.orderType
        (stopped o s (triggerPrice o.orderType o.stopLoss)) >>= _) =
      (validateFields svc.text normal o.orderType
        (stopped o s (triggerPrice o.orderType o.stopLoss))).map _
    cases validateFields svc.text normal o.orderType
      (stopped o s (triggerPrice o.orderType o.stopLoss)) <;> rfl

/-- The judgement of the direct order, at its own price when it has one. -/
theorem judgeDirect_eq (priced : s.price = some price) :
    judgeDirect svc (directOrder account o s stop side) ⟨s.isReal, s.price, price, s.filters⟩ =
      (validateFields svc.text side o.orderType (stopped o s stop)).map fun validated =>
        (s.sized.quantity * (limitPrice o.orderType o.entry).getD price, validated) := by
  unfold judgeDirect
  unfold validateExecutionOrder
  show ((normalizeSide svc.text side.name >>= fun side =>
    normalizeOrderType svc.text (.text o.orderType.name) >>= fun orderType => _) >>= _) = _
  rw [normalizeOrderType_name, normalizeSide_name]
  show (validateFields svc.text side o.orderType (stopped o s stop) >>= _) = _
  cases fields : validateFields svc.text side o.orderType (stopped o s stop) with
  | error raised => rfl
  | ok validated =>
    have worth : validated.notional =
        some (s.sized.quantity * (limitPrice o.orderType o.entry).getD price) := by
      rw [validateFields_ok fields]
      show notionalOf s.sized.quantity (limitPrice o.orderType o.entry) s.price = _
      rw [priced]
      cases limitPrice o.orderType o.entry <;> rfl
    show (requireNotional validated.notional >>= _) = _
    rw [worth]
    rfl

/-- What `place_order` makes of the direct order before the gate. -/
def judgedDirect (svc : Service) (account : Account) (o : SizedOrder) (s : Sizing) (stop : Option ℚ)
    (price : ℚ) : Except Exc (ℚ × Validated) :=
  normalizeSide svc.text o.side >>= fun side =>
    validateFields svc.text side o.orderType (early o s stop) >>= fun _ =>
      judgeDirect svc (directOrder account o s stop side) ⟨s.isReal, s.price, price, s.filters⟩

/-- Both orders are rejected with one code, or they are judged at their own prices. -/
theorem judgements (given : StopGiven o stop) (positive : 0 < o.stopLoss) (priced : s.price = some price) :
    (∀ raised, judgeSized svc o s = .error raised →
      ∃ other, judgedDirect svc account o s stop price = .error other ∧ other.code = raised.code) ∧
    ∀ validated, validateExecutionOrder svc.text (stopped o s stop) = .ok validated →
      ∃ sized, judgeSized svc o s = .ok (s.sized.quantity * price, sized) ∧
        judgedDirect svc account o s stop price =
          .ok (s.sized.quantity * (limitPrice o.orderType o.entry).getD price, validated) ∧
        sized.side = validated.side := by
  rw [judgeSized_eq priced]
  unfold judgedDirect
  cases sided : normalizeSide svc.text o.side with
  | error early =>
    refine ⟨fun raised same => ⟨early, rfl, congrArg Exc.code (Except.error.inj same)⟩, ?_⟩
    intro validated valid
    unfold validateExecutionOrder at valid
    rw [show normalizeSide svc.text (stopped o s stop).side = _ from sided] at valid
    cases valid
  | ok side =>
    constructor
    · intro raised same
      -- The early check of the direct order fails only where the fields of both do.
      have rejects : validateFields svc.text side o.orderType
          (stopped o s (triggerPrice o.orderType o.stopLoss)) = .error raised := by
        cases checked : validateFields svc.text side o.orderType
            (stopped o s (triggerPrice o.orderType o.stopLoss)) with
        | ok _ =>
          simp only [Bind.bind, Except.bind, checked] at same
          cases same
        | error _ =>
          simp only [Bind.bind, Except.bind, checked] at same
          exact congrArg Except.error (Except.error.inj same)
      simp only [Bind.bind, Except.bind]
      cases first : validateFields svc.text side o.orderType (early o s stop) with
      | error other =>
        obtain ⟨later, fields, code⟩ := validateFields_early first
        rw [checkFields_given given positive] at fields
        rw [validateFields_stopped, fields] at rejects
        refine ⟨other, rfl, code.symm.trans (congrArg Exc.code (Except.error.inj rejects))⟩
      | ok _ =>
        obtain ⟨other, rejected, code⟩ := rejected_alike given positive priced rejects
        exact ⟨other, by rw [judgeDirect_eq priced, rejected]; rfl, code⟩
    · intro validated valid
      have passes := validateFields_of valid sided
      simp only [Bind.bind, Except.bind]
      cases first : validateFields svc.text side o.orderType (early o s stop) with
      | error other =>
        obtain ⟨later, fields, -⟩ := validateFields_early first
        rw [validateFields_stopped, fields] at passes
        cases passes
      | ok _ =>
        cases checked : validateFields svc.text side o.orderType
            (stopped o s (triggerPrice o.orderType o.stopLoss)) with
        | error raised =>
          obtain ⟨other, rejected, -⟩ := rejected_alike given positive priced checked
          cases rejected.symm.trans passes
        | ok own =>
          refine ⟨own, rfl, by rw [judgeDirect_eq priced, passes]; rfl, ?_⟩
          rw [validateFields_ok checked, validateFields_ok passes]

/-- A judgement and the columns that an accepted order has. -/
def judgementOf (svc : Service) (env : Req → Choice) (db : Database) (account : Account)
    (o : SizedOrder) (s : Sizing) (judged : Except Exc (ℚ × Validated)) (recorded : ℚ → Recorded) :
    Judgement where
  notional := judged.toOption.map Prod.fst
  verdict := (judged >>= fun judged =>
    settle svc env db account o s judged (recorded judged.1)).mapError Exc.code

/-- The sized order is judged by its judgement alone. -/
theorem sizedJudgement_eq (priced : s.price = some price)
    (fresh : (exec (alone env) (dbRead (.order account.accountId o.idempotencyKey)) db).1 = .ok none)
    (sized : (exec (alone env) (sizeOrder svc account o) db).1 = .ok s) :
    sizedJudgement svc env db account o = judgementOf svc env db account o s (judgeSized svc o s)
      fun notional =>
        ⟨notional, some o.entry, triggerPrice o.orderType o.stopLoss, price⟩ := by
  unfold sizedJudgement judgementOf passed
  rw [sized_verdict fresh sized, priced, exec_bind_ok (exec_quiet (sizeOrder_only account o) sized)]
  cases judgeSized svc o s <;> rfl

/-- The direct order is judged by its judgement alone. -/
theorem directJudgement_eq {args : ExecuteArgs} {accountId : Arg} (parsed : validateSized svc args = .ok o)
    (named : requireString accountId "account_id" = .ok account.accountId)
    (sizes : Sizes svc env db account o s) (priced : s.price = some price)
    (listed : (exec (alone env) (getAccount account.accountId) db).1 = .ok account)
    (fresh : (exec (alone env) (dbRead (.order account.accountId o.idempotencyKey)) db).1 = .ok none) :
    directJudgement svc env db (directArgs args accountId o s stop) =
      judgementOf svc env db account o s (judgedDirect svc account o s stop price)
        fun notional => ⟨notional, limitPrice o.orderType o.entry, stop, price⟩ := by
  have checked : validateDirect svc (directArgs args accountId o s stop) = _ :=
    validateDirect_eq parsed named
  unfold directJudgement judgementOf judgedDirect passed
  -- The checks before the first request decide whether anything is read at all.
  cases sided : normalizeSide svc.text o.side with
  | error raised =>
    rw [sided] at checked
    have failed : validateDirect svc (directArgs args accountId o s stop) = .error raised := checked
    rw [failed]
    unfold placeOrder
    simp only [Prog.bind_eq]
    rw [verdict_sync_error failed]
    rfl
  | ok side =>
    rw [sided] at checked
    cases first : validateFields svc.text side o.orderType (early o s stop) with
    | error raised =>
      have failed : validateDirect svc (directArgs args accountId o s stop) = .error raised := by
        refine checked.trans ?_
        simp only [Bind.bind, Except.bind, first]
        rfl
      rw [failed]
      unfold placeOrder
      simp only [Prog.bind_eq]
      rw [verdict_sync_error failed]
      simp only [Bind.bind, Except.bind, first]
      rfl
    | ok _ =>
      have valid : validateDirect svc (directArgs args accountId o s stop) =
          .ok (directOrder account o s stop side) := by
        refine checked.trans ?_
        simp only [Bind.bind, Except.bind, first]
        rfl
      rw [direct_verdict sizes priced valid listed fresh rfl rfl rfl rfl, valid]
      -- What the direct order reads again is what the sizing has read.
      have read : exec (alone env) ((sync (.ok (directOrder account o s stop side))).bind fun direct =>
          (getAccount direct.accountId).bind fun account => (readDirect account direct).bind fun r =>
            sync (judgeDirect svc direct r)) db =
          exec (alone env) (sync (judgeDirect svc (directOrder account o s stop side)
            ⟨s.isReal, s.price, price, s.filters⟩)) db := by
        show exec (alone env) ((getAccount account.accountId).bind _) db = _
        rw [exec_bind_ok (exec_quiet (getAccount_only _) listed)]
        exact exec_bind_ok (sizes.readDirect priced rfl)
      rw [read]
      simp only [Bind.bind, Except.bind, first]
      cases judgeDirect svc (directOrder account o s stop side)
        ⟨s.isReal, s.price, price, s.filters⟩ <;> rfl

/-- A direct order that is judged has passed the validator with the fields of the sized one. -/
theorem judgedDirect_ok {judged : ℚ × Validated} (priced : s.price = some price)
    (passes : judgedDirect svc account o s stop price = .ok judged) :
    validateExecutionOrder svc.text (stopped o s stop) = .ok judged.2 := by
  unfold judgedDirect at passes
  simp only [bind_ok] at passes
  obtain ⟨side, sided, _, -, direct⟩ := passes
  rw [judgeDirect_eq priced] at direct
  unfold validateExecutionOrder
  rw [show normalizeSide svc.text (stopped o s stop).side = _ from sided,
    show normalizeOrderType svc.text (stopped o s stop).orderType = .ok o.orderType from
      normalizeOrderType_name _ _]
  show validateFields svc.text side o.orderType (stopped o s stop) = .ok judged.2
  cases fields : validateFields svc.text side o.orderType (stopped o s stop) with
  | error raised =>
    rw [fields] at direct
    cases direct
  | ok validated =>
    rw [fields] at direct
    exact congrArg (Except.ok ∘ Prod.snd) (Except.ok.inj direct)

end Inputs

/-- The gate or the caps refuse the order at the market price. -/
def Refused (svc : Service) (env : Req → Choice) (db : Database) (account : Account) (o : SizedOrder)
    (s : Sizing) (side : Side) : Prop :=
  ∃ raised, (exec (alone env) (allow svc account.accountId account o.symbol o.idempotencyKey side
    s.balances s.filters.baseAsset s.sized.quantity (s.sized.quantity * s.price.getD 0)) db).1 =
      .error raised

/-- When both orders are judged alike: the validator rejects the sized one, or its entry is the market
price and it has no columns of its own, or the gate or the caps refuse it at the market price. -/
def JudgedAlike (svc : Service) (env : Req → Choice) (db : Database) (account : Account)
    (o : SizedOrder) (s : Sizing) (stop : Option ℚ) : Prop :=
  (∃ raised, validateExecutionOrder svc.text (sizedInput o s) = .error raised) ∨
    ∃ validated, validateExecutionOrder svc.text { sizedInput o s with stopPrice := stop } =
        .ok validated ∧
      (o.orderType = .market ∨ s.price = some o.entry) ∧
      ((o.orderType ≠ .market ∧ stop = triggerPrice o.orderType o.stopLoss) ∨
        Refused svc env db account o s validated.side)

/-- `execute_on_accounts` and `place_order` judge the same order alike exactly under these conditions. -/
theorem judged_alike_iff {args : ExecuteArgs} {o : SizedOrder} {account : Account} {accountId : Arg}
    {s : Sizing} {stop : Option ℚ} (parsed : validateSized svc args = .ok o)
    (named : requireString accountId "account_id" = .ok account.accountId)
    (listed : (exec (alone env) (getAccount account.accountId) db).1 = .ok account)
    (fresh : (exec (alone env) (dbRead (.order account.accountId o.idempotencyKey)) db).1 = .ok none)
    (sized : (exec (alone env) (sizeOrder svc account o) db).1 = .ok s) (given : StopGiven o stop) :
    sizedJudgement svc env db account o =
        directJudgement svc env db (directArgs args accountId o s stop) ↔
      JudgedAlike svc env db account o s stop := by
  have sizes := sizes_of sized
  obtain ⟨price, priced⟩ := sizes.fresh
  obtain ⟨balance, computed⟩ := sizes.sized
  obtain ⟨positive, quantity⟩ := calculatePositionSize_positive computed
  obtain ⟨rejected, accepted⟩ := @judgements svc account _ _ _ _ given positive priced
  have direct : directJudgement svc env db (directArgs args accountId o s stop) = _ :=
    directJudgement_eq parsed named sizes priced listed fresh
  rw [sizedJudgement_eq priced fresh sized, direct]
  cases checked : validateExecutionOrder svc.text (stopped o s stop) with
  | ok validated =>
    obtain ⟨own, sizedOk, directOk, side⟩ := accepted validated checked
    have valid := (judgeSized_ok sizedOk).2
    have limit := limitPrice_of_valid checked
    have market : s.price.getD 0 = price := by rw [priced]; rfl
    rw [sizedOk, directOk, limit]
    constructor
    · intro same
      refine .inr ⟨validated, checked, ?_⟩
      obtain ⟨worth, verdicts⟩ := Judgement.mk.inj same
      have prices : price = (if o.orderType = .market then none else some o.entry).getD price :=
        mul_left_cancel₀ quantity.ne' (Option.some.inj worth)
      refine ⟨?_, ?_⟩
      · by_cases atMarket : o.orderType = .market
        · exact .inl atMarket
        · rw [if_neg atMarket] at prices
          exact .inr (priced.trans (congrArg some prices))
      · rw [← prices] at verdicts
        unfold Refused
        rw [market]
        simp only [Bind.bind, Except.bind, settle, side] at verdicts
        cases ran : (exec (alone env) (allow svc account.accountId account o.symbol o.idempotencyKey
            validated.side s.balances s.filters.baseAsset s.sized.quantity
            (s.sized.quantity * price)) db).1 with
        | error raised => exact .inr ⟨raised, rfl⟩
        | ok _ =>
          rw [ran] at verdicts
          obtain ⟨-, priceSame, stopSame, -⟩ := Recorded.mk.inj (Except.ok.inj verdicts)
          refine .inl ⟨fun atMarket => ?_, stopSame.symm⟩
          rw [if_pos atMarket] at priceSame
          cases priceSame
    · rintro (⟨raised, rejects⟩ | ⟨again, same, limited, columns⟩)
      · cases rejects.symm.trans valid
      obtain rfl : validated = again := Except.ok.inj (checked.symm.trans same)
      have prices : (if o.orderType = .market then none else some o.entry).getD price = price := by
        rcases limited with atMarket | entry
        · rw [if_pos atMarket]
          rfl
        · obtain rfl : price = o.entry := Option.some.inj (priced.symm.trans entry)
          split <;> rfl
      rw [prices]
      rcases columns with ⟨apart, rfl⟩ | ⟨raised, refused⟩
      · -- Both orders have the same columns.
        rw [if_neg apart]
        simp only [judgementOf, Bind.bind, Except.bind, settle, side]
        rfl
      · -- Neither order is recorded.
        rw [market] at refused
        simp only [judgementOf, Bind.bind, Except.bind, settle, side, refused]
        rfl
  | error raised =>
    -- The direct order is rejected, so the sized one has to be.
    cases sizedCase : judgeSized svc o s with
    | error early =>
      obtain ⟨other, directCase, code⟩ := rejected early sizedCase
      rw [directCase]
      refine iff_of_true ?_ (.inl ?_)
      · exact congrArg (Judgement.mk none ∘ Except.error) code.symm
      · cases fields : validateExecutionOrder svc.text (sizedInput o s) with
        | error raised => exact ⟨raised, rfl⟩
        | ok validated =>
          unfold judgeSized at sizedCase
          rw [priced, fields] at sizedCase
          cases sizedCase
    | ok judged =>
      have valid := (judgeSized_ok sizedCase).2
      refine iff_of_false (fun same => ?_) ?_
      · cases directCase : judgedDirect svc account o s stop price with
        | ok other => cases checked.symm.trans (judgedDirect_ok priced directCase)
        | error other =>
          rw [directCase] at same
          cases (Judgement.mk.inj same).1
      · rintro (⟨raised, rejects⟩ | ⟨again, same, -, -⟩)
        · cases rejects.symm.trans valid
        · cases checked.symm.trans same

/-- A request to buy at 9, below the market, with the hundredth part of the cash at risk. -/
def buyBelow : ExecuteArgs where
  accountIds := ["main"]
  symbol := .text "BTCUSDT"
  side := .text "BUY"
  entry := .number 9
  stopLoss := .number 8
  riskPct := .number (1 / 100)
  idempotencyKey := .text "k"
  orderType := .text "LIMIT"

/-- The same request, validated. -/
def belowOrder : SizedOrder where
  symbol := "BTCUSDT"
  side := "BUY"
  entry := 9
  stopLoss := 8
  riskPct := 1 / 100
  idempotencyKey := "k"
  orderType := .limit
  actor := "mcp-agent"

/-- Ten coins, for which the market asks 100 and the order pays 90. -/
def belowSizing : Sizing where
  isReal := true
  price := some 10
  balances := [("USDT", 1000)]
  equity := 1000
  filters := wholeCoins
  sized := {
    riskAmount := 10
    riskPerUnit := 1
    quantity := 10
    notional := 90
    estimatedFee := 9 / 100
    totalRequired := 90 + 9 / 100 }

/-- The account of the shop. -/
def shopAccount : Account where
  accountId := "main"
  tradingLock := .real
  credentialsConfigured := true

/-- The same request at the market price. -/
def buyAtMarket : ExecuteArgs := { buyBelow with entry := .number 10, stopLoss := .number 9 }

/-- This request, validated. -/
def pricedOrder : SizedOrder := { belowOrder with entry := 10, stopLoss := 9 }

/-- Ten coins, for which the order pays what the market asks. -/
def pricedSizing : Sizing := { belowSizing with
  sized := { belowSizing.sized with
    notional := 100
    estimatedFee := 1 / 10
    totalRequired := 100 + 1 / 10 } }

/-- At the market price both are judged alike. -/
theorem judged_alike_at_market :
    sizedJudgement demo (fun _ => calmDay) shop shopAccount pricedOrder =
      directJudgement demo (fun _ => calmDay) shop
        (directArgs buyAtMarket (.text "main") pricedOrder pricedSizing none) := by
  refine (judged_alike_iff (by decide +kernel) (by decide +kernel) (by decide +kernel) (by decide +kernel)
    (by decide +kernel) (.inl rfl)).mpr (.inr ⟨⟨.buy, .limit, 10, some 10, none, none, some 100⟩, by decide +kernel, .inr rfl, .inl ⟨by decide, rfl⟩⟩)

/-- A limit order below the market is accepted on both ways, at 100 for one of them and at 90 for the
other. -/
theorem limit_below_market_judged_apart :
    (exec (alone fun _ => calmDay) (sizeOrder demo shopAccount belowOrder) shop).1 = .ok belowSizing ∧
      sizedJudgement demo (fun _ => calmDay) shop shopAccount belowOrder =
        ⟨some 100, .ok ⟨100, some 9, none, 10⟩⟩ ∧
      directJudgement demo (fun _ => calmDay) shop
          (directArgs buyBelow (.text "main") belowOrder belowSizing none) =
        ⟨some 90, .ok ⟨90, some 9, none, 10⟩⟩ ∧
      sizedJudgement demo (fun _ => calmDay) shop shopAccount belowOrder ≠
        directJudgement demo (fun _ => calmDay) shop
          (directArgs buyBelow (.text "main") belowOrder belowSizing none) := by
  decide +kernel

end Rasat
