import RasatTrading.Coop.Recorded
import RasatTrading.Daemon

/-! What each program of the daemon can ask for at all, whatever it is answered. -/

namespace Rasat

open Coop Prog

variable {svc : Service} {account : Account} {actor : String}

/-- What one task has asked and heard, with the call that it serves. -/
abbrev TaskRecord := Record Req Req.Ans Exc Call

-- Programs are taken apart by the rules of footprints alone.
seal Prog.Only

/-- The requests of orders once the risk policy is settled: rows of orders are all that they write. -/
def OrderWork : Req → Prop
  | .read (.policy _) | .orderService _ => False
  | .write (.insertOrder _ _ _) | .write (.updateOrder _ _ _) | .write (.appendAudit _) => True
  | .write _ => False
  | _ => True

/-- The requests that look after orders that exist: nothing is bought or sold. -/
def Upkeep : Req → Prop
  | .broker (.queryOrder _ _ _) | .broker (.queryOco _ _) => True
  | .broker (.cancelOrder _ _ _) | .broker (.cancelOco _ _ _) => True
  | .broker (.cancelAllOpenOrders _ _) => True
  | .write (.updateOrder _ _ _) | .write (.appendAudit _) => True
  | _ => False

/-- The requests that cancel one target, or look it up, and note what became of it. -/
def CancelsOne (accountId : String) (target : Target) : Req → Prop
  | .broker (.cancelOrder account symbol id) | .broker (.cancelOco account symbol id)
  | .broker (.queryOrder account symbol id) =>
    account = accountId ∧ symbol = target.symbol ∧ id = target.clientOrderId
  | .broker (.queryOco account id) => account = accountId ∧ id = target.clientOrderId
  | .write (.updateOrder _ _ _) => True
  | _ => False

/-- The requests that find out what became of an order and note it. -/
def FollowsUp : Req → Prop
  | .broker (.queryOrder _ _ _) | .broker (.queryOco _ _) => True
  | .write (.updateOrder _ _ _) => True
  | _ => False

/-- The requests that submit one sale of a symbol and find out what became of it. -/
def SellsOne (symbol : String) : Req → Prop
  | .broker (.placeOrder order) => order.symbol = symbol
  | .broker (.queryOrder _ _ _) | .broker (.queryOco _ _) => True
  | .write (.insertOrder _ _ _) | .write (.updateOrder _ _ _) => True
  | _ => False

/-- The requests that find out about accounts, balances and prices and change nothing. -/
def Asking : Req → Prop
  | .read (.policy _) => False
  | .read _ | .credentials _ | .broker (.getBalance _) => True
  | .market (.symbolValid _) | .market (.price _) => True
  | _ => False

/-- Order work on one order or one asset: nothing that is read once for a whole account. -/
def AccountPart : Req → Prop
  | .read (.activeOrders _) | .broker (.getAllOpenOrders _) | .broker (.getBalance _) => False
  | request => OrderWork request

variable {request : Req}

/-- What is done for one order is work on orders. -/
theorem AccountPart.work (part : AccountPart request) : OrderWork request := by
  cases request with
  | read query => cases query <;> first | exact part | trivial
  | broker call => trivial
  | _ => exact part

/-- Looking after an order reads nothing of the whole account. -/
theorem Upkeep.part (upkeep : Upkeep request) : AccountPart request := by
  cases request with
  | broker call => cases call <;> trivial
  | write tx => cases tx <;> trivial
  | _ => exact absurd upkeep id

/-- Cancelling one order looks after it. -/
theorem CancelsOne.upkeep {target : Target} (cancels : CancelsOne account.accountId target request) :
    Upkeep request := by
  cases request with
  | broker call => cases call <;> trivial
  | write tx => cases tx <;> trivial
  | _ => exact cancels.elim

/-- Following an order up looks after it. -/
theorem FollowsUp.upkeep (follows : FollowsUp request) : Upkeep request := by
  cases request with
  | broker call => cases call <;> trivial
  | write tx => cases tx <;> trivial
  | _ => exact follows.elim

variable {symbol : String}

/-- Following a sale up is part of it. -/
theorem FollowsUp.sells (follows : FollowsUp request) : SellsOne symbol request := by
  cases request with
  | broker call => cases call <;> trivial
  | write tx => cases tx <;> trivial
  | _ => exact follows.elim

/-- Selling one asset reads nothing of the whole account. -/
theorem SellsOne.part (sells : SellsOne symbol request) : AccountPart request := by
  cases request with
  | broker call => cases call <;> trivial
  | write tx => cases tx <;> trivial
  | _ => exact sells.elim

/-- Asking is part of the work on orders. -/
theorem Asking.work (asking : Asking request) : OrderWork request := by
  cases request with
  | read query => cases query <;> trivial
  | market call => trivial
  | broker call => trivial
  | credentials accountId => trivial
  | _ => exact absurd asking id

variable {α : Type} {program : Task α}

/-- A program that looks after orders does its part of the work. -/
theorem part_of_upkeep (only : program.Only Upkeep) :
    program.Only AccountPart := only.mono fun _ upkeep => upkeep.part

variable {kind : Req → Prop}

/-- Taking an error for a missing order asks for nothing else. -/
theorem orNone_only {lookup : Task (Option α)} (only : lookup.Only kind) : (orNone lookup).Only kind := by
  refine only_rescue only fun raised => ?_
  cases raised <;> first | exact only_done | exact only_fail

/-- Finding an account is asking. -/
theorem getAccount_asks (accountId : String) : (getAccount accountId).Only Asking := by
  refine only_asks trivial fun found => ?_
  cases found <;> first | exact only_done | exact only_fail

/-- So is the check of a symbol. -/
theorem requireSymbol_asks (symbol : String) : (requireSymbol symbol).Only Asking := by
  refine only_asks trivial fun valid => ?_
  cases valid <;> first | exact only_done | exact only_fail

/-- The equity is told from prices. -/
theorem equityFromBalances_asks (balances : Balances) (quote : String) :
    (equityFromBalances balances quote).Only Asking := by
  unfold equityFromBalances
  refine only_foldlM (fun equity entry => ?_) _ _
  obtain ⟨asset, amount⟩ := entry
  dsimp only
  -- The quote asset needs no price.
  split
  · exact only_done
  · refine only_asks trivial fun price => ?_
    cases price <;> exact only_done

/-- The exposure is told from rows, balances and prices. -/
theorem currentExposure_asks (accountId quote : String) : (currentExposure accountId quote).Only Asking := by
  refine only_asks trivial fun total => only_asks trivial fun held => ?_
  -- The rows are summed by the database, the balances priced one by one.
  refine only_bind (only_foldlM (fun value entry => ?_) _ _) fun value => only_done
  obtain ⟨asset, amount⟩ := entry
  dsimp only
  split
  · exact only_done
  · refine only_asks trivial fun price => ?_
    cases price <;> first | exact only_done | exact only_fail

/-- The preflight asks for the symbol and its price. -/
theorem accuracyPreflight_asks (symbol side : String) (entry stopLoss : ℚ) :
    (accuracyPreflight symbol side entry stopLoss).Only Asking := by
  refine only_bind (requireSymbol_asks _) fun _ => only_asks trivial fun price => ?_
  exact only_bind only_ofExcept fun _ => only_ofExcept

/-- Whether an account trades for real is asked for. -/
theorem isReal_asks : (isReal account).Only Asking := by
  unfold isReal
  split
  · exact only_done
  · exact only_asks trivial fun _ => only_done

/-- A program that only asks does work on orders. -/
theorem work_of_asking (only : program.Only Asking) :
    program.Only OrderWork := only.mono fun _ asking => asking.work

variable {accountId : String}

/-- The state of an order is read at the exchange. -/
theorem queryState_follows (order : Order) : (queryState accountId order).Only FollowsUp := by
  unfold queryState
  split <;> exact only_call.mpr trivial

/-- Reading the state of an order looks after it. -/
theorem queryState_upkeep (order : Order) : (queryState accountId order).Only Upkeep :=
  (queryState_follows order).mono fun _ follows => follows.upkeep

/-- A submission that failed is followed up. -/
theorem submissionFailed_follows (order : Order) (symbol timeoutText action : String) (raised : Exc) :
    (submissionFailed svc account order symbol actor timeoutText action raised).Only FollowsUp := by
  unfold submissionFailed
  split
  · exact only_fail
  · split
    · -- The answer is uncertain: the state is read, and an unknown one noted.
      refine only_bind (orNone_only (queryState_follows order)) fun found => ?_
      cases found <;> exact only_asks trivial fun _ => only_done
    · exact only_asks trivial fun _ => only_done

/-- Following a failed submission up looks after its order. -/
theorem submissionFailed_upkeep (order : Order) (symbol timeoutText action : String) (raised : Exc) :
    (submissionFailed svc account order symbol actor timeoutText action raised).Only Upkeep :=
  (submissionFailed_follows order symbol timeoutText action raised).mono fun _ follows => follows.upkeep

/-- A placement submits its own symbol. -/
theorem placeAndRecord_sells {p : Placement} (own : p.symbol = symbol) :
    (placeAndRecord svc p).Only (SellsOne symbol) := by
  refine only_bind only_ofExcept fun _ => ?_
  split
  · -- On paper the order is only stored.
    exact only_asks trivial fun _ => only_done
  · refine only_asks trivial fun order => ?_
    -- This submission is the only request that names the symbol.
    refine only_bind (only_attempt (only_call.mpr own)) fun submitted => ?_
    cases submitted with
    | error raised => exact (submissionFailed_follows _ _ _ _ _).mono fun _ follows => follows.sells
    | ok result => exact only_asks trivial fun _ => only_done

/-- A placement reads nothing of the whole account. -/
theorem placeAndRecord_part (p : Placement) : (placeAndRecord svc p).Only AccountPart :=
  (placeAndRecord_sells rfl).mono fun _ sells => sells.part

/-- A row is updated, when there is one. -/
theorem writeRow_only (writes : ∀ id update entry, kind (.write (.updateOrder id update entry)))
    (action : String) (order : Option Order) (update : OrderUpdate) (details : Order → List (String × Detail)) :
    (writeRow svc account actor action order update details).Only kind := by
  cases order with
  | none => exact only_done
  | some row => exact only_call.mpr (writes _ _ _)

/-- A cancellation asks for its target only. -/
theorem cancelOne_asks (state : CancelState) (target : Target) :
    (cancelOne svc account actor state target).Only (CancelsOne account.accountId target) := by
  have written (action : String) (update : OrderUpdate) (details : Order → List (String × Detail)) :
      (writeRow svc account actor action target.order update details).Only (CancelsOne account.accountId target) :=
    writeRow_only (fun _ _ _ => trivial) ..
  have uncertain (error : RasatError) :
      (uncertain svc account actor state target error).Only (CancelsOne account.accountId target) :=
    only_bind (written _ _ _) fun _ => only_done
  have looks (isOco : Bool) : (querySafe account.accountId target isOco).Only (CancelsOne account.accountId target) := by
    refine only_bind (only_attempt ?_) fun answer => ?_
    · split
      · exact only_call.mpr ⟨rfl, rfl⟩
      · exact only_call.mpr ⟨rfl, rfl, rfl⟩
    · split <;> first | exact only_done | exact only_fail
  -- The list, or the order, is cancelled by the ids of the target.
  refine only_bind (only_attempt ?_) fun answer => ?_
  · split <;> exact only_call.mpr ⟨rfl, rfl, rfl⟩
  · split
    · split
      · exact only_fail
      · exact uncertain _
    · -- The exchange does not know the order, so it is looked up.
      refine only_bind (looks _) fun found => ?_
      split
      · exact uncertain _
      · exact only_bind (written _ _ _) fun _ => only_done
      · split
        · exact uncertain _
        · exact only_bind (written _ _ _) fun _ => only_done
    · split
      · exact only_bind (written _ _ _) fun _ => only_done
      · split
        · exact uncertain _
        · exact only_bind (written _ _ _) fun _ => only_done

/-- A cancellation looks after orders. -/
theorem cancelOne_upkeep (state : CancelState) (target : Target) :
    (cancelOne svc account actor state target).Only Upkeep :=
  (cancelOne_asks state target).mono fun _ cancels => cancels.upkeep

/-- So does the record of a bulk cancellation, -/
theorem recordBulk_upkeep (action : String) (details : List (String × Detail)) :
    (recordBulk svc actor action details).Only Upkeep := by
  unfold recordBulk
  split
  · exact only_done
  · exact only_call.mpr trivial

/-- the bulk cancellation of a symbol -/
theorem cancelUnnamed_upkeep (state : CancelState) (order : ExchangeOrder) :
    (cancelUnnamed svc account actor state order).Only Upkeep := by
  unfold cancelUnnamed
  split
  · exact only_done
  · -- An order without ids is cancelled with all others of its symbol.
    refine only_bind (only_attempt (only_asks trivial fun _ => recordBulk_upkeep _ _))
      fun attempted => ?_
    split
    · exact only_done
    · split
      · exact only_fail
      · exact only_bind (recordBulk_upkeep _ _) fun _ => only_done

/-- and the turn of one target. -/
theorem cancelTarget_upkeep (real : Bool) (state : CancelState) (target : Target) :
    (cancelTarget svc account real actor state target).Only Upkeep := by
  unfold cancelTarget
  split
  · exact only_done
  · split
    · -- Only a real account asks the exchange.
      exact cancelOne_upkeep _ _
    · split
      · exact only_done
      · exact only_bind (writeRow_only (fun _ _ _ => trivial) ..) fun _ => only_done

/-- A new sale submits its own symbol. -/
theorem sellNow_sells (symbol nonce : String) (quantity price : ℚ) :
    (sellNow svc account actor symbol nonce quantity price).Only (SellsOne symbol) :=
  only_bind (placeAndRecord_sells rfl) fun _ => only_done

/-- So does a sale behind an earlier one. -/
theorem sellAfter_sells (symbol nonce : String) (quantity price : ℚ) (earlier : Option Order) :
    (sellAfter svc account actor symbol nonce quantity price earlier).Only (SellsOne symbol) := by
  unfold sellAfter
  cases earlier with
  | none => exact sellNow_sells _ _ _ _
  | some row =>
    have lookup : (broker (.queryOrder account.accountId symbol row.clientOrderId)).Only (SellsOne symbol) :=
      only_call.mpr trivial
    -- The earlier sale is looked up first, and a missing one does not block.
    refine only_bind (orNone_only lookup) fun found => ?_
    cases found with
    | none => exact sellNow_sells symbol nonce quantity price
    | some report =>
      refine only_asks trivial fun _ => ?_
      by_cases blocks : blocksSale report.status
      · rw [if_pos blocks]
        exact only_done
      · rw [if_neg blocks]
        exact sellNow_sells symbol nonce quantity price

/-- A sale reads nothing of the whole account, -/
theorem sellAfter_part (symbol nonce : String) (quantity price : ℚ) (earlier : Option Order) :
    (sellAfter svc account actor symbol nonce quantity price earlier).Only AccountPart :=
  (sellAfter_sells symbol nonce quantity price earlier).mono fun _ sells => sells.part

/-- nor does the turn of one asset. -/
theorem sellAsset_part (nonce : String) (sold : List Sale) (asset : String) (amount : ℚ) :
    (sellAsset svc account actor nonce sold asset amount).Only AccountPart := by
  unfold sellAsset
  split
  · exact only_done
  · -- The symbol, its price and its filters are asked for; each may end the turn.
    refine only_asks trivial fun valid => ?_
    split
    · exact only_done
    · refine only_asks trivial fun price => ?_
      split
      · exact only_done
      · refine only_asks trivial fun filters => ?_
        split
        · exact only_done
        · dsimp only
          split
          · exact only_done
          · exact only_asks trivial fun earlier =>
              only_bind (sellAfter_part _ _ _ _ _) fun _ => only_done

/-- Whether an account trades for real asks for its credentials at most. -/
theorem isReal_credentials :
    (isReal account).Only fun request => ∃ accountId, request = .credentials accountId := by
  unfold isReal
  split
  · exact only_done
  · exact only_bind (only_call.mpr ⟨_, rfl⟩) fun _ => only_done

/-- Whether an account is real is told from its own rows. -/
theorem isReal_part : (isReal account).Only AccountPart :=
  isReal_credentials.mono fun _ asks => by obtain ⟨accountId, rfl⟩ := asks; trivial

/-- A program for one order does work on orders. -/
theorem work_of_part (only : program.Only AccountPart) :
    program.Only OrderWork := only.mono fun _ part => part.work

/-- Reading the state of an order is work on it. -/
theorem queryState_work (order : Order) :
    (queryState accountId order).Only OrderWork := work_of_part (part_of_upkeep (queryState_upkeep order))

/-- Following a failed submission up is work on its order. -/
theorem submissionFailed_work (order : Order) (symbol timeoutText action : String) (raised : Exc) :
    (submissionFailed svc account order symbol actor timeoutText action raised).Only OrderWork :=
  work_of_part (part_of_upkeep (submissionFailed_upkeep order symbol timeoutText action raised))

/-- A placement is work on orders. -/
theorem placeAndRecord_work (p : Placement) : (placeAndRecord svc p).Only OrderWork :=
  work_of_part (placeAndRecord_part p)

/-- The kill switch of an account does nothing but work on orders, -/
theorem closeOne_work : (closeOne svc account actor).Only OrderWork := by
  unfold closeOne
  refine only_bind (work_of_part isReal_part) fun real => only_asks trivial fun active => ?_
  have cancels (exchange : List ExchangeOrder) (bulk : CancelState) :
      ((cancelTargets active exchange).foldlM (cancelTarget svc account real actor) bulk).Only
        OrderWork :=
    work_of_part (part_of_upkeep (only_foldlM (cancelTarget_upkeep real) _ _))
  cases real with
  | false =>
    -- A paper account asks the exchange for nothing and sells nothing.
    rw [if_neg Bool.false_ne_true, bind_eq, pure_eq, done_bind]
    beta_reduce
    rw [List.foldlM_nil, bind_eq, pure_eq, done_bind]
    exact only_bind (cancels _ _) fun state => only_done
  | true =>
    -- The open orders are listed, those without ids cancelled by symbol, the rest one by one.
    refine only_asks trivial fun exchange => ?_
    refine only_bind (work_of_part (part_of_upkeep (only_foldlM cancelUnnamed_upkeep _ _))) fun bulk => ?_
    refine only_bind (cancels _ _) fun state => ?_
    -- What is then held is sold.
    refine only_asks trivial fun id => only_asks trivial fun held => ?_
    exact only_bind (work_of_part (only_foldlM (fun sold (entry : String × ℚ) =>
      sellAsset_part _ sold entry.1 entry.2) _ _)) fun _ => only_done

/-- also under the lock of the account -/
theorem closeFor_work : (closeFor svc actor account).Only OrderWork := by
  refine only_asks trivial fun _ => ?_
  refine only_bind (only_attempt (only_rescue closeOne_work fun _ => only_done)) fun outcome => ?_
  exact only_asks trivial fun _ => only_ofExcept

/-- and over all accounts. -/
theorem closeAllPositions_work (accountId : Arg) : (closeAllPositions svc accountId actor).Only OrderWork := by
  refine only_bind only_ofExcept fun named => only_bind ?_ fun accounts => ?_
  · unfold closeTargets
    -- One named account, or all of them.
    split
    · exact only_call.mpr trivial
    · refine only_bind (only_asks trivial fun found => ?_) fun _ => only_done
      cases found <;> first | exact only_done | exact only_fail
  · exact only_foldlM (fun results account => only_bind closeFor_work fun _ => only_done) _ _

/-- The requests of orders from their arguments on: the policy is read and an override consumed. -/
def Trading : Req → Prop
  | .read (.policy _) | .write (.consumeOverride _ _ _ _ _) => True
  | request => OrderWork request

/-- Work on orders is a part of trading. -/
theorem OrderWork.trading (work : OrderWork request) : Trading request := by
  cases request with
  | read query => cases query <;> trivial
  | write tx => cases tx <;> trivial
  | _ => exact work

/-- Under a lock a program asks for the lock besides. -/
theorem withLock_only {body : Task α}
    (lock : kind (.lock accountId)) (unlock : kind (.unlock accountId)) (only : body.Only kind) :
    (withLock accountId body).Only kind := by
  refine only_bind (only_call.mpr lock) fun _ => only_bind (only_attempt only) fun outcome => ?_
  exact only_bind (only_call.mpr unlock) fun _ => only_ofExcept

/-- An order that is there already is looked up and noted. -/
theorem handleExisting_work (existing : Order) : (handleExisting svc account existing).Only OrderWork := by
  unfold handleExisting
  split
  · exact only_done
  · split
    · exact only_done
    · -- A row whose end is not known is reconciled.
      refine only_bind (orNone_only (queryState_work existing)) fun found => ?_
      cases found with
      | none => exact only_done
      | some report => exact only_asks trivial fun _ => only_done

/-- The filters of a symbol come with the work. -/
theorem requireFilters_work (symbol : String) : (requireFilters symbol).Only OrderWork := by
  refine only_asks trivial fun filters => ?_
  cases filters <;> first | exact only_done | exact only_fail

/-- The requests of the risk gate: the policy, the clock and the override that it may consume. -/
def Gating : Req → Prop
  | .read (.policy _) | .clock | .write (.consumeOverride _ _ _ _ _) => True
  | _ => False

/-- The gate is a part of trading. -/
theorem Gating.trading (gating : Gating request) : Trading request := by
  cases request with
  | read query => cases query <;> trivial
  | write tx => cases tx <;> trivial
  | _ => trivial

/-- Reading the policy belongs to the gate. -/
theorem getPolicy_gating (accountId : String) : (getPolicy accountId).Only Gating := by
  unfold getPolicy
  -- Without an account id there is no policy.
  split
  · exact only_fail
  · refine only_asks trivial fun found => ?_
    cases found <;> first | exact only_done | exact only_fail

/-- So does consuming an override -/
theorem consumeOverride_gating (accountId key : String) (version : Nat) :
    (consumeOverride svc accountId version key).Only Gating := by
  unfold consumeOverride
  split
  · exact only_fail
  · split
    · exact only_fail
    · exact only_asks trivial fun now => only_call.mpr trivial

/-- and holding an order to the caps. -/
theorem enforceCapsOrOverride_gating (policy : RiskPolicy) (symbol key : String) (notional exposure : ℚ) :
    (enforceCapsOrOverride svc account policy symbol notional exposure key).Only Gating := by
  unfold enforceCapsOrOverride
  split
  · exact only_done
  · split
    · -- Over a cap the order needs an override of its own.
      refine only_bind (consumeOverride_gating _ _ _) fun consumed => ?_
      cases consumed <;> first | exact only_done | exact only_fail
    · exact only_fail

/-- The policy is read while trading. -/
theorem getPolicy_trading (accountId : String) : (getPolicy accountId).Only Trading :=
  (getPolicy_gating accountId).mono fun _ gating => gating.trading

/-- The caps are enforced while trading. -/
theorem enforceCapsOrOverride_trading (policy : RiskPolicy) (symbol key : String) (notional exposure : ℚ) :
    (enforceCapsOrOverride svc account policy symbol notional exposure key).Only Trading :=
  (enforceCapsOrOverride_gating policy symbol key notional exposure).mono fun _ gating => gating.trading

/-- What is order work is trading. -/
theorem trading_of_work (only : program.Only OrderWork) :
    program.Only Trading := only.mono fun _ work => work.trading

/-- An entry of which the placement is work on orders trades. -/
theorem enterDirect_trading (accountId symbol key : String) {input : SymbolFilters → Option ℚ → OrderInput}
    {quantity : Validated → ℚ} {place : Account → Bool → Validated → ℚ → ℚ → ℚ → Task AccountResult}
    (placed : ∀ account real validated notional reference equity,
      (place account real validated notional reference equity).Only OrderWork) :
    (enterDirect svc accountId symbol key input quantity place).Only Trading := by
  refine only_bind (trading_of_work (work_of_asking (getAccount_asks _))) fun account => ?_
  refine only_asks trivial fun found => ?_
  cases found with
  -- A key that was used before enters no second order.
  | some existing => exact trading_of_work (handleExisting_work existing)
  | none =>
    refine only_bind (trading_of_work (work_of_part isReal_part)) fun real => ?_
    refine only_bind (trading_of_work (work_of_asking (requireSymbol_asks _))) fun _ => ?_
    -- The checks in the order of the source, and the placement last.
    refine only_asks trivial fun price => only_bind only_ofExcept fun reference => ?_
    refine only_bind (trading_of_work (requireFilters_work _)) fun filters => ?_
    refine only_bind only_ofExcept fun validated => only_bind only_ofExcept fun notional => ?_
    refine only_asks trivial fun balances => only_bind only_ofExcept fun _ => ?_
    refine only_bind (getPolicy_trading _) fun policy => ?_
    refine only_bind (trading_of_work (work_of_asking (currentExposure_asks _ _))) fun exposure => ?_
    refine only_bind (enforceCapsOrOverride_trading _ _ _ _ _) fun _ => ?_
    refine only_bind (trading_of_work (work_of_asking (equityFromBalances_asks _ _))) fun equity => ?_
    exact trading_of_work (placed _ _ _ _ _ _)

/-- A direct order trades, and nothing else. -/
theorem executeOneDirect_trading (o : DirectOrder) : (executeOneDirect svc o).Only Trading := by
  exact enterDirect_trading _ _ _ fun _ _ _ _ _ _ => placeAndRecord_work _

/-- Recording an order list is work on orders. -/
theorem recordOco_work (real : Bool) (o : OcoOrder) (notional reference equity : ℚ) :
    (recordOco svc account real o notional reference equity).Only OrderWork := by
  unfold recordOco
  dsimp only
  split
  · exact only_asks trivial fun _ => only_done
  · refine only_asks trivial fun order => ?_
    refine only_bind (only_attempt (only_call.mpr trivial)) fun submitted => ?_
    cases submitted with
    | error raised => exact submissionFailed_work _ _ _ _ _
    | ok result => exact only_asks trivial fun _ => only_done

/-- A direct order list trades, and nothing else. -/
theorem executeOcoDirect_trading (o : OcoOrder) : (executeOcoDirect svc o).Only Trading := by
  exact enterDirect_trading _ _ _ fun _ _ _ _ _ _ => recordOco_work _ _ _ _ _

/-- So does `place_order` -/
theorem placeOrder_trading (args : PlaceOrderArgs) : (placeOrder svc args).Only Trading :=
  only_bind only_ofExcept fun _ => withLock_only trivial trivial (executeOneDirect_trading _)

/-- and `place_oco_order`. -/
theorem placeOcoOrder_trading (args : PlaceOcoArgs) : (placeOcoOrder svc args).Only Trading :=
  only_bind only_ofExcept fun _ => withLock_only trivial trivial (executeOcoDirect_trading _)

/-- The reconciliation of a row looks after its order. -/
theorem reconcileOrder_upkeep (report : ReconcileReport) (order : Order) :
    (reconcileOrder svc report order).Only Upkeep := by
  unfold reconcileOrder
  refine only_bind (only_attempt (queryState_upkeep order)) fun answer => ?_
  -- The exchange does not know the order, fails, or tells its state.
  split
  · exact only_done
  · exact only_fail
  · split
    · exact only_asks trivial fun _ => only_done
    · split
      · exact only_done
      · exact only_asks trivial fun _ => only_done

/-- The reconciliation at the start is work on orders. -/
theorem reconcileOpenOrders_work : (reconcileOpenOrders svc).Only OrderWork := by
  refine only_asks trivial fun accounts => ?_
  dsimp only
  split
  · exact only_done
  · refine only_asks trivial fun stuck => only_foldlM (fun report order => ?_) _ _
    exact work_of_part (part_of_upkeep (reconcileOrder_upkeep report order))

/-- The requests around the execution of a pending order: its row, its price and how it ends. -/
def PendingWork : Req → Prop
  | .clock | .read (.pendingOrder _) | .read (.order _ _) | .read .executing => True
  | .market (.price _) | .write (.fillPendingEntry _ _) => True
  | .write (.completePending _ _) | .write (.failPending _ _ _ _) => True
  | _ => False

/-- A pending order is looked up on the way to its settlement, -/
theorem pendingOrder_settles (orderId : String) : (pendingOrder orderId).Only PendingWork := by
  refine only_asks trivial fun row => ?_
  cases row <;> first | exact only_done | exact only_fail

/-- a failed execution is noted, -/
theorem failPendingExecution_settles (orderId : String) (status : PendingStatus) (code : ErrorCode)
    (message : String) : (failPendingExecution orderId status code message).Only PendingWork := by
  unfold failPendingExecution
  split
  · exact only_fail
  · exact only_call.mpr trivial

/-- a missing entry is filled in, -/
theorem pendingEntry_settles (orderId : String) (row : PendingOrder) :
    (pendingEntry orderId row).Only PendingWork := by
  unfold pendingEntry
  by_cases priced : lower (if row.orderType = "" then "market" else row.orderType) = "market" ∧
      row.entry = none
  · rw [if_pos priced]
    refine only_asks trivial fun price => ?_
    cases price with
    | none => exact only_fail
    | some price => exact only_asks trivial fun _ => only_done
  · rw [if_neg priced]
    exact only_done

/-- an execution is settled -/
theorem settlePending_settles (orderId : String) (executed : Except Exc ExecuteReply) :
    (settlePending orderId executed).Only PendingWork := by
  unfold settlePending
  split
  · -- The execution raised.
    exact only_bind (failPendingExecution_settles _ _ _ _) fun _ => only_fail
  · split
    · exact only_asks trivial fun _ => only_done
    · exact only_bind (failPendingExecution_settles _ _ _ _) fun _ => only_fail

/-- and so is one that a restart found; -/
theorem recoverPending_settles (now staleAfter : Int) (report : RecoveryReport) (row : PendingOrder) :
    (recoverPending now staleAfter report row).Only PendingWork := by
  unfold recoverPending
  refine only_asks trivial fun found => ?_
  cases found with
  | none =>
    dsimp only
    -- No order was stored: a stale claim fails, a fresh one waits.
    split
    · exact only_bind (failPendingExecution_settles _ _ _ _) fun _ => only_done
    · exact only_done
  | some order =>
    dsimp only
    split
    · exact only_bind (failPendingExecution_settles _ _ _ _) fun _ => only_done
    · exact only_asks trivial fun _ => only_done

/-- the recovery does nothing else. -/
theorem reconcilePendingExecutions_settles (staleAfter : Int) :
    (reconcilePendingExecutions staleAfter).Only PendingWork := by
  unfold reconcilePendingExecutions
  refine only_asks trivial fun now => only_asks trivial fun rows => ?_
  exact only_foldlM (recoverPending_settles now staleAfter) _ _

/-- The requests of administration: it writes accounts, policies and reserved overrides. -/
def Admin : Req → Prop
  | .read .accounts | .clock | .uuid => True
  | .write (.setRiskPolicy _ patch _ _) => parseSymbols patch.symbols = patch.symbols
  | .write (.addAccount _ _ _ _) | .write (.removeAccount _ _ _) => True
  | .write (.enableRealTrading _ _ _) | .write (.disableRealTrading _ _ _) => True
  | .write (.createOverride _ _) | .write (.reconcileOverrides _ _) => True
  | _ => False

/-- Adding an account is administration, -/
theorem addAccount_admin (tags : List String) (stored : Bool) (actor : String) :
    (addAccount svc tags stored actor).Only Admin := by
  refine only_bind only_ofExcept fun normalized => only_rescue (only_call.mpr trivial) fun raised => ?_
  cases raised <;> exact only_fail

/-- and so is removing one, -/
theorem removeAccount_admin (named : Arg) (actor : String) : (removeAccount svc named actor).Only Admin := by
  refine only_bind only_ofExcept fun _ => only_asks trivial fun removal => ?_
  cases removal <;> first | exact only_done | exact only_fail

/-- opening its trading lock, -/
theorem enableRealTrading_admin (named : Arg) (actor : String) :
    (enableRealTrading svc named actor).Only Admin :=
  only_bind only_ofExcept fun _ => only_asks trivial fun _ => only_done

/-- closing it, -/
theorem disableRealTrading_admin (named : Arg) (actor : String) :
    (disableRealTrading svc named actor).Only Admin :=
  only_bind only_ofExcept fun _ => only_asks trivial fun _ => only_done

/-- closing it by the kill switch of real trading, -/
theorem disableRealTradingHandler_admin (named : Arg) (actor : String) :
    (disableRealTradingHandler svc named actor).Only Admin := by
  unfold disableRealTradingHandler
  split
  · -- Without a name every account is closed.
    refine only_asks trivial fun listed => ?_
    exact only_foldlM (fun _ account => disableRealTrading_admin _ _) _ _
  · exact disableRealTrading_admin _ _

/-- setting a policy, -/
theorem setRiskPolicy_admin (args : PolicyArgs) : (setRiskPolicy svc args).Only Admin := by
  refine only_bind only_ofExcept fun _ => only_bind only_ofExcept fun _ => ?_
  refine only_bind only_ofExcept fun _ => only_bind only_ofExcept fun _ => ?_
  exact only_call.mpr (parseSymbols_canonical _)

/-- granting an override -/
theorem createOverride_admin (args : OverrideArgs) : (createOverride svc args).Only Admin := by
  refine only_bind only_ofExcept fun _ => only_bind only_ofExcept fun _ => ?_
  refine only_bind only_ofExcept fun _ => only_bind ?_ fun key => ?_
  · -- A key is fresh, given or refused.
    unfold overrideKey
    split
    · exact only_call.mpr trivial
    · split <;> first | exact only_fail | exact only_done
    · exact only_fail
  refine only_asks trivial fun now => only_bind only_ofExcept fun _ => ?_
  refine only_rescue (only_call.mpr trivial) fun raised => ?_
  cases raised <;> exact only_fail

/-- and closing those that are too old. -/
theorem reconcileOverrides_admin : (reconcileOverrides svc).Only Admin :=
  only_asks trivial fun _ => only_call.mpr trivial

end Rasat
