import RasatTrading.Guarantees.EmergencyStop
import RasatTrading.Sent.Orders

/-! The emergency stop sends rounded free amounts, from the filters and prices of its account. -/

namespace Rasat

open Coop Prog

variable {svc : StopService} {accountId : String}

/-- What one run of the emergency stop has asked and heard. -/
abbrev StopRecord := Record StopReq StopReq.Ans Exc StopCall

/-- An amount that the stop sells: the balances of the account and what was read since. -/
structure Basis.Stops (svc : StopService) (basis : Basis) (accountId symbol : String) (quantity : ℚ)
    (hist : List (Event StopReq StopReq.Ans Exc)) : Prop where
  read : ∃ reads balances earlier asset,
    hist = reads ++ ⟨.balances accountId, .ok balances⟩ :: earlier ∧
      (asset, basis.amount) ∈ balances ∧ symbol = asset ++ svc.quoteAsset ∧
      ⟨.filters symbol, .ok (some basis.filters)⟩ ∈ reads ∧
      ⟨.price symbol, .ok (some basis.price)⟩ ∈ reads
  rounded : quantity = roundDownToStep basis.amount basis.filters.stepSize

/-- When an emergency sale meets the filters. -/
def Basis.Sellable (basis : Basis) : Prop :=
  0 < roundDownToStep basis.amount basis.filters.stepSize ∧
    ¬exceeds (roundDownToStep basis.amount basis.filters.stepSize) basis.filters.maxQty

/-- What is known of an emergency sale when it is sent. -/
def StoppedLawfully (svc : StopService) (accountId symbol : String) (quantity : ℚ)
    (hist : List (Event StopReq StopReq.Ans Exc)) : Prop :=
  ∃ basis : Basis, basis.Stops svc accountId symbol quantity hist ∧
    (Lawful basis.filters quantity basis.price ↔ basis.Sellable)

/-- Sales are sent with what is known of them. -/
def stopRule (svc : StopService) (record : StopRecord) (request : StopReq) : Prop :=
  match request with
  | .sell accountId symbol quantity _ => StoppedLawfully svc accountId symbol quantity record.hist
  | _ => True

theorem StoppedLawfully.later {symbol : String} {quantity : ℚ}
    {hist longer : List (Event StopReq StopReq.Ans Exc)}
    (known : StoppedLawfully svc accountId symbol quantity hist) (suffix : hist <:+ longer) :
    StoppedLawfully svc accountId symbol quantity longer := by
  obtain ⟨basis, ⟨⟨reads, balances, earlier, asset, rfl, held, named, filters, price⟩, rounded⟩, met⟩ :=
    known
  obtain ⟨more, rfl⟩ := suffix
  refine ⟨basis, ⟨⟨more ++ reads, balances, earlier, asset, ?_, held, named, ?_, ?_⟩, rounded⟩, met⟩
  · rw [List.append_assoc]
  · exact List.mem_append_right _ filters
  · exact List.mem_append_right _ price

/-- The requests that sell nothing. -/
def StopReq.Unsold : StopReq → Prop
  | .sell _ _ _ _ => False
  | _ => True

variable {record : StopRecord}

theorem StopReq.Unsold.rule {request : StopReq} (unsold : request.Unsold) : stopRule svc record request := by
  cases request with
  | sell => exact absurd unsold id
  | _ => trivial

/-- The sales of a plan are known. -/
def PlanKnown (svc : StopService) (accountId : String) (plan : List PlanItem) (record : StopRecord) : Prop :=
  ∀ item ∈ plan, StoppedLawfully svc accountId item.symbol item.quantity record.hist

theorem PlanKnown.later {plan : List PlanItem} {later : StopRecord}
    (known : PlanKnown svc accountId plan record) (suffix : record.hist <:+ later.hist) :
    PlanKnown svc accountId plan later :=
  fun item member => (known item member).later suffix

/-- The balances of the account were read, and filters and prices since then. -/
def SinceBalances (accountId : String) (balances : List (String × ℚ)) (record : StopRecord) : Prop :=
  ∃ reads earlier, record.hist = reads ++ ⟨.balances accountId, .ok balances⟩ :: earlier

theorem SinceBalances.later {balances : List (String × ℚ)} {later : StopRecord}
    (since : SinceBalances accountId balances record) (suffix : record.hist <:+ later.hist) :
    SinceBalances accountId balances later := by
  obtain ⟨reads, earlier, same⟩ := since
  obtain ⟨more, longer⟩ := suffix
  exact ⟨more ++ reads, earlier, by rw [← longer, same, List.append_assoc]⟩

variable {yes dryRun : Bool}

/-- A run of the emergency stop keeps to a rule, account after account, when the stop of each account does. -/
theorem emergencyStop_keeps {rule : StopRecord → StopReq → Prop} {wanted : List String}
    (accounts : ∀ g, rule g .accounts) (credentials : ∀ g accountId, rule g (.credentials accountId))
    (stops : ∀ accountId g, Safe (recording rule) (stopAccount svc accountId yes dryRun) g fun _ _ => True) :
    Safe (recording rule) (emergencyStop svc wanted yes dryRun) record fun _ _ => True := by
  have listed : Safe (recording rule) (resolveAccounts wanted) record fun _ _ => True := by
    unfold resolveAccounts
    simp only [stopAsk, bind_eq, pure_eq]
    refine recording_then (accounts _) (fun listed => ?_) fun _ => trivial
    split
    · exact .done trivial
    · split
      · exact .fail trivial
      · exact .done trivial
  have one (accountId : String) (g : StopRecord) :
      Safe (recording rule) (stopOne svc accountId yes dryRun) g fun _ _ => True := by
    have checks : Safe (recording rule) (stopAsk (.credentials accountId)) g fun _ _ => True :=
      recording_call.mpr ⟨credentials g accountId, fun _ => trivial⟩
    unfold stopOne
    refine Safe.attempt_bind checks fun checked g' _ => ?_
    split
    · exact stops accountId g'
    · split
      · exact .done trivial
      · exact .fail trivial
    · exact .fail trivial
  unfold emergencyStop
  refine Safe.bind listed (fun given g _ => ?_) fun _ _ _ => trivial
  refine (Safe.foldlM (fun _ _ _ => True) (fun _ _ => True) trivial ?_).mono fun _ _ _ => trivial
  intro accountId rest results g' _
  -- An account that raises is reported, and the next one is stopped all the same.
  have rescued : Safe (recording rule) ((stopOne svc accountId yes dryRun).rescue fun raised =>
      .done (failedStop accountId raised)) g' fun _ _ => True :=
    Safe.rescue (one accountId g') (fun _ _ _ => trivial) fun _ _ _ => .done trivial
  exact Safe.bind rescued (fun _ _ _ => .done trivial) fun _ _ _ => trivial

end Rasat
