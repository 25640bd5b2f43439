import RasatTrading.Sent.Rules

/-! Every program of the daemon sends its orders by the rule of the exchange filters. -/

namespace Rasat

open Coop Prog

-- Programs are taken apart by the rules of footprints alone.
seal Prog.Only

variable {svc : Service} {record : TaskRecord} {account : Account} {actor : String}

/-! What the checks say about the filters. -/

variable {filters : SymbolFilters} {amount : ℚ} {validated : Validated} {input : OrderInput}

/-- What the validator accepts meets the filters at its own reference price. -/
theorem lawful_of_valid {text : Text} {reference : ℚ}
    (passes : validateExecutionOrder text input = .ok validated) (given : input.filters = some filters)
    (priced : (input.price <|> input.marketPrice) = some reference) :
    Lawful filters input.quantity reference := by
  unfold validateExecutionOrder at passes
  simp only [bind_ok] at passes
  obtain ⟨side, -, orderType, -, fields⟩ := passes
  unfold validateFields at fields
  simp only [bind_ok, given] at fields
  obtain ⟨_, positive, _, -, _, -, _, -, _, -, _, -, _, checks, -⟩ := fields
  have worth : notionalOf input.quantity input.price input.marketPrice =
      some (input.quantity * reference) := by
    unfold notionalOf
    rw [priced]
    rfl
  rw [worth] at checks
  unfold checkFilters at checks
  simp only [bind_ok] at checks
  obtain ⟨_, -, _, -, _, low, _, high, _, aligned, _, -, _, -, _, -, least⟩ := checks
  refine ⟨not_le.mp (rejectIf_ok.mp positive), fun stepped => ?_, not_lt.mp (rejectIf_ok.mp low),
    rejectIf_ok.mp high, not_lt.mp (rejectIf_ok.mp least)⟩
  -- The nearest whole number of steps is close enough.
  refine ⟨Rounding.halfEven (input.quantity / filters.stepSize), ?_⟩
  have near := rejectIf_ok.mp aligned
  simp only [misaligned, not_and, decide_eq_true_eq, not_lt] at near
  exact near stepped

/-- A quantity that was rounded down to the lot step is a whole number of steps. -/
theorem aligned_roundDown (stepped : 0 < filters.stepSize) :
    ∃ steps : ℤ, |roundDownToStep amount filters.stepSize / filters.stepSize - steps| ≤ 1 / 1000000 := by
  refine ⟨⌊amount / filters.stepSize + 1 / 1000000000⌋, ?_⟩
  unfold roundDownToStep
  rw [if_neg (not_le.mpr stepped), mul_div_cancel_right₀ _ stepped.ne', sub_self, abs_zero]
  norm_num

variable {price : ℚ}

/-- A rounded amount that is not too small meets the filters when it is not too much and worth enough. -/
theorem lawful_roundDown_iff (positive : 0 < roundDownToStep amount filters.stepSize)
    (least : filters.minQty ≤ roundDownToStep amount filters.stepSize) :
    Lawful filters (roundDownToStep amount filters.stepSize) price ↔
      ¬exceeds (roundDownToStep amount filters.stepSize) filters.maxQty ∧
        filters.minNotional ≤ roundDownToStep amount filters.stepSize * price :=
  ⟨fun lawful => ⟨lawful.most, lawful.worth⟩,
    fun ⟨most, worth⟩ => ⟨positive, aligned_roundDown, least, most, worth⟩⟩

/-! Programs that send nothing. -/

variable {α : Type} {program : Task α}

theorem unsent_of_upkeep (only : program.Only Upkeep) : program.Only Unsent := by
  refine only.mono fun request upkeep => ?_
  cases request with
  | broker call => cases call <;> trivial
  | market call => exact absurd upkeep id
  | _ => trivial

theorem unsent_of_admin (only : program.Only Admin) : program.Only Unsent := by
  refine only.mono fun request admin => ?_
  cases request with
  | broker call => exact absurd admin id
  | market call => exact absurd admin id
  | _ => trivial

theorem unsent_of_asking (only : program.Only Asking) : program.Only Unsent := by
  refine only.mono fun request asking => ?_
  cases request with
  | broker call => cases call <;> trivial
  | market call => cases call <;> trivial
  | _ => trivial

theorem unsent_of_gating (only : program.Only Gating) : program.Only Unsent := by
  refine only.mono fun request gating => ?_
  cases request with
  | broker call => exact absurd gating id
  | market call => exact absurd gating id
  | _ => trivial

theorem handleExisting_unsent (existing : Order) : (handleExisting svc account existing).Only Unsent := by
  unfold handleExisting
  split
  · exact only_done
  · split
    · exact only_done
    · refine only_bind (orNone_only (unsent_of_upkeep (queryState_upkeep existing))) fun found => ?_
      cases found with
      | none => exact only_done
      | some report => exact only_asks trivial fun _ => only_done

/-! Programs that send orders. -/

/-- What a placement is sent with: the filters and the price that its task read. -/
structure Backed (record : TaskRecord) (basis : Basis) (p : Placement) : Prop where
  filters : filtersRead p.symbol record.hist = some basis.filters
  price : ⟨.market (.price p.symbol), .ok (some basis.price)⟩ ∈ record.hist
  reference : p.referencePrice = basis.price

theorem Backed.later {later : TaskRecord} {basis : Basis} {p : Placement}
    (backed : Backed record basis p) (after : Later record later) : Backed later basis p :=
  ⟨(after.filters _).trans backed.filters, after.suffix.subset backed.price, backed.reference⟩

/-- `_place_and_record` sends its order right after the row with the reference price. -/
theorem placeAndRecord_sends {p : Placement} (basis : Basis) (backed : Backed record basis p)
    (sells : ∀ accountId actor, record.call = some (.closeAllPositions accountId actor) →
      basis.Sells (p.order svc.text) record.hist)
    (met : 0 < p.quantity →
      (Lawful basis.filters p.quantity ((p.order svc.text).limit.getD basis.price) ↔
        FiltersMet record.call basis (p.order svc.text))) :
    Safe (recording sendingRule) (placeAndRecord svc p) record fun _ _ => True := by
  unfold placeAndRecord
  refine checked_before fun validated valid => ?_
  obtain ⟨-, -, -, positive, -⟩ := validateExecutionOrder_ok valid
  cases real : p.isReal with
  | false => exact unsent_safe (only_asks trivial fun _ => only_done)
  | true =>
    rw [if_neg (by simp)]
    refine recording_then trivial (fun row => ?_) fun _ => trivial
    refine Safe.attempt_bind (recording_call.mpr ⟨?_, fun _ => trivial⟩)
      fun submitted g (_ : True) => ?_
    · have after : Later record
          (record.after (.write (.insertOrder (p.draft svc.text) false none)) (.ok row)) :=
        later_after (.write _) trivial _
      refine ⟨basis, ⟨?_, after.suffix.subset backed.price, _, row, _, rfl, rfl, backed.reference⟩,
        fun accountId actor closing => ?_, met positive⟩
      · exact (after.filters _).trans backed.filters
      · obtain ⟨⟨balances, asset, read, member, named⟩, rounded⟩ := sells accountId actor closing
        exact ⟨⟨balances, asset, after.suffix.subset read, member, named⟩, rounded⟩
    · cases submitted with
      | error raised => exact unsent_safe (unsent_of_upkeep (submissionFailed_upkeep _ _ _ _ _))
      | ok result => exact unsent_safe (only_asks trivial fun _ => only_done)

/-- The end of `_execute_oco_direct` sends its list right after the row with the reference price. -/
theorem recordOco_sends {real : Bool} {o : OcoOrder} {notional reference equity : ℚ} (basis : Basis)
    (read : filtersRead o.symbol record.hist = some basis.filters)
    (priced : ⟨.market (.price o.symbol), .ok (some basis.price)⟩ ∈ record.hist)
    (same : reference = basis.price) (lawful : Lawful basis.filters o.quantity o.price) :
    Safe (recording sendingRule) (recordOco svc account real o notional reference equity) record
      fun _ _ => True := by
  unfold recordOco
  dsimp only
  cases real with
  | false => exact unsent_safe (only_asks trivial fun _ => only_done)
  | true =>
    rw [if_neg (by simp)]
    refine recording_then trivial (fun row => ?_) fun _ => trivial
    refine Safe.attempt_bind (recording_call.mpr ⟨?_, fun _ => trivial⟩)
      fun submitted g (_ : True) => ?_
    · have after : Later record (record.after
          (.write (.insertOrder (o.draft svc.text notional reference equity) false none)) (.ok row)) :=
        later_after (.write _) trivial _
      exact ⟨basis, ⟨(after.filters _).trans read, after.suffix.subset priced, _, row, _, rfl, rfl,
        same⟩, lawful⟩
    · cases submitted with
      | error raised => exact unsent_safe (unsent_of_upkeep (submissionFailed_upkeep _ _ _ _ _))
      | ok result => exact unsent_safe (only_asks trivial fun _ => only_done)

/-- What a validated order without a stop limit is priced at: its limit price, or the market's. -/
theorem reference_of_valid {text : Text}
    (passes : validateExecutionOrder text input = .ok validated) (single : input.stopLimitPrice = none) :
    (validated.orderType = .market ∨
      ((validated.orderType = .limit ∨ validated.orderType = .stopLossLimit) ∧
        ∃ limit, input.price = some limit)) := by
  obtain ⟨-, -, -, -, -, -, -, conditional⟩ := validateExecutionOrder_ok passes
  cases type : validated.orderType with
  | market => exact .inl rfl
  | limit =>
    rw [type] at conditional
    exact .inr ⟨.inl rfl, Option.ne_none_iff_exists'.mp (rejectIf_ok.mp conditional)⟩
  | stopLossLimit =>
    rw [type] at conditional
    simp only [checkConditionalFields, bind_ok] at conditional
    obtain ⟨_, limited, -⟩ := conditional
    exact .inr ⟨.inr rfl, Option.ne_none_iff_exists'.mp (rejectIf_ok.mp limited)⟩
  | oco =>
    -- A list needs the price of its second leg.
    rw [type, single] at conditional
    simp only [checkConditionalFields, bind_ok] at conditional
    obtain ⟨_, -, _, -, _, limited, -⟩ := conditional
    exact absurd trivial (rejectIf_ok.mp limited)

/-- A validated direct order meets the filters unless it is a market order with a price of its own. -/
theorem direct_met {text : Text}
    {args : PlaceOrderArgs} {accountId symbol key : String} {side : Side} {stop : Option ℚ}
    (passes : validateExecutionOrder text input = .ok validated) (single : input.stopLimitPrice = none)
    (given : input.filters = some filters) (priced : input.marketPrice = some price) :
    let order : PlaceOrder := ⟨accountId, symbol, side, validated.orderType, validated.quantity,
      validated.price, key, stop⟩
    Lawful filters order.quantity (order.limit.getD price) ↔
      FiltersMet (some (.placeOrder args)) ⟨filters, price, 0⟩ order := by
  obtain ⟨amount, limited, -⟩ := validateExecutionOrder_ok passes
  show Lawful filters validated.quantity ((if validated.orderType = .limit ∨
      validated.orderType = .stopLossLimit then validated.price else none).getD price) ↔
    (validated.orderType = .market → ∀ own ∈ validated.price,
      filters.minNotional ≤ validated.quantity * price)
  rw [amount, limited]
  rcases reference_of_valid passes single with atMarket | ⟨type, limit, own⟩
  · rw [atMarket, if_neg (by simp)]
    cases own : input.price with
    | none =>
      refine iff_of_true (lawful_of_valid passes given (by rw [own, priced]; rfl)) ?_
      intro _ value member
      cases member
    | some value =>
      have lawful := lawful_of_valid passes given (by rw [own]; rfl : _ = some value)
      constructor
      · exact fun met _ _ _ => met.worth
      · intro met
        exact ⟨lawful.positive, lawful.aligned, lawful.least, lawful.most, met rfl value rfl⟩
  · rw [if_pos type, own]
    refine iff_of_true (lawful_of_valid passes given (by rw [own]; rfl)) fun atMarket => ?_
    rw [atMarket] at type
    rcases type with impossible | impossible <;> cases impossible

/-- An entry sends orders that meet the filters when its placement does. -/
theorem enterDirect_sends {accountId symbol key : String} {input : SymbolFilters → Option ℚ → OrderInput}
    {quantity : Validated → ℚ} {place : Account → Bool → Validated → ℚ → ℚ → ℚ → Task AccountResult}
    (placed : ∀ account real filters validated notional reference equity later, later.call = record.call →
      filtersRead symbol later.hist = some filters →
      ⟨.market (.price symbol), .ok (some reference)⟩ ∈ later.hist →
      validateExecutionOrder svc.text (input filters (some reference)) = .ok validated →
      Safe (recording sendingRule) (place account real validated notional reference equity) later fun _ _ => True) :
    Safe (recording sendingRule) (enterDirect svc accountId symbol key input quantity place) record
      fun _ _ => True := by
  unfold enterDirect
  refine unsent_then (unsent_of_asking (getAccount_asks _)) fun account g began => ?_
  refine unsent_then (only_call.mpr trivial) fun found g' looked => ?_
  have called := looked.call.trans began.call
  clear began looked
  cases found with
  | some existing => exact unsent_safe (handleExisting_unsent existing)
  | none =>
    refine unsent_then (unsent_of_asking isReal_asks) fun real _ known => ?_
    replace called := known.call.trans called
    refine unsent_then (unsent_of_asking (requireSymbol_asks _)) fun _ _ known => ?_
    replace called := known.call.trans called
    refine read_price_then fun marketPrice _ known heard => ?_
    replace called := known.call.trans called
    refine checked_before fun reference fresh => ?_
    obtain rfl := checkPriceFresh_ok fresh
    refine read_filters_then fun filters _ same suffix read => ?_
    replace called := same.trans called
    replace heard := suffix.subset heard
    refine checked_before fun validated passes => ?_
    refine checked_before fun notional _ => ?_
    -- From here on no filters are read before the order is sent.
    refine unsent_then (only_call.mpr trivial) fun balances _ first => ?_
    refine checked_before fun _ _ => ?_
    refine unsent_then (unsent_of_gating (getPolicy_gating _)) fun policy _ second => ?_
    refine unsent_then (unsent_of_asking (currentExposure_asks _ _)) fun exposure _ third => ?_
    refine unsent_then (unsent_of_gating (enforceCapsOrOverride_gating _ _ _ _ _)) fun _ _ fourth => ?_
    refine unsent_then (unsent_of_asking (equityFromBalances_asks _ _)) fun equity _ fifth => ?_
    have after := (((first.trans second).trans third).trans fourth).trans fifth
    exact placed account real filters validated notional reference equity _ (after.call.trans called)
      ((after.filters _).trans read) (after.suffix.subset heard) passes

/-- `_execute_one_direct` sends orders that meet the filters, up to the price of a market order. -/
theorem executeOneDirect_sends {o : DirectOrder} {args : PlaceOrderArgs}
    (serves : record.call = some (.placeOrder args)) :
    Safe (recording sendingRule) (executeOneDirect svc o) record fun _ _ => True := by
  refine enterDirect_sends fun account real filters validated notional reference equity later same read heard passes => ?_
  have called := same.trans serves
  refine placeAndRecord_sends ⟨filters, reference, 0⟩ ⟨read, heard, rfl⟩ (fun accountId actor closing => ?_) fun _ => ?_
  · cases closing.symm.trans called
  · rw [called]
    exact direct_met passes rfl rfl rfl

/-- A call whose orders meet the filters without further ado. -/
structure Ordinary (record : TaskRecord) : Prop where
  met : ∀ basis order, FiltersMet record.call basis order
  open_ : ∀ accountId actor, record.call ≠ some (.closeAllPositions accountId actor)

theorem Ordinary.of_call {later : TaskRecord} (ordinary : Ordinary record) (same : later.call = record.call) :
    Ordinary later :=
  ⟨same ▸ ordinary.met, same ▸ ordinary.open_⟩

/-- `_execute_one_sized` sends orders that meet the filters. -/
theorem executeOneSized_sends {o : SizedOrder} (ordinary : Ordinary record) :
    Safe (recording sendingRule) (executeOneSized svc account o) record fun _ _ => True := by
  unfold executeOneSized
  refine unsent_then (only_call.mpr trivial) fun found _ known => ?_
  replace ordinary := ordinary.of_call known.call
  cases found with
  | some existing => exact unsent_safe (handleExisting_unsent existing)
  | none =>
    refine unsent_then (unsent_of_asking isReal_asks) fun real _ known => ?_
    replace ordinary := ordinary.of_call known.call
    refine unsent_then (unsent_of_asking (accuracyPreflight_asks _ _ _ _)) fun _ _ known => ?_
    replace ordinary := ordinary.of_call known.call
    refine read_price_then fun price _ known heard => ?_
    replace ordinary := ordinary.of_call known.call
    refine unsent_then (only_call.mpr trivial) fun balances _ known => ?_
    replace ordinary := ordinary.of_call known.call
    replace heard := known.suffix.subset heard
    refine unsent_then (unsent_of_asking (equityFromBalances_asks _ _)) fun equity _ known => ?_
    replace ordinary := ordinary.of_call known.call
    replace heard := known.suffix.subset heard
    refine read_filters_then fun filters _ same suffix read => ?_
    replace ordinary := ordinary.of_call same
    replace heard := suffix.subset heard
    refine checked_before fun sizing _ => ?_
    refine checked_before fun sized _ => ?_
    refine checked_before fun notional times => ?_
    refine checked_before fun validated passes => ?_
    refine checked_before fun _ _ => ?_
    -- From here on no filters are read before the order is sent.
    refine unsent_then (unsent_of_gating (getPolicy_gating _)) fun policy _ first => ?_
    refine unsent_then (unsent_of_asking (currentExposure_asks _ _)) fun exposure _ second => ?_
    refine unsent_then (unsent_of_gating (enforceCapsOrOverride_gating _ _ _ _ _)) fun _ _ third => ?_
    have after := (first.trans second).trans third
    cases price with
    | none => cases times
    | some market =>
      refine placeAndRecord_sends ⟨filters, market, 0⟩
        ⟨(after.filters _).trans read, after.suffix.subset heard, rfl⟩
        (fun accountId actor closing => ?_) fun _ => ?_
      · exact absurd (after.call.symm.trans closing) (ordinary.open_ _ _)
      refine iff_of_true ?_ ((ordinary.of_call after.call).met _ _)
      -- The validator checked the same reference price.
      have typed : validated.orderType = o.orderType :=
        Except.ok.inj ((validateExecutionOrder_normal passes).2.symm.trans
          (normalizeOrderType_name svc.text o.orderType))
      refine lawful_of_valid passes rfl ?_
      show (limitPrice o.orderType o.entry <|> some market) =
        some ((if validated.orderType = .limit ∨ validated.orderType = .stopLossLimit then
          some o.entry else none).getD market)
      rw [typed]
      unfold limitPrice
      split <;> rfl

/-- `_execute_oco_direct` sends lists that meet the filters. -/
theorem executeOcoDirect_sends {o : OcoOrder} :
    Safe (recording sendingRule) (executeOcoDirect svc o) record fun _ _ => True := by
  exact enterDirect_sends fun _ _ filters _ _ reference _ _ _ read heard passes =>
    recordOco_sends ⟨filters, reference, 0⟩ read heard rfl (lawful_of_valid passes rfl rfl)

/-- A program under a lock sends what its body sends. -/
theorem withLock_sends {accountId : String} {body : Task α}
    (kept : ∀ g : TaskRecord, g.call = record.call → record.hist <:+ g.hist →
      Safe (recording sendingRule) body g fun _ _ => True) :
    Safe (recording sendingRule) (withLock accountId body) record fun _ _ => True := by
  unfold withLock
  refine recording_then trivial (fun _ => ?_) fun _ => trivial
  refine Safe.ensuring (kept _ rfl (List.suffix_cons _ _)) fun outcome g _ => ?_
  refine recording_call.mpr ⟨trivial, fun answer => ?_⟩
  cases answer <;> trivial

/-- `place_order` sends orders that meet the filters, up to the price of a market order. -/
theorem placeOrder_sends {args own : PlaceOrderArgs} (serves : record.call = some (.placeOrder own)) :
    Safe (recording sendingRule) (placeOrder svc args) record fun _ _ => True :=
  checked_before fun _ _ => withLock_sends fun _ same _ => executeOneDirect_sends (same.trans serves)

/-- `place_oco_order` sends lists that meet the filters. -/
theorem placeOcoOrder_sends {args : PlaceOcoArgs} :
    Safe (recording sendingRule) (placeOcoOrder svc args) record fun _ _ => True :=
  checked_before fun _ _ => withLock_sends fun _ _ _ => executeOcoDirect_sends

theorem resolveTargets_unsent (accountIds tags : List String) :
    (resolveTargets accountIds tags).Only Unsent := by
  unfold resolveTargets
  split
  · exact only_fail
  · refine only_asks trivial fun listed => ?_
    split <;> first | exact only_done | exact only_fail

/-- A loop whose turns keep to the rule does, and what holds before it grows with the record. -/
theorem foldlM_sends {α σ : Type} {items : List α} {body : σ → α → Task σ} {start : σ}
    (turn : ∀ state item g, item ∈ items → g.call = record.call → record.hist <:+ g.hist →
      Safe (recording sendingRule) (body state item) g fun _ _ => True) :
    Safe (recording sendingRule) (items.foldlM body start) record fun _ _ => True := by
  refine (Safe.foldlM (fun rest _ g => rest ⊆ items ∧ g.call = record.call ∧ record.hist <:+ g.hist)
    (fun _ _ => True) ⟨List.Subset.refl _, rfl, List.suffix_refl _⟩ ?_).mono fun _ _ _ => trivial
  rintro item rest state g ⟨listed, same, suffix⟩
  have safe := turn state item g (listed List.mem_cons_self) same suffix
  refine (recording_keeps (recording_grows safe)).mono fun outcome later facts => ?_
  cases outcome with
  | error raised => trivial
  | ok after =>
    exact ⟨fun other member => listed (List.mem_cons_of_mem _ member), facts.2.trans same,
      suffix.trans facts.1.2⟩

/-- `execute_on_accounts` sends orders that meet the filters. -/
theorem executeOnAccounts_sends {args : ExecuteArgs} (ordinary : Ordinary record) :
    Safe (recording sendingRule) (executeOnAccounts svc args) record fun _ _ => True := by
  unfold executeOnAccounts
  refine checked_before fun order _ => ?_
  refine unsent_then (resolveTargets_unsent _ _) fun targets g known => ?_
  replace ordinary := ordinary.of_call known.call
  refine Safe.bind (foldlM_sends fun results account g' _ same _ => ?_) (fun _ _ _ => .done trivial)
    fun _ _ _ => trivial
  have body : Safe (recording sendingRule) (executeFor svc order account) g' fun _ _ => True :=
    withLock_sends fun _ inside _ => Safe.rescue
      (executeOneSized_sends ((ordinary.of_call same).of_call inside)) (fun _ _ _ => trivial)
      fun _ _ _ => .done trivial
  exact Safe.bind body (fun _ _ _ => .done trivial) fun _ _ _ => trivial

/-- What the kill switch knows when it comes to sell an asset. -/
structure ForSale (record : TaskRecord) (accountId asset : String) (amount price : ℚ)
    (filters : SymbolFilters) : Prop where
  serves : ∃ own actor, record.call = some (.closeAllPositions own actor)
  held : ∃ balances, ⟨.broker (.getBalance accountId), .ok balances⟩ ∈ record.hist ∧
    (asset, amount) ∈ balances
  read : filtersRead (asset ++ quoteAsset) record.hist = some filters
  heard : ⟨.market (.price (asset ++ quoteAsset)), .ok (some price)⟩ ∈ record.hist
  enough : filters.minQty ≤ roundDownToStep amount filters.stepSize

theorem ForSale.later {accountId asset : String}
    {later : TaskRecord} (sale : ForSale record accountId asset amount price filters)
    (after : Later record later) : ForSale later accountId asset amount price filters where
  serves := by
    obtain ⟨own, actor, serves⟩ := sale.serves
    exact ⟨own, actor, after.call.trans serves⟩
  held := by
    obtain ⟨balances, read, member⟩ := sale.held
    exact ⟨balances, after.suffix.subset read, member⟩
  read := (after.filters _).trans sale.read
  heard := after.suffix.subset sale.heard
  enough := sale.enough

/-- A sale of the kill switch meets the filters when it is not too much and worth enough. -/
theorem sellNow_sends {asset nonce : String}
    (sale : ForSale record account.accountId asset amount price filters) :
    Safe (recording sendingRule) (sellNow svc account actor (asset ++ quoteAsset) nonce
      (roundDownToStep amount filters.stepSize) price) record fun _ _ => True := by
  obtain ⟨own, named, serves⟩ := sale.serves
  obtain ⟨balances, read, member⟩ := sale.held
  refine Safe.bind (placeAndRecord_sends ⟨filters, price, amount⟩ ⟨sale.read, sale.heard, rfl⟩
    (fun _ _ _ => ⟨⟨balances, asset, read, member, rfl⟩, rfl⟩) fun positive => ?_)
    (fun _ _ _ => .done trivial) fun _ _ _ => trivial
  rw [serves]
  exact lawful_roundDown_iff positive sale.enough

theorem sellAfter_sends {asset nonce : String}
    {earlier : Option Order} (sale : ForSale record account.accountId asset amount price filters) :
    Safe (recording sendingRule) (sellAfter svc account actor (asset ++ quoteAsset) nonce
      (roundDownToStep amount filters.stepSize) price earlier) record fun _ _ => True := by
  unfold sellAfter
  cases earlier with
  | none => exact sellNow_sends sale
  | some row =>
    refine unsent_then (orNone_only (only_call.mpr trivial)) fun found _ after => ?_
    replace sale := sale.later after
    cases found with
    | none => exact sellNow_sends sale
    | some report =>
      refine unsent_then (only_call.mpr trivial) fun _ _ after => ?_
      replace sale := sale.later after
      split
      · exact .done trivial
      · exact sellNow_sends sale

/-- The kill switch sells rounded free amounts. -/
theorem sellAsset_sends {own : Arg} {named nonce asset : String} {sold : List Sale}
    {balances : Balances} (serves : record.call = some (.closeAllPositions own named))
    (read : ⟨.broker (.getBalance account.accountId), .ok balances⟩ ∈ record.hist)
    (member : (asset, amount) ∈ balances) :
    Safe (recording sendingRule) (sellAsset svc account actor nonce sold asset amount) record
      fun _ _ => True := by
  unfold sellAsset
  split
  · exact .done trivial
  refine unsent_then (only_call.mpr trivial) fun valid _ known => ?_
  replace serves := known.call.trans serves
  replace read := known.suffix.subset read
  split
  · exact .done trivial
  refine read_price_then fun price _ known heard => ?_
  replace serves := known.call.trans serves
  replace read := known.suffix.subset read
  cases price with
  | none => exact .done trivial
  | some price =>
    simp only [market, bind_eq]
    refine recording_then trivial (fun answer => ?_) fun _ => trivial
    cases answer with
    | none => exact .done trivial
    | some filters =>
      dsimp only
      split
      · exact .done trivial
      rename_i enough
      refine unsent_then (only_call.mpr trivial) fun earlier _ after => ?_
      -- The sale is allowed by the balance, the price and the filters that were heard before.
      refine Safe.bind (sellAfter_sends (ForSale.later ?_ after)) (fun _ _ _ => .done trivial)
        fun _ _ _ => trivial
      exact ⟨⟨own, named, serves⟩, ⟨balances, List.mem_cons_of_mem _ read, member⟩, if_pos rfl,
        List.mem_cons_of_mem _ heard, not_lt.mp enough⟩

/-- `_close_one` sends rounded free amounts of its account. -/
theorem closeOne_sends {own : Arg} {named : String}
    (serves : record.call = some (.closeAllPositions own named)) :
    Safe (recording sendingRule) (closeOne svc account actor) record fun _ _ => True := by
  unfold closeOne
  refine unsent_then (unsent_of_asking isReal_asks) fun real _ known => ?_
  replace serves := known.call.trans serves
  refine unsent_then (only_call.mpr trivial) fun active _ known => ?_
  replace serves := known.call.trans serves
  have cancels (exchange : List ExchangeOrder) (bulk : CancelState) :
      ((cancelTargets active exchange).foldlM (cancelTarget svc account real actor) bulk).Only Unsent :=
    unsent_of_upkeep (only_foldlM (cancelTarget_upkeep real) _ _)
  cases real with
  | false =>
    -- A paper account asks the exchange for nothing and sells nothing.
    rw [if_neg Bool.false_ne_true, bind_eq, pure_eq, done_bind]
    beta_reduce
    rw [List.foldlM_nil, bind_eq, pure_eq, done_bind]
    exact unsent_safe (only_bind (cancels _ _) fun state => only_done)
  | true =>
    refine unsent_then (only_call.mpr trivial) fun exchange _ known => ?_
    replace serves := known.call.trans serves
    refine unsent_then (unsent_of_upkeep (only_foldlM cancelUnnamed_upkeep _ _)) fun bulk _ known => ?_
    replace serves := known.call.trans serves
    refine unsent_then (cancels _ _) fun state _ known => ?_
    replace serves := known.call.trans serves
    refine unsent_then (only_call.mpr trivial) fun id g known => ?_
    replace serves := known.call.trans serves
    refine recording_then trivial (fun balances => ?_) fun _ => trivial
    refine Safe.bind (foldlM_sends fun sold entry g' member same suffix => ?_)
      (fun _ _ _ => .done trivial) fun _ _ _ => trivial
    obtain ⟨asset, amount⟩ := entry
    exact sellAsset_sends (same.trans serves) (suffix.subset List.mem_cons_self) member

theorem closeTargets_unsent (accountId : String) : (closeTargets accountId).Only Unsent := by
  unfold closeTargets
  split
  · exact only_call.mpr trivial
  · exact only_bind (unsent_of_asking (getAccount_asks _)) fun _ => only_done

/-- `close_all_positions` sends rounded free amounts of its accounts. -/
theorem closeAllPositions_sends {accountId own : Arg} {named : String}
    (serves : record.call = some (.closeAllPositions own named)) :
    Safe (recording sendingRule) (closeAllPositions svc accountId actor) record fun _ _ => True := by
  unfold closeAllPositions
  refine checked_before fun id _ => ?_
  refine unsent_then (closeTargets_unsent _) fun accounts g known => ?_
  refine foldlM_sends fun results account g' _ same _ => ?_
  have body : Safe (recording sendingRule) (closeFor svc (actorOr actor) account) g' fun _ _ => True :=
    withLock_sends fun _ inside _ => Safe.rescue
      (closeOne_sends (inside.trans (same.trans (known.call.trans serves)))) (fun _ _ _ => trivial)
      fun _ _ _ => .done trivial
  exact Safe.bind body (fun _ _ _ => .done trivial) fun _ _ _ => trivial

end Rasat

/-! Every call of the daemon, and its startup, send their orders by the rule of the exchange filters. -/

namespace Rasat

open Coop Prog

variable {svc : Service} {record : TaskRecord}

/-! What surrounds an execution sends nothing. -/

theorem unsent_of_pending {α : Type} {program : Task α} (only : program.Only PendingWork) :
    program.Only Unsent := by
  refine only.mono fun request pending => ?_
  cases request with
  | broker call => exact absurd pending id
  | market call => cases call <;> trivial
  | _ => trivial

theorem reconcileOpenOrders_unsent : (reconcileOpenOrders svc).Only Unsent := by
  refine only_asks trivial fun accounts => ?_
  dsimp only
  split
  · exact only_done
  · refine only_asks trivial fun stuck => only_foldlM (fun report order => ?_) _ _
    exact unsent_of_upkeep (reconcileOrder_upkeep report order)

/-! The calls. -/

/-- The approval handler sends what its execution sends. -/
theorem approvePendingOrderHandler_sends {orderId actor : String} (ordinary : Ordinary record) :
    Safe (recording sendingRule) (approvePendingOrderHandler (executeOnAccounts svc) orderId actor)
      record fun _ _ => True := by
  unfold approvePendingOrderHandler
  refine unsent_then (unsent_of_pending (pendingOrder_settles _)) fun row _ known => ?_
  replace ordinary := ordinary.of_call known.call
  by_cases waiting : row.status ≠ .awaitingApproval
  · rw [if_pos waiting]
    exact .fail trivial
  rw [if_neg waiting]
  refine unsent_then (unsent_of_pending (pendingEntry_settles _ _)) fun entry _ known => ?_
  replace ordinary := ordinary.of_call known.call
  refine checked_before fun _ _ => ?_
  by_cases unprotected : row.stopLoss = none
  · rw [if_pos unprotected]
    exact .fail trivial
  rw [if_neg unprotected]
  refine unsent_then (only_call.mpr trivial) fun now _ known => ?_
  replace ordinary := ordinary.of_call known.call
  refine unsent_then (only_call.mpr trivial) fun _ _ known => ?_
  replace ordinary := ordinary.of_call known.call
  refine Safe.attempt_bind (executeOnAccounts_sends ordinary) fun executed _ _ => ?_
  exact unsent_safe (unsent_of_pending (settlePending_settles _ _))

/-- Every call of the daemon sends its orders by the rule. -/
theorem call_sends (call : Call) :
    Safe (recording sendingRule) (call.program svc (executeOnAccounts svc)) ⟨some call, []⟩
      fun _ _ => True := by
  have admin {program : Task Unit} {reply : Reply} (only : program.Only Admin) :
      Safe (recording sendingRule) (program.bind fun _ => .done reply) ⟨some call, []⟩
        fun _ _ => True :=
    unsent_then (unsent_of_admin only) fun _ _ _ => .done trivial
  -- A call that is one transaction sends nothing.
  have write {tx : Tx} {next : tx.Ans → Reply} :
      Safe (recording sendingRule) ((dbWrite tx).bind fun answer => .done (next answer))
        ⟨some call, []⟩ fun _ _ => True :=
    unsent_then (only_call.mpr trivial) fun _ _ _ => .done trivial
  have body {α : Type} {program : Task α} {reply : α → Reply}
      (safe : Safe (recording sendingRule) program ⟨some call, []⟩ fun _ _ => True) :
      Safe (recording sendingRule) (program.bind fun value => .done (reply value)) ⟨some call, []⟩
        fun _ _ => True :=
    Safe.bind safe (fun _ _ _ => .done trivial) fun _ _ _ => trivial
  cases call with
  | placeOrder args => exact body (placeOrder_sends rfl)
  | placeOcoOrder args => exact body placeOcoOrder_sends
  | executeOnAccounts args =>
    exact body (executeOnAccounts_sends ⟨fun _ _ => trivial, fun _ _ other => by cases other⟩)
  | approvePendingOrder orderId actor =>
    exact body (approvePendingOrderHandler_sends ⟨fun _ _ => trivial, fun _ _ other => by cases other⟩)
  | closeAllPositions named actor => exact body (closeAllPositions_sends rfl)
  | approvePending orderId => exact write
  | rejectPending orderId => exact write
  | triggerAlert spec => exact write
  | enableRealTrading named actor => exact admin (enableRealTrading_admin _ _)
  | disableRealTrading named actor => exact admin (disableRealTradingHandler_admin _ _)
  | addAccount tags stored actor =>
    exact unsent_then (unsent_of_admin (addAccount_admin _ _ _)) fun _ _ _ => .done trivial
  | removeAccount named actor => exact admin (removeAccount_admin _ _)
  | setRiskPolicy args =>
    exact unsent_then (unsent_of_admin (setRiskPolicy_admin _)) fun _ _ _ => .done trivial
  | createOverride args =>
    exact unsent_then (unsent_of_admin (createOverride_admin _)) fun _ _ _ => .done trivial

/-- The startup sends nothing. -/
theorem startup_sends : Safe (recording sendingRule) (startup svc) ⟨none, []⟩ fun _ _ => True := by
  unfold startup
  refine unsent_then (unsent_of_admin reconcileOverrides_admin) fun _ _ _ => ?_
  refine Safe.attempt_bind (unsent_safe reconcileOpenOrders_unsent) fun _ _ _ => ?_
  refine Safe.attempt_bind (unsent_safe (unsent_of_pending (reconcilePendingExecutions_settles _))) fun _ _ _ => ?_
  exact .done trivial

end Rasat
