import RasatTrading.Coop.Outcome
import RasatTrading.Guarantees.Judged

/-! Once the caps let an order through, its second validation accepts it and its row comes next. -/

namespace Rasat

open Coop Prog

variable {svc : Service}

/-- What `_place_and_record` gives to the shared validator. -/
def Placement.input (p : Placement) : OrderInput where
  side := p.side.name
  orderType := .text p.orderType.name
  quantity := p.quantity
  price := p.price
  stopPrice := p.stopPrice
  marketPrice := some p.referencePrice

/-- The second validation of a placement accepts the fields that the first one returned, and the
insertion of the row comes next. -/
def Reaccepted (svc : Service) (p : Placement) (first : Validated) : Prop :=
  (∃ again, validateExecutionOrder svc.text p.input = .ok again ∧ again.side = first.side ∧
    again.orderType = first.orderType ∧ again.quantity = first.quantity ∧
    again.stopPrice = first.stopPrice) ∧
  ∃ audit next, placeAndRecord svc p =
    (dbWrite (.insertOrder (p.draft svc.text) (!p.isReal) audit)).bind next

/-- A placement whose second validation passes begins with its row. -/
theorem placeAndRecord_inserts {p : Placement} {again : Validated}
    (passes : validateExecutionOrder svc.text p.input = .ok again) :
    ∃ audit next, placeAndRecord svc p =
      (dbWrite (.insertOrder (p.draft svc.text) (!p.isReal) audit)).bind next := by
  have checked : sync (validateExecutionOrder svc.text p.input) = (.done again : Task Validated) := by
    rw [passes]
    rfl
  unfold placeAndRecord
  -- The validator is the only step before the two branches, and both of them insert first.
  change ∃ audit next, (sync (validateExecutionOrder svc.text p.input)).bind _ = _
  rw [checked]
  cases real : p.isReal with
  | false => exact ⟨_, _, rfl⟩
  | true => exact ⟨_, _, rfl⟩

/-- An order is accepted again with the fields of its first validation, whatever price stands in it. -/
theorem reaccepted {p : Placement} {input : OrderInput} {first : Validated}
    (passed : validateExecutionOrder svc.text input = .ok first)
    (single : input.stopLimitPrice = none) (side : p.side = first.side)
    (type : p.orderType = first.orderType) (quantity : p.quantity = input.quantity)
    (stop : p.stopPrice = input.stopPrice) (market : input.marketPrice = some p.referencePrice)
    (positive : ∀ value ∈ p.price, 0 < value) (kept : input.price ≠ none → p.price ≠ none) :
    Reaccepted svc p first := by
  -- The second input has the normalized names and, perhaps, another price.
  have same : p.input = {
      side := first.side.name
      orderType := .text first.orderType.name
      quantity := input.quantity
      price := p.price
      stopPrice := input.stopPrice
      marketPrice := input.marketPrice } := by
    rw [Placement.input, side, type, quantity, stop, market]
  obtain ⟨again, passes⟩ := validateExecutionOrder_again passed single positive kept
  rw [← same] at passes
  -- The validator returns the amounts as they came and reads the two names back.
  obtain ⟨amount, -, trigger, -⟩ := validateExecutionOrder_ok passes
  obtain ⟨firstAmount, -, firstTrigger, -⟩ := validateExecutionOrder_ok passed
  obtain ⟨sided, typed⟩ := validateExecutionOrder_normal passes
  have sameSide : again.side = p.side :=
    (Except.ok.inj ((normalizeSide_name svc.text p.side).symm.trans sided)).symm
  have sameType : again.orderType = p.orderType :=
    (Except.ok.inj ((normalizeOrderType_name svc.text p.orderType).symm.trans typed)).symm
  refine ⟨⟨again, passes, sameSide.trans side, sameType.trans type, ?_, ?_⟩,
    placeAndRecord_inserts passes⟩
  · exact amount.trans (quantity.trans firstAmount.symm)
  · exact trigger.trans (stop.trans firstTrigger.symm)

variable {hist seen : History} {account : Account}

/-- A direct order that was read knows the market price that its row refers to. -/
theorem readDirect_price {o : DirectOrder} {r : Reading}
    (reached : Reaches (readDirect account o) hist (.done r) seen) : r.price = some r.reference := by
  unfold readDirect at reached
  simp only [Prog.bind_eq, Prog.pure_eq] at reached
  -- The price is the third thing that is read.
  obtain ⟨_, _, -, reached⟩ := Reaches.of_bind reached
  obtain ⟨_, _, -, reached⟩ := Reaches.of_bind reached
  obtain ⟨price, _, -, reached⟩ := Reaches.of_bind reached
  obtain ⟨reference, _, checked, reached⟩ := Reaches.of_bind reached
  obtain ⟨_, _, -, reached⟩ := Reaches.of_bind reached
  obtain ⟨same, -⟩ := Reaches.of_done reached
  cases same
  exact checkPriceFresh_ok (Reaches.of_ofExcept checked).1

/-- An order is only sized from a positive entry. -/
theorem sizeOrder_entry {o : SizedOrder} {s : Sizing}
    (reached : Reaches (sizeOrder svc account o) hist (.done s) seen) : 0 < o.entry := by
  unfold sizeOrder at reached
  simp only [Prog.bind_eq, Prog.pure_eq] at reached
  obtain ⟨_, _, -, reached⟩ := Reaches.of_bind reached
  obtain ⟨_, _, -, reached⟩ := Reaches.of_bind reached
  obtain ⟨_, _, -, reached⟩ := Reaches.of_bind reached
  obtain ⟨_, _, -, reached⟩ := Reaches.of_bind reached
  obtain ⟨_, _, -, reached⟩ := Reaches.of_bind reached
  obtain ⟨_, _, -, reached⟩ := Reaches.of_bind reached
  obtain ⟨_, _, -, reached⟩ := Reaches.of_bind reached
  -- Position sizing raises for an entry that is not positive.
  obtain ⟨_, _, sized, -⟩ := Reaches.of_bind reached
  exact calculatePositionSize_entry (Reaches.of_ofExcept sized).1

/-- What a direct order passes on is accepted again. -/
theorem direct_reaccepted {o : DirectOrder} {r : Reading} {judged : ℚ × Validated}
    (equity : ℚ) (priced : r.price = some r.reference) (passes : judgeDirect svc o r = .ok judged) :
    Reaccepted svc (directPlacement account o r judged equity) judged.2 := by
  have passed := (judgeDirect_ok passes).2
  obtain ⟨quantity, price, stop, -, positive, -⟩ := validateExecutionOrder_ok passed
  -- The row carries what the first validation returned, which is what it was given.
  refine reaccepted passed rfl rfl rfl quantity stop priced ?_ ?_
  · exact fun value member => positive value (price ▸ member)
  · exact fun given => (show judged.2.price ≠ none from price ▸ given)

/-- What a sized order passes on is accepted again, with its entry in the place of any price. -/
theorem sized_reaccepted {o : SizedOrder} {s : Sizing} {judged : ℚ × Validated}
    (entry : 0 < o.entry) (passes : judgeSized svc o s = .ok judged) :
    Reaccepted svc (sizedPlacement account o s judged) judged.2 := by
  obtain ⟨times, passed⟩ := judgeSized_ok passes
  -- Without a market price there would have been no notional.
  have priced : s.price = some (s.price.getD 0) := by
    cases found : s.price with
    | none =>
      rw [found] at times
      cases times
    | some value => rfl
  refine reaccepted passed rfl rfl rfl rfl rfl priced ?_ fun _ => Option.some_ne_none _
  intro value member
  cases member
  exact entry

/-- What settles a debt is a price or the insertion of the order that it is for. -/
theorem settles_asks {locked id key : String} {request : Req} (settles : Settles locked id key request) :
    (∃ question, request = .market question) ∨
      ∃ draft simulated audit, request = .write (.insertOrder draft simulated audit) ∧
        draft.idempotencyKey = key := by
  unfold Settles at settles
  split at settles
  · exact .inl ⟨_, rfl⟩
  · exact .inr ⟨_, _, _, rfl, settles.2⟩
  · exact settles.elim

/-- While a call owes the order of an override, it asks for a price or inserts that order next. -/
theorem owing_next {call : Call} {last : Task Reply} {accountId key : String}
    (reached : Reaches (call.program svc (executeOnAccounts svc)) [] last seen)
    (owing : owed seen = some (accountId, key)) :
    ∃ request next, last = .ask request next ∧
      ((∃ question, request = .market question) ∨
        ∃ draft simulated audit, request = .write (.insertOrder draft simulated audit) ∧
          draft.idempotencyKey = key) := by
  have starting : Safe (recording consumptionRule) (call.program svc (executeOnAccounts svc))
      ⟨some call, []⟩ fun _ g => Paid g := call_pays call rfl
  have safe := recording_along starting reached
  -- A call that ended owes nothing, and one that goes on asks what the rule allows.
  cases last with
  | done value =>
    have paid : owed seen = none := Safe.done_iff.mp safe
    rw [owing] at paid
    cases paid
  | fail raised =>
    have paid : owed seen = none := Safe.fail_iff.mp safe
    rw [owing] at paid
    cases paid
  | ask request next =>
    have rule : consumptionRule ⟨some call, seen⟩ request := (Safe.ask_iff.mp safe).1
    unfold consumptionRule at rule
    rw [owing] at rule
    obtain ⟨_, _, -, -, -, settles⟩ := rule
    exact ⟨request, next, rfl, settles_asks settles⟩

/-- What the full validation accepts is accepted again when the row is placed, and between an override and
its order no call fails on its own. -/
theorem no_late_rejection (svc : Service) :
    (∀ account o hist r seen judged equity,
      Reaches (readDirect account o) hist (.done r) seen → judgeDirect svc o r = .ok judged →
        Reaccepted svc (directPlacement account o r judged equity) judged.2) ∧
    (∀ account o hist s seen judged,
      Reaches (sizeOrder svc account o) hist (.done s) seen → judgeSized svc o s = .ok judged →
        Reaccepted svc (sizedPlacement account o s judged) judged.2) ∧
    ∀ (call : Call) last seen accountId key,
      Reaches (call.program svc (executeOnAccounts svc)) [] last seen →
        owed seen = some (accountId, key) →
          ∃ request next, last = .ask request next ∧
            ((∃ question, request = .market question) ∨
              ∃ draft simulated audit, request = .write (.insertOrder draft simulated audit) ∧
                draft.idempotencyKey = key) := by
  refine ⟨?_, ?_, ?_⟩
  · intro account o hist r seen judged equity reached passes
    exact direct_reaccepted equity (readDirect_price reached) passes
  · intro account o hist s seen judged reached passes
    exact sized_reaccepted (sizeOrder_entry reached) passes
  · intro call last seen accountId key reached owing
    exact owing_next reached owing

/-- A request below the market, as a direct order. -/
def belowDirect : DirectOrder where
  accountId := "main"
  symbol := "BTCUSDT"
  side := .buy
  orderType := .limit
  quantity := 10
  price := some 9
  stopPrice := none
  idempotencyKey := "k"
  actor := "mcp-agent"

/-- The market as it reads it. -/
def belowReading : Reading where
  isReal := true
  price := some 10
  reference := 10
  filters := wholeCoins

/-- What the validator returns for it. -/
def belowFields : Validated where
  side := .buy
  orderType := .limit
  quantity := 10
  price := some 9
  stopPrice := none
  stopLimitPrice := none
  notional := some 90

/-- Both orders below the market are accepted again. -/
theorem limit_below_market_reaccepted :
    Reaccepted demo (directPlacement shopAccount belowDirect belowReading (90, belowFields) 1000)
        belowFields ∧
      Reaccepted demo (sizedPlacement shopAccount belowOrder belowSizing (100, belowFields))
        belowFields := by
  have read : (exec (alone fun _ => calmDay) (readDirect shopAccount belowDirect) shop).1 =
      .ok belowReading := by decide +kernel
  have sized : (exec (alone fun _ => calmDay) (sizeOrder demo shopAccount belowOrder) shop).1 =
      .ok belowSizing := by decide +kernel
  obtain ⟨_, reads⟩ := exec_reaches read
  obtain ⟨_, sizes⟩ := exec_reaches sized
  constructor
  · exact (no_late_rejection demo).1 shopAccount belowDirect [] belowReading _ (90, belowFields) 1000
      reads (by decide +kernel)
  · exact (no_late_rejection demo).2.1 shopAccount belowOrder [] belowSizing _ (100, belowFields)
      sizes (by decide +kernel)

end Rasat
