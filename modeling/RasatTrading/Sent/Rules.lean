import RasatTrading.Footprints

/-! What an order at the broker owes to the exchange filters, and what its call had read when it was sent. -/

namespace Rasat

open Coop Prog

/-- What the exchange filters ask of an order: quantity, lot step, bounds and notional. -/
structure Lawful (filters : SymbolFilters) (quantity reference : ℚ) : Prop where
  positive : 0 < quantity
  aligned : 0 < filters.stepSize → ∃ steps : ℤ, |quantity / filters.stepSize - steps| ≤ 1 / 1000000
  least : filters.minQty ≤ quantity
  most : ¬exceeds quantity filters.maxQty
  worth : filters.minNotional ≤ quantity * reference

/-- The limit price of a single order, when its type has one. -/
def PlaceOrder.limit (order : PlaceOrder) : Option ℚ :=
  if order.orderType = .limit ∨ order.orderType = .stopLossLimit then order.price else none

/-- The filters of a symbol that a task read last. -/
def filtersRead (symbol : String) : History → Option SymbolFilters
  | [] => none
  | event :: older =>
    match event with
    | ⟨.market (.filters named), .ok (some filters)⟩ =>
      if named = symbol then some filters else filtersRead symbol older
    | _ => filtersRead symbol older

/-- What an order is made from: filters, a market price and, for a sale, a free amount. -/
structure Basis where
  filters : SymbolFilters
  price : ℚ
  amount : ℚ := 0

/-- Filters and price were read by the task, and the price is the one in the row of the order. -/
structure Basis.Read (basis : Basis) (symbol : String) (hist : History) : Prop where
  filters : filtersRead symbol hist = some basis.filters
  price : ⟨.market (.price symbol), .ok (some basis.price)⟩ ∈ hist
  recorded : ∃ draft row rest, hist = ⟨.write (.insertOrder draft false none), .ok row⟩ :: rest ∧
    draft.symbol = symbol ∧ draft.referencePrice = basis.price

/-- The order sells a free amount of the account, rounded down to the lot step. -/
structure Basis.Sells (basis : Basis) (order : PlaceOrder) (hist : History) : Prop where
  held : ∃ balances asset, ⟨.broker (.getBalance order.accountId), .ok balances⟩ ∈ hist ∧
    (asset, basis.amount) ∈ balances ∧ order.symbol = asset ++ quoteAsset
  rounded : order.quantity = roundDownToStep basis.amount basis.filters.stepSize

/-- When an order meets the filters, by the call that sends it. -/
def FiltersMet (call : Option Call) (basis : Basis) (order : PlaceOrder) : Prop :=
  match call with
  | some (.placeOrder _) =>
    -- The price of a market order is checked in place of the market's.
    order.orderType = .market → ∀ given ∈ order.price,
      basis.filters.minNotional ≤ order.quantity * basis.price
  | some (.closeAllPositions _ _) =>
    ¬exceeds (roundDownToStep basis.amount basis.filters.stepSize) basis.filters.maxQty ∧
      basis.filters.minNotional ≤
        roundDownToStep basis.amount basis.filters.stepSize * basis.price
  | _ => True

/-- What is known of a single order when it is sent. -/
def SentLawfully (record : TaskRecord) (order : PlaceOrder) : Prop :=
  ∃ basis : Basis, basis.Read order.symbol record.hist ∧
    (∀ accountId actor, record.call = some (.closeAllPositions accountId actor) →
      basis.Sells order record.hist) ∧
    (Lawful basis.filters order.quantity (order.limit.getD basis.price) ↔
      FiltersMet record.call basis order)

/-- What is known of an OCO when it is sent. -/
def OcoLawfully (record : TaskRecord) (order : PlaceOco) : Prop :=
  ∃ basis : Basis, basis.Read order.symbol record.hist ∧
    Lawful basis.filters order.quantity order.price

/-- Orders are sent with what is known of them. -/
def sendingRule (record : TaskRecord) (request : Req) : Prop :=
  match request with
  | .broker (.placeOrder order) => SentLawfully record order
  | .broker (.placeOco order) => OcoLawfully record order
  | _ => True

/-- Requests that neither send an order nor read filters. -/
def Unsent : Req → Prop
  | .broker (.placeOrder _) | .broker (.placeOco _) | .market (.filters _) => False
  | _ => True

variable {record : TaskRecord}

theorem Unsent.rule {request : Req} (unsent : Unsent request) : sendingRule record request := by
  cases request with
  | broker call => cases call <;> trivial
  | _ => trivial

/-- The record after requests that neither send an order nor read filters. -/
structure Later (record later : TaskRecord) : Prop where
  call : later.call = record.call
  suffix : record.hist <:+ later.hist
  filters : ∀ symbol, filtersRead symbol later.hist = filtersRead symbol record.hist

theorem Later.refl (record : TaskRecord) : Later record record :=
  ⟨rfl, List.suffix_refl _, fun _ => rfl⟩

theorem Later.trans {a b c : TaskRecord} (first : Later a b) (second : Later b c) : Later a c :=
  ⟨second.call.trans first.call, first.suffix.trans second.suffix,
    fun symbol => (second.filters symbol).trans (first.filters symbol)⟩

theorem later_after (request : Req) (unsent : Unsent request)
    (answer : Except Exc request.Ans) : Later record (record.after request answer) := by
  refine ⟨rfl, List.suffix_cons _ _, fun symbol => ?_⟩
  -- A read of filters is the only event that would stop the search.
  cases request with
  | market call => cases call <;> first | rfl | exact absurd unsent id
  | _ => rfl

/-- A program that sends nothing in a sequence. -/
theorem unsent_then {α β : Type} {program : Task α} {next : α → Task β} (only : program.Only Unsent)
    (rest : ∀ value later, Later record later →
      Safe (recording sendingRule) (next value) later fun _ _ => True) :
    Safe (recording sendingRule) (program.bind next) record fun _ _ => True := by
  refine Safe.bind (Safe.of_only Unsent (Later record) (fun _ _ _ unsent => unsent.rule) ?_ only
    (Later.refl record)) rest fun _ _ _ => trivial
  rintro ghost request answer learned before unsent rfl
  exact before.trans (later_after request unsent answer)

/-- A program that sends nothing at the end. -/
theorem unsent_safe {α : Type} {program : Task α} (only : program.Only Unsent) :
    Safe (recording sendingRule) program record fun _ _ => True :=
  only_recording (fun _ _ unsent => unsent.rule) only

/-- A check in a sequence. -/
theorem checked_before {α β : Type} {outcome : Except Exc α} {next : α → Task β}
    (rest : ∀ value, outcome = .ok value →
      Safe (recording sendingRule) (next value) record fun _ _ => True) :
    Safe (recording sendingRule) ((sync outcome).bind next) record fun _ _ => True :=
  Safe.ofExcept_then rest fun _ _ => trivial

/-- A price that is read in a sequence is known afterwards. -/
theorem read_price_then {β : Type} {symbol : String} {next : Option ℚ → Task β}
    (rest : ∀ price later, Later record later →
      ⟨.market (.price symbol), .ok price⟩ ∈ later.hist →
        Safe (recording sendingRule) (next price) later fun _ _ => True) :
    Safe (recording sendingRule) ((market (.price symbol)).bind next) record fun _ _ => True := by
  have unsent : Unsent (.market (.price symbol)) := trivial
  refine recording_then unsent.rule (fun price => ?_) fun _ => trivial
  exact rest price _ (later_after _ unsent _) List.mem_cons_self

/-- Filters that are required in a sequence are the ones read last. -/
theorem read_filters_then {β : Type} {symbol : String} {next : SymbolFilters → Task β}
    (rest : ∀ filters later, later.call = record.call → record.hist <:+ later.hist →
      filtersRead symbol later.hist = some filters →
        Safe (recording sendingRule) (next filters) later fun _ _ => True) :
    Safe (recording sendingRule) ((requireFilters symbol).bind next) record fun _ _ => True := by
  unfold requireFilters
  simp only [market, bind_eq, pure_eq, bind_assoc]
  refine recording_then trivial (fun answer => ?_) fun _ => trivial
  cases answer with
  | none => exact .fail trivial
  | some filters =>
    refine rest filters _ rfl (List.suffix_cons _ _) ?_
    exact if_pos rfl

end Rasat
