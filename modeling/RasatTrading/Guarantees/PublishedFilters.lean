import RasatTrading.Broker.ExchangeInfo
import RasatTrading.Guarantees.PositionSize
import RasatTrading.Validation

/-! The sizer and the validator under the filters that the exchange publishes for a symbol. -/

namespace Rasat

open Rounding SizingInput

variable {text : Text} {input : SizingInput} {symbol : String} {sized : Sized}

/-- A market order with filters and a market price. -/
def marketOrder (side : Side) (quantity : ℚ) (filters : SymbolFilters) (marketPrice : ℚ) : OrderInput where
  side := side.name
  orderType := .text "MARKET"
  quantity := quantity
  filters := some filters
  marketPrice := some marketPrice

/-- A multiple of the step is aligned. -/
theorem aligned_of_multiple {step quantity : ℚ} (positive : 0 < step)
    (multiple : Multiple step quantity) : misaligned (quantity / step) = false := by
  obtain ⟨count, rfl⟩ := multiple
  -- The quotient is the count itself, which no rounding changes.
  rw [mul_div_cancel_right₀ _ positive.ne']
  simp [misaligned, halfEven_intCast]

/-- The filters accept a market order for a sized quantity exactly when both maxima are finite. -/
theorem checkFilters_sized_iff (passed : input.size text symbol = .ok sized) :
    checkFilters text input.filters .market sized.quantity none none none
        (some (sized.quantity * input.entry)) = .ok () ↔
      input.filters.maxQty ≠ none ∧ input.filters.maxPrice ≠ none := by
  obtain ⟨named, checked, priced⟩ := SizingInput.size_ok passed
  rw [SizingInput.size_eq named checked priced] at passed
  obtain ⟨⟨tradable, limited, -⟩, rfl⟩ := (SizingInput.judge_ok checked).mp passed
  unfold checkFilters
  simp only [bind_ok, rejectIf_ok]
  constructor
  · -- The validator asks for both maxima to be finite before it compares anything.
    rintro ⟨_, quantity, _, price, -⟩
    exact ⟨quantity, price⟩
  · -- With both of them the sized quantity passes: it lies in range, on a step, and is worth enough.
    rintro ⟨quantity, price⟩
    refine ⟨(), quantity, (), price, (), not_lt.mpr tradable.enough, (), ?_, (), ?_, (), rfl, (), rfl,
      (), rfl, not_lt.mpr tradable.worth⟩
    · rw [show exceeds input.sizedAs.quantity input.filters.maxQty = false from
        SizingInput.exceeds_iff.mpr limited]
      exact Bool.false_ne_true
    · rintro ⟨positive, off⟩
      have aligned := aligned_of_multiple positive (SizingInput.candidate_multiple positive)
      exact Bool.false_ne_true (aligned.symm.trans off)

/-- A market order for a sized quantity, at the entry as the market price, is accepted exactly when both
maxima are finite. -/
theorem validates_sized_iff (passed : input.size text symbol = .ok sized) (side : Side) :
    (∃ validated, validateExecutionOrder text
        (marketOrder side sized.quantity input.filters input.entry) = .ok validated) ↔
      input.filters.maxQty ≠ none ∧ input.filters.maxPrice ≠ none := by
  have filters := checkFilters_sized_iff passed
  obtain ⟨named, checked, priced⟩ := SizingInput.size_ok passed
  have amount : 0 < sized.quantity := by
    rw [SizingInput.size_eq named checked priced] at passed
    obtain ⟨accepted, rfl⟩ := (SizingInput.judge_ok checked).mp passed
    exact accepted.tradable.positive
  rw [← filters]
  unfold validateExecutionOrder validateFields
  simp only [bind_ok]
  constructor
  · -- An accepted market order went through the check of the filters.
    rintro ⟨validated, _, -, _, typed, _, -, _, -, _, -, _, -, _, -, _, -, rest⟩
    obtain rfl := Except.ok.inj ((normalizeOrderType_name text .market).symm.trans typed)
    obtain ⟨_, fine, -⟩ := bind_ok.mp rest
    exact fine
  · -- None of the other checks of a market order can fail here.
    intro fine
    exact ⟨_, side, normalizeSide_name text side, .market, normalizeOrderType_name text .market, (),
      rejectIf_ok.mpr (not_le.mpr amount), (), rfl, (), rfl, (), rfl, (),
      rejectIf_ok.mpr (not_le.mpr checked.prices.1), (), rfl, bind_ok.mpr ⟨(), fine, rfl⟩⟩

/-- For an entry as the exchange publishes it: a market order for a sized quantity, at the entry price as
the market price, is accepted exactly when both maxima are published. -/
theorem published_sized_iff {entry : List (String × Json)}
    (read : SymbolFilters.fromExchangeInfo text entry = some input.filters)
    (passed : input.size text symbol = .ok sized) (side : Side) :
    (∃ validated, validateExecutionOrder text
        (marketOrder side sized.quantity input.filters input.entry) = .ok validated) ↔
      ∃ filters, publishedFilters entry = some filters ∧
        publishedField filters "LOT_SIZE" "maxQty" ≠ none ∧
          publishedField filters "PRICE_FILTER" "maxPrice" ≠ none := by
  -- A maximum is finite exactly when the exchange publishes its field.
  rw [validates_sized_iff passed side]
  obtain ⟨filters, listed, quantity, price⟩ := fromExchangeInfo_maxima read
  rw [Ne, Ne, quantity, price]
  constructor
  · exact fun both => ⟨filters, listed, both⟩
  · rintro ⟨_, same, both⟩
    obtain rfl := Option.some.inj (listed.symm.trans same)
    exact both

/-- The number texts of the entries below. -/
def numberText : Text :=
  { bareText with
    parseFloat := fun value =>
      if value = "1" then some (some 1)
      else if value = "10" then some (some 10)
      else if value = "50" then some (some 50)
      else if value = "1000" then some (some 1000)
      else none }

/-- An entry of whole units, with or without a maximum quantity. -/
def unitEntry (maxQty : List (String × Json)) : List (String × Json) :=
  [("symbol", .text "BTCUSDT"), ("baseAsset", .text "BTC"),
    ("filters", .array [
      .object ([("filterType", .text "LOT_SIZE"), ("stepSize", .text "1"), ("minQty", .text "1")] ++ maxQty),
      .object [("filterType", .text "NOTIONAL"), ("minNotional", .text "10")],
      .object [("filterType", .text "PRICE_FILTER"), ("maxPrice", .text "1000")]])]

/-- A long position under the filters of such an entry. -/
def longUnder (maxQty : Option ℚ) : SizingInput :=
  { longFrom (105 / 100000) 50 with
    filters := { wholeUnits 50 with maxQty := maxQty, maxPrice := some 1000 } }

/-- Ten units under an entry with a maximum. -/
theorem published_units_accepted : ∃ sized,
    (longUnder (some 50)).size numberText "BTCUSDT" = .ok sized ∧
      ((∃ validated, validateExecutionOrder numberText
          (marketOrder .buy sized.quantity (longUnder (some 50)).filters (longUnder (some 50)).entry) =
            .ok validated) ↔
        ∃ filters, publishedFilters (unitEntry [("maxQty", .text "50")]) = some filters ∧
          publishedField filters "LOT_SIZE" "maxQty" ≠ none ∧
            publishedField filters "PRICE_FILTER" "maxPrice" ≠ none) := by
  have quantity : ((longUnder (some 50)).size numberText "BTCUSDT").toOption.map Sized.quantity =
      some 10 := by
    decide +kernel
  obtain ⟨sized, passed, -⟩ := sized_of_quantity quantity
  have read : SymbolFilters.fromExchangeInfo numberText (unitEntry [("maxQty", .text "50")]) =
      some (longUnder (some 50)).filters := by
    decide +kernel
  exact ⟨sized, passed, published_sized_iff read passed .buy⟩

/-- Ten units are sized without a maximum, and the validator refuses the order. -/
theorem unlimited_units_refused : ∃ sized,
    SymbolFilters.fromExchangeInfo numberText (unitEntry []) = some (longUnder none).filters ∧
      (longUnder none).size numberText "BTCUSDT" = .ok sized ∧
        ¬∃ validated, validateExecutionOrder numberText
          (marketOrder .buy sized.quantity (longUnder none).filters (longUnder none).entry) =
            .ok validated := by
  have quantity : ((longUnder none).size numberText "BTCUSDT").toOption.map Sized.quantity = some 10 := by
    decide +kernel
  obtain ⟨sized, passed, -⟩ := sized_of_quantity quantity
  refine ⟨sized, by decide +kernel, passed, fun accepted => ?_⟩
  -- The sizer takes a missing maximum for no maximum, the validator for a wrong one.
  exact ((validates_sized_iff passed .buy).mp accepted).1 rfl

end Rasat
