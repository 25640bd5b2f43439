import RasatTrading.Rounding.Double
import RasatTrading.Sizing

/-! The shared order validator and the policy caps, both checked before the broker is called. -/

namespace Rasat

open Rounding

/-- `normalize_side`. -/
def normalizeSide (text : Text) (side : String) : Except Exc Side :=
  if strip side = "" then reject .invalidRequest "side is required (BUY|SELL)"
  else if upper (strip side) = "BUY" then .ok .buy
  else if upper (strip side) = "SELL" then .ok .sell
  else reject .invalidRequest ("invalid side: " ++ text.repr side ++ " (BUY|SELL)")

/-- `normalize_order_type`. -/
def normalizeOrderType (text : Text) (orderType : Arg) : Except Exc OrderType :=
  match orderType with
  | .text s =>
    if strip s = "" then reject .invalidRequest "order_type is required"
    else if upper (strip s) = "MARKET" then .ok .market
    else if upper (strip s) = "LIMIT" then .ok .limit
    else if upper (strip s) = "STOP_LOSS_LIMIT" then .ok .stopLossLimit
    else if upper (strip s) = "OCO" then .ok .oco
    else reject .invalidRequest
      ("invalid order_type: " ++ text.repr s ++ " (MARKET/LIMIT/STOP_LOSS_LIMIT/OCO)")
  | _ => reject .invalidRequest "order_type is required"

/-- `require_positive` on a number. -/
def requirePositive (value : ℚ) (name : String) : Except Exc Unit :=
  rejectIf (value ≤ 0) .invalidRequest (name ++ " must be greater than zero")

/-- `_require_positive_optional`. -/
def requirePositiveOptional (value : Option ℚ) (name : String) : Except Exc Unit :=
  match value with
  | some number => requirePositive number name
  | none => .ok ()

/-- Whether both numbers are present and related. -/
def related (relation : ℚ → ℚ → Bool) : Option ℚ → Option ℚ → Bool
  | some left, some right => relation left right
  | _, _ => false

/-- The fields of an order that the shared validator reads. -/
structure OrderInput where
  side : String
  orderType : Arg
  quantity : ℚ
  price : Option ℚ := none
  stopPrice : Option ℚ := none
  stopLimitPrice : Option ℚ := none
  filters : Option SymbolFilters := none
  marketPrice : Option ℚ := none

/-- The fields that the shared validator returns. -/
structure Validated where
  side : Side
  orderType : OrderType
  quantity : ℚ
  price : Option ℚ
  stopPrice : Option ℚ
  stopLimitPrice : Option ℚ
  notional : Option ℚ
  deriving DecidableEq

/-- The stop must lie beyond the market price; an OCO says entry price for the same check. -/
def checkStopAgainstMarket (side : Side) (stopPrice marketPrice : Option ℚ) (label reference : String) :
    Except Exc Unit := do
  rejectIf (side = .sell ∧ related (· ≥ ·) stopPrice marketPrice) .invalidRequest
    ("SELL " ++ label ++ "stop_price must be below the " ++ reference ++ " price")
  rejectIf (side = .buy ∧ related (· ≤ ·) stopPrice marketPrice) .invalidRequest
    ("BUY " ++ label ++ "stop_price must be above the " ++ reference ++ " price")

/-- The geometry of the two legs of an OCO. -/
def checkOcoGeometry (side : Side) (price stopPrice stopLimitPrice : Option ℚ) :
    Except Exc Unit :=
  match side with
  | .sell => do
    rejectIf (related (· ≥ ·) stopLimitPrice stopPrice) .invalidRequest
      "SELL OCO stop_limit_price must be below stop_price"
    rejectIf (related (· ≤ ·) price stopPrice) .invalidRequest
      "SELL OCO price (profit target) must be above stop_price"
  | .buy => do
    rejectIf (related (· ≤ ·) stopLimitPrice stopPrice) .invalidRequest
      "BUY OCO stop_limit_price must be above stop_price"
    rejectIf (related (· ≥ ·) price stopPrice) .invalidRequest
      "BUY OCO price (profit target) must be below stop_price"

/-- The fields that each order type requires. -/
def checkConditionalFields (side : Side) (orderType : OrderType)
    (price stopPrice stopLimitPrice marketPrice : Option ℚ) : Except Exc Unit :=
  match orderType with
  | .market => .ok ()
  | .limit => rejectIf (price = none) .invalidRequest "price is required for LIMIT orders"
  | .stopLossLimit => do
    rejectIf (price = none) .invalidRequest "price is required for STOP_LOSS_LIMIT orders"
    rejectIf (stopPrice = none) .invalidRequest "stop_price is required for STOP_LOSS_LIMIT orders"
    checkStopAgainstMarket side stopPrice marketPrice "" "market"
  | .oco => do
    rejectIf (price = none) .invalidRequest "price (profit target) is required for OCO orders"
    rejectIf (stopPrice = none) .invalidRequest "stop_price is required for OCO orders"
    rejectIf (stopLimitPrice = none) .invalidRequest "stop_limit_price is required for OCO orders"
    checkOcoGeometry side price stopPrice stopLimitPrice
    checkStopAgainstMarket side stopPrice marketPrice "OCO " "entry"

/-- Whether a ratio is further from an integer than the alignment tolerance. -/
def misaligned (ratio : ℚ) : Bool := |ratio - halfEven ratio| > 1 / 1000000

/-- One price against the price filter of its symbol. -/
def checkPriceFilter (text : Text) (filters : SymbolFilters) (name : String) (price : Option ℚ) :
    Except Exc Unit :=
  match price with
  | none => .ok ()
  | some value => do
    rejectIf (value < filters.minPrice ∨ exceeds value filters.maxPrice) .filterViolation
      (name ++ " is outside PRICE_FILTER: " ++ text.float value ++ " (["
        ++ text.float filters.minPrice ++ ", " ++ text.bound filters.maxPrice ++ "])")
    rejectIf (filters.tickSize > 0 ∧ misaligned ((value - filters.minPrice) / filters.tickSize))
      .filterViolation
      (name ++ " is not a multiple of PRICE_FILTER tickSize: " ++ text.float value ++ " (tick "
        ++ text.float filters.tickSize ++ ")")

/-- Quantity, prices and notional against the exchange filters of the symbol. -/
def checkFilters (text : Text) (filters : SymbolFilters) (orderType : OrderType) (quantity : ℚ)
    (price stopPrice stopLimitPrice notional : Option ℚ) : Except Exc Unit := do
  rejectIf (filters.maxQty = none) .filterViolation
    (filters.symbol ++ " max_qty is invalid (not finite)")
  rejectIf (filters.maxPrice = none) .filterViolation
    (filters.symbol ++ " max_price is invalid (not finite)")
  rejectIf (quantity < filters.minQty) .filterViolation
    ("quantity is below LOT_SIZE minQty: " ++ text.float quantity ++ " < "
      ++ text.float filters.minQty ++ " (" ++ filters.symbol ++ ")")
  rejectIf (exceeds quantity filters.maxQty) .filterViolation
    ("quantity is above LOT_SIZE maxQty: " ++ text.float quantity ++ " > "
      ++ text.bound filters.maxQty ++ " (" ++ filters.symbol ++ ")")
  rejectIf (filters.stepSize > 0 ∧ misaligned (quantity / filters.stepSize)) .filterViolation
    ("quantity is not a multiple of LOT_SIZE stepSize: " ++ text.float quantity ++ " (step "
      ++ text.float filters.stepSize ++ ", " ++ filters.symbol ++ ")")
  checkPriceFilter text filters "price" price
  checkPriceFilter text filters "stop_price" stopPrice
  checkPriceFilter text filters "stop_limit_price" stopLimitPrice
  match notional with
  | none =>
    reject .invalidRequest
      ("price/reference price is required for " ++ orderType.name ++ " orders")
  | some amount =>
    rejectIf (amount < filters.minNotional) .filterViolation
      ("notional is below MIN_NOTIONAL: " ++ text.float amount ++ " < "
        ++ text.float filters.minNotional ++ " (" ++ filters.symbol ++ ")")

/-- Quantity times price, or times the market price when no price is given. -/
def notionalOf (quantity : ℚ) (price marketPrice : Option ℚ) : Option ℚ :=
  (price <|> marketPrice).map fun reference => quantity * reference

/-- What the validator does with a side and an order type that it knows. -/
def validateFields (text : Text) (side : Side) (orderType : OrderType) (input : OrderInput) :
    Except Exc Validated := do
  requirePositive input.quantity "quantity"
  requirePositiveOptional input.price "price"
  requirePositiveOptional input.stopPrice "stop_price"
  requirePositiveOptional input.stopLimitPrice "stop_limit_price"
  requirePositiveOptional input.marketPrice "market_price"
  checkConditionalFields side orderType input.price input.stopPrice input.stopLimitPrice
    input.marketPrice
  let notional := notionalOf input.quantity input.price input.marketPrice
  match input.filters with
  | none => .ok ()
  | some filters =>
    checkFilters text filters orderType input.quantity input.price input.stopPrice
      input.stopLimitPrice notional
  return {
    side := side
    orderType := orderType
    quantity := input.quantity
    price := input.price
    stopPrice := input.stopPrice
    stopLimitPrice := input.stopLimitPrice
    notional := notional }

/-- `validate_execution_order`. -/
def validateExecutionOrder (text : Text) (input : OrderInput) : Except Exc Validated := do
  let side ← normalizeSide text input.side
  let orderType ← normalizeOrderType text input.orderType
  validateFields text side orderType input

variable {validated : Validated} {input : OrderInput} {text : Text}

/-- What the validator returns for a side and an order type that it knows. -/
theorem validateFields_ok {side : Side} {orderType : OrderType}
    (passes : validateFields text side orderType input = .ok validated) :
    validated = {
      side := side
      orderType := orderType
      quantity := input.quantity
      price := input.price
      stopPrice := input.stopPrice
      stopLimitPrice := input.stopLimitPrice
      notional := notionalOf input.quantity input.price input.marketPrice } := by
  unfold validateFields at passes
  simp only [bind_ok] at passes
  obtain ⟨_, -, _, -, _, -, _, -, _, -, _, -, rest⟩ := passes
  split at rest
  · exact (Except.ok.inj rest).symm
  · obtain ⟨_, -, rest⟩ := bind_ok.mp rest
    exact (Except.ok.inj rest).symm

/-- The side and the order type that the validator returns are those that it normalized. -/
theorem validateExecutionOrder_normal (passes : validateExecutionOrder text input = .ok validated) :
    normalizeSide text input.side = .ok validated.side ∧
      normalizeOrderType text input.orderType = .ok validated.orderType := by
  unfold validateExecutionOrder at passes
  simp only [bind_ok] at passes
  obtain ⟨side, sided, orderType, typed, fields⟩ := passes
  rw [validateFields_ok fields]
  exact ⟨sided, typed⟩

/-- A side is read back from its name. -/
theorem normalizeSide_name (text : Text) (side : Side) : normalizeSide text side.name = .ok side := by
  cases side <;> rfl

/-- An order type is read back from its name. -/
theorem normalizeOrderType_name (text : Text) (orderType : OrderType) :
    normalizeOrderType text (.text orderType.name) = .ok orderType := by
  cases orderType <;> rfl

/-- A positive number, or none at all, passes. -/
theorem requirePositiveOptional_ok {value : Option ℚ} {name : String} :
    requirePositiveOptional value name = .ok () ↔ ∀ number ∈ value, 0 < number := by
  cases value with
  | none => simp [requirePositiveOptional]
  | some number => simp [requirePositiveOptional, requirePositive, rejectIf, reject]

/-- The conditional checks of an order without a stop limit pass again with another price. -/
theorem checkConditionalFields_again {side : Side} {orderType : OrderType}
    {price other stopPrice marketPrice : Option ℚ}
    (passed : checkConditionalFields side orderType price stopPrice none marketPrice = .ok ())
    (kept : price ≠ none → other ≠ none) :
    checkConditionalFields side orderType other stopPrice none marketPrice = .ok () := by
  cases orderType with
  | market => rfl
  | limit =>
    simp only [checkConditionalFields, rejectIf_ok] at passed ⊢
    exact kept passed
  | stopLossLimit =>
    simp only [checkConditionalFields, bind_ok] at passed ⊢
    obtain ⟨_, priced, rest⟩ := passed
    exact ⟨(), rejectIf_ok.mpr (kept (rejectIf_ok.mp priced)), rest⟩
  | oco =>
    simp only [checkConditionalFields, bind_ok] at passed
    obtain ⟨_, _, _, _, _, limited, _⟩ := passed
    exact absurd trivial (rejectIf_ok.mp limited)

/-- What the validator returns is what it was given, with the side and the order type normalized. -/
theorem validateExecutionOrder_ok (passed : validateExecutionOrder text input = .ok validated) :
    validated.quantity = input.quantity ∧ validated.price = input.price ∧
      validated.stopPrice = input.stopPrice ∧ 0 < input.quantity ∧
      (∀ value ∈ input.price, 0 < value) ∧ (∀ value ∈ input.stopPrice, 0 < value) ∧
      (∀ value ∈ input.marketPrice, 0 < value) ∧
      checkConditionalFields validated.side validated.orderType input.price input.stopPrice
        input.stopLimitPrice input.marketPrice = .ok () := by
  unfold validateExecutionOrder at passed
  simp only [bind_ok] at passed
  obtain ⟨side, -, orderType, -, passed⟩ := passed
  obtain rfl := validateFields_ok passed
  unfold validateFields at passed
  simp only [bind_ok] at passed
  obtain ⟨_, amount, _, priced, _, stopped, _, -, _, market, _, fields, -⟩ := passed
  exact ⟨rfl, rfl, rfl, not_le.mp (rejectIf_ok.mp amount), requirePositiveOptional_ok.mp priced,
    requirePositiveOptional_ok.mp stopped, requirePositiveOptional_ok.mp market, fields⟩

/-- An order that passed the checks passes them again, without filters and with another price. -/
theorem validateExecutionOrder_again
    {price : Option ℚ} (passed : validateExecutionOrder text input = .ok validated)
    (single : input.stopLimitPrice = none) (positive : ∀ value ∈ price, 0 < value)
    (kept : input.price ≠ none → price ≠ none) :
    ∃ again, validateExecutionOrder text {
      side := validated.side.name
      orderType := .text validated.orderType.name
      quantity := input.quantity
      price := price
      stopPrice := input.stopPrice
      marketPrice := input.marketPrice } = .ok again := by
  obtain ⟨-, -, -, amount, -, stopped, market, fields⟩ := validateExecutionOrder_ok passed
  rw [single] at fields
  refine ⟨{
    side := validated.side
    orderType := validated.orderType
    quantity := input.quantity
    price := price
    stopPrice := input.stopPrice
    stopLimitPrice := none
    notional := notionalOf input.quantity price input.marketPrice }, ?_⟩
  unfold validateExecutionOrder validateFields
  simp only [bind_ok]
  exact ⟨_, normalizeSide_name text _, _, normalizeOrderType_name text _, (),
    rejectIf_ok.mpr (not_le.mpr amount), (), requirePositiveOptional_ok.mpr positive, (),
    requirePositiveOptional_ok.mpr stopped, (), rfl, (), requirePositiveOptional_ok.mpr market, (),
    checkConditionalFields_again fields kept, (), trivial, rfl⟩

end Rasat
