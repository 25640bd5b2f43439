import Mathlib.Data.Rat.Floor
import RasatTrading.Text

/-! Correctness checks that no override bypasses, exchange filters and position sizing. -/

namespace Rasat

inductive Side
  | buy | sell
  deriving DecidableEq, Repr

def Side.name : Side → String
  | .buy => "BUY"
  | .sell => "SELL"

inductive OrderType
  | market | limit | stopLossLimit | oco
  deriving DecidableEq, Repr

def OrderType.name : OrderType → String
  | .market => "MARKET"
  | .limit => "LIMIT"
  | .stopLossLimit => "STOP_LOSS_LIMIT"
  | .oco => "OCO"

/-- The numeric exchange filters of a symbol; an absent maximum is infinite. -/
structure SymbolFilters where
  symbol : String
  baseAsset : String
  stepSize : ℚ
  minQty : ℚ
  maxQty : Option ℚ
  minNotional : ℚ
  tickSize : ℚ
  minPrice : ℚ
  maxPrice : Option ℚ
  deriving DecidableEq

/-- Whether a value exceeds a bound that may be infinite. -/
def exceeds (value : ℚ) (bound : Option ℚ) : Bool := bound.any fun limit => limit < value

/-- The text of a bound that may be infinite. -/
def Text.bound (text : Text) : Option ℚ → String
  | some limit => text.float limit
  | none => "inf"

/-- The side that the code reads from an optional string, before it is checked. -/
def sideOrBuy (side : String) : String := upper (if side = "" then "BUY" else side)

/-- The price must be present, which the code spells as the freshness of its reading. -/
def checkPriceFresh (price : Option ℚ) (symbol : String) : Except Exc ℚ :=
  match price with
  | some value => .ok value
  | none => reject .staleData ("price data is stale — order rejected: " ++ symbol)

/-- A price that passes as fresh is the one that was read. -/
theorem checkPriceFresh_ok {price : Option ℚ} {symbol : String} {reference : ℚ}
    (fresh : checkPriceFresh price symbol = .ok reference) : price = some reference := by
  cases price with
  | none => cases fresh
  | some value => exact congrArg some (Except.ok.inj fresh)

/-- Stop below entry for a long position and above entry for a short one. -/
def checkStopDirection (side : String) (entry stopLoss : ℚ) : Except Exc Unit :=
  if sideOrBuy side = "BUY" then
    rejectIf (stopLoss ≥ entry) .invalidRequest "stop_loss must be below entry for a long position"
  else if sideOrBuy side = "SELL" then
    rejectIf (stopLoss ≤ entry) .invalidRequest "stop_loss must be above entry for a short position"
  else reject .invalidRequest ("invalid side: " ++ side)

/-- The order amount and fee must fit the balance. -/
def checkSufficientBalance (text : Text) (available required : ℚ) (symbol : String) :
    Except Exc Unit :=
  rejectIf (required > available) .insufficientBalance
    ("insufficient balance: required " ++ text.fixed8 required ++ " > available "
      ++ text.fixed8 available ++ " (" ++ symbol ++ ")")

/-- Round down to a multiple of the lot step. -/
def roundDownToStep (value stepSize : ℚ) : ℚ :=
  if stepSize ≤ 0 then value else ⌊value / stepSize + 1 / 1000000000⌋ * stepSize

/-- The outcome of position sizing. -/
structure Sized where
  riskAmount : ℚ
  riskPerUnit : ℚ
  quantity : ℚ
  notional : ℚ
  estimatedFee : ℚ
  totalRequired : ℚ
  deriving DecidableEq

/-- Fee-aware sizing by risk, rejected when the exchange filters cannot be met. -/
def calculatePositionSize (text : Text) (symbol : String)
    (accountBalance riskPct entry stopLoss : ℚ) (filters : SymbolFilters) (side : String)
    (feeRate : ℚ) : Except Exc Sized := do
  rejectIf (symbol = "") .invalidRequest "symbol is required (string)"
  checkStopDirection side entry stopLoss
  rejectIf (riskPct ≤ 0 ∨ riskPct > 1) .invalidRequest "risk_pct must be in the (0,1] range"
  rejectIf (accountBalance ≤ 0) .invalidRequest "account_balance must be greater than zero"
  rejectIf (entry ≤ 0 ∨ stopLoss ≤ 0) .invalidRequest
    "entry and stop_loss must be greater than zero"
  rejectIf (feeRate < 0) .invalidRequest "fee_rate cannot be negative"
  rejectIf (entry < filters.minPrice ∨ exceeds entry filters.maxPrice) .filterViolation
    ("entry price is outside PRICE_FILTER: " ++ text.float entry ++ " (["
      ++ text.float filters.minPrice ++ ", " ++ text.bound filters.maxPrice ++ "])")
  let riskAmount := accountBalance * riskPct
  let riskPerUnit := |entry - stopLoss|
  let rawQty := riskAmount / riskPerUnit
  let balanceCapQty := accountBalance / (entry * (1 + feeRate))
  let qty := roundDownToStep (min rawQty balanceCapQty) filters.stepSize
  let notional := qty * entry
  let fee := notional * feeRate
  rejectIf (qty ≤ 0 ∨ qty < filters.minQty) .filterViolation
    ("quantity is below LOT_SIZE minQty: " ++ text.float qty ++ " < "
      ++ text.float filters.minQty ++ " (" ++ symbol ++ ")")
  rejectIf (exceeds qty filters.maxQty) .filterViolation
    ("quantity exceeds LOT_SIZE maxQty: " ++ text.float qty ++ " > "
      ++ text.bound filters.maxQty ++ " (" ++ symbol ++ ")")
  rejectIf (notional < filters.minNotional) .filterViolation
    ("notional is below MIN_NOTIONAL: " ++ text.float notional ++ " < "
      ++ text.float filters.minNotional ++ " (" ++ symbol ++ ")")
  checkSufficientBalance text accountBalance (notional + fee) symbol
  return {
    riskAmount := riskAmount
    riskPerUnit := riskPerUnit
    quantity := qty
    notional := notional
    estimatedFee := fee
    totalRequired := notional + fee }

/-- A position is only sized from a positive entry. -/
theorem calculatePositionSize_entry {text : Text} {symbol side : String}
    {accountBalance riskPct entry stopLoss feeRate : ℚ} {filters : SymbolFilters} {sized : Sized}
    (passed : calculatePositionSize text symbol accountBalance riskPct entry stopLoss filters side
      feeRate = .ok sized) : 0 < entry := by
  unfold calculatePositionSize at passed
  simp only [bind_ok] at passed
  obtain ⟨_, _, _, _, _, _, _, _, _, positive, _⟩ := passed
  exact not_le.mp fun nonpositive => rejectIf_ok.mp positive (.inl nonpositive)

/-- A position is only sized to a positive quantity, and with a positive stop. -/
theorem calculatePositionSize_positive {text : Text} {symbol side : String}
    {accountBalance riskPct entry stopLoss feeRate : ℚ} {filters : SymbolFilters} {sized : Sized}
    (passed : calculatePositionSize text symbol accountBalance riskPct entry stopLoss filters side
      feeRate = .ok sized) : 0 < stopLoss ∧ 0 < sized.quantity := by
  unfold calculatePositionSize at passed
  simp only [bind_ok] at passed
  obtain ⟨_, _, _, _, _, _, _, _, _, prices, _, _, _, _, _, amount, _, _, _, _, _, _, same⟩ := passed
  cases same
  exact ⟨not_le.mp fun nonpositive => rejectIf_ok.mp prices (.inr nonpositive),
    not_le.mp fun nonpositive => rejectIf_ok.mp amount (.inl nonpositive)⟩

end Rasat
