import RasatTrading.Broker.OrderParams
import RasatTrading.Guarantees.PositionSize
import RasatTrading.Rounding.Shortest

/-! The numbers of the requests that place orders, as the exchange reads them. -/

namespace Rasat

open Rounding

/-- The floats, with 53 bits; whether a number overflows is only decided once it is rounded. -/
def IsFloat : ℚ → Prop := Fits 53 (-1074)

/-- The floats whose last bit is zero. -/
def IsEvenFloat : ℚ → Prop := Fits 52 (-1073)

/-- `str` of a float, from its shortest decimal number. -/
def floatRepr (d : Decimal) : String :=
  if -4 < d.point ∧ d.point ≤ 16 then d.positional else d.scientific

/-- What the language documents: the text of a float is its shortest decimal number. -/
def ShownAsFloat (text : Text) (value : ℚ) : Prop :=
  ∃ d : Decimal, Shortest IsFloat IsEvenFloat value d ∧ text.float value = floatRepr d

/-- The exchange reads a number with at most twenty digits on either side of its point, and it is the
same float. -/
def Legible (shown : String) (value : ℚ) : Prop :=
  ∃ number, readDecimal 20 shown = some number ∧ RoundsTo IsFloat IsEvenFloat number value

/-- The floats that are written in positional notation. -/
def InRange (value : ℚ) : Prop := 1 / 10000 ≤ value ∧ value < 10 ^ 16

variable {text : Text} {value : ℚ} {d : Decimal}

/-- The shortest decimal number of a float lies below ten to the sixteenth exactly when the float does. -/
theorem lt_large_iff (shortest : Shortest IsFloat IsEvenFloat value d) :
    d.value < 10 ^ (16 : ℤ) ↔ value < 10 ^ (16 : ℤ) := by
  constructor
  · -- The largest float with all integers below it lies within the last tenth.
    have listed : IsFloat (2 ^ 53) := ⟨1, 53, by norm_num, by norm_num, by norm_num⟩
    refine shortest.lt_of_lt listed ?_ ?_
    · norm_num
    · norm_num
  · intro below
    by_contra! reached
    have listed : IsFloat (10 ^ (16 : ℤ)) := ⟨152587890625, 16, by norm_num, by norm_num, by norm_num⟩
    have above := shortest.rounds.ge_of_ge listed le_rfl (fun other _ smaller => by linarith) reached
    linarith

/-- The shortest decimal number of a float lies below a ten-thousandth exactly when the float does. -/
theorem lt_small_iff (shortest : Shortest IsFloat IsEvenFloat value d) :
    d.value < 10 ^ (-4 : ℤ) ↔ value < 10 ^ (-4 : ℤ) := by
  constructor
  · -- Three times two to the minus fifteenth lies within the last tenth.
    have listed : IsFloat (3 * 2 ^ (-15 : ℤ)) := ⟨3, -15, by norm_num, by norm_num, by norm_num⟩
    refine shortest.lt_of_lt listed ?_ ?_
    · norm_num
    · norm_num
  · intro below
    by_contra! reached
    -- The float that a ten-thousandth rounds to is the next one above it.
    have listed : IsFloat (7378697629483821 * 2 ^ (-66 : ℤ)) :=
      ⟨7378697629483821, -66, by norm_num, by norm_num, by norm_num⟩
    have above := shortest.rounds.ge_of_ge listed (by norm_num) (fun other fits smaller => ?_) reached
    · linarith
    · have larger : other < 7378697629483821 * 2 ^ (-66 : ℤ) := smaller.trans_le (by norm_num)
      have gap := Fits.gap listed fits larger.ne'
      rw [abs_of_pos (by norm_num), abs_of_pos (by linarith)] at gap
      norm_num at gap smaller ⊢
      linarith

/-- The text of a positive float is legible exactly when the float is in range. -/
theorem legible_iff (shown : ShownAsFloat text value) (positive : 0 < value) :
    Legible (text.float value) value ↔ InRange value := by
  obtain ⟨d, shortest, written⟩ := shown
  have short : d.digits.length ≤ 16 + 1 := Shortest.length_le (by norm_num) shortest positive
  have large : d.point ≤ 16 ↔ value < 10 ^ (16 : ℤ) :=
    d.value_lt_pow_iff.symm.trans (lt_large_iff shortest)
  have small : d.point ≤ -4 ↔ value < 10 ^ (-4 : ℤ) :=
    d.value_lt_pow_iff.symm.trans (lt_small_iff shortest)
  have bound : (10 : ℚ) ^ (-4 : ℤ) = 1 / 10000 := by norm_num
  rw [bound] at small
  -- Both limits are powers of ten, so the place of the decimal point decides.
  have range : InRange value ↔ -4 < d.point ∧ d.point ≤ 16 := by
    unfold InRange
    rw [← not_lt, ← small, large]
    norm_num
  rw [range, written]
  unfold floatRepr
  constructor
  · rintro ⟨number, reads, -⟩
    by_contra outside
    rw [if_neg outside, d.readDecimal_scientific] at reads
    cases reads
  · intro inside
    rw [if_pos inside]
    -- Seventeen digits and three zeros fit behind the point.
    refine ⟨d.value, d.readDecimal_positional (by norm_num) ?_ ?_, shortest.rounds⟩
    · push_cast
      omega
    · push_cast
      omega

/-- What the shared validator reads of a single order. -/
def PlaceOrder.input (order : PlaceOrder) (filters : Option SymbolFilters) (marketPrice : Option ℚ) :
    OrderInput where
  side := order.side.name
  orderType := .text order.orderType.name
  quantity := order.quantity
  price := order.price
  stopPrice := order.stopPrice
  filters := filters
  marketPrice := marketPrice

/-- What the shared validator reads of an OCO list. -/
def PlaceOco.input (order : PlaceOco) (filters : Option SymbolFilters) (marketPrice : Option ℚ) :
    OrderInput where
  side := order.side.name
  orderType := .text OrderType.oco.name
  quantity := order.quantity
  price := some order.price
  stopPrice := some order.stopPrice
  stopLimitPrice := some order.stopLimitPrice
  filters := filters
  marketPrice := marketPrice

variable {input : OrderInput} {validated : Validated} {filters : Option SymbolFilters}
  {marketPrice : Option ℚ}

/-- An accepted stop limit is positive. -/
theorem stopLimit_positive (passed : validateExecutionOrder text input = .ok validated) :
    ∀ value ∈ input.stopLimitPrice, 0 < value := by
  unfold validateExecutionOrder validateFields at passed
  simp only [bind_ok] at passed
  obtain ⟨_, -, _, -, _, -, _, -, _, -, _, limited, -⟩ := passed
  exact requirePositiveOptional_ok.mp limited

/-- Every number of an accepted order's request is positive. -/
theorem order_positive {order : PlaceOrder} {params : List (String × Param)} {name : String}
    (passed : validateExecutionOrder text (order.input filters marketPrice) = .ok validated)
    (sent : placeOrderParams order = .ok params) (member : (name, Param.number value) ∈ params) :
    0 < value := by
  obtain ⟨-, -, -, quantity, price, stop, -⟩ := validateExecutionOrder_ok passed
  -- Only numbers that the validator has checked get into the request.
  rcases number_of_placeOrderParams sent member with rfl | priced | stopped
  · exact quantity
  · exact price value priced
  · exact stop value stopped

/-- Every number of an accepted list's request is positive. -/
theorem list_positive {order : PlaceOco} {name : String}
    (passed : validateExecutionOrder text (order.input filters marketPrice) = .ok validated)
    (member : (name, Param.number value) ∈ placeOcoParams order) : 0 < value := by
  obtain ⟨-, -, -, quantity, price, stop, -⟩ := validateExecutionOrder_ok passed
  rcases number_of_placeOcoParams member with rfl | rfl | rfl | rfl
  · exact quantity
  · exact price _ rfl
  · exact stop _ rfl
  · exact stopLimit_positive passed _ rfl

/-- An accepted order is sent: its type has the prices that the client asks for. -/
theorem placeOrderParams_accepted {order : PlaceOrder}
    (passed : validateExecutionOrder text (order.input filters marketPrice) = .ok validated) :
    ∃ params, placeOrderParams order = .ok params := by
  have typed := (validateExecutionOrder_normal passed).2
  have same : order.orderType = validated.orderType :=
    Except.ok.inj ((normalizeOrderType_name text order.orderType).symm.trans typed)
  obtain ⟨-, -, -, -, -, -, -, fields⟩ := validateExecutionOrder_ok passed
  -- The conditional fields of the type are the ones that the client asks for.
  have client : orderParams order = .ok () := by
    rw [← same] at fields
    change checkConditionalFields _ order.orderType order.price order.stopPrice none _ = _ at fields
    unfold orderParams
    cases type : order.orderType with
    | market => rfl
    | oco => rfl
    | limit =>
      rw [type] at fields
      exact rejectIf_ok.mpr (rejectIf_ok.mp fields)
    | stopLossLimit =>
      rw [type] at fields
      simp only [checkConditionalFields, bind_ok] at fields
      obtain ⟨_, priced, _, stopped, -⟩ := fields
      exact bind_ok.mpr ⟨(), rejectIf_ok.mpr (rejectIf_ok.mp stopped),
        rejectIf_ok.mpr (rejectIf_ok.mp priced)⟩
  -- The client refuses exactly what it has no parameters for.
  rw [← placeOrderParams_refuses order] at client
  cases sent : placeOrderParams order with
  | ok params => exact ⟨params, rfl⟩
  | error raised =>
    rw [sent] at client
    cases client

/-- Every number in the request of an accepted order or list is legible exactly when it is in range. -/
theorem number_encoding_iff (text : Text) :
    (∀ (order : PlaceOrder) filters marketPrice validated,
      validateExecutionOrder text (order.input filters marketPrice) = .ok validated →
        ∃ params, placeOrderParams order = .ok params ∧
          ∀ name value, (name, Param.number value) ∈ params → ShownAsFloat text value →
            (Legible (text.float value) value ↔ InRange value)) ∧
    ∀ (order : PlaceOco) filters marketPrice validated,
      validateExecutionOrder text (order.input filters marketPrice) = .ok validated →
        ∀ name value, (name, Param.number value) ∈ placeOcoParams order → ShownAsFloat text value →
          (Legible (text.float value) value ↔ InRange value) := by
  constructor
  · intro order filters marketPrice validated passed
    obtain ⟨params, sent⟩ := placeOrderParams_accepted passed
    refine ⟨params, sent, fun name value member shown => ?_⟩
    exact legible_iff shown (order_positive passed sent member)
  · intro order filters marketPrice validated passed name value member shown
    exact legible_iff shown (list_positive passed member)

/-- A decimal number with a single digit that rounds to a float is its shortest. -/
theorem shortest_of_digit (single : d.digits.length = 1)
    (rounds : RoundsTo IsFloat IsEvenFloat d.value value) : Shortest IsFloat IsEvenFloat value d where
  rounds := rounds
  fewest := by
    intro other _
    rw [single]
    exact Nat.length_toDigits_pos

/-- The float that five hundred-thousandths round to. -/
def fiveCents : ℚ := 7378697629483821 / 2 ^ 67

/-- The texts of one half and of five hundred-thousandths. -/
def floatText : Text :=
  { SizingInput.bareText with float := fun value => if value = 1 / 2 then "0.5" else "5e-05" }

theorem half_shown : ShownAsFloat floatText (1 / 2) := by
  refine ⟨⟨5, -1, by decide⟩, shortest_of_digit rfl ?_, by decide +kernel⟩
  have exact : (⟨5, -1, by decide⟩ : Decimal).value = 1 / 2 := by
    norm_num [Decimal.value]
  rw [exact]
  exact .self ⟨1, -1, by norm_num, by norm_num, by norm_num⟩

theorem fiveCents_shown : ShownAsFloat floatText fiveCents := by
  refine ⟨⟨5, -5, by decide⟩, shortest_of_digit rfl ?_, by decide +kernel⟩
  have listed : IsFloat fiveCents :=
    ⟨7378697629483821, -67, by norm_num, by norm_num, by norm_num [fiveCents]⟩
  have near : (⟨5, -5, by decide⟩ : Decimal).value = 1 / 20000 := by
    norm_num [Decimal.value]
  rw [near]
  refine .of_nearer listed fun other fits differs => ?_
  -- Every other float is more than twice as far away as the rounding moves it.
  have gap := Fits.gap listed fits differs.symm
  have moved : |1 / 20000 - fiveCents| < |fiveCents - other| / 2 := by
    rw [abs_of_pos (by norm_num [fiveCents])] at gap
    rw [abs_of_neg (by norm_num [fiveCents])]
    norm_num [fiveCents] at gap ⊢
    linarith
  have detour := abs_sub_le fiveCents (1 / 20000) other
  rw [abs_sub_comm fiveCents (1 / 20000)] at detour
  linarith

/-- A market order of some quantity. -/
def marketBuy (quantity : ℚ) : PlaceOrder where
  accountId := "main"
  symbol := "BTCUSDT"
  side := .buy
  orderType := .market
  quantity := quantity
  price := none
  clientOrderId := "k"
  stopPrice := none

/-- What the validator returns for it, at a market price of one hundred thousand. -/
def marketFields (quantity : ℚ) : Validated where
  side := .buy
  orderType := .market
  quantity := quantity
  price := none
  stopPrice := none
  stopLimitPrice := none
  notional := some (quantity * 100000)

/-- The quantity of an order for half a coin. -/
theorem half_encoding_iff : Legible (floatText.float (1 / 2)) (1 / 2) ↔ InRange (1 / 2) := by
  have accepted : validateExecutionOrder floatText ((marketBuy (1 / 2)).input none (some 100000)) =
      .ok (marketFields (1 / 2)) := by decide +kernel
  -- The order is accepted and sent, and its quantity is one of the numbers.
  obtain ⟨params, sent, encoded⟩ := (number_encoding_iff floatText).1 _ _ _ _ accepted
  refine encoded "quantity" (1 / 2) ?_ half_shown
  have same : placeOrderParams (marketBuy (1 / 2)) = .ok [("symbol", .text "BTCUSDT"),
    ("side", .text "BUY"), ("type", .text "MARKET"), ("quantity", .number (1 / 2)),
    ("newClientOrderId", .text "k")] := by decide +kernel
  obtain rfl := Except.ok.inj (sent.symm.trans same)
  simp

/-- The quantity of an accepted order for five hundred-thousandths of a coin cannot be read. -/
theorem fiveCents_illegible :
    validateExecutionOrder floatText ((marketBuy fiveCents).input none (some 100000)) =
        .ok (marketFields fiveCents) ∧
      placeOrderParams (marketBuy fiveCents) = .ok [("symbol", .text "BTCUSDT"),
        ("side", .text "BUY"), ("type", .text "MARKET"), ("quantity", .number fiveCents),
        ("newClientOrderId", .text "k")] ∧
      ShownAsFloat floatText fiveCents ∧ ¬Legible (floatText.float fiveCents) fiveCents := by
  refine ⟨by decide +kernel, by decide +kernel, fiveCents_shown, ?_⟩
  -- The text has an exponent, which the exchange does not read.
  rintro ⟨number, reads, -⟩
  have unread : readDecimal 20 (floatText.float fiveCents) = none := by decide +kernel
  rw [unread] at reads
  cases reads

end Rasat
