import RasatTrading.Broker.Binance

/-! The parameters of the requests that place an order or an OCO list. -/

namespace Rasat

/-- A parameter of a request, before it becomes text. -/
inductive Param
  | text (value : String)
  /-- `str` of a float. -/
  | number (value : ℚ)
  /-- `None`. -/
  | absent
  deriving DecidableEq

/-- The prices of an order type, with how long the order stays. -/
def priceParams (order : PlaceOrder) : Except Exc (List (String × Param)) :=
  -- A limit order stays until it is cancelled, and a market order has no price at all.
  match order.orderType with
  | .limit =>
    match order.price with
    | none => reject .invalidRequest "price is required for a limit order"
    | some price => .ok [("price", .number price), ("timeInForce", .text "GTC")]
  | .stopLossLimit =>
    match order.stopPrice, order.price with
    | none, _ => reject .invalidRequest "stop_price is required for a stop order"
    | some _, none => reject .invalidRequest "price is required for a stop order"
    | some stopPrice, some price =>
      .ok [("stopPrice", .number stopPrice), ("price", .number price), ("timeInForce", .text "GTC")]
  | .market | .oco => .ok []

/-- The parameters of `place_order`. -/
def placeOrderParams (order : PlaceOrder) : Except Exc (List (String × Param)) := do
  let prices ← priceParams order
  -- An empty client order id is left out.
  let clientId := if order.clientOrderId = "" then [] else
    [("newClientOrderId", Param.text order.clientOrderId)]
  return [("symbol", .text order.symbol), ("side", .text order.side.name),
    ("type", .text order.orderType.name), ("quantity", .number order.quantity)] ++ prices ++ clientId

/-- The two legs of an OCO list: for a BUY the stop lies above the price, for a SELL below. -/
def legParams (order : PlaceOco) : List (String × Param) :=
  match order.side with
  | .buy =>
    [("aboveType", .text "STOP_LOSS_LIMIT"), ("aboveStopPrice", .number order.stopPrice),
      ("abovePrice", .number order.stopLimitPrice), ("aboveTimeInForce", .text "GTC"),
      ("belowType", .text "LIMIT_MAKER"), ("belowPrice", .number order.price)]
  | .sell =>
    [("aboveType", .text "LIMIT_MAKER"), ("abovePrice", .number order.price),
      ("belowType", .text "STOP_LOSS_LIMIT"), ("belowStopPrice", .number order.stopPrice),
      ("belowPrice", .number order.stopLimitPrice), ("belowTimeInForce", .text "GTC")]

/-- The parameters of `place_oco`. -/
def placeOcoParams (order : PlaceOco) : List (String × Param) :=
  [("symbol", .text order.symbol), ("side", .text order.side.name),
    ("quantity", .number order.quantity),
    ("listClientOrderId", if order.clientOrderId = "" then .absent else .text order.clientOrderId)] ++
      legParams order

/-- The parameters of an order are refused exactly where the client refuses the order. -/
theorem placeOrderParams_refuses (order : PlaceOrder) :
    (placeOrderParams order).map (fun _ => ()) = orderParams order := by
  obtain ⟨accountId, symbol, side, orderType, quantity, price, clientOrderId, stopPrice⟩ := order
  unfold placeOrderParams orderParams priceParams
  cases orderType <;> cases price <;> cases stopPrice <;> rfl

/-- The numbers of an order's request are its quantity and the prices of its type. -/
theorem number_of_placeOrderParams {order : PlaceOrder} {params : List (String × Param)}
    (sent : placeOrderParams order = .ok params) {name : String} {value : ℚ}
    (member : (name, Param.number value) ∈ params) :
    value = order.quantity ∨ order.price = some value ∨ order.stopPrice = some value := by
  unfold placeOrderParams at sent
  simp only [bind_ok] at sent
  obtain ⟨prices, priced, same⟩ := sent
  cases same
  -- The client's own id is no number, so the prices are what is left.
  have listed : value = order.quantity ∨ (name, Param.number value) ∈ prices := by
    have kept : (name = "quantity" ∧ value = order.quantity) ∨ (name, Param.number value) ∈ prices := by
      by_cases unnamed : order.clientOrderId = ""
      · simpa [unnamed] using member
      · simpa [unnamed] using member
    exact kept.imp And.right id
  refine listed.imp id fun inPrices => ?_
  unfold priceParams at priced
  split at priced
  · split at priced
    · cases priced
    · rename_i price found
      cases priced
      have kept : name = "price" ∧ value = price := by simpa using inPrices
      exact .inl (kept.2 ▸ found)
  · split at priced
    · cases priced
    · cases priced
    · rename_i stopPrice price stopped found
      cases priced
      have kept : (name = "stopPrice" ∧ value = stopPrice) ∨ (name = "price" ∧ value = price) := by
        simpa using inPrices
      rcases kept with ⟨-, rfl⟩ | ⟨-, rfl⟩
      · exact .inr stopped
      · exact .inl found
  · cases priced
    cases inPrices
  · cases priced
    cases inPrices

/-- The numbers of a list's request are its quantity and its three prices. -/
theorem number_of_placeOcoParams {order : PlaceOco} {name : String} {value : ℚ}
    (member : (name, Param.number value) ∈ placeOcoParams order) :
    value = order.quantity ∨ value = order.price ∨ value = order.stopPrice ∨
      value = order.stopLimitPrice := by
  unfold placeOcoParams legParams at member
  -- The list's own id is no number.
  have unnamed : (name, Param.number value) ≠
      ("listClientOrderId", if order.clientOrderId = "" then .absent else .text order.clientOrderId) := by
    intro same
    split at same <;> cases same
  obtain ⟨accountId, symbol, side, quantity, price, stopPrice, stopLimitPrice, clientOrderId⟩ := order
  cases side with
  | buy =>
    simp [unnamed] at member
    tauto
  | sell =>
    simp [unnamed] at member
    tauto

end Rasat
