import RasatTrading.Coop.System
import RasatTrading.Transaction

/-! The requests of the daemon's coroutines: every point at which they wait. -/

namespace Rasat

open Coop

/-- A single order as the broker is asked to place it. -/
structure PlaceOrder where
  accountId : String
  symbol : String
  side : Side
  orderType : OrderType
  quantity : ℚ
  price : Option ℚ
  clientOrderId : String
  stopPrice : Option ℚ
  deriving DecidableEq

/-- An OCO list as the broker is asked to place it. -/
structure PlaceOco where
  accountId : String
  symbol : String
  side : Side
  quantity : ℚ
  price : ℚ
  stopPrice : ℚ
  stopLimitPrice : ℚ
  clientOrderId : String
  deriving DecidableEq

/-- A call of the order broker. -/
inductive BrokerCall
  | placeOrder (order : PlaceOrder)
  | placeOco (order : PlaceOco)
  | queryOrder (accountId symbol clientOrderId : String)
  | queryOco (accountId listClientOrderId : String)
  | cancelOrder (accountId symbol clientOrderId : String)
  | cancelOco (accountId symbol listClientOrderId : String)
  | getAllOpenOrders (accountId : String)
  | cancelAllOpenOrders (accountId symbol : String)
  | getBalance (accountId : String)
  deriving DecidableEq

/-- The free balances by asset, in the order of the broker's answer. -/
abbrev Balances := List (String × ℚ)

/-- The free amount of an asset, zero when it is not listed. -/
def free (balances : Balances) (asset : String) : ℚ := (balances.lookup asset).getD 0

/-- What a broker call returns; an absent result is the broker's definite "no such order". -/
@[reducible] def BrokerCall.Ans : BrokerCall → Type
  | .placeOrder _ => OrderResult
  | .placeOco _ => OrderResult
  | .queryOrder _ _ _ => Option OrderResult
  | .queryOco _ _ => Option OrderResult
  | .cancelOrder _ _ _ => Option OrderResult
  | .cancelOco _ _ _ => Option OrderResult
  | .getAllOpenOrders _ => List ExchangeOrder
  | .cancelAllOpenOrders _ _ => Nat
  | .getBalance _ => Balances

/-- A call of the market feed. -/
inductive MarketCall
  | symbolValid (symbol : String)
  | price (symbol : String)
  | filters (symbol : String)
  deriving DecidableEq

@[reducible] def MarketCall.Ans : MarketCall → Type
  | .symbolValid _ => Bool
  | .price _ => Option ℚ
  | .filters _ => Option SymbolFilters

/-- The arguments of `execute_on_accounts`. -/
structure ExecuteArgs where
  accountIds : List String := []
  tags : List String := []
  symbol : Arg
  side : Arg
  entry : Arg
  stopLoss : Arg
  riskPct : Arg
  idempotencyKey : Arg
  orderType : Arg := .text "MARKET"
  actor : String := "mcp-agent"
  deriving DecidableEq

/-- The columns of a stored order that a result shows. -/
structure OrderView where
  side : Side
  orderType : OrderType
  quantity : ℚ
  price : Option ℚ
  stopPrice : Option ℚ
  stopLimitPrice : Option ℚ
  notional : ℚ
  orderId : String
  exchangeOrderId : Option String
  executedQty : ℚ
  avgPrice : ℚ
  equitySnapshot : ℚ
  deriving DecidableEq

/-- The result of one account in a reply of the order service. -/
structure AccountResult where
  accountId : String
  status : OrderStatus
  symbol : String
  /-- Absent when the call failed before there was an order. -/
  order : Option OrderView := none
  positionSize : Option ℚ := none
  error : Option RasatError := none
  deriving DecidableEq

/-- The reply of `execute_on_accounts`. -/
structure ExecuteReply where
  results : List AccountResult
  count : Nat
  succeeded : Nat
  failed : Nat
  deriving DecidableEq

/-- Everything a coroutine of the daemon can wait for. -/
inductive Req
  | lock (accountId : String)
  | unlock (accountId : String)
  | broker (call : BrokerCall)
  | market (call : MarketCall)
  /-- `int(time.time())`. -/
  | clock
  /-- `uuid4().hex`. -/
  | uuid
  /-- `get_credentials`, whose secrets no modelled function reads. -/
  | credentials (accountId : String)
  | read (query : Query)
  | write (tx : Tx)
  /-- `execute_on_accounts` of an order service that is left open. -/
  | orderService (args : ExecuteArgs)
  deriving DecidableEq

@[reducible] def Req.Ans : Req → Type
  | .lock _ => Unit
  | .unlock _ => Unit
  | .broker call => call.Ans
  | .market call => call.Ans
  | .clock => Int
  | .uuid => String
  | .credentials _ => Unit
  | .read query => query.Ans
  | .write tx => tx.Ans
  | .orderService _ => ExecuteReply

/-- A coroutine of the daemon. -/
abbrev Task (α : Type) := Prog Req Req.Ans Exc α

/-- What one task has asked and heard, newest first. -/
abbrev History := Hist Req Req.Ans Exc

/-- Raise a canonical error in a coroutine. -/
def raise {α : Type} (code : ErrorCode) (message : String) : Task α := .fail (.rasat ⟨code, message⟩)

/-- Run a synchronous computation in a coroutine. -/
def sync {α : Type} (result : Except Exc α) : Task α := Prog.ofExcept result

def broker (call : BrokerCall) : Task call.Ans := Prog.call (Req.broker call)

def market (call : MarketCall) : Task call.Ans := Prog.call (Req.market call)

def dbRead (query : Query) : Task query.Ans := Prog.call (Req.read query)

def dbWrite (tx : Tx) : Task tx.Ans := Prog.call (Req.write tx)

def clock : Task Int := Prog.call Req.clock

def uuid : Task String := Prog.call Req.uuid

/-- `async with` the lock of an account: it is released on every outcome. -/
def withLock {α : Type} (accountId : String) (body : Task α) : Task α :=
  (Prog.call (Req.lock accountId)).bind fun _ => body.ensuring (Prog.call (Req.unlock accountId))

end Rasat
