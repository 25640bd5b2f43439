import RasatTrading.Analysis.Engine
import RasatTrading.Data.Ticker

/-! The market-wide stream of liquidations, and the records that its client writes. -/

namespace Rasat

/-- One liquidation of the stream. -/
structure LiquidationEvent where
  symbol : String
  side : String
  price : ℚ
  qty : ℚ
  eventTime : ℤ
  deriving DecidableEq, Repr

/-- What was liquidated: the price times the quantity, which is a float again. -/
def LiquidationEvent.notional (event : LiquidationEvent) : ℚ := (Rounding.Extended.round (event.price * event.qty)).value

variable (text : Text) (parseInt : String → Option ℤ)

/-- The time of an event: `E`, or the time of the trade, or zero. -/
def eventStamp (item order : List (String × Json)) : Json :=
  -- `item.get("E") or order.get("T") or 0`: a zero counts as missing.
  if (Json.get item "E").truthy then Json.get item "E"
  else if (Json.get order "T").truthy then Json.get order "T"
  else .int 0

/-- The event of an order; absent when a key is missing or a conversion raises. -/
def readForceOrder (item order : List (String × Json)) : Option LiquidationEvent := do
  let eventTime ← (eventStamp item order).toInt parseInt
  let symbol := (← order.lookup "s").str text
  let side := ((order.lookup "S").getD (.text "?")).str text
  let price ← (← order.lookup "p").toFloat text
  let qty ← (← order.lookup "q").toFloat text
  -- Milliseconds become seconds here, so two events of one second have one time.
  pure ⟨symbol, side, price, qty, toEpochSeconds eventTime⟩

/-- One item of a message. -/
def parseForceOrder : Json → Option LiquidationEvent
  | .object item =>
    match Json.get item "o" with
    | .object order => readForceOrder text parseInt item order
    | _ => none
  | _ => none

/-- The items of a message: a single one or a list, plain or wrapped by the combined stream. -/
def forceOrderItems (data : Json) : List Json :=
  let inner := match data with
    -- The combined stream wraps a message under `data`.
    | .object fields => (fields.lookup "data").getD data
    | _ => data
  match inner with
  | .object fields => [.object fields]
  | .array items => items
  | _ => []

/-- The events of a message; it is absent when it is no JSON. -/
def parseForceOrderArr (raw : Option Json) : List LiquidationEvent :=
  raw.elim [] fun data => (forceOrderItems data).filterMap (parseForceOrder text parseInt)

/-- The record of an event. -/
def LiquidationEvent.record (event : LiquidationEvent) (fetchedAt : ℤ) : FuturesRecord where
  symbol := event.symbol
  type := "liquidation"
  -- The amount, and not a count of events.
  value := some event.notional
  eventTime := event.eventTime
  freshness := "fresh"
  fetchedAt := fetchedAt

/-- The client of the stream, with the table that it writes to. -/
structure LiquidationClient where
  futures : FuturesTable := .empty
  status : StreamStatus := .disconnected none
  lastMessageAt : ℚ := 0
  eventsWritten : ℕ := 0

/-- One message, the host's times at which it is stored and done, and whether the database fails. -/
structure Delivery where
  raw : Option Json
  storedAt : ℚ := 0
  doneAt : ℚ := 0
  failed : Bool := false

namespace LiquidationClient

/-- `_store`, without the column that nothing reads. -/
def store (client : LiquidationClient) (events : List LiquidationEvent) (storedAt : ℚ) : LiquidationClient :=
  { client with futures := client.futures.upsertAll (events.map fun event => event.record (truncated storedAt)) }

/-- `_handle_raw`: an error of the database is logged. -/
def handleRaw (client : LiquidationClient) (delivery : Delivery) : LiquidationClient :=
  let events := parseForceOrderArr text parseInt delivery.raw
  let handled :=
    -- Neither a message without events nor an error of the database drops the connection.
    if events = [] ∨ delivery.failed then client
    else { client.store events delivery.storedAt with eventsWritten := client.eventsWritten + events.length }
  { handled with
    lastMessageAt := delivery.doneAt
    status := .connected }

/-- One message after the other. -/
def handleAll (client : LiquidationClient) (deliveries : List Delivery) : LiquidationClient :=
  deliveries.foldl (handleRaw text parseInt) client

end LiquidationClient

end Rasat
