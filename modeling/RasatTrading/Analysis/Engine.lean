import RasatTrading.Analysis.Alerts
import RasatTrading.Analysis.Sessions
import RasatTrading.Data.Exchange

/-! The price-action engine, the alarm service and the screener: every point at which they wait. -/

namespace Rasat

open Coop Ascending

/-- The bars that an analysis reads. -/
def paLookback : ℕ := 200

/-- The bars that the alarm service reads. -/
def alarmLookback : ℕ := 300

/-- The timeframe with a name; an alert may name any text. -/
def Timeframe.ofName (name : String) : Option Timeframe := timeframes.find? fun tf => tf.name = name

/-- The tables of stored analyses. -/
inductive PaTable
  | marketStructure | liquidityZones | orderBlocks
  deriving DecidableEq, Repr

namespace PaTable

@[reducible] def Payload : PaTable → Type
  | .marketStructure => MarketStructure
  | .liquidityZones => LiquidityZones
  | .orderBlocks => OrderBlocks

instance : (table : PaTable) → DecidableEq table.Payload
  | .marketStructure => inferInstanceAs (DecidableEq MarketStructure)
  | .liquidityZones => inferInstanceAs (DecidableEq LiquidityZones)
  | .orderBlocks => inferInstanceAs (DecidableEq OrderBlocks)

/-- The version that a payload names. -/
def algoVersion : (table : PaTable) → table.Payload → String
  | .marketStructure, payload => payload.algoVersion
  | .liquidityZones, payload => payload.algoVersion
  | .orderBlocks, payload => payload.algoVersion

end PaTable

/-- What `analyze` returns. -/
structure AnalysisResult where
  pair : Pair
  asOf : ℤ
  marketStructure : MarketStructure
  liquidity : LiquidityZones
  orderBlocks : OrderBlocks
  vwap : Vwap
  sessions : Sessions
  deriving DecidableEq

/-- The part of an analysis that a table stores. -/
def AnalysisResult.payload (result : AnalysisResult) : (table : PaTable) → table.Payload
  | .marketStructure => result.marketStructure
  | .liquidityZones => result.liquidity
  | .orderBlocks => result.orderBlocks

/-- The services that make analyses on demand, each within a budget of its own. -/
inductive Evaluator
  | alarms | screener
  deriving DecidableEq, Repr

/-- A change that the rest of the daemon makes to the market data. -/
inductive Feed
  | candles (rows : List StoredCandle)
  | pruneCandles (timeframe : Timeframe) (cutoff : ℤ)
  | futures (rows : List FuturesRecord)
  | ageFutures (cutoff : ℤ)
  | pruneFutures (cutoff : ℤ)

/-- Everything the coroutines of the price-action layer wait for. Evaluations wait for nothing; they
are among the requests so that the record of a run shows their contexts. -/
inductive PaReq
  /-- `_read_candles`. -/
  | candles (pair : Pair) (lookback : ℕ)
  /-- `pipeline.get_candles` for a pair without candles. -/
  | warmUp (pair : Pair) (lookback : ℕ)
  /-- `PAEngine._now`. -/
  | serverNow
  /-- `time.time()`. -/
  | hostNow
  | futuresContext (symbol : String)
  | futuresSeries (symbol type : String) (limit : ℕ)
  /-- `_store_payload`. -/
  | store (table : PaTable) (pair : Pair) (effectiveFrom : ℤ) (payload : table.Payload)
  /-- `_read_current`. -/
  | current (table : PaTable) (pair : Pair)
  /-- Take one analysis from the budget, if there is any left. -/
  | spend (who : Evaluator)
  /-- `begin_evaluation_pass`. -/
  | beginPass (who : Evaluator)
  | alertsBySymbol (pair : Pair)
  | compositeAlerts
  | alertSymbols
  | evaluate (ctx : Context) (node : FilterNode)
  | screen (ctx : Context) (node : FilterNode)
  | maybeTrigger (args : TriggerArgs)
  | insertAlert (definition : AlertDefinition) (now : ℤ)
  | deleteAlert (alertId : String)
  | candidateSymbols
  | symbolValidity (symbol : String)
  | feed (change : Feed)
  /-- A change of an order that waits for approval. -/
  | settle (orderId : String) (status : PendingStatus) (entry : Option ℚ)

@[reducible] def PaReq.Ans : PaReq → Type
  | .candles _ _ => List Candle
  | .serverNow | .hostNow => ℚ
  | .futuresContext _ => FuturesContext
  | .futuresSeries _ _ _ => List FuturesRecord
  | .current table _ => Option (ℤ × table.Payload)
  | .spend _ => Bool
  | .alertsBySymbol _ | .compositeAlerts => List AlertRow
  | .alertSymbols => List Pair
  | .evaluate _ _ => Bool
  | .screen _ _ => Bool × List FilterTest
  | .maybeTrigger _ => Option TriggeredAlert
  | .insertAlert _ _ => String
  | .deleteAlert _ => ℕ
  | .candidateSymbols => List String
  | .symbolValidity _ => Option Bool
  | _ => Unit

/-- The key of a futures record. -/
def FuturesRecord.key (record : FuturesRecord) : String × String × ℤ :=
  (record.symbol, record.type, record.eventTime)

/-- The futures_context table. -/
abbrev FuturesTable := Keyed.Table FuturesRecord.key

namespace FuturesTable

/-- `load_futures_series`. -/
def series (table : FuturesTable) (symbol type : String) (limit : ℕ) : List FuturesRecord :=
  lastOf limit ((table.rows.filter fun record => record.symbol = symbol ∧ record.type = type).insertionSort
    fun left right => left.eventTime ≤ right.eventTime)

/-- `load_futures_context`. -/
def context (table : FuturesTable) (symbol : String) : FuturesContext where
  openInterest := (table.series symbol "open_interest" 1).getLast?
  fundingRate := (table.series symbol "funding_rate" 1).getLast?
  liquidation := (table.series symbol "liquidation" 1).getLast?

/-- A fresh record that was fetched before a time is stale. -/
def aged (cutoff : ℤ) (record : FuturesRecord) : FuturesRecord :=
  if record.freshness = "fresh" ∧ record.fetchedAt < cutoff then { record with freshness := "stale" }
  else record

theorem key_aged (cutoff : ℤ) (record : FuturesRecord) : (aged cutoff record).key = record.key := by
  unfold aged
  split <;> rfl

end FuturesTable

/-- The stored state of the price-action layer, and the budgets of the running process. -/
structure PaWorld where
  candles : CandleTable := .empty
  futures : FuturesTable := .empty
  payloads : (table : PaTable) → PayloadTable table.Payload := fun _ => .empty
  alarms : AlertTables := {}
  used : Evaluator → ℕ := fun _ => 0
  /-- The ids that `uuid4` has given out. -/
  minted : List String := []

/-- What the schedule leaves open about one answer. -/
structure PaChoice where
  host : ℚ := 0
  server : ℚ := 0
  uuid : ℕ := 0
  /-- The error of a failed database access or exchange request. -/
  fault : Option Exc := none
  warmed : List StoredCandle := []
  symbols : List String := []
  listed : Option Bool := none

namespace PaWorld

/-- The candles of a pair; no table row has an unknown timeframe. -/
def readCandles (world : PaWorld) (pair : Pair) (lookback : ℕ) : List Candle :=
  (Timeframe.ofName pair.timeframe).elim [] fun tf =>
    world.candles.read ⟨pair.symbol, tf, .spot⟩ lookback

/-- `_read_current`. -/
def current (world : PaWorld) (table : PaTable) (pair : Pair) : Option (ℤ × table.Payload) :=
  ((world.payloads table).openRow pair).map fun row => (row.effectiveFrom, row.payload)

/-- `_store_payload` at a time. -/
def store (world : PaWorld) (table : PaTable) (pair : Pair) (effectiveFrom : ℤ)
    (payload : table.Payload) (now : ℤ) : PaWorld :=
  { world with
    payloads := Function.update world.payloads table ((world.payloads table).storePayload {
      pair := pair
      algoVersion := table.algoVersion payload
      effectiveFrom := effectiveFrom
      payload := payload
      now := now }) }

/-- Apply a change of the market data. -/
def feed (world : PaWorld) : Feed → PaWorld
  | .candles rows => { world with candles := world.candles.upsertAll rows }
  | .pruneCandles timeframe cutoff =>
    { world with
      candles := world.candles.keep fun row =>
        ¬(row.series.timeframe = timeframe ∧ row.candle.openTime < cutoff) }
  | .futures rows => { world with futures := world.futures.upsertAll rows }
  | .ageFutures cutoff =>
    { world with futures := world.futures.change (FuturesTable.aged cutoff) (FuturesTable.key_aged cutoff) }
  | .pruneFutures cutoff =>
    { world with futures := world.futures.keep fun record => ¬record.eventTime < cutoff }

/-- The pairs of all alerts, sorted and without repetition. -/
def alertSymbols (world : PaWorld) : List Pair :=
  ((world.alarms.alerts.flatMap fun row => row.definition.pairs).dedup).insertionSort fun left right =>
    left.symbol < right.symbol ∨ left.symbol = right.symbol ∧ left.timeframe ≤ right.timeframe

/-- Access the database: a fault leaves it as it is. -/
def access {α : Type} (world : PaWorld) (fault : Option Exc) (run : Except Exc (α × PaWorld)) :
    Except Exc α × PaWorld :=
  match fault, run with
  | some raised, _ => (.error raised, world)
  | none, .error raised => (.error raised, world)
  | none, .ok (answer, after) => (.ok answer, after)

/-- Serve one request. -/
def serve (budget : ℕ) (world : PaWorld) : (request : PaReq) → PaChoice →
    Except Exc request.Ans × PaWorld
  | .candles pair lookback, choice =>
    world.access choice.fault (.ok (world.readCandles pair lookback, world))
  | .warmUp _ _, choice =>
    world.access choice.fault (.ok ((), { world with candles := world.candles.upsertAll choice.warmed }))
  | .serverNow, choice => (.ok choice.server, world)
  | .hostNow, choice => (.ok choice.host, world)
  | .futuresContext symbol, choice =>
    world.access choice.fault (.ok (world.futures.context symbol, world))
  | .futuresSeries symbol type limit, choice =>
    world.access choice.fault (.ok (world.futures.series symbol type limit, world))
  | .store table pair effectiveFrom payload, choice =>
    world.access choice.fault
      (.ok ((), world.store table pair effectiveFrom payload (truncated choice.host)))
  | .current table pair, choice => world.access choice.fault (.ok (world.current table pair, world))
  | .spend who, _ =>
    if budget ≤ world.used who then (.ok false, world)
    else (.ok true, { world with used := Function.update world.used who (world.used who + 1) })
  | .beginPass who, _ => (.ok (), { world with used := Function.update world.used who 0 })
  | .alertsBySymbol pair, choice =>
    world.access choice.fault (.ok (world.alarms.bySymbol pair (truncated choice.host), world))
  | .compositeAlerts, choice => world.access choice.fault (.ok (world.alarms.composites, world))
  | .alertSymbols, choice => world.access choice.fault (.ok (world.alertSymbols, world))
  | .evaluate ctx node, _ => (evalNode ctx node, world)
  | .screen ctx node, _ => (evalWithMatches ctx node, world)
  | .maybeTrigger args, choice =>
    world.access choice.fault ((world.alarms.maybeTrigger args (uuidHex choice.uuid)).map
      fun (answer, alarms) =>
        (answer, { world with alarms := alarms, minted := uuidHex choice.uuid :: world.minted }))
  | .insertAlert definition now, choice =>
    world.access choice.fault ((world.alarms.insertAlert (uuidHex choice.uuid) definition now).map
      fun alarms => (uuidHex choice.uuid,
        { world with alarms := alarms, minted := uuidHex choice.uuid :: world.minted }))
  | .deleteAlert alertId, choice =>
    let (removed, alarms) := world.alarms.deleteAlert alertId
    world.access choice.fault (.ok (removed, { world with alarms := alarms }))
  | .candidateSymbols, choice => world.access choice.fault (.ok (choice.symbols, world))
  | .symbolValidity _, choice => (.ok choice.listed, world)
  | .feed change, choice => world.access choice.fault (.ok ((), world.feed change))
  | .settle orderId status entry, choice =>
    world.access choice.fault
      (.ok ((), { world with alarms := world.alarms.settle orderId status entry }))

/-- A database access fails and changes nothing, or does what it is to do. -/
theorem access_cases {α : Type} {world changed : PaWorld} {fault : Option Exc}
    {run : Except Exc (α × PaWorld)} {answer : Except Exc α}
    (accessed : world.access fault run = (answer, changed)) :
    (∃ raised, answer = .error raised ∧ changed = world) ∨
      ∃ value, answer = .ok value ∧ run = .ok (value, changed) := by
  unfold PaWorld.access at accessed
  split at accessed
  · cases accessed
    exact .inl ⟨_, rfl, rfl⟩
  · cases accessed
    exact .inl ⟨_, rfl, rfl⟩
  · cases accessed
    exact .inr ⟨_, rfl, rfl⟩

/-- What holds of a state still holds behind an access when what it is to do keeps it. -/
theorem access_rule {α : Type} {P : PaWorld → Prop} {world : PaWorld} (holds : P world) (fault : Option Exc)
    {run : Except Exc (α × PaWorld)} (kept : ∀ value after, run = .ok (value, after) → P after) :
    P (world.access fault run).2 := by
  rcases accessed : world.access fault run with ⟨answer, changed⟩
  rcases access_cases accessed with ⟨raised, rfl, rfl⟩ | ⟨value, rfl, ran⟩
  · exact holds
  · exact kept value changed ran

/-- An access that returns has done what it is to do. -/
theorem access_returned {α : Type} {world after : PaWorld} {fault : Option Exc} {value answer : α}
    (returned : (world.access fault (.ok (value, after))).1 = .ok answer) :
    value = answer ∧ (world.access fault (.ok (value, after))).2 = after := by
  cases fault with
  | none => exact ⟨Except.ok.inj returned, rfl⟩
  | some raised => cases returned

/-- A mapped computation returns the image of what it returns. -/
theorem except_map_ok {α β : Type} {image : α → β} {run : Except Exc α} {result : β} :
    run.map image = .ok result ↔ ∃ value, run = .ok value ∧ image value = result := by
  cases run with
  | error raised => simp [Except.map]
  | ok value => simp [Except.map]

end PaWorld

end Rasat
