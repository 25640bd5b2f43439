import RasatTrading.Analysis.Engine

/-! The coroutines of the price-action engine, the alarm service and the screener. -/

namespace Rasat

open Coop

/-- A coroutine of the price-action layer. -/
abbrev PaTask := Prog PaReq PaReq.Ans Exc

/-- What the price-action layer is set up with. -/
structure PaConfig where
  /-- A price in eight significant digits. -/
  general8 : ℚ → String
  /-- How deep the interpreter lets analyses nest. -/
  depth : ℕ
  /-- `alarm_compute_budget`. -/
  budget : ℕ

/-- Wait for one request. -/
def await (request : PaReq) : PaTask request.Ans := Prog.call request

/-- Raise a canonical error. -/
def refuse {α : Type} (code : ErrorCode) (message : String) : PaTask α := .fail (.rasat ⟨code, message⟩)

/-- The interpreter's limit for nested calls. -/
def recursionError : Exc := .other "maximum recursion depth exceeded"

/-- A timeframe that the candle filter does not know. -/
def unknownTimeframe (name : String) : Exc := .other ("unknown timeframe: " ++ name)

/-- `freshness_for`: the analysis has the last bar that a reading counts as closed. -/
def isFresh (tf : Timeframe) (asOf : ℤ) (now : ℚ) : Bool := latestClosed tf.seconds now ≤ asOf

/-- `_load_candles`. -/
def loadCandles (pair : Pair) (lookback : ℕ) : PaTask (List Candle) := do
  let rows ← await (.candles pair lookback)
  if rows.isEmpty then
    await (.warmUp pair lookback)
    await (.candles pair lookback)
  else return rows

/-- The closed candles that an analysis is made from. -/
def analysisWindow (pair : Pair) (lookback : ℕ) : PaTask (List Candle) :=
  match Timeframe.ofName pair.timeframe with
  | none => refuse .invalidRequest ("invalid timeframe: " ++ pair.timeframe)
  | some tf => do
    let candles ← loadCandles pair lookback
    if candles.isEmpty then
      refuse .staleData ("no candle data for " ++ pair.symbol ++ " " ++ pair.timeframe)
    else
      let now ← await .serverNow
      let window := closedOnly candles tf now
      if window.length < 2 * swingLookback + 1 then
        refuse .staleData ("not enough closed candles for " ++ pair.symbol ++ " " ++ pair.timeframe)
      else return window

/-- The result of an analysis of some closed candles. -/
def analysisOf (general8 : ℚ → String) (pair : Pair) (window : List Candle)
    (futures : FuturesContext) : AnalysisResult :=
  let found := detectStructure window
  { pair := pair
    asOf := (window.getLast?.map Candle.openTime).getD 0
    marketStructure := found
    liquidity := computeLiquidityZones general8 window found futures
    orderBlocks := computeOrderBlocks window found
    vwap := computeVwap window
    sessions := computeSessionLevels window }

/-- Store the parts of an analysis, each in a transaction of its own. -/
def storeAnalysis (result : AnalysisResult) : PaTask Unit := do
  await (.store .marketStructure result.pair result.asOf result.marketStructure)
  await (.store .liquidityZones result.pair result.asOf result.liquidity)
  await (.store .orderBlocks result.pair result.asOf result.orderBlocks)

/-- `analyze` up to the point where it tells the alarm service. -/
def computeAnalysis (general8 : ℚ → String) (pair : Pair) (lookback : ℕ) : PaTask AnalysisResult := do
  let window ← analysisWindow pair lookback
  let futures ← await (.futuresContext pair.symbol)
  let result := analysisOf general8 pair window futures
  storeAnalysis result
  return result

/-- The stored parts of an analysis, as they are read one after the other. -/
structure StoredParts where
  marketStructure : Option (ℤ × MarketStructure)
  liquidity : Option (ℤ × LiquidityZones)
  orderBlocks : Option (ℤ × OrderBlocks)

/-- Read the open record of each table. -/
def readStored (pair : Pair) : PaTask StoredParts := do
  let marketStructure ← await (.current .marketStructure pair)
  let liquidity ← await (.current .liquidityZones pair)
  let orderBlocks ← await (.current .orderBlocks pair)
  return ⟨marketStructure, liquidity, orderBlocks⟩

/-- The stored analysis of a pair, or one that is made within the budget of a service. -/
def storedAnalysis (who : Evaluator) (analyze : Pair → PaTask Unit) (pair : Pair) :
    PaTask (Option StoredParts) := do
  let stored ← readStored pair
  if stored.marketStructure.isNone ∨ stored.liquidity.isNone ∨ stored.orderBlocks.isNone then
    if ← await (.spend who) then
      analyze pair
      let made ← readStored pair
      return some made
    else return none
  else return some stored

/-- `_latest_futures`. -/
def latestFutures (symbol type : String) : PaTask (Option FuturesRecord) := do
  let series ← await (.futuresSeries symbol type 1)
  return series.getLast?

/-- The records of the open interest that a context has. -/
def openInterest (symbol : String) : PaTask (List FuturesRecord) :=
  await (.futuresSeries symbol "open_interest" 20)

/-- `filter_closed_candles` with the host's time, which it reads only for candles. -/
def filterClosedCandles (tf : Timeframe) (candles : List Candle) : PaTask (List Candle) := do
  if candles.isEmpty then return []
  else
    let now ← await .hostNow
    return closedOnly candles tf now

/-- A context with the stored parts of an analysis. -/
def storedContext (candles : List Candle) (asOf : ℤ) (found : MarketStructure) (stored : StoredParts)
    (fundingRate : Option FuturesRecord) (oiSeries : List FuturesRecord) : Context where
  candles := candles
  close := candles.getLast?.map Candle.close
  asOf := asOf
  marketStructure := some found
  liquidityZones := stored.liquidity.elim [] fun part => part.2.zones
  orderBlocks := stored.orderBlocks.elim [] fun part => part.2.orderBlocks
  vwap := (computeVwap candles).current
  fundingRate := fundingRate
  oiSeries := oiSeries

/-- `_clause_context`. -/
def clauseContext (analyze : Pair → PaTask Unit) (pair : Pair) : PaTask (Option Context) := do
  let candles ← await (.candles pair alarmLookback)
  if candles.isEmpty then return none
  else
    match Timeframe.ofName pair.timeframe with
    | none => .fail (unknownTimeframe pair.timeframe)
    | some tf =>
      let closed ← filterClosedCandles tf candles
      if closed.isEmpty then return none
      else
        match ← storedAnalysis .alarms analyze pair with
        | none => return none
        | some stored =>
          match stored.marketStructure with
          | none => return none
          | some (asOf, found) =>
            let now ← await .serverNow
            if ¬isFresh tf asOf now then return none
            else
              let fundingRate ← latestFutures pair.symbol "funding_rate"
              let oiSeries ← openInterest pair.symbol
              return some (storedContext closed asOf found stored fundingRate oiSeries)

/-- The key under which a simple alert triggers. -/
def simpleKey (pair : Pair) (asOf : ℤ) : String :=
  pair.symbol ++ ":" ++ pair.timeframe ++ ":" ++ toString asOf

/-- The key under which a composite alert triggers. -/
def compositeKey (alertId : String) (asOf : ℤ) : String :=
  "composite:" ++ alertId ++ ":" ++ toString asOf

/-- `_maybe_trigger`. -/
def maybeTrigger (row : AlertRow) (triggerKey : String) (payload : TriggerPayload) :
    PaTask (Option TriggeredAlert) := do
  let now ← await .hostNow
  await (.maybeTrigger {
    alertId := row.alertId
    triggerKey := triggerKey
    payload := payload
    cooldownSeconds := row.definition.cooldownSeconds
    now := truncated now })

/-- Whether an alert row is armed at the host's time. -/
def isArmed (row : AlertRow) : PaTask Bool := do
  let now ← await .hostNow
  return lazyState row.state row.cooldownUntil (truncated now) = .armed

/-- One simple alert of a pair, over a way to its context. -/
def evaluateSimple (context : PaTask (Option Context)) (pair : Pair)
    (triggers : List TriggeredAlert) (row : AlertRow) : PaTask (List TriggeredAlert) :=
  match row.definition.body with
  | .composite _ _ _ => return triggers
  | .simple _ condition _ => do
    if ← isArmed row then
      match ← context with
      | none => return triggers
      | some ctx =>
        if ← await (.evaluate ctx condition) then
          let trigger ← maybeTrigger row (simpleKey pair ctx.asOf) (.simple pair ctx.asOf)
          return triggers ++ trigger.toList
        else return triggers
    else return triggers

/-- The contexts of some clauses; none when one of them has missing or stale data. -/
def clauseContexts (analyze : Pair → PaTask Unit) :
    List Clause → PaTask (Option (List (Clause × Context)))
  | [] => return some []
  | clause :: rest => do
    match ← clauseContext analyze clause.pair with
    | none => return none
    | some ctx =>
      let contexts ← clauseContexts analyze rest
      return contexts.map fun contexts => (clause, ctx) :: contexts

/-- Evaluate the clauses up to the one that decides. -/
def evaluateClauses (combine : Combine) : List (Clause × Context) → PaTask Bool
  | [] => return combine = .and
  | (clause, ctx) :: rest => do
    let matched ← await (.evaluate ctx clause.condition)
    if matched = decide (combine = .or) then return matched else evaluateClauses combine rest

/-- The latest bar of some contexts. -/
def latestAsOf (contexts : List (Clause × Context)) : ℤ :=
  match contexts.map fun entry => entry.2.asOf with
  | [] => 0
  | first :: rest => rest.foldl max first

/-- `_evaluate_composite`. -/
def evaluateComposite (analyze : Pair → PaTask Unit) (row : AlertRow) :
    PaTask (Option TriggeredAlert) :=
  match row.definition.body with
  | .simple _ _ _ => return none
  | .composite combine first rest => do
    if ← isArmed row then
      match ← clauseContexts analyze (first :: rest) with
      | none => return none
      | some contexts =>
        if ← evaluateClauses combine contexts then
          let asOf := latestAsOf contexts
          maybeTrigger row (compositeKey row.alertId asOf) (.composite asOf)
        else return none
    else return none

/-- `_evaluate_composites_for`. -/
def evaluateCompositesFor (analyze : Pair → PaTask Unit) (pair : Pair)
    (triggers : List TriggeredAlert) : PaTask (List TriggeredAlert) := do
  let alerts ← await .compositeAlerts
  alerts.foldlM (fun triggers row => do
    if pair ∈ row.definition.pairs then
      let trigger ← evaluateComposite analyze row
      return triggers ++ trigger.toList
    else return triggers) triggers

/-- `_ctx_from_analysis`, with the futures records. -/
def analysisContext (result : AnalysisResult) (candles : List Candle)
    (fundingRate : Option FuturesRecord) (oiSeries : List FuturesRecord) : Context where
  candles := candles
  close := candles.getLast?.map Candle.close
  asOf := result.asOf
  marketStructure := some result.marketStructure
  liquidityZones := result.liquidity.zones
  orderBlocks := result.orderBlocks.orderBlocks
  vwap := result.vwap.current
  fundingRate := fundingRate
  oiSeries := oiSeries

/-- The context of an analysis that was just made. -/
def updatedContext (tf : Timeframe) (result : AnalysisResult) : PaTask Context := do
  let candles ← await (.candles result.pair alarmLookback)
  let closed ← filterClosedCandles tf candles
  let fundingRate ← latestFutures result.pair.symbol "funding_rate"
  let oiSeries ← openInterest result.pair.symbol
  return analysisContext result closed fundingRate oiSeries

/-- `on_analysis_updated`. -/
def onAnalysisUpdated (analyze : Pair → PaTask Unit) (result : AnalysisResult) :
    PaTask (List TriggeredAlert) :=
  match Timeframe.ofName result.pair.timeframe with
  | none => .fail (.other result.pair.timeframe)
  | some tf => do
    let now ← await .serverNow
    if ¬isFresh tf result.asOf now then return []
    else
      let ctx ← updatedContext tf result
      let alerts ← await (.alertsBySymbol result.pair)
      let triggers ← alerts.foldlM (evaluateSimple (return some ctx) result.pair) []
      evaluateCompositesFor analyze result.pair triggers

/-- `analyze`, as deep as it may nest. -/
def analyze (cfg : PaConfig) : ℕ → Pair → ℕ → PaTask AnalysisResult
  | 0, _, _ => .fail recursionError
  | depth + 1, pair, lookback => do
    let result ← computeAnalysis cfg.general8 pair lookback
    let _ ← onAnalysisUpdated
      (fun other => (analyze cfg depth other paLookback).bind fun _ => .done ()) result
    return result

/-- The analyses that the evaluations ask for. -/
def analyzePair (cfg : PaConfig) (depth : ℕ) (pair : Pair) : PaTask Unit := do
  let _ ← analyze cfg depth pair paLookback
  return ()

/-- `evaluate_symbol`. -/
def evaluateSymbol (analyze : Pair → PaTask Unit) (pair : Pair) : PaTask (List TriggeredAlert) := do
  let alerts ← await (.alertsBySymbol pair)
  let triggers ← alerts.foldlM (evaluateSimple (clauseContext analyze pair) pair) []
  evaluateCompositesFor analyze pair triggers

/-- One pass of `_alarm_eval_loop`; a failed evaluation is logged. -/
def evaluationPass (analyze : Pair → PaTask Unit) : PaTask Unit := do
  await (.beginPass .alarms)
  let pairs ← await .alertSymbols
  pairs.foldlM (fun _ pair =>
    Prog.rescue (do
      let _ ← evaluateSymbol analyze pair
      return ()) fun _ => .done ()) ()

/-- `_build_context`. -/
def buildContext (analyze : Pair → PaTask Unit) (pair : Pair) (node : FilterNode) :
    PaTask (Option Context) := do
  let candles ← await (.candles pair paLookback)
  if candles.isEmpty then return none
  else
    match Timeframe.ofName pair.timeframe with
    | none => .fail (unknownTimeframe pair.timeframe)
    | some tf =>
      let now ← await .serverNow
      let closed := closedOnly candles tf now
      match closed.getLast? with
      | none => return none
      | some last =>
        if node.tests.any FilterTest.needsAnalysis then
          match ← storedAnalysis .screener analyze pair with
          | none => return none
          | some stored =>
            match stored.marketStructure with
            | none => return none
            | some (asOf, found) =>
              let fundingRate ← latestFutures pair.symbol "funding_rate"
              if node.tests.any FilterTest.usesOi then
                let oiSeries ← openInterest pair.symbol
                return some (storedContext closed asOf found stored fundingRate oiSeries)
              else return some (storedContext closed asOf found stored fundingRate [])
        else
          return some {
            candles := closed
            close := some last.close
            asOf := last.openTime
            vwap := (computeVwap closed).current }

/-- A symbol that the screener reports. -/
structure Screened where
  symbol : String
  dataStale : Bool
  symbolValid : Option Bool
  price : Option ℚ
  asOf : ℤ
  matchedFilters : List FilterTest

/-- One symbol of `scan`, of which a match is told by `tell`. -/
def screenSymbol {α : Type} (tell : Context → Screened → Except Exc α) (analyze : Pair → PaTask Unit) (pair : Pair)
    (node : FilterNode) : PaTask (Option α) := do
  let valid ← await (.symbolValidity pair.symbol)
  if valid = some false then return none
  else
    match ← buildContext analyze pair node with
    | none => return none
    | some ctx =>
      let (ok, matched) ← await (.screen ctx node)
      if ok then
        match Timeframe.ofName pair.timeframe with
        | none => .fail (.other pair.timeframe)
        | some tf =>
          let now ← await .serverNow
          let told ← Prog.ofExcept (tell ctx {
            symbol := pair.symbol
            dataStale := ¬isFresh tf ctx.asOf now
            symbolValid := valid
            price := ctx.close
            asOf := ctx.asOf
            matchedFilters := matched })
          return some told
      else return none

/-- `scan`, up to the order and the paging of its reply. -/
def scan (analyze : Pair → PaTask Unit) (node : FilterNode) (timeframe : String) :
    PaTask (List Screened) := do
  await (.beginPass .screener)
  let symbols ← await .candidateSymbols
  symbols.foldlM (fun reported symbol => do
    let screened ← screenSymbol (fun _ screened => .ok screened) analyze ⟨symbol, timeframe⟩ node
    return reported ++ screened.toList) []

/-- `_insert_alert`. -/
def insertAlert (definition : AlertDefinition) : PaTask String := do
  let now ← await .hostNow
  await (.insertAlert definition (truncated now))

/-- The seconds of a cooldown that is not negative. -/
def validCooldown (seconds : ℤ) : Except Exc ℕ :=
  if seconds < 0 then reject .invalidRequest "cooldown_seconds must be a non-negative integer"
  else .ok seconds.toNat

/-- The order spec of a new alert, when it has one. -/
def validOrderSpec (spec : Option OrderSpecFields) : Except Exc (Option OrderSpec) :=
  match spec with
  | none => .ok none
  | some fields =>
    match valid : validateOrderSpec fields with
    | .error raised => .error raised
    | .ok () => .ok (some ⟨fields, valid⟩)

/-- `create_alert` with a validated condition. -/
def createAlert (pair : Pair) (condition : FilterNode) (cooldownSeconds : ℤ) (note : Option String)
    (orderSpec : Option OrderSpecFields) : PaTask String := do
  Prog.ofExcept (rejectIf (pair.symbol = "") .invalidRequest "symbol is required (string)")
  Prog.ofExcept (rejectIf (pair.timeframe = "") .invalidRequest "timeframe is required (string)")
  let cooldown ← Prog.ofExcept (validCooldown cooldownSeconds)
  let spec ← Prog.ofExcept (validOrderSpec orderSpec)
  insertAlert ⟨.simple pair condition spec, cooldown, note⟩

/-- `create_composite_alert` with validated conditions. -/
def createCompositeAlert (combine : Combine) (clauses : List Clause) (cooldownSeconds : ℤ)
    (note : Option String) : PaTask String :=
  match clauses with
  | [] => refuse .invalidRequest "at least one clause is required"
  | first :: rest => do
    let cooldown ← Prog.ofExcept (validCooldown cooldownSeconds)
    Prog.ofExcept (rejectIf ((first :: rest).any fun clause =>
      clause.pair.symbol = "" ∨ clause.pair.timeframe = "") .invalidRequest
        "each clause must contain symbol+timeframe+filters")
    insertAlert ⟨.composite combine first rest, cooldown, note⟩

/-- `delete_alert`. -/
def deleteAlert (alertId : String) : PaTask ℕ := do
  Prog.ofExcept (rejectIf (alertId = "") .invalidRequest "alert_id is required (string)")
  let removed ← await (.deleteAlert alertId)
  if removed = 0 then refuse .notFound ("alert not found: " ++ alertId) else return removed

/-- The calls of the price-action layer; the last two stand for the rest of the daemon. -/
inductive PaCall
  | analyze (pair : Pair) (lookback : ℕ)
  | evaluationPass
  | scan (node : FilterNode) (timeframe : String)
  | createAlert (pair : Pair) (condition : FilterNode) (cooldownSeconds : ℤ) (note : Option String)
      (orderSpec : Option OrderSpecFields)
  | createCompositeAlert (combine : Combine) (clauses : List Clause) (cooldownSeconds : ℤ)
      (note : Option String)
  | deleteAlert (alertId : String)
  | feed (change : Feed)
  | settle (orderId : String) (status : PendingStatus) (entry : Option ℚ)

/-- A coroutine whose value is not looked at. -/
def discard {α : Type} (program : PaTask α) : PaTask Unit := program.bind fun _ => .done ()

/-- The program of a call. -/
def PaCall.program (cfg : PaConfig) : PaCall → PaTask Unit
  | .analyze pair lookback => discard (Rasat.analyze cfg cfg.depth pair lookback)
  | .evaluationPass => Rasat.evaluationPass (analyzePair cfg cfg.depth)
  | .scan node timeframe => discard (Rasat.scan (analyzePair cfg cfg.depth) node timeframe)
  | .createAlert pair condition cooldownSeconds note orderSpec =>
    discard (Rasat.createAlert pair condition cooldownSeconds note orderSpec)
  | .createCompositeAlert combine clauses cooldownSeconds note =>
    discard (Rasat.createCompositeAlert combine clauses cooldownSeconds note)
  | .deleteAlert alertId => discard (Rasat.deleteAlert alertId)
  | .feed change => await (.feed change)
  | .settle orderId status entry => await (.settle orderId status entry)

/-- Serve one request of a task; `uuid4` never gives out an id twice. -/
def paPerform (budget : ℕ) (world : PaWorld) (_ : ℕ) (request : PaReq) (choice : PaChoice) :
    Option (Except Exc request.Ans × PaWorld) :=
  if uuidHex choice.uuid ∈ world.minted then none else some (world.serve budget request choice)

/-- The price-action layer of the daemon. -/
def paMachine (cfg : PaConfig) : Machine PaReq PaReq.Ans Exc PaWorld PaChoice PaCall Unit where
  perform := paPerform cfg.budget
  program := PaCall.program cfg
  boot := .done ()
  rebooted := fun world => { world with used := fun _ => 0 }

/-- A state of the price-action layer. -/
abbrev PaState := Sys PaReq PaReq.Ans Exc PaWorld PaCall Unit

end Rasat
