import Mathlib.Data.PNat.Defs
import RasatTrading.Analysis.Blocks
import RasatTrading.Ascending

/-! The filters of the screener and of the alerts, and their evaluation in a context. -/

namespace Rasat

open Ascending Rounding

/-- What the filters are evaluated in. -/
structure Context where
  candles : List Candle
  close : Option ℚ
  asOf : ℤ
  marketStructure : Option MarketStructure := none
  liquidityZones : List LiquidityZone := []
  orderBlocks : List OrderBlock := []
  vwap : Option ℚ := none
  fundingRate : Option FuturesRecord := none
  oiSeries : List FuturesRecord := []
  deriving DecidableEq, Repr

/-- An accepted range; either end may be open, and an end may be no finite number. -/
structure Bounds where
  min : Option Extended := none
  max : Option Extended := none
  ordered : ∀ low ∈ min, ∀ high ∈ max, high.lt low = false := by simp

/-- The side of the volume-weighted price. -/
inductive Position
  | above | below
  deriving DecidableEq, Repr

/-- An accepted distance, in percent; it need not be a finite number. -/
abbrev Distance := { limit : Extended // limit.lt (.finite 0) = false }

/-- A leaf of a validated filter, its defaults filled in. -/
inductive FilterTest
  | volumeChange (recentBars baselineBars : ℕ+) (bounds : Bounds)
  | priceChange (windowBars : ℕ+) (bounds : Bounds)
  | structureEvent (event : EventType) (sinceBars : ℕ+)
  | liquiditySweepOccurred (sinceBars : ℕ+)
  | nearOrderBlock (maxDistancePct : Distance)
  | fundingRate (bounds : Bounds)
  | oiChange (window : ℕ+) (bounds : Bounds)
  | aboveBelowVwap (position : Position)

/-- A validated filter; an inner node has at least one child. -/
inductive FilterNode
  | leaf (test : FilterTest)
  | and (first : FilterNode) (rest : List FilterNode)
  | or (first : FilterNode) (rest : List FilterNode)

/-- An index behind the end of a list. -/
def indexError : Exc := .other "list index out of range"

/-- Arithmetic on an absent price. -/
def typeError : Exc := .other "unsupported operand type(s) for -: 'NoneType' and 'float'"

/-- A comparison with an absent price. -/
def comparisonError (operator : String) : Exc :=
  .other ("'" ++ operator ++ "' not supported between instances of 'NoneType' and 'float'")

/-- A division by a zero price. -/
def zeroDivisionError : Exc := .other "float division by zero"

/-- `_between`. -/
def between (value : Option ℚ) (bounds : Bounds) : Bool :=
  value.any fun value =>
    -- A limit rejects what lies beyond it, so that a limit that compares with nothing rejects nothing.
    bounds.min.all (fun low => !(Extended.finite value).lt low) &&
      bounds.max.all (fun high => !high.lt (.finite value))

/-- The change from a base to a later value, in percent. -/
def changePct (latest base : ℚ) : ℚ := (latest / base - 1) * 100

/-- `_price_change_pct`. -/
def priceChangePct (ctx : Context) (windowBars : ℕ) : Option ℚ :=
  match lastOf (windowBars + 1) (ctx.candles.map Candle.close) with
  | [] => none
  | base :: later =>
    -- A shorter series has fewer bars than the window and its base.
    if later.length < windowBars ∨ base = 0 then none
    else later.getLast?.map fun latest => changePct latest base

/-- `_volume_change_pct`. -/
def volumeChangePct (ctx : Context) (recentBars baselineBars : ℕ) : Option ℚ :=
  let volumes := ctx.candles.map Candle.volume
  if volumes.length < recentBars + baselineBars then none
  else
    let recentSum := (lastOf recentBars volumes).sum
    let baseSum := ((lastOf (recentBars + baselineBars) volumes).take baselineBars).sum
    if baseSum ≤ 0 then none else some (changePct recentSum baseSum)

/-- `_oi_change_pct`. -/
def oiChangePct (ctx : Context) (window : ℕ) : Option ℚ :=
  let fresh := ctx.oiSeries.filter fun record => record.freshness = "fresh"
  match lastOf (window + 1) fresh with
  | [] => none
  | base :: later =>
    if later.length < window then none
    else do
      let latest ← (← later.getLast?).value
      let base ← base.value
      if latest = 0 ∨ base = 0 then none else some (changePct latest base)

/-- The opening time of the oldest of the last bars. -/
def cutoff (candles : List Candle) (since : ℕ) : Except Exc ℤ :=
  match candles[candles.length - since]? with
  | some candle => .ok candle.openTime
  | none => .error indexError

/-- `_eval_structure_event`. -/
def evalStructureEvent (event : EventType) (since : ℕ) (ctx : Context) : Except Exc Bool :=
  match ctx.marketStructure with
  | none => .ok false
  | some found => do
    let cut ← cutoff ctx.candles since
    return found.events.any fun other => other.type = event ∧ cut ≤ other.time

/-- A zone that was swept in the last bars. -/
def LiquidityZone.sweptSince (zone : LiquidityZone) (cut : ℤ) (firstIndex : ℤ) : Bool :=
  zone.mitigated &&
    match zone.sweptAtTime with
    | some time => cut ≤ time
    -- A zone without the time of its sweep has the place of it.
    | none => zone.sweptAt.any fun place => firstIndex ≤ place

/-- `_eval_liquidity_sweep`. -/
def evalLiquiditySweep (since : ℕ) (ctx : Context) : Except Exc Bool :=
  if ctx.liquidityZones = [] then .ok false
  else do
    let cut ← cutoff ctx.candles since
    return ctx.liquidityZones.any fun zone => zone.sweptSince cut (ctx.candles.length - since)

/-- How far a price is from the nearer edge of a block, in percent of the price; each operation rounds to a float. -/
def OrderBlock.distancePct (block : OrderBlock) (close : ℚ) : Extended :=
  let low := ((Extended.finite close).sub (.finite block.range.low)).abs
  let high := ((Extended.finite close).sub (.finite block.range.high)).abs
  ((low.least high).div (.finite close)).mul (.finite 100)

/-- `_eval_near_order_block`: a block that is mitigated is not looked at. -/
def evalNearOrderBlock (maxDistancePct : Extended) (ctx : Context) : Except Exc Bool :=
  let active := ctx.orderBlocks.filter fun block => ¬block.mitigated
  if active = [] then .ok false
  else
    match ctx.close with
    | none => .error typeError
    | some close =>
      if close = 0 then .error zeroDivisionError
      else .ok (active.any fun block => (block.distancePct close).le maxDistancePct)

/-- `_eval_funding_rate`. -/
def evalFundingRate (bounds : Bounds) (ctx : Context) : Bool :=
  ctx.fundingRate.any fun record => record.freshness = "fresh" && between record.value bounds

/-- `_eval_above_below_vwap`. -/
def evalAboveBelowVwap (position : Position) (ctx : Context) : Except Exc Bool :=
  match ctx.vwap, ctx.close, position with
  | none, _, _ => .ok false
  | some _, none, .above => .error (comparisonError ">")
  | some _, none, .below => .error (comparisonError "<")
  | some vwap, some close, .above => .ok (vwap < close)
  | some vwap, some close, .below => .ok (close < vwap)

/-- `FILTER_FNS`. -/
def FilterTest.eval (ctx : Context) : FilterTest → Except Exc Bool
  | .volumeChange recentBars baselineBars bounds =>
    .ok (between (volumeChangePct ctx recentBars baselineBars) bounds)
  | .priceChange windowBars bounds => .ok (between (priceChangePct ctx windowBars) bounds)
  | .structureEvent event sinceBars => evalStructureEvent event sinceBars ctx
  | .liquiditySweepOccurred sinceBars => evalLiquiditySweep sinceBars ctx
  | .nearOrderBlock maxDistancePct => evalNearOrderBlock maxDistancePct ctx
  | .fundingRate bounds => .ok (evalFundingRate bounds ctx)
  | .oiChange window bounds => .ok (between (oiChangePct ctx window) bounds)
  | .aboveBelowVwap position => evalAboveBelowVwap position ctx

mutual

/-- `_eval_node`. -/
def evalNode (ctx : Context) : FilterNode → Except Exc Bool
  | .leaf test => test.eval ctx
  | .and first rest => do if ← evalNode ctx first then evalAll ctx rest else return false
  | .or first rest => do if ← evalNode ctx first then return true else evalAny ctx rest

/-- All of some nodes, up to the first that fails. -/
def evalAll (ctx : Context) : List FilterNode → Except Exc Bool
  | [] => .ok true
  | node :: rest => do if ← evalNode ctx node then evalAll ctx rest else return false

/-- Any of some nodes, up to the first that holds. -/
def evalAny (ctx : Context) : List FilterNode → Except Exc Bool
  | [] => .ok false
  | node :: rest => do if ← evalNode ctx node then return true else evalAny ctx rest

end

mutual

/-- `_eval_with_matches`. -/
def evalWithMatches (ctx : Context) : FilterNode → Except Exc (Bool × List FilterTest)
  | .leaf test => do if ← test.eval ctx then return (true, [test]) else return (false, [])
  | .and first rest => do
    let (ok, found) ← evalWithMatches ctx first
    if ok then matchAll ctx found rest else return (false, [])
  | .or first rest => do
    let (ok, found) ← evalWithMatches ctx first
    let matched ← matchAny ctx (if ok then found else []) rest
    return (!matched.isEmpty, matched)

/-- The matches of all of some nodes, behind the ones found before. -/
def matchAll (ctx : Context) (matched : List FilterTest) :
    List FilterNode → Except Exc (Bool × List FilterTest)
  | [] => .ok (true, matched)
  | node :: rest => do
    let (ok, found) ← evalWithMatches ctx node
    if ok then matchAll ctx (matched ++ found) rest else return (false, [])

/-- The matches of those nodes that hold; every node is evaluated. -/
def matchAny (ctx : Context) (matched : List FilterTest) :
    List FilterNode → Except Exc (List FilterTest)
  | [] => .ok matched
  | node :: rest => do
    let (ok, found) ← evalWithMatches ctx node
    matchAny ctx (if ok then matched ++ found else matched) rest

end

mutual

/-- The leaves of a node, from left to right. -/
def FilterNode.tests : FilterNode → List FilterTest
  | .leaf test => [test]
  | .and first rest | .or first rest => first.tests ++ FilterNode.allTests rest

def FilterNode.allTests : List FilterNode → List FilterTest
  | [] => []
  | node :: rest => node.tests ++ FilterNode.allTests rest

end

/-- `ANALYSIS_FILTERS`. -/
def FilterTest.needsAnalysis : FilterTest → Bool
  | .volumeChange _ _ _ | .priceChange _ _ => false
  | _ => true

def FilterTest.usesOi : FilterTest → Bool
  | .oiChange _ _ => true
  | _ => false

/-- No bounds. -/
def Bounds.free : Bounds := {}

/-- A window of one bar. -/
def oneBar : ℕ+ := ⟨1, Nat.one_pos⟩

/-- A condition without bounds on the price. -/
def anyPrice : FilterNode := .leaf (.priceChange oneBar .free)

end Rasat
