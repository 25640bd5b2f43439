import Mathlib.Data.List.Sort
import RasatTrading.Analysis.Structure
import RasatTrading.Rounding.Arithmetic

/-! Liquidity zones at equal highs and lows, and the score with its futures inputs. -/

namespace Rasat

open Rounding

/-- The version of the liquidity rules. -/
def liquidityAlgoVersion : String := "liquidity-v1"

/-- Levels this close, in percent, are equal. -/
def equalLevelTolerancePct : ℚ := Magnitude.rounded (5 / 100)

/-- How far, in percent, a level has to be exceeded for a sweep. -/
def sweepExceedPct : ℚ := 0

/-- The range of a zone. -/
structure Band where
  low : ℚ
  high : ℚ
  deriving DecidableEq, Repr

/-- One liquidity zone; its kind tells which swings it is made of. -/
structure LiquidityZone where
  zoneId : String
  kind : SwingKind
  range : Band
  swingCount : ℕ
  formedAt : ℕ
  sweptAt : Option ℕ := none
  sweptAtTime : Option ℤ := none
  mitigated : Bool := false
  tested : Bool := false
  deriving DecidableEq, Repr

/-- The name of the zones of a kind. -/
def zoneKindName : SwingKind → String
  | .high => "equal_highs"
  | .low => "equal_lows"

/-- The mean price of a cluster; each operation rounds to a float, and so does the number of the swings. -/
def clusterMid (cluster : List Swing) : Extended :=
  (Extended.sum ((cluster.map Swing.price).map .finite)).div (.round cluster.length)

/-- Whether a swing is close enough to the mean of a cluster. -/
def closeTo (tolerancePct : ℚ) (swing : Swing) (cluster : List Swing) : Bool :=
  let mid := clusterMid cluster
  ((Extended.finite swing.price).sub mid).abs.le ((mid.mul (.finite tolerancePct)).div (.finite 100))

/-- Put a swing into the first cluster that it is close to. -/
def placeSwing (tolerancePct : ℚ) (swing : Swing) : List (List Swing) → List (List Swing)
  | [] => [[swing]]
  | cluster :: rest =>
    if closeTo tolerancePct swing cluster then (cluster ++ [swing]) :: rest
    else cluster :: placeSwing tolerancePct swing rest

/-- `_cluster_swings`. -/
def clusterSwings (swings : List Swing) (kind : SwingKind) (tolerancePct : ℚ) : List (List Swing) :=
  let items := (swings.filter fun swing => swing.kind = kind).insertionSort fun a b => a.price ≤ b.price
  let clusters := items.foldl (fun clusters swing => placeSwing tolerancePct swing clusters) []
  clusters.filter fun cluster => 2 ≤ cluster.length

/-- The least and the greatest of some numbers. -/
def bandOf (prices : List ℚ) : Band :=
  match prices with
  | [] => ⟨0, 0⟩
  | first :: rest => ⟨rest.foldl min first, rest.foldl max first⟩

/-- `_make_zone`, with the rendering of a price in eight significant digits. -/
def makeZone (general8 : ℚ → String) (cluster : List Swing) (kind : SwingKind) : LiquidityZone :=
  let band := bandOf (cluster.map Swing.price)
  { zoneId := zoneKindName kind ++ ":" ++ general8 band.low ++ ":" ++ general8 band.high
    kind := kind
    range := band
    swingCount := cluster.length
    formedAt := (cluster.map Swing.index).foldl max 0 }

/-- What one bar after its formation does to a zone. -/
def LiquidityZone.mark (zone : LiquidityZone) (i : ℕ) (candle : Candle) : LiquidityZone :=
  let exceed := 1 + sweepExceedPct / 100
  match zone.kind with
  | .high =>
    let swept :=
      if zone.sweptAt = none ∧ candle.high > zone.range.high * exceed then
        { zone with sweptAt := some i, sweptAtTime := some candle.openTime, mitigated := true }
      else zone
    if candle.high ≥ zone.range.low then { swept with tested := true } else swept
  | .low =>
    let swept :=
      if zone.sweptAt = none ∧ candle.low < zone.range.low * (1 / exceed) then
        { zone with sweptAt := some i, sweptAtTime := some candle.openTime, mitigated := true }
      else zone
    if candle.low ≤ zone.range.high then { swept with tested := true } else swept

/-- Walk along the bars from a place on. -/
def walkFrom {σ : Type} (step : σ → ℕ → Candle → σ) (state : σ) (i : ℕ) : List Candle → σ
  | [] => state
  | candle :: rest => walkFrom step (step state i candle) (i + 1) rest

/-- `_mark_status`. -/
def markStatus (zone : LiquidityZone) (candles : List Candle) : LiquidityZone :=
  walkFrom LiquidityZone.mark zone (zone.formedAt + 1) (candles.drop (zone.formedAt + 1))

/-- One record of `futures_context`. -/
structure FuturesRecord where
  symbol : String
  type : String
  value : Option ℚ
  eventTime : ℤ
  freshness : String
  fetchedAt : ℤ
  deriving DecidableEq, Repr

/-- The newest record of each type that there is one of. -/
structure FuturesContext where
  openInterest : Option FuturesRecord := none
  fundingRate : Option FuturesRecord := none
  liquidation : Option FuturesRecord := none
  deriving DecidableEq, Repr

/-- The part of the equal levels in the score. -/
structure EqualLevels where
  zones : ℕ
  activeZones : ℕ
  mitigatedZones : ℕ
  note : String
  points : Extended
  deriving DecidableEq, Repr

/-- The part of a futures input in the score. -/
structure ScoreComponent where
  status : String
  included : Bool
  points : Extended
  value : Option ℚ := none
  note : Option String := none
  bias : Option String := none
  deriving DecidableEq, Repr

/-- What `liquidity_score` returns. -/
structure LiquidityScore where
  score : Extended
  equalLevels : EqualLevels
  openInterest : ScoreComponent
  fundingRate : ScoreComponent
  liquidation : ScoreComponent
  futuresAvailable : Bool
  fundingBias : Option String
  algoVersion : String
  deriving DecidableEq, Repr

/-- A positive open interest counts in full. -/
def normOpenInterest (value : ℚ) : Extended := if 0 < value then .finite 1 else .finite 0

/-- `_norm_funding`. -/
def normFunding (rate : ℚ) : Extended :=
  ((Extended.finite rate).abs.div (.finite (Magnitude.rounded (1 / 1000)))).least (.finite 1)

/-- `_norm_liquidation`. -/
def normLiquidation (count : ℚ) : Extended :=
  (((Extended.finite count).greatest (.finite 0)).least (.finite 5)).div (.finite 5)

/-- One futures input of the score: only a fresh record contributes. -/
def scoreComponent (weight : ℚ) (norm : ℚ → Extended) (biased : Bool) : Option FuturesRecord → ScoreComponent
  | none => { status := "unknown", included := false, points := .finite 0, note := some "data unavailable" }
  | some item =>
    if item.freshness ≠ "fresh" then
      { status := item.freshness, included := false, points := .finite 0, note := some "excluded from score" }
    else
      { status := "fresh"
        included := true
        points := Extended.roundTo 1
          (item.value.elim (.finite 0) fun value => (Extended.finite weight).mul (norm value))
        value := item.value
        bias := if biased then
          item.value.map fun value => if 0 ≤ value then "long_crowded" else "short_crowded"
          else none }

/-- `liquidity_score`. -/
def liquidityScore (zones : List LiquidityZone) (futures : FuturesContext) : LiquidityScore :=
  let mitigated := zones.countP LiquidityZone.mitigated
  let active := zones.length - mitigated
  let equalLevels : EqualLevels := {
    zones := zones.length
    activeZones := active
    mitigatedZones := mitigated
    note := "equal-level zone count is " ++ toString zones.length ++ "; " ++ toString active ++
      " active (unmitigated), " ++ toString mitigated ++
      " mitigated — only active zones appear in the default list; points are based on active zone count"
    points := (((Extended.finite (min active 10)).div (.finite 10)).mul (.finite 40)).roundTo 1 }
  let openInterest := scoreComponent 35 normOpenInterest false futures.openInterest
  let fundingRate := scoreComponent 15 normFunding true futures.fundingRate
  let liquidation := scoreComponent 10 normLiquidation false futures.liquidation
  { score := (Extended.sum
      [equalLevels.points, openInterest.points, fundingRate.points, liquidation.points]).roundTo 1
    equalLevels := equalLevels
    openInterest := openInterest
    fundingRate := fundingRate
    liquidation := liquidation
    futuresAvailable := openInterest.included || fundingRate.included || liquidation.included
    fundingBias := fundingRate.bias
    algoVersion := liquidityAlgoVersion }

/-- What `compute_liquidity_zones` returns. -/
structure LiquidityZones where
  algoVersion : String
  zones : List LiquidityZone
  score : LiquidityScore
  deriving DecidableEq, Repr

/-- The zones of one kind. -/
def zonesOfKind (general8 : ℚ → String) (candles : List Candle) (swings : List Swing)
    (tolerancePct : ℚ) (kind : SwingKind) : List LiquidityZone :=
  (clusterSwings swings kind tolerancePct).map fun cluster =>
    markStatus (makeZone general8 cluster kind) candles

/-- `compute_liquidity_zones`. -/
def computeLiquidityZones (general8 : ℚ → String) (candles : List Candle) (marketStructure : MarketStructure)
    (futures : FuturesContext) (algoVersion : String := liquidityAlgoVersion)
    (tolerancePct : ℚ := equalLevelTolerancePct) : LiquidityZones :=
  let zones := zonesOfKind general8 candles marketStructure.swings tolerancePct .high ++
    zonesOfKind general8 candles marketStructure.swings tolerancePct .low
  { algoVersion := algoVersion
    zones := zones
    score := liquidityScore zones futures }

end Rasat
