import RasatTrading.Data.Candles
import RasatTrading.Sizing

/-! Swings and breaks of structure in closed candles. -/

namespace Rasat

/-- The version of the swing rules. -/
def swingAlgoVersion : String := "swing-v1"

/-- Half of the fractal window. -/
def swingLookback : ℕ := 2

inductive SwingKind
  | high | low
  deriving DecidableEq, Repr

inductive SwingLabel
  | hh | lh | hl | ll
  deriving DecidableEq, Repr

inductive Trend
  | up | down
  deriving DecidableEq, Repr

inductive Direction
  | bullish | bearish
  deriving DecidableEq, Repr

inductive EventType
  | bosBullish | bosBearish | chochBullish | chochBearish
  deriving DecidableEq, Repr

/-- A swing high or low, by its place in the window. -/
structure Swing where
  index : ℕ
  time : ℤ
  kind : SwingKind
  price : ℚ
  label : Option SwingLabel
  deriving DecidableEq, Repr

/-- A close that crossed the level of the last swing. -/
structure StructureEvent where
  index : ℕ
  time : ℤ
  type : EventType
  level : ℚ
  direction : Direction
  deriving DecidableEq, Repr

/-- What `detect_structure` returns. -/
structure MarketStructure where
  algoVersion : String
  trend : Option Trend
  swings : List Swing
  events : List StructureEvent
  deriving DecidableEq, Repr

/-- The value at a place in the middle of a window, when it beats all others there. -/
def fractal (beats : ℚ → ℚ → Bool) (values : List ℚ) (lookback i : ℕ) : Option ℚ :=
  let window := (values.drop (i - lookback)).take (2 * lookback + 1)
  values[i]?.filter fun value =>
    (window.take lookback).all (beats value) && (window.drop (lookback + 1)).all (beats value)

/-- `detect_swings`. -/
def detectSwings (highs lows : List ℚ) (lookback : ℕ := swingLookback) : List (ℕ × SwingKind × ℚ) :=
  if highs.length < 2 * lookback + 1 then []
  else
    (List.range' lookback (highs.length - 2 * lookback)).flatMap fun i =>
      ((fractal (fun value other => other < value) highs lookback i).toList.map fun price =>
          (i, .high, price)) ++
        (fractal (fun value other => value < other) lows lookback i).toList.map fun price =>
          (i, .low, price)

/-- The walk of `detect_structure` along the bars. -/
structure Walk where
  lastHigh : Option ℚ := none
  lastLow : Option ℚ := none
  prevHigh : Option ℚ := none
  prevLow : Option ℚ := none
  trend : Option Trend := none
  firstKind : Option SwingKind := none
  swings : List Swing := []
  events : List StructureEvent := []
  deriving DecidableEq, Repr

namespace Walk

/-- The close breaks the last swing high or low. -/
def breaks (walk : Walk) (b : ℕ) (time : ℤ) (prevClose close : ℚ) : Walk :=
  match walk.lastHigh, walk.lastLow with
  | some lastHigh, some lastLow =>
    if close > lastHigh ∧ prevClose ≤ lastHigh then
      if walk.trend = some .down then
        { walk with
          events := walk.events ++ [⟨b, time, .chochBullish, lastHigh, .bullish⟩]
          trend := some .up }
      else { walk with events := walk.events ++ [⟨b, time, .bosBullish, lastHigh, .bullish⟩] }
    else if close < lastLow ∧ prevClose ≥ lastLow then
      if walk.trend = some .up then
        { walk with
          events := walk.events ++ [⟨b, time, .chochBearish, lastLow, .bearish⟩]
          trend := some .down }
      else { walk with events := walk.events ++ [⟨b, time, .bosBearish, lastLow, .bearish⟩] }
    else walk
  | _, _ => walk

/-- The label of a swing, from the last one of its kind. -/
def label (above below : SwingLabel) (price : ℚ) (previous : Option ℚ) : Option SwingLabel :=
  previous.map fun previous => if price > previous then above else below

/-- A pivot on this bar updates the levels. -/
def pivot (time : ℤ) (walk : Walk) (pivot : ℕ × SwingKind × ℚ) : Walk :=
  let (index, kind, price) := pivot
  let firstKind := walk.firstKind <|> some kind
  match kind with
  | .high =>
    { walk with
      firstKind := firstKind
      prevHigh := some price
      lastHigh := some price
      swings := walk.swings ++ [⟨index, time, .high, price, label .hh .lh price walk.prevHigh⟩] }
  | .low =>
    { walk with
      firstKind := firstKind
      prevLow := some price
      lastLow := some price
      swings := walk.swings ++ [⟨index, time, .low, price, label .hl .ll price walk.prevLow⟩] }

/-- The first two pivots tell the trend. -/
def initial (walk : Walk) : Walk :=
  match walk.trend, walk.firstKind, walk.lastHigh, walk.lastLow with
  | none, some kind, some _, some _ =>
    { walk with trend := some (if kind = .high then .down else .up) }
  | _, _, _, _ => walk

/-- One bar: breaks of the levels before it, then its own pivots. -/
def bar (pivots : List (ℕ × SwingKind × ℚ)) (walk : Walk) (b : ℕ) (prevClose : Option ℚ)
    (candle : Candle) : Walk :=
  let broken := prevClose.elim walk fun prevClose =>
    walk.breaks b candle.openTime prevClose candle.close
  ((pivots.filter fun pivot => pivot.1 = b).foldl (pivot candle.openTime) broken).initial

/-- The bars from a place on, with the close before them. -/
def bars (pivots : List (ℕ × SwingKind × ℚ)) (walk : Walk) (b : ℕ) (prevClose : Option ℚ) :
    List Candle → Walk
  | [] => walk
  | candle :: rest =>
    (walk.bar pivots b prevClose candle).bars pivots (b + 1) (some candle.close) rest

end Walk

/-- `detect_structure`. -/
def detectStructure (candles : List Candle) (lookback : ℕ := swingLookback)
    (algoVersion : String := swingAlgoVersion) : MarketStructure :=
  let pivots := detectSwings (candles.map Candle.high) (candles.map Candle.low) lookback
  let walk := ({} : Walk).bars pivots 0 none candles
  { algoVersion := algoVersion
    trend := walk.trend
    swings := walk.swings
    events := walk.events }

end Rasat
