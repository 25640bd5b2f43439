import RasatTrading.Analysis.Liquidity

/-! Order blocks and fair value gaps. -/

namespace Rasat

/-- The version of the order-block rules. -/
def obfvgAlgoVersion : String := "obfvg-v1"

/-- Gaps below this percentage of the price make no zone. -/
def fvgMinGapPct : ℚ := 0

/-- Order blocks this close, in percent, are one zone. -/
def obDedupTolerancePct : ℚ := 5 / 100

inductive BlockType
  | orderBlock | mitigationBlock | breaker
  deriving DecidableEq, Repr

/-- One order block: the last opposite candle before an event. -/
structure OrderBlock where
  zoneId : String
  zoneType : BlockType := .orderBlock
  direction : Direction
  range : Band
  eventIndex : ℕ
  candleIndex : ℕ
  formedAt : ℕ
  mitigated : Bool := false
  deriving DecidableEq, Repr

/-- One fair value gap, formed by the third of its candles. -/
structure FairValueGap where
  zoneId : String
  direction : Direction
  range : Band
  formedAt : ℕ
  mitigated : Bool := false
  deriving DecidableEq, Repr

/-- `_last_opposite_candle`. -/
def lastOppositeCandle (candles : List Candle) (wantRed : Bool) : ℕ → Option (ℕ × Candle)
  | 0 => none
  | i + 1 =>
    match candles[i]? with
    | some candle =>
      if decide (candle.close < candle.open) = wantRed then some (i, candle)
      else lastOppositeCandle candles wantRed i
    | none => lastOppositeCandle candles wantRed i

/-- What one bar after its event does to an order block, until it is broken. -/
def OrderBlock.mark (zone : OrderBlock) (candle : Candle) : OrderBlock :=
  match zone.direction with
  | .bullish =>
    if candle.close < zone.range.low then { zone with zoneType := .breaker, mitigated := true }
    else if ¬zone.mitigated ∧ candle.low ≤ zone.range.high then
      { zone with mitigated := true, zoneType := .mitigationBlock }
    else zone
  | .bearish =>
    if candle.close > zone.range.high then { zone with zoneType := .breaker, mitigated := true }
    else if ¬zone.mitigated ∧ candle.high ≥ zone.range.low then
      { zone with mitigated := true, zoneType := .mitigationBlock }
    else zone

/-- `_mark_order_block`. -/
def markOrderBlock (zone : OrderBlock) (candles : List Candle) : OrderBlock :=
  (candles.drop (zone.eventIndex + 1)).foldl
    (fun zone candle => if zone.zoneType = .breaker then zone else zone.mark candle) zone

/-- `_mark_fvg`. -/
def markFvg (zone : FairValueGap) (candles : List Candle) : FairValueGap :=
  let entered := (candles.drop (zone.formedAt + 1)).any fun candle =>
    match zone.direction with
    | .bullish => candle.low ≤ zone.range.high
    | .bearish => candle.high ≥ zone.range.low
  { zone with mitigated := entered }

/-- The gap between the first and the third of three candles. -/
def gapOf (first third : Candle) : Option (Band × Direction) :=
  if first.high < third.low then some (⟨first.high, third.low⟩, .bullish)
  else if first.low > third.high then some (⟨third.high, first.low⟩, .bearish)
  else none

/-- The gap that begins at a place. -/
def fvgAt (candles : List Candle) (minGapPct : ℚ) (i : ℕ) : Option FairValueGap := do
  let first ← candles[i]?
  let third ← candles[i + 2]?
  let (band, direction) ← gapOf first third
  let ref := (first.high + first.low) / 2
  if 0 < ref ∧ (band.high - band.low) / ref * 100 < minGapPct then none
  else
    some (markFvg {
      zoneId := "fvg:" ++ toString i ++ ":" ++ toString (i + 2)
      direction := direction
      range := band
      formedAt := i + 2 } candles)

/-- `_compute_fvgs`. -/
def computeFvgs (candles : List Candle) (minGapPct : ℚ) : List FairValueGap :=
  (List.range (candles.length - 2)).filterMap (fvgAt candles minGapPct)

/-- Whether an order block lies where another one of its direction does. -/
def OrderBlock.near (block kept : OrderBlock) (tolerancePct : ℚ) : Bool :=
  let tolerance := (block.range.low + block.range.high) / 2 * tolerancePct / 100
  kept.direction = block.direction ∧
    ¬(block.range.high + tolerance < kept.range.low ∨ kept.range.high + tolerance < block.range.low)

/-- `_dedup_order_blocks`. -/
def dedupOrderBlocks (blocks : List OrderBlock) (tolerancePct : ℚ) : List OrderBlock :=
  blocks.foldl (fun kept block =>
    if kept.any fun other => block.near other tolerancePct then kept else kept ++ [block]) []

/-- The order block of an event. -/
def orderBlockOf (candles : List Candle) (event : StructureEvent) : Option OrderBlock :=
  let direction : Direction :=
    if event.type = .bosBullish ∨ event.type = .chochBullish then .bullish else .bearish
  (lastOppositeCandle candles (direction = .bullish) event.index).map fun (index, candle) =>
    markOrderBlock {
      zoneId := "ob:" ++ toString event.index ++ ":" ++ toString index
      direction := direction
      range := ⟨candle.low, candle.high⟩
      eventIndex := event.index
      candleIndex := index
      formedAt := index } candles

/-- What `compute_order_blocks` returns. -/
structure OrderBlocks where
  algoVersion : String
  orderBlocks : List OrderBlock
  fvgs : List FairValueGap
  deriving DecidableEq, Repr

/-- `compute_order_blocks`. -/
def computeOrderBlocks (candles : List Candle) (marketStructure : MarketStructure)
    (algoVersion : String := obfvgAlgoVersion) (minGapPct : ℚ := fvgMinGapPct)
    (dedupTolerancePct : ℚ := obDedupTolerancePct) : OrderBlocks where
  algoVersion := algoVersion
  orderBlocks := dedupOrderBlocks (marketStructure.events.filterMap (orderBlockOf candles)) dedupTolerancePct
  fvgs := computeFvgs candles minGapPct

end Rasat
