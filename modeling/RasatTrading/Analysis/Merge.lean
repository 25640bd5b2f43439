import RasatTrading.Analysis.Blocks
import RasatTrading.Analysis.Store

/-! The history of zones that `include_mitigated` shows, merged from the stored analyses. -/

namespace Rasat

open PayloadTable

/-- One list of zones in a payload. -/
structure ZoneList (π ζ : Type) where
  zones : π → List ζ
  zoneId : ζ → String
  /-- The opening times and the range that define a zone of an analysed window. -/
  identity : List Candle → ζ → List ℤ × Band

/-- The opening times at places of a window. -/
def timesAt (window : List Candle) (places : List ℕ) : List ℤ :=
  places.filterMap fun place => window[place]?.map Candle.openTime

/-- The zones of equal levels, defined by their swings. -/
def liquidityList : ZoneList LiquidityZones LiquidityZone where
  zones := LiquidityZones.zones
  zoneId := LiquidityZone.zoneId
  identity window zone :=
    (((detectStructure window).swings.filter fun swing =>
      swing.kind = zone.kind ∧ zone.range.low ≤ swing.price ∧ swing.price ≤ zone.range.high).map
        Swing.time, zone.range)

/-- The order blocks, defined by their event and their candle. -/
def orderBlockList : ZoneList OrderBlocks OrderBlock where
  zones := OrderBlocks.orderBlocks
  zoneId := OrderBlock.zoneId
  identity window block := (timesAt window [block.eventIndex, block.candleIndex], block.range)

/-- The gaps, defined by the candles around them. -/
def fvgList : ZoneList OrderBlocks FairValueGap where
  zones := OrderBlocks.fvgs
  zoneId := FairValueGap.zoneId
  identity window gap := (timesAt window [gap.formedAt - 2, gap.formedAt], gap.range)

/-- A zone as a stored row holds it. -/
abbrev StoredZone (π ζ : Type) := PayloadRow π × ζ

namespace ZoneList

variable {π ζ : Type} (list : ZoneList π ζ)

/-- The zones of some rows, one row after the other. -/
def held (rows : List (PayloadRow π)) : List (StoredZone π ζ) :=
  rows.flatMap fun row => (list.zones row.payload).map fun zone => (row, zone)

/-- `_merged_zones`, from the rows in the order in which `_read_history` returns them: the zones by
their ids, each as it was read last. -/
def mergedZones (rows : List (PayloadRow π)) : List ζ :=
  (Keyed.Table.empty.upsertAll (rows.flatMap fun row => list.zones row.payload) :
    Keyed.Table list.zoneId).rows

/-- The same with the rows that the zones come from. -/
def merged (rows : List (PayloadRow π)) : List (StoredZone π ζ) :=
  (Keyed.Table.empty.upsertAll (list.held rows) :
    Keyed.Table fun entry : StoredZone π ζ => list.zoneId entry.2).rows

end ZoneList

/-- The rows of a pair as `_read_history` may return them: it orders them by their bars only. -/
structure HistoryRead {π : Type} (table : PayloadTable π) (pair : Pair) (rows : List (PayloadRow π)) :
    Prop where
  complete : rows.Perm (table.ofPair pair)
  ordered : rows.Pairwise fun row later => row.effectiveFrom ≤ later.effectiveFrom

/-- One analysis: the closed candles and the futures context that it read. -/
structure Analysis where
  pair : Pair
  window : List Candle
  futures : FuturesContext
  now : ℤ
  enough : 2 * swingLookback + 1 ≤ window.length

namespace Analysis

/-- The bar of an analysis. -/
def asOf (analysis : Analysis) : ℤ := (analysis.window.getLast?.map Candle.openTime).getD 0

/-- The structure that an analysis finds. -/
def marketStructure (analysis : Analysis) : MarketStructure := detectStructure analysis.window

/-- The zones of an analysis as `liquidity_zones` stores them. -/
def liquidityCall (general8 : ℚ → String) (analysis : Analysis) : StoreCall LiquidityZones where
  pair := analysis.pair
  algoVersion := liquidityAlgoVersion
  effectiveFrom := analysis.asOf
  payload := computeLiquidityZones general8 analysis.window analysis.marketStructure analysis.futures
  now := analysis.now

/-- The zones of an analysis as `order_blocks` stores them. -/
def blocksCall (analysis : Analysis) : StoreCall OrderBlocks where
  pair := analysis.pair
  algoVersion := obfvgAlgoVersion
  effectiveFrom := analysis.asOf
  payload := computeOrderBlocks analysis.window analysis.marketStructure
  now := analysis.now

end Analysis

/-- A table with the windows that its rows were computed from. -/
structure Traced (π : Type) where
  table : PayloadTable π := .empty
  window : ℕ → List Candle := fun _ => []

/-- Store an analysis, and note the window of the row that it inserts, if it inserts one. -/
def Traced.store {π : Type} [DecidableEq π] (call : Analysis → StoreCall π) (traced : Traced π)
    (analysis : Analysis) : Traced π :=
  let table := traced.table.storePayload (call analysis)
  { table := table
    window := if table.sequence = traced.table.sequence then traced.window
      else Function.update traced.window table.sequence analysis.window }

/-- The analyses of a history, stored one after the other. -/
def tracedHistory {π : Type} [DecidableEq π] (call : Analysis → StoreCall π)
    (history : List Analysis) : Traced π := history.foldl (Traced.store call) {}

end Rasat
