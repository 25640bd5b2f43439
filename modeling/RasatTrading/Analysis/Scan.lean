import RasatTrading.Analysis.Services

/-! The reply of a scan: the summaries of its matches, their order and the page that is shown. -/

namespace Rasat

open Coop Rounding Ascending

/-- How the numbers of a summary are written. -/
structure SummaryText where
  /-- A float with two decimals. -/
  fixed2 : Extended → String
  /-- A number with two decimals and its sign. -/
  signed2 : ℚ → String
  /-- `repr` of a float. -/
  repr : ℚ → String
  /-- `str` of a threshold. -/
  number : Extended → String

def EventType.name : EventType → String
  | .bosBullish => "bos_bullish"
  | .bosBearish => "bos_bearish"
  | .chochBullish => "choch_bullish"
  | .chochBearish => "choch_bearish"

def Position.name : Position → String
  | .above => "above"
  | .below => "below"

/-- The name of the type of a leaf. -/
def FilterTest.typeName : FilterTest → String
  | .volumeChange _ _ _ => "volume_change"
  | .priceChange _ _ => "price_change"
  | .structureEvent _ _ => "structure_event"
  | .liquiditySweepOccurred _ => "liquidity_sweep_occurred"
  | .nearOrderBlock _ => "near_order_block"
  | .fundingRate _ => "funding_rate"
  | .oiChange _ _ => "oi_change"
  | .aboveBelowVwap _ => "above_below_vwap"

/-- The least distance of a block that is not mitigated. -/
def nearestBlock (ctx : Context) : Except Exc (Option Extended) :=
  let active := ctx.orderBlocks.filter fun block => ¬block.mitigated
  if active = [] then .ok none
  else
    match ctx.close with
    | none => .error typeError
    | some close =>
      if close = 0 then .error zeroDivisionError
      else .ok (active.foldl (fun best block =>
        let dist := block.distancePct close
        if best.all fun best => dist.lt best then some dist else best) none)

/-- A percentage with its sign, or a question mark. -/
def signedPct (shown : SummaryText) (pct : Option ℚ) : String := pct.elim "?" fun pct => shown.signed2 pct ++ "%"

/-- `_signal_summary`. -/
def signalSummary (shown : SummaryText) (ctx : Context) : FilterTest → Except Exc String
  | .structureEvent event sinceBars => .ok (event.name ++ " since=" ++ toString (sinceBars : ℕ))
  | .liquiditySweepOccurred sinceBars => .ok ("sweep since=" ++ toString (sinceBars : ℕ))
  | .nearOrderBlock maxDistancePct => do
    let best ← nearestBlock ctx
    return "near_ob " ++ best.elim "?" (fun best => shown.fixed2 best ++ "%") ++ " (max " ++
      shown.number maxDistancePct.1 ++ "%)"
  | .fundingRate _ =>
    .ok ("funding=" ++ (ctx.fundingRate.bind FuturesRecord.value).elim "None" shown.repr)
  | .aboveBelowVwap position =>
    match ctx.vwap, ctx.close with
    -- A missing price and one of zero count alike.
    | none, _ => .ok ("vwap " ++ position.name ++ " (?)")
    | some vwap, close =>
      if vwap = 0 then .ok ("vwap " ++ position.name ++ " (?)")
      else
        match close with
        | none => .error typeError
        | some close => .ok ("vwap " ++ position.name ++ " (" ++ signedPct shown (some (changePct close vwap)) ++ ")")
  | .priceChange windowBars _ =>
    .ok ("price " ++ toString (windowBars : ℕ) ++ "bar " ++ signedPct shown (priceChangePct ctx windowBars))
  | .volumeChange recentBars baselineBars _ =>
    .ok ("volume " ++ toString (recentBars : ℕ) ++ "/" ++ toString (baselineBars : ℕ) ++ "bar " ++
      signedPct shown (volumeChangePct ctx recentBars baselineBars))
  | .oiChange window _ => .ok ("oi " ++ toString (window : ℕ) ++ "bar " ++ signedPct shown (oiChangePct ctx window))

/-- What the matches are sorted by. -/
inductive SortBy
  | symbol | priceChange | volumeChange
  deriving DecidableEq, Repr

def SortBy.ofName : String → Option SortBy
  | "symbol" => some .symbol
  | "price_change" => some .priceChange
  | "volume_change" => some .volumeChange
  | _ => none

/-- The volume of the 24 bars before the last 24. -/
def baseVolume (candles : List Candle) : ℚ :=
  (((lastOf 48 candles).take 24).map Candle.volume).sum

/-- `_sort_value`. -/
def sortValue (sortBy : SortBy) (candles : List Candle) : Except Exc ℚ :=
  match sortBy with
  | .symbol => .ok 0
  | .priceChange =>
    match lastOf 25 candles, candles.getLast? with
    | base :: later, some latest =>
      if later.length < 24 then .ok 0
      else if base.close = 0 then .error zeroDivisionError
      else .ok (changePct latest.close base.close)
    | _, _ => .ok 0
  | .volumeChange =>
    if candles.length < 48 then .ok 0
    else if baseVolume candles = 0 then .error zeroDivisionError
    else .ok (changePct ((lastOf 24 candles).map Candle.volume).sum (baseVolume candles))

/-- One match of a scan. -/
structure ScanEntry extends Screened where
  signalSummary : String
  sortValue : ℚ

/-- The summary and the place of a match. -/
def describe (shown : SummaryText) (sortBy : SortBy) (ctx : Context) (screened : Screened) : Except Exc ScanEntry := do
  let summaries ← screened.matchedFilters.mapM (signalSummary shown ctx)
  let value ← Rasat.sortValue sortBy ctx.candles
  return { screened with signalSummary := String.intercalate "; " summaries, sortValue := value }

/-- One turn of the loop of `scan`. -/
def scanSymbol (analyze : Pair → PaTask Unit) (shown : SummaryText) (sortBy : SortBy) (node : FilterNode)
    (pair : Pair) : PaTask (Option ScanEntry) := screenSymbol (describe shown sortBy) analyze pair node

/-- All matches of a scan, in the order of their symbols. -/
def collectMatches (analyze : Pair → PaTask Unit) (shown : SummaryText) (sortBy : SortBy) (node : FilterNode)
    (timeframe : String) (symbols : List String) : PaTask (List ScanEntry) :=
  symbols.foldlM (fun found symbol => do
    let entry ← scanSymbol analyze shown sortBy node ⟨symbol, timeframe⟩
    return found ++ entry.toList) []

/-- Some items of a list between two places; negative places count from its end. -/
def slice {α : Type} (items : List α) (start stop : ℤ) : List α :=
  let clamp := fun (place : ℤ) => (if place < 0 then max 0 (items.length + place) else min place items.length).toNat
  (items.drop (clamp start)).take (clamp stop - clamp start)

/-- The order of the matches: by their values, then by their symbols. -/
def ScanEntry.before (left right : ScanEntry) : Prop :=
  left.sortValue < right.sortValue ∨ left.sortValue = right.sortValue ∧ left.symbol ≤ right.symbol

instance (left right : ScanEntry) : Decidable (left.before right) := inferInstanceAs (Decidable (_ ∨ _))

/-- What `scan` returns, without the count of deferred analyses. -/
structure ScanReply where
  symbols : List ScanEntry
  totalMatched : ℕ
  nextCursor : Option ℤ
  combine : String
  freshness : String
  staleSymbols : List (String × ℤ)

/-- The reply over some matches; stale ones are listed apart unless they are asked for. -/
def scanReply (combine : String) (limit : ℤ) (cursor : Option ℤ) (requireFresh : Bool) (found : List ScanEntry) :
    ScanReply :=
  let matched := (found.filter fun entry => !(entry.dataStale && requireFresh)).insertionSort ScanEntry.before
  let stale := found.filter fun entry => entry.dataStale && requireFresh
  let start := min (cursor.getD 0) matched.length
  { symbols := slice matched start (start + limit)
    totalMatched := matched.length
    nextCursor := if start + limit < matched.length then some (start + limit) else none
    combine := combine
    freshness := if (found.any fun entry => entry.dataStale) && !requireFresh then "stale" else "fresh"
    staleSymbols := stale.map fun entry => (entry.symbol, entry.asOf) }

/-- `scan` with validated filters. -/
def scanMarket (analyze : Pair → PaTask Unit) (shown : SummaryText) (node : FilterNode) (combine sortBy : String)
    (limit : ℤ) (cursor : Option ℤ) (timeframe : String) (requireFresh : Bool) : PaTask ScanReply := do
  Prog.ofExcept (rejectIf (¬(1 ≤ limit ∧ limit ≤ 250)) .invalidRequest
    ("limit must be between 1 and 250 (given: " ++ toString limit ++ ")"))
  match SortBy.ofName sortBy with
  | none => refuse .invalidRequest ("unknown sort_by: " ++ sortBy)
  | some order =>
    await (.beginPass .screener)
    let symbols ← await .candidateSymbols
    let found ← collectMatches analyze shown order node timeframe symbols
    return scanReply (upper combine) limit cursor requireFresh found

end Rasat
