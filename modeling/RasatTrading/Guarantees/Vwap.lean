import RasatTrading.Guarantees.Completeness
import RasatTrading.Guarantees.Windows

/-! When the volume-weighted price of an analysis is anchored at the beginning of its day. -/

namespace Rasat

open Ascending Coop

/-- The beginning of the UTC day of a time. -/
def midnight (time : ℤ) : ℤ := utcDay time * 86400

/-- The typical price of a bar. -/
def typicalPrice (candle : Candle) : ℚ := (candle.high + candle.low + candle.close) / 3

/-- The volume of some bars. -/
def volumeOf (candles : List Candle) : ℚ := (candles.map Candle.volume).sum

/-- The typical prices of some bars, each as often as its volume says. -/
def tradedOf (candles : List Candle) : ℚ := (candles.map fun candle => typicalPrice candle * candle.volume).sum

/-- The volume-weighted mean in eight decimals; without volume there is none. -/
def weightedMean (candles : List Candle) : Option ℚ :=
  if volumeOf candles = 0 then none else some (roundDecimals (tradedOf candles / volumeOf candles) 8)

/-- The bars of the day of a time. -/
def dayOf (candles : List Candle) (day : ℤ) : List Candle := candles.filter fun candle => utcDay candle.openTime = day

/-- The bars from a midnight on. -/
def sinceMidnight (candles : List Candle) (time : ℤ) : List Candle :=
  candles.filter fun candle => midnight time ≤ candle.openTime

/-- The sums after some bars are those over the bars of the last day. -/
structure DaySums (candles : List Candle) (last : Candle) (sums : VwapSums) : Prop where
  current : sums.currentDay = some (utcDay last.openTime)
  traded : sums.cumTp = tradedOf (dayOf candles (utcDay last.openTime))
  volume : sums.cumVol = volumeOf (dayOf candles (utcDay last.openTime))
  -- The point of the last bar, which is what the VWAP calls its current value.
  newest : sums.points.getLast? = some ⟨last.openTime,
    if 0 < sums.cumVol then some (roundDecimals (sums.cumTp / sums.cumVol) 8) else none⟩

/-- One more candle adds its volume, -/
theorem volumeOf_append_singleton (candles : List Candle) (candle : Candle) :
    volumeOf (candles ++ [candle]) = volumeOf candles + candle.volume := by
  simp [volumeOf]

/-- and what was traded in it. -/
theorem tradedOf_append_singleton (candles : List Candle) (candle : Candle) :
    tradedOf (candles ++ [candle]) = tradedOf candles + typicalPrice candle * candle.volume := by
  simp [tradedOf]

/-- What was traded adds up. -/
theorem tradedOf_append (front back : List Candle) : tradedOf (front ++ back) = tradedOf front + tradedOf back := by
  simp [tradedOf]

/-- A candle belongs to its own day. -/
theorem dayOf_append_singleton (candles : List Candle) (candle : Candle) :
    dayOf (candles ++ [candle]) (utcDay candle.openTime) = dayOf candles (utcDay candle.openTime) ++ [candle] := by
  simp [dayOf]

variable {candles : List Candle}

/-- One bar more, on the same day or on a later one. -/
theorem DaySums.add {last candle : Candle} {sums : VwapSums} (known : DaySums candles last sums)
    (greatest : ∀ other ∈ candles, other.openTime ≤ last.openTime) (later : last.openTime ≤ candle.openTime) :
    DaySums (candles ++ [candle]) candle (sums.add candle) := by
  -- A new day starts the sums from nothing, any other bar goes on with them.
  by_cases same : utcDay last.openTime = utcDay candle.openTime
  · refine ⟨rfl, ?_, ?_, ?_⟩
    · rw [dayOf_append_singleton, tradedOf_append_singleton, ← same, ← known.traded]
      simp [VwapSums.add, known.current, same, typicalPrice]
    · rw [dayOf_append_singleton, volumeOf_append_singleton, ← same, ← known.volume]
      simp [VwapSums.add, known.current, same]
    · simp [VwapSums.add]
  · -- No bar before is of the new day.
    have first_of_day : dayOf candles (utcDay candle.openTime) = [] := by
      unfold dayOf
      rw [List.filter_eq_nil_iff]
      intro other listed today
      rw [decide_eq_true_eq] at today
      have before := greatest other listed
      unfold utcDay at same today
      omega
    refine ⟨rfl, ?_, ?_, ?_⟩
    · rw [dayOf_append_singleton, tradedOf_append_singleton, first_of_day]
      simp [VwapSums.add, known.current, same, typicalPrice, tradedOf]
    · rw [dayOf_append_singleton, volumeOf_append_singleton, first_of_day]
      simp [VwapSums.add, known.current, same, volumeOf]
    · simp [VwapSums.add]

/-- The sums of the loop are those of the last day. -/
theorem daySums_foldl (sorted : candles.Pairwise fun a b => a.openTime ≤ b.openTime)
    {last : Candle} (ends : candles.getLast? = some last) : DaySums candles last (candles.foldl VwapSums.add {}) := by
  -- The sums are folded from the oldest bar on, so the induction takes the newest bar off.
  induction candles using List.reverseRecOn generalizing last with
  | nil => cases ends
  | append_singleton candles candle ih =>
    rw [List.getLast?_append, List.getLast?_singleton, Option.some_or, Option.some.injEq] at ends
    subst ends
    rw [List.pairwise_append] at sorted
    have later : ∀ other ∈ candles, other.openTime ≤ candle.openTime :=
      fun other listed => sorted.2.2 other listed candle (List.mem_singleton_self _)
    rw [List.foldl_append]
    rcases List.eq_nil_or_concat candles with rfl | ⟨front, before, rfl⟩
    · -- The very first bar: no day is set yet, and the code takes that for a new one.
      refine ⟨rfl, ?_, ?_, rfl⟩ <;> simp [VwapSums.add, dayOf, tradedOf, volumeOf, typicalPrice]
    · rw [List.concat_eq_append] at ih sorted later ⊢
      have known := ih sorted.1 (List.getLast?_concat ..)
      apply known.add
      · exact key_le_last sorted.1 (by simp)
      · exact later before (by simp)

/-- The VWAP of some bars in order is that of their last day. -/
theorem computeVwap_ordered (sorted : candles.Pairwise fun a b => a.openTime ≤ b.openTime)
    {last : Candle} (ends : candles.getLast? = some last) :
    (computeVwap candles).anchoredAt = some (midnight last.openTime) ∧
      (computeVwap candles).current =
        if 0 < volumeOf (dayOf candles (utcDay last.openTime)) then
          some (roundDecimals (tradedOf (dayOf candles (utcDay last.openTime)) /
            volumeOf (dayOf candles (utcDay last.openTime))) 8)
        else none := by
  have sums := daySums_foldl sorted ends
  unfold computeVwap
  refine ⟨?_, ?_⟩
  · show (candles.foldl VwapSums.add {}).currentDay.map (· * 86400) = _
    rw [sums.current]
    rfl
  · show (candles.foldl VwapSums.add {}).points.getLast?.bind VwapPoint.vwap = _
    -- The last point holds what the sums were when it was made.
    rw [sums.newest, ← sums.traded, ← sums.volume]
    rfl

/-- Up to some bar, the bars of its day are those from its midnight on. -/
theorem dayOf_since_midnight {last : Candle} (among : ∀ candle ∈ candles, candle.openTime ≤ last.openTime) :
    dayOf candles (utcDay last.openTime) = sinceMidnight candles last.openTime := by
  unfold dayOf sinceMidnight
  apply List.filter_congr
  intro candle listed
  have bound := among candle listed
  unfold midnight utcDay
  rw [decide_eq_decide]
  omega

/-! The stored bars and those among them that an analysis sees. -/

namespace CandleTable

/-- The stored bars of a series that a reading of the clock counts as closed. -/
def closedBars (table : CandleTable) (series : Series) (now : ℚ) : List Candle :=
  closedOnly (table.history series) series.timeframe now

/-- The closed ones among the newest stored bars. -/
def window (table : CandleTable) (series : Series) (lookback : ℕ) (now : ℚ) : List Candle :=
  closedOnly (table.read series lookback) series.timeframe now

/-- The window reaches the anchor: no more bars are stored from the midnight of the last closed one on than are read. -/
def Reaches (table : CandleTable) (series : Series) (lookback : ℕ) (now : ℚ) : Prop :=
  ∀ last, (table.closedBars series now).getLast? = some last →
    (sinceMidnight (table.history series) last.openTime).length ≤ lookback

/-- The stored bars before those that are read. -/
def unread (table : CandleTable) (series : Series) (lookback : ℕ) : List Candle :=
  (table.history series).take ((table.history series).length - lookback)

variable {table : CandleTable} {series : Series} {lookback : ℕ} {now : ℚ} {last : Candle}

/-- A history is what is not read, and what is. -/
theorem unread_append (table : CandleTable) (series : Series) (lookback : ℕ) :
    table.unread series lookback ++ table.read series lookback = table.history series := List.take_append_drop _ _

/-- Closed bars are in the order of their times. -/
theorem closedBars_ordered (table : CandleTable) (series : Series) (now : ℚ) :
    (table.closedBars series now).Pairwise fun a b => a.openTime ≤ b.openTime :=
  ((table.history_ascends series).imp le_of_lt).filter _

/-- With a closed bar in the window, all bars before those that are read are closed. -/
theorem closedBars_split (seen : table.window series lookback now ≠ []) :
    table.closedBars series now = table.unread series lookback ++ table.window series lookback now := by
  obtain ⟨candle, listed⟩ := List.exists_mem_of_ne_nil _ seen
  unfold window closedOnly at listed
  rw [List.mem_filter, decide_eq_true_eq] at listed
  have order := table.history_ascends series
  rw [← unread_append table series lookback] at order
  have closed : closedOnly (table.unread series lookback) series.timeframe now = table.unread series lookback := by
    unfold closedOnly
    rw [List.filter_eq_self]
    intro older before
    have earlier := (List.pairwise_append.mp order).2.2 older before candle listed.1
    exact decide_eq_true (le_trans (le_of_lt earlier) listed.2)
  unfold closedBars
  rw [← unread_append table series lookback]
  unfold closedOnly at closed ⊢
  rw [List.filter_append, closed]
  rfl

/-- The window ends with the last closed bar. -/
theorem window_last (seen : table.window series lookback now ≠ []) :
    (table.window series lookback now).getLast? = (table.closedBars series now).getLast? := by
  rw [closedBars_split seen, List.getLast?_append]
  obtain ⟨candle, ends⟩ := Option.isSome_iff_exists.mp (List.getLast?_isSome.mpr seen)
  rw [ends]
  rfl

/-- The last closed bar is the greatest. -/
theorem closedBars_le (ends : (table.closedBars series now).getLast? = some last) :
    ∀ candle ∈ table.closedBars series now, candle.openTime ≤ last.openTime :=
  key_le_last (closedBars_ordered table series now) ends

/-- The window reaches the anchor exactly when no bar before it is of the day. -/
theorem reaches_iff (ends : (table.closedBars series now).getLast? = some last) :
    table.Reaches series lookback now ↔ sinceMidnight (table.unread series lookback) last.openTime = [] := by
  have order := table.history_ascends series
  have grows : (table.history series).Pairwise fun a b =>
      decide (midnight last.openTime ≤ a.openTime) = true → decide (midnight last.openTime ≤ b.openTime) = true := by
    apply order.imp
    intro a b earlier from_anchor
    rw [decide_eq_true_eq] at from_anchor ⊢
    omega
  -- Behind a bar of the day all bars are of the day, so those of the day are an end of the history.
  have told := filter_lastOf_iff lookback grows
  have parts : sinceMidnight (table.history series) last.openTime =
      sinceMidnight (table.unread series lookback) last.openTime ++
        sinceMidnight (table.read series lookback) last.openTime := by
    unfold sinceMidnight
    rw [← List.filter_append, unread_append]
  have enough : table.Reaches series lookback now ↔
      (sinceMidnight (table.history series) last.openTime).length ≤ lookback := by
    constructor
    · intro reaches
      exact reaches last ends
    · intro fits other other_ends
      rw [ends, Option.some.injEq] at other_ends
      rw [← other_ends]
      exact fits
  rw [enough]
  unfold sinceMidnight at parts ⊢
  rw [← told]
  show (table.read series lookback).filter _ = _ ↔ _
  rw [parts]
  constructor
  · intro same
    exact List.self_eq_append_left.mp same
  · intro none_before
    rw [none_before]
    rfl

end CandleTable

/-- The analysis is as of the last closed bar, and its VWAP is the mean over the closed bars of that bar's UTC day. -/
def AnchoredVwap (result : AnalysisResult) (closed : List Candle) : Prop :=
  ∀ last, closed.getLast? = some last →
    result.asOf = last.openTime ∧ result.vwap.anchoredAt = some (midnight last.openTime) ∧
      result.vwap.current = weightedMean (sinceMidnight closed last.openTime)

/-- The volume of the day of the last bar. -/
def dayVolume (closed : List Candle) : ℚ :=
  closed.getLast?.elim 0 fun last => volumeOf (sinceMidnight closed last.openTime)

section Anchor

variable {table : CandleTable} {series : Series} {lookback : ℕ} {now : ℚ} {last : Candle}

/-- What the analysis of the window says. -/
theorem analysisOf_vwap (general8 : ℚ → String) (pair : Pair) (futures : FuturesContext)
    (seen : table.window series lookback now ≠ []) (ends : (table.closedBars series now).getLast? = some last) :
    let result := analysisOf general8 pair (table.window series lookback now) futures
    let day := sinceMidnight (table.window series lookback now) last.openTime
    result.asOf = last.openTime ∧ result.vwap.anchoredAt = some (midnight last.openTime) ∧
      result.vwap.current =
        if 0 < volumeOf day then some (roundDecimals (tradedOf day / volumeOf day) 8) else none := by
  intro result day
  have window_ends := (CandleTable.window_last seen).trans ends
  have among : ∀ candle ∈ table.window series lookback now, candle.openTime ≤ last.openTime := by
    intro candle listed
    apply CandleTable.closedBars_le ends
    rw [CandleTable.closedBars_split seen]
    exact List.mem_append_right _ listed
  have order : (table.window series lookback now).Pairwise fun a b => a.openTime ≤ b.openTime := by
    have all := table.closedBars_ordered series now
    rw [CandleTable.closedBars_split seen, List.pairwise_append] at all
    exact all.2.1
  obtain ⟨anchored, current⟩ := computeVwap_ordered order window_ends
  -- The code groups by days; up to the last bar that is to cut at its midnight.
  rw [dayOf_since_midnight among] at current
  refine ⟨?_, anchored, current⟩
  show ((table.window series lookback now).getLast?.map Candle.openTime).getD 0 = _
  rw [window_ends]
  rfl

/-- Where the window reaches the anchor, the analysis is right unless the day has a negative volume. -/
theorem reached_iff (general8 : ℚ → String) (pair : Pair) (futures : FuturesContext)
    (seen : table.window series lookback now ≠ []) (reaches : table.Reaches series lookback now) :
    AnchoredVwap (analysisOf general8 pair (table.window series lookback now) futures) (table.closedBars series now) ↔
      0 ≤ dayVolume (table.closedBars series now) := by
  obtain ⟨last, window_ends⟩ := Option.isSome_iff_exists.mp (List.getLast?_isSome.mpr seen)
  have ends := (CandleTable.window_last seen).symm.trans window_ends
  obtain ⟨as_of, anchored, current⟩ := analysisOf_vwap general8 pair futures seen ends
  -- None of the bars that are not read is of the day, so the window has all of it.
  have none_before := (CandleTable.reaches_iff ends).mp reaches
  have day : sinceMidnight (table.closedBars series now) last.openTime =
      sinceMidnight (table.window series lookback now) last.openTime := by
    rw [CandleTable.closedBars_split seen]
    unfold sinceMidnight at none_before ⊢
    rw [List.filter_append, none_before, List.nil_append]
  have volume : dayVolume (table.closedBars series now) =
      volumeOf (sinceMidnight (table.window series lookback now) last.openTime) := by
    unfold dayVolume
    rw [ends, ← day]
    rfl
  unfold AnchoredVwap
  rw [volume, ends]
  simp only [Option.some.injEq, forall_eq']
  rw [day, as_of, anchored, current]
  unfold weightedMean
  simp only [true_and]
  rcases lt_trichotomy (volumeOf (sinceMidnight (table.window series lookback now) last.openTime)) 0 with
    negative | zero | positive
  · -- The code has no mean here, but the volume is not zero.
    rw [if_neg (by linarith), if_neg (ne_of_lt negative)]
    simp only [reduceCtorEq, false_iff, not_le]
    exact negative
  · -- Without volume neither side has a mean.
    rw [zero]
    simp
  · rw [if_pos positive, if_neg (ne_of_gt positive)]
    simp only [true_iff]
    exact le_of_lt positive

end Anchor

/-! Other prices and volumes at the same times. -/

/-- A bar as an exchange has it: its prices are positive and between its low and its high, and it was traded. -/
def Candle.Traded (candle : Candle) : Prop :=
  0 < candle.low ∧ candle.low ≤ candle.open ∧ candle.open ≤ candle.high ∧ candle.low ≤ candle.close ∧
    candle.close ≤ candle.high ∧ 0 < candle.volume

/-- A bar of one price before a time, and of the price one from it on. -/
def flatten (cut : ℤ) (price : ℚ) (candle : Candle) : Candle :=
  flatBar (if candle.openTime < cut then price else 1) candle.openTime

namespace CandleTable

/-- The table with such bars at the times of its bars. -/
def flattened (table : CandleTable) (cut : ℤ) (price : ℚ) : CandleTable :=
  table.change (fun row => { row with candle := flatten cut price row.candle }) fun _ => rfl

variable {table other : CandleTable} {series : Series} {lookback : ℕ} {now : ℚ} {cut : ℤ} {price : ℚ}

/-- Flattening keeps the keys of the rows, -/
theorem flattened_keys : (table.flattened cut price).rows.map StoredCandle.key = table.rows.map StoredCandle.key := by
  unfold flattened Keyed.Table.change
  rw [List.map_map]
  rfl

/-- makes prices that can be traded, -/
theorem flattened_traded (positive : 0 < price) : ∀ row ∈ (table.flattened cut price).rows, row.candle.Traded := by
  intro row listed
  obtain ⟨old, -, rfl⟩ := List.mem_map.mp listed
  show (flatten cut price old.candle).Traded
  unfold flatten
  have paid : 0 < if old.candle.openTime < cut then price else 1 := by
    split
    · exact positive
    · exact one_pos
  exact ⟨paid, le_refl _, le_refl _, le_refl _, le_refl _, one_pos⟩

/-- and flattens the history, -/
theorem flattened_history : (table.flattened cut price).history series =
    (table.history series).map (flatten cut price) := by
  have moved : (table.flattened cut price).bars series = (table.bars series).map (flatten cut price) := by
    unfold bars flattened Keyed.Table.change
    rw [List.filter_map, List.map_map, List.map_map]
    rfl
  unfold history
  rw [moved]
  -- The times are as they were, and so is the order.
  symm
  apply List.map_insertionSort
  intro a _ b _
  exact Iff.rfl

/-- what is not read of it, -/
theorem flattened_unread : (table.flattened cut price).unread series lookback =
    (table.unread series lookback).map (flatten cut price) := by
  unfold unread
  rw [flattened_history, List.length_map, List.map_take]

/-- and the window. -/
theorem flattened_window : (table.flattened cut price).window series lookback now =
    (table.window series lookback now).map (flatten cut price) := by
  have read : (table.flattened cut price).read series lookback =
      (table.read series lookback).map (flatten cut price) := by
    show lastOf lookback ((table.flattened cut price).history series) = (lastOf lookback (table.history series)).map _
    unfold lastOf
    rw [flattened_history, List.length_map, List.map_drop]
  unfold window closedOnly
  rw [read, List.filter_map]
  rfl

end CandleTable

/-- A whole number is not rounded. -/
theorem roundDecimals_natCast (number decimals : ℕ) : roundDecimals (number : ℚ) decimals = number := by
  have scale : (10 : ℚ) ^ decimals ≠ 0 := by positivity
  have whole : (number : ℚ) * 10 ^ decimals = ((number * 10 ^ decimals : ℤ) : ℚ) := by push_cast; rfl
  rw [roundDecimals, whole, Rounding.halfEven_intCast, ← whole, mul_div_cancel_right₀ _ scale]

section Flat

variable {cut : ℤ} {price : ℚ} {candles : List Candle}

/-- It commutes with the bars since midnight. -/
theorem sinceMidnight_flatten (time : ℤ) :
    sinceMidnight (candles.map (flatten cut price)) time = (sinceMidnight candles time).map (flatten cut price) := by
  unfold sinceMidnight
  rw [List.filter_map]
  rfl

/-- Each flattened bar has the volume one. -/
theorem volumeOf_flatten : volumeOf (candles.map (flatten cut price)) = candles.length := by
  unfold volumeOf
  rw [List.map_map, show Candle.volume ∘ flatten cut price = fun _ => 1 from rfl]
  simp

/-- Bars on one side of the cut have one price. -/
theorem tradedOf_flatten {one : ℚ} (side : ∀ candle ∈ candles, (if candle.openTime < cut then price else 1) = one) :
    tradedOf (candles.map (flatten cut price)) = one * candles.length := by
  induction candles with
  | nil => simp [tradedOf]
  | cons first rest ih =>
    have later := ih fun candle listed => side candle (List.mem_cons_of_mem _ listed)
    have here := side first List.mem_cons_self
    unfold tradedOf at later ⊢
    rw [List.map_cons, List.map_cons, List.sum_cons, later, List.length_cons]
    unfold flatten flatBar typicalPrice
    rw [here]
    push_cast
    ring

end Flat

/-- Where the window does not reach the anchor, other prices at the same times make the analysis wrong. -/
theorem unreached_wrong {table : CandleTable} {series : Series} {lookback : ℕ} {now : ℚ} (general8 : ℚ → String)
    (pair : Pair) (futures : FuturesContext) (seen : table.window series lookback now ≠ [])
    (short : ¬table.Reaches series lookback now) :
    ∃ cut price, 0 < price ∧
      ¬AnchoredVwap (analysisOf general8 pair ((table.flattened cut price).window series lookback now) futures)
        ((table.flattened cut price).closedBars series now) := by
  obtain ⟨last, window_ends⟩ := Option.isSome_iff_exists.mp (List.getLast?_isSome.mpr seen)
  have ends := (CandleTable.window_last seen).symm.trans window_ends
  have before := mt (CandleTable.reaches_iff ends).mpr short
  -- The cut is the time of the first bar that is seen.
  obtain ⟨first, rest, shape⟩ := List.exists_cons_of_ne_nil seen
  have order : (table.closedBars series now).Pairwise fun a b => a.openTime < b.openTime :=
    (table.history_ascends series).filter _
  rw [CandleTable.closedBars_split seen, List.pairwise_append] at order
  obtain ⟨-, window_order, apart⟩ := order
  have older (candle : Candle) (listed : candle ∈ sinceMidnight (table.unread series lookback) last.openTime) :
      candle.openTime < first.openTime := by
    apply apart candle (List.mem_filter.mp listed).1
    rw [shape]
    exact List.mem_cons_self
  have newer (candle : Candle) (listed : candle ∈ sinceMidnight (table.window series lookback now) last.openTime) :
      ¬candle.openTime < first.openTime := by
    have inside := (List.mem_filter.mp listed).1
    rw [shape] at window_order inside
    rcases List.mem_cons.mp inside with rfl | later
    · exact lt_irrefl _
    · exact not_lt.mpr (le_of_lt (List.rel_of_pairwise_cons window_order later))
  have some_before : 0 < (sinceMidnight (table.unread series lookback) last.openTime).length :=
    List.length_pos_iff.mpr before
  have some_seen : 0 < (sinceMidnight (table.window series lookback now) last.openTime).length := by
    have inside : last ∈ table.window series lookback now := List.mem_of_getLast? window_ends
    apply List.length_pos_of_mem (a := last)
    unfold sinceMidnight midnight utcDay
    rw [List.mem_filter, decide_eq_true_eq]
    exact ⟨inside, by omega⟩
  generalize older_count : (sinceMidnight (table.unread series lookback) last.openTime).length = m at some_before
  generalize newer_count : (sinceMidnight (table.window series lookback now) last.openTime).length = n at some_seen
  refine ⟨first.openTime, ((1 + m + n : ℕ) : ℚ), by positivity, ?_⟩
  intro right
  have flat_seen : (table.flattened first.openTime ((1 + m + n : ℕ) : ℚ)).window series lookback now ≠ [] := by
    rw [CandleTable.flattened_window]
    exact mt List.map_eq_nil_iff.mp seen
  have flat_ends : ((table.flattened first.openTime ((1 + m + n : ℕ) : ℚ)).closedBars series now).getLast? =
      some (flatten first.openTime ((1 + m + n : ℕ) : ℚ) last) := by
    rw [← CandleTable.window_last flat_seen, CandleTable.flattened_window, List.getLast?_map, window_ends]
    rfl
  obtain ⟨-, -, current⟩ := analysisOf_vwap general8 pair futures flat_seen flat_ends
  obtain ⟨-, -, mean⟩ := right _ flat_ends
  rw [current] at mean
  have time : (flatten first.openTime ((1 + m + n : ℕ) : ℚ) last).openTime = last.openTime := rfl
  -- The mean over the window is one, the mean over the day is higher.
  rw [CandleTable.closedBars_split flat_seen, CandleTable.flattened_window, CandleTable.flattened_unread, time,
    ← List.map_append, sinceMidnight_flatten, sinceMidnight_flatten] at mean
  unfold weightedMean at mean
  have day : sinceMidnight (table.unread series lookback ++ table.window series lookback now) last.openTime =
      sinceMidnight (table.unread series lookback) last.openTime ++
        sinceMidnight (table.window series lookback now) last.openTime := List.filter_append ..
  rw [volumeOf_flatten, volumeOf_flatten, day, List.map_append,
    tradedOf_flatten fun candle listed => if_neg (newer candle listed),
    tradedOf_append, tradedOf_flatten fun candle listed => if_pos (older candle listed),
    tradedOf_flatten fun candle listed => if_neg (newer candle listed),
    List.length_append, older_count, newer_count] at mean
  have positive : (0 : ℚ) < n := by exact_mod_cast some_seen
  have total : ((m + n : ℕ) : ℚ) ≠ 0 := by positivity
  have low : 1 * (n : ℚ) / n = ((1 : ℕ) : ℚ) := by
    field_simp
    simp
  have high : (((1 + m + n : ℕ) : ℚ) * m + 1 * n) / ((m + n : ℕ) : ℚ) = ((1 + m : ℕ) : ℚ) := by
    rw [div_eq_iff total]
    push_cast
    ring
  rw [if_pos positive, if_neg total, low, high, roundDecimals_natCast, roundDecimals_natCast, Option.some.injEq,
    Nat.cast_inj] at mean
  omega

/-! Tables with the same keys, and the reading of an analysis. -/

section Layout

variable {table other : CandleTable} {series : Series} {lookback : ℕ} {now : ℚ}

section Same

variable (same : other.rows.map StoredCandle.key = table.rows.map StoredCandle.key)
include same

/-- Tables with the same keys have histories with the same times, -/
theorem history_times :
    (other.history series).map Candle.openTime = (table.history series).map Candle.openTime := by
  have times (rows : CandleTable) : (rows.history series).map Candle.openTime =
      (((rows.rows.map StoredCandle.key).filter fun key => key.1 = series).map Prod.snd).insertionSort (· ≤ ·) := by
    unfold CandleTable.history CandleTable.bars
    rw [List.filter_map, List.map_map]
    have moved := List.map_insertionSort (r := fun left right : Candle => left.openTime ≤ right.openTime)
      (s := fun left right : ℤ => left ≤ right) Candle.openTime
      ((rows.rows.filter fun row => row.series = series).map StoredCandle.candle) fun _ _ _ _ => Iff.rfl
    rw [moved, List.map_map]
    rfl
  rw [times, times, same]

/-- closed bars with the same times, -/
theorem closedBars_times :
    (other.closedBars series now).map Candle.openTime = (table.closedBars series now).map Candle.openTime := by
  have closed (rows : CandleTable) : (rows.closedBars series now).map Candle.openTime =
      ((rows.history series).map Candle.openTime).filter fun time =>
        time ≤ latestClosed series.timeframe.seconds now := by
    unfold CandleTable.closedBars closedOnly
    rw [List.filter_map]
    rfl
  rw [closed, closed, history_times same]

/-- and windows with the same times. -/
theorem window_times : (other.window series lookback now).map Candle.openTime =
      (table.window series lookback now).map Candle.openTime := by
  have closed (rows : CandleTable) : (rows.window series lookback now).map Candle.openTime =
      (lastOf lookback ((rows.history series).map Candle.openTime)).filter fun time =>
        time ≤ latestClosed series.timeframe.seconds now := by
    unfold CandleTable.window closedOnly lastOf
    rw [List.length_map, ← List.map_drop, List.filter_map]
    rfl
  rw [closed, closed, history_times same]

/-- Whether the window reaches the anchor is told by the keys. -/
theorem reaches_same (reaches : table.Reaches series lookback now) : other.Reaches series lookback now := by
  intro last ends
  have times : (other.closedBars series now).map Candle.openTime = (table.closedBars series now).map Candle.openTime :=
    closedBars_times same
  have closed := congrArg List.getLast? times
  rw [List.getLast?_map, List.getLast?_map, ends, Option.map_some] at closed
  obtain ⟨twin, twin_ends, time⟩ := Option.map_eq_some_iff.mp closed.symm
  have count (rows : CandleTable) : (sinceMidnight (rows.history series) last.openTime).length =
      (((rows.history series).map Candle.openTime).filter fun time => midnight last.openTime ≤ time).length := by
    unfold sinceMidnight
    rw [List.filter_map, List.length_map]
    rfl
  have fits := reaches twin twin_ends
  rw [time, count] at fits
  rw [count, history_times same]
  exact fits

end Same

end Layout

/-- The table and the reading of the clock that an analysis has, while other tasks go on: those at its first reading,
or those after it has fetched bars of a pair that had none. -/
inductive AnalysisRead (budget : ℕ) (env : Surroundings) (pair : Pair) (lookback step : ℕ) (world : PaWorld) :
    CandleTable → ℚ → Prop
  | warm :
    AnalysisRead budget env pair lookback step world (env.others step world).candles (env.choice (step + 1)).server
  | cold {fetched : ℕ} {found : PaWorld}
    (none_stored : (env.others step world).readCandles pair lookback = [])
    (filled : exec (among budget env) (await (.warmUp pair lookback)) (step + 1, env.others step world) =
      (.ok (), fetched, found)) :
    AnalysisRead budget env pair lookback step world (env.others fetched found).candles
      (env.choice (fetched + 1)).server

section Run

variable {budget : ℕ} {env : Surroundings} {pair : Pair} {lookback step after : ℕ} {world last : PaWorld}

/-- The bars of an analysis are the closed ones that it has read, and they are enough. -/
theorem analysisWindow_reads {window : List Candle}
    (ran : exec (among budget env) (analysisWindow pair lookback) (step, world) = (.ok window, after, last)) :
    ∃ tf table now, Timeframe.ofName pair.timeframe = some tf ∧
      AnalysisRead budget env pair lookback step world table now ∧
      window = table.window ⟨pair.symbol, tf, .spot⟩ lookback now ∧ 2 * swingLookback + 1 ≤ window.length := by
  unfold analysisWindow at ran
  split at ran
  · cases ran
  rename_i tf known
  simp only [Prog.bind_eq] at ran
  obtain ⟨candles, ⟨middle, between⟩, loaded, ran⟩ := exec_bind_eq_ok ran
  split at ran
  · cases ran
  obtain ⟨now, ⟨_, _⟩, clock, ran⟩ := exec_bind_eq_ok ran
  obtain rfl := exec_serverNow clock
  split at ran
  · cases ran
  rename_i enough
  simp only [Prog.pure_eq, exec_done, Prod.mk.injEq, Except.ok.injEq] at ran
  obtain ⟨rfl, -⟩ := ran
  have read (seen : PaWorld) :
      seen.readCandles pair lookback = seen.candles.read ⟨pair.symbol, tf, .spot⟩ lookback := by
    unfold PaWorld.readCandles
    rw [known]
    rfl
  -- The bars are those that were stored, or those that a warm-up has stored first.
  unfold loadCandles at loaded
  simp only [Prog.bind_eq] at loaded
  obtain ⟨rows, ⟨_, _⟩, first, loaded⟩ := exec_bind_eq_ok loaded
  obtain ⟨rfl, state⟩ := exec_candles first
  cases state
  split at loaded
  · rename_i none_stored
    obtain ⟨_, ⟨fetched, found⟩, filled, loaded⟩ := exec_bind_eq_ok loaded
    obtain ⟨rfl, state⟩ := exec_candles loaded
    cases state
    refine ⟨tf, _, _, known, .cold (List.isEmpty_iff.mp none_stored) filled, ?_, by omega⟩
    rw [read]
    rfl
  · simp only [Prog.pure_eq, exec_done, Prod.mk.injEq, Except.ok.injEq] at loaded
    obtain ⟨rfl, rfl, rfl⟩ := loaded
    refine ⟨tf, _, _, known, .warm, ?_, by omega⟩
    rw [read]
    rfl

/-- An analysis that returns has read a window that is long enough. -/
theorem analyze_reads {cfg : PaConfig} {depth : ℕ} {result : AnalysisResult}
    (ran : exec (among budget env) (analyze cfg depth pair lookback) (step, world) = (.ok result, after, last)) :
    ∃ tf table now futures, Timeframe.ofName pair.timeframe = some tf ∧
      AnalysisRead budget env pair lookback step world table now ∧
      2 * swingLookback + 1 ≤ (table.window ⟨pair.symbol, tf, .spot⟩ lookback now).length ∧
      result = analysisOf cfg.general8 pair (table.window ⟨pair.symbol, tf, .spot⟩ lookback now) futures := by
  cases depth with
  | zero => cases ran
  | succ depth =>
    unfold analyze at ran
    simp only [Prog.bind_eq] at ran
    obtain ⟨computed, ⟨_, _⟩, made, ran⟩ := exec_bind_eq_ok ran
    obtain ⟨_, ⟨_, _⟩, -, ran⟩ := exec_bind_eq_ok ran
    simp only [Prog.pure_eq, exec_done, Prod.mk.injEq, Except.ok.injEq] at ran
    obtain ⟨rfl, -⟩ := ran
    unfold computeAnalysis at made
    simp only [Prog.bind_eq] at made
    obtain ⟨window, ⟨_, _⟩, seen, made⟩ := exec_bind_eq_ok made
    obtain ⟨futures, ⟨_, _⟩, -, made⟩ := exec_bind_eq_ok made
    obtain ⟨_, ⟨_, _⟩, -, made⟩ := exec_bind_eq_ok made
    simp only [Prog.pure_eq, exec_done, Prod.mk.injEq, Except.ok.injEq] at made
    obtain ⟨rfl, -⟩ := made
    obtain ⟨tf, table, now, known, read, rfl, enough⟩ := analysisWindow_reads seen
    exact ⟨tf, table, now, futures, known, read, enough, rfl⟩

end Run

/-- An analysis that is returned is made from the closed ones among the bars that it reads. Where these reach back to
the midnight of the last closed bar, its VWAP is the mean over the stored closed bars from there on, unless their volume
is negative; where they do not, some prices and volumes at the stored times make it wrong. -/
theorem vwap_anchored_iff (cfg : PaConfig) (pair : Pair) (lookback : ℕ) :
    (∀ budget env depth step world result after last,
      exec (among budget env) (analyze cfg depth pair lookback) (step, world) = (.ok result, after, last) →
        ∃ tf table now futures, Timeframe.ofName pair.timeframe = some tf ∧
          AnalysisRead budget env pair lookback step world table now ∧
          2 * swingLookback + 1 ≤ (table.window ⟨pair.symbol, tf, .spot⟩ lookback now).length ∧
          result = analysisOf cfg.general8 pair (table.window ⟨pair.symbol, tf, .spot⟩ lookback now) futures) ∧
      ∀ (table : CandleTable) (series : Series) (now : ℚ) (futures : FuturesContext),
        2 * swingLookback + 1 ≤ (table.window series lookback now).length →
          (table.Reaches series lookback now →
            (AnchoredVwap (analysisOf cfg.general8 pair (table.window series lookback now) futures)
              (table.closedBars series now) ↔ 0 ≤ dayVolume (table.closedBars series now))) ∧
          ((∀ other : CandleTable, other.rows.map StoredCandle.key = table.rows.map StoredCandle.key →
              (∀ row ∈ other.rows, row.candle.Traded) →
                AnchoredVwap (analysisOf cfg.general8 pair (other.window series lookback now) futures)
                  (other.closedBars series now)) ↔
            table.Reaches series lookback now) := by
  refine ⟨fun budget env depth step world result after last ran => analyze_reads ran, ?_⟩
  intro table series now futures enough
  have seen : table.window series lookback now ≠ [] := by
    intro empty
    rw [empty] at enough
    simp at enough
  refine ⟨reached_iff cfg.general8 pair futures seen, ?_, ?_⟩
  · intro always
    -- Where the bars do not reach back, flat prices with some volumes refute it.
    by_contra short
    obtain ⟨cut, price, positive, wrong⟩ := unreached_wrong cfg.general8 pair futures seen short
    exact wrong (always _ CandleTable.flattened_keys (CandleTable.flattened_traded positive))
  · intro reaches other same traded
    -- The times alone decide which bars are read, and volumes that were traded are never negative.
    have times : (other.window series lookback now).map Candle.openTime =
        (table.window series lookback now).map Candle.openTime := window_times same
    have other_seen : other.window series lookback now ≠ [] := by
      intro empty
      rw [empty, List.map_nil] at times
      exact seen (List.map_eq_nil_iff.mp times.symm)
    apply (reached_iff cfg.general8 pair futures other_seen (reaches_same same reaches)).mpr
    unfold dayVolume
    cases (other.closedBars series now).getLast? with
    | none => exact le_refl _
    | some last =>
      show 0 ≤ volumeOf (sinceMidnight (other.closedBars series now) last.openTime)
      unfold volumeOf
      apply List.sum_nonneg
      intro volume listed
      obtain ⟨candle, inside, rfl⟩ := List.mem_map.mp listed
      have stored := (List.mem_filter.mp (List.mem_filter.mp inside).1).1
      obtain ⟨row, found, -, rfl⟩ := CandleTable.mem_history.mp stored
      exact le_of_lt (traded row found).2.2.2.2.2

/-- The first hours of a day: an analysis returns, and it is anchored. -/
theorem morning_anchored :
    (∃ result tf table now futures, Timeframe.ofName "1h" = some tf ∧
        AnalysisRead 8 (stillAt (6 * 3600)) ⟨"BTCUSDT", "1h"⟩ paLookback 0 (hourlyWorld 6) table now ∧
        2 * swingLookback + 1 ≤ (table.window ⟨"BTCUSDT", tf, .spot⟩ paLookback now).length ∧
        result = analysisOf plainConfig.general8 ⟨"BTCUSDT", "1h"⟩
          (table.window ⟨"BTCUSDT", tf, .spot⟩ paLookback now) futures) ∧
      AnchoredVwap
        (analysisOf plainConfig.general8 ⟨"BTCUSDT", "1h"⟩
          ((hourlyWorld 6).candles.window ⟨"BTCUSDT", .h1, .spot⟩ paLookback (6 * 3600)) {})
        ((hourlyWorld 6).candles.closedBars ⟨"BTCUSDT", .h1, .spot⟩ (6 * 3600)) := by
  refine ⟨?_, ?_⟩
  · have returned : (exec (among 8 (stillAt (6 * 3600))) (analyze plainConfig 3 ⟨"BTCUSDT", "1h"⟩ paLookback)
        (0, hourlyWorld 6)).1.toOption.isSome = true := by decide +kernel
    rcases ran : exec (among 8 (stillAt (6 * 3600))) (analyze plainConfig 3 ⟨"BTCUSDT", "1h"⟩ paLookback)
      (0, hourlyWorld 6) with ⟨outcome, after, last⟩
    rw [ran] at returned
    cases outcome with
    | error raised => cases returned
    | ok result =>
      have told := (vwap_anchored_iff plainConfig ⟨"BTCUSDT", "1h"⟩ paLookback).1 _ _ _ _ _ _ _ _ ran
      exact ⟨result, told⟩
  · have told := (vwap_anchored_iff plainConfig ⟨"BTCUSDT", "1h"⟩ paLookback).2 (hourlyWorld 6).candles
      ⟨"BTCUSDT", .h1, .spot⟩ (6 * 3600) {} (by decide +kernel)
    apply (told.1 _).mpr
    · decide +kernel
    · intro last ends
      have most := List.length_filter_le (fun candle => decide (midnight last.openTime ≤ candle.openTime))
        ((hourlyWorld 6).candles.history ⟨"BTCUSDT", .h1, .spot⟩)
      exact le_trans most (by decide +kernel)

/-- Bars of one minute from a midnight on, each with one price. -/
def minuteBars (prices : List ℚ) : List StoredCandle :=
  prices.zipIdx.map fun (price, index) => ⟨⟨"BTCUSDT", .m1, .spot⟩, flatBar price (1700006400 + 60 * index), 0⟩

/-- The table of such bars. -/
def minuteTable (prices : List ℚ) : CandleTable where
  rows := minuteBars prices
  unique := by
    unfold minuteBars
    rw [List.map_map]
    have places : prices.zipIdx.Pairwise fun left right => left.2 ≠ right.2 := by
      rw [← List.pairwise_map (f := Prod.snd) (R := fun left right : ℕ => left ≠ right), List.zipIdx_map_snd]
      exact List.nodup_range' ..
    apply List.pairwise_map.mpr
    apply places.imp
    intro left right differ same
    have time := (Prod.mk.inj same).2
    simp only [flatBar] at time
    omega

/-- At the end of the two hundred and first minute of a day, the first of its bars is not read. -/
theorem first_minute_unread :
    ¬AnchoredVwap
      (analysisOf (fun _ => "") ⟨"BTCUSDT", "1m"⟩
        ((minuteTable (2 :: List.replicate 200 1)).window ⟨"BTCUSDT", .m1, .spot⟩ paLookback 1700018460) {})
      ((minuteTable (2 :: List.replicate 200 1)).closedBars ⟨"BTCUSDT", .m1, .spot⟩ 1700018460) := by
  intro right
  obtain ⟨-, -, mean⟩ := right (flatBar 1 1700018400) (by decide +kernel)
  exact absurd mean (by decide +kernel)

end Rasat
