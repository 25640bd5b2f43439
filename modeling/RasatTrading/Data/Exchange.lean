import RasatTrading.Ascending
import RasatTrading.Data.Candles

/-! The exchange's side of the candles: which bars there are, and what a request is answered. -/

namespace Rasat

open Ascending

/-- The bars of the exchange, without a gap between consecutive ones. -/
structure Market where
  /-- The opening time of the first bar of a series. -/
  firstOpen : Series → ℤ
  /-- The bar that opens at a time, as it is shown at another time. -/
  shown : Series → ℤ → ℚ → Candle
  openTime : ∀ (series : Series) (opens : ℤ) (at_ : ℚ), (shown series opens at_).openTime = opens
  /-- A closed bar does not change any more. -/
  final : ∀ (series : Series) (opens : ℤ) (earlier later : ℚ),
    (opens + series.timeframe.seconds : ℚ) ≤ earlier →
      (opens + series.timeframe.seconds : ℚ) ≤ later →
      shown series opens earlier = shown series opens later

namespace Market

/-- The opening time of a bar by its number. -/
def opening (market : Market) (series : Series) (index : Nat) : ℤ :=
  market.firstOpen series + index * series.timeframe.seconds

/-- How many bars of a series have opened. -/
def opened (market : Market) (series : Series) (now : ℚ) : Nat :=
  (⌊(now - market.firstOpen series) / series.timeframe.seconds⌋ + 1).toNat

/-- How many bars of a series have closed. -/
def closed (market : Market) (series : Series) (now : ℚ) : Nat := market.opened series now - 1

/-- The exchange answers with the last `limit` bars, the forming one included. -/
def answer (market : Market) (series : Series) (limit : Nat) (now : ℚ) : List Candle :=
  (lastOf limit (List.range (market.opened series now))).map fun index =>
    market.shown series (market.opening series index) now

/-- The last `limit` closed bars, or all if there are fewer. -/
def window (market : Market) (series : Series) (limit : Nat) (now : ℚ) : List Candle :=
  (lastOf limit (List.range (market.closed series now))).map fun index =>
    market.shown series (market.opening series index) now

/-- A market whose bars all show the same values. -/
def flat (firstOpen : ℤ) : Market where
  firstOpen _ := firstOpen
  shown _ opens _ := ⟨opens, 100, 101, 99, 100, 10, 1000, 5⟩
  openTime _ _ _ := rfl
  final _ _ _ _ _ _ := rfl

end Market

/-- An answer of the exchange that reached the table: what was asked, when it was produced, and
the reading of the server's time by which its closed bars were told. -/
structure StoredAnswer where
  series : Series
  limit : Nat
  answeredAt : ℚ
  reading : ℚ
  deriving DecidableEq, Repr

/-- The rows that an answer brings. -/
def StoredAnswer.rows (market : Market) (stored : StoredAnswer) : List StoredCandle :=
  storeRows stored.series (market.answer stored.series stored.limit stored.answeredAt)
    (some stored.reading)

/-- The opening time of the newest row of a series, as `MAX(open_time)` gives it. -/
def CandleTable.latestOpen (table : CandleTable) (series : Series) : Option ℤ :=
  ((table.rows.filter fun row => row.series = series).map fun row => row.candle.openTime).max?

/-- `_is_warm`: the newest row is the last closed bar, by a reading of the server's time. -/
def isWarm (latest : Option ℤ) (series : Series) : Option ℚ → Bool
  | none => false
  | some now => decide (latestClosed series.timeframe.seconds now ≤ latest.getD 0)

namespace CandleTable

/-- The bars of a series in a table. -/
def bars (table : CandleTable) (series : Series) : List Candle :=
  (table.rows.filter fun row => row.series = series).map StoredCandle.candle

/-- All stored bars of a series, oldest first. -/
def history (table : CandleTable) (series : Series) : List Candle :=
  (table.bars series).insertionSort fun left right => left.openTime ≤ right.openTime

/-- `_read_candles`: the newest rows of a series, oldest first. -/
def read (table : CandleTable) (series : Series) (limit : Nat) : List Candle := lastOf limit (table.history series)

variable {table : CandleTable} {series : Series} {candle : Candle}

/-- A bar is in the table when it is found under its key. -/
theorem mem_bars : candle ∈ table.bars series ↔
    (table.find (series, candle.openTime)).map StoredCandle.candle = some candle := by
  unfold bars
  rw [List.mem_map]
  constructor
  · rintro ⟨row, member, rfl⟩
    obtain ⟨inside, place⟩ := List.mem_filter.mp member
    obtain rfl : row.series = series := of_decide_eq_true place
    have found := Keyed.Table.mem_rows_iff.mp inside
    rw [StoredCandle.key] at found
    rw [found]
    rfl
  · intro shown
    obtain ⟨row, found, same⟩ := Option.map_eq_some_iff.mp shown
    have keyed : row.key = (series, candle.openTime) := Keyed.Table.key_of_find found
    refine ⟨row, List.mem_filter.mpr ⟨?_, decide_eq_true (Prod.mk.inj keyed).1⟩, same⟩
    exact List.mem_of_find?_eq_some found

/-- No two bars of a series open at one time. -/
theorem bars_distinct (table : CandleTable) (series : Series) :
    ((table.bars series).map Candle.openTime).Nodup := by
  have keys : ((table.rows.filter fun row => row.series = series).map StoredCandle.key).Nodup :=
    table.unique.sublist (List.filter_sublist.map _)
  unfold bars
  rw [List.map_map]
  refine List.pairwise_map.mpr ((List.pairwise_map.mp keys).imp_of_mem ?_)
  intro first second here there differs same
  have place : first.series = second.series :=
    (of_decide_eq_true (List.mem_filter.mp here).2).trans
      (of_decide_eq_true (List.mem_filter.mp there).2).symm
  exact differs (Prod.ext place same)

/-- The history ascends. -/
theorem history_ascends (table : CandleTable) (series : Series) : Ascends Candle.openTime (table.history series) :=
  ascends_insertionSort (table.bars_distinct series)

/-- A bar of the history is stored. -/
theorem mem_history : candle ∈ table.history series ↔ ∃ row ∈ table.rows, row.series = series ∧ row.candle = candle := by
  unfold history bars
  rw [List.mem_insertionSort, List.mem_map]
  constructor
  · rintro ⟨row, listed, same⟩
    rw [List.mem_filter, decide_eq_true_eq] at listed
    exact ⟨row, listed.1, listed.2, same⟩
  · rintro ⟨row, listed, place, same⟩
    exact ⟨row, List.mem_filter.mpr ⟨listed, decide_eq_true place⟩, same⟩

end CandleTable

end Rasat
