import RasatTrading.Data.Clock
import RasatTrading.Json
import RasatTrading.Keyed.Table

/-! Candles as the exchange sends them, and the table that keeps the closed ones. -/

namespace Rasat

/-- The bar lengths that the exchange offers. -/
inductive Timeframe
  | m1 | m3 | m5 | m15 | m30 | h1 | h2 | h4 | h6 | h8 | h12 | d1 | d3 | w1 | mo1
  deriving DecidableEq, Repr

/-- The timeframes by their names. -/
def timeframes : List Timeframe :=
  [.m1, .m3, .m5, .m15, .m30, .h1, .h2, .h4, .h6, .h8, .h12, .d1, .d3, .w1, .mo1]

namespace Timeframe

/-- The name of a timeframe. -/
def name : Timeframe → String
  | .m1 => "1m"
  | .m3 => "3m"
  | .m5 => "5m"
  | .m15 => "15m"
  | .m30 => "30m"
  | .h1 => "1h"
  | .h2 => "2h"
  | .h4 => "4h"
  | .h6 => "6h"
  | .h8 => "8h"
  | .h12 => "12h"
  | .d1 => "1d"
  | .d3 => "3d"
  | .w1 => "1w"
  | .mo1 => "1M"

/-- The configured length in seconds; a month counts as thirty days. -/
def seconds : Timeframe → ℤ
  | .m1 => 60
  | .m3 => 180
  | .m5 => 300
  | .m15 => 900
  | .m30 => 1800
  | .h1 => 3600
  | .h2 => 7200
  | .h4 => 14400
  | .h6 => 21600
  | .h8 => 28800
  | .h12 => 43200
  | .d1 => 86400
  | .d3 => 259200
  | .w1 => 604800
  | .mo1 => 2592000

/-- Every bar length is positive. -/
theorem seconds_pos (tf : Timeframe) : 0 < tf.seconds := by
  cases tf <;> decide

end Timeframe

/-- Where a series comes from. -/
inductive Source
  | spot | futures
  deriving DecidableEq, Repr

/-- One bar, its opening time in epoch seconds. -/
structure Candle where
  openTime : ℤ
  «open» : ℚ
  high : ℚ
  low : ℚ
  close : ℚ
  volume : ℚ
  quoteVolume : ℚ
  trades : ℤ
  deriving DecidableEq, Repr

/-- `int` of a parsed value: absent when it raises. -/
def Json.toInt (parseInt : String → Option ℤ) : Json → Option ℤ
  | .bool value => some (if value then 1 else 0)
  | .int value => some value
  | .real value => some (truncated value)
  | .text value => parseInt value
  | _ => none

/-- One array of the answer as a bar; absent when a conversion or an index raises. -/
def parseKline (text : Text) (parseInt : String → Option ℤ) (item : List Json) : Option Candle := do
  let openTime ← (← item[0]?).toInt parseInt
  let «open» ← (← item[1]?).toFloat text
  let high ← (← item[2]?).toFloat text
  let low ← (← item[3]?).toFloat text
  let close ← (← item[4]?).toFloat text
  let volume ← (← item[5]?).toFloat text
  -- The seventh entry is the closing time, which is not read.
  let quoteVolume ← (← item[7]?).toFloat text
  let trades ← (← item[8]?).toInt parseInt
  pure ⟨toEpochSeconds openTime, «open», high, low, close, volume, quoteVolume, trades⟩

/-- The bars of an answer; arrays that cannot be read are skipped. -/
def parseKlines (text : Text) (parseInt : String → Option ℤ) (raw : List (List Json)) :
    List Candle :=
  raw.filterMap (parseKline text parseInt)

/-- The opening time of the last bar that a reading of the server's time counts as closed. -/
def latestClosed (period : ℤ) (now : ℚ) : ℤ := ⌊now / period⌋ * period - period

/-- The rows without those that are still forming. -/
def closedOnly (rows : List Candle) (tf : Timeframe) (now : ℚ) : List Candle :=
  rows.filter fun row => row.openTime ≤ latestClosed tf.seconds now

/-- One market of one source at one bar length. -/
structure Series where
  symbol : String
  timeframe : Timeframe
  source : Source
  deriving DecidableEq, Repr

/-- One row of the candles table. -/
structure StoredCandle where
  series : Series
  candle : Candle
  updatedAt : ℤ
  deriving DecidableEq, Repr

/-- The primary key of the candles table. -/
def StoredCandle.key (row : StoredCandle) : Series × ℤ := (row.series, row.candle.openTime)

/-- The candles table. -/
abbrev CandleTable := Keyed.Table StoredCandle.key

/-- The rows that a write hands to the table: the closed bars, stamped with the server's time. -/
def writtenRows (series : Series) (rows : List Candle) (now : ℚ) : List StoredCandle :=
  (closedOnly rows series.timeframe now).map fun candle => ⟨series, candle, truncated now⟩

/-- The rows to write for an answer: none without a reading of the server's time. -/
def storeRows (series : Series) (rows : List Candle) : Option ℚ → List StoredCandle
  | none => []
  | some now => writtenRows series rows now

/-- Keep the closed bars of an answer. -/
def CandleTable.store (table : CandleTable) (series : Series) (rows : List Candle)
    (reading : Option ℚ) : CandleTable :=
  table.upsertAll (storeRows series rows reading)

/-- A written row is a bar of the answer that the reading counts as closed. -/
theorem mem_storeRows {series : Series} {rows : List Candle} {reading : Option ℚ} {row : StoredCandle} :
    row ∈ storeRows series rows reading ↔
      ∃ now, reading = some now ∧ row.series = series ∧ row.updatedAt = truncated now ∧
        row.candle ∈ rows ∧ row.candle.openTime ≤ latestClosed series.timeframe.seconds now := by
  cases reading with
  | none => simp [storeRows]
  | some now =>
    obtain ⟨rowSeries, candle, updatedAt⟩ := row
    simp only [storeRows, writtenRows, closedOnly, List.mem_map, List.mem_filter,
      decide_eq_true_eq, StoredCandle.mk.injEq, Option.some.injEq]
    constructor
    · rintro ⟨kept, ⟨member, closed⟩, rfl, rfl, rfl⟩
      exact ⟨now, rfl, rfl, rfl, member, closed⟩
    · rintro ⟨_, rfl, rfl, rfl, member, closed⟩
      exact ⟨candle, ⟨member, closed⟩, rfl, rfl, rfl⟩

/-- A bar counts as closed when a multiple of its length lies between its close and the reading. -/
theorem le_latestClosed_iff {period openTime : ℤ} {now : ℚ} (positive : 0 < period) :
    openTime ≤ latestClosed period now ↔
      ∃ count : ℤ, openTime + period ≤ count * period ∧ (count * period : ℚ) ≤ now := by
  have scale : (0 : ℚ) < period := by exact_mod_cast positive
  unfold latestClosed
  constructor
  · -- The last multiple up to the reading is such a boundary.
    intro closed
    refine ⟨⌊now / period⌋, by omega, ?_⟩
    have below := Int.floor_le (now / period)
    exact (le_div_iff₀ scale).mp below
  · rintro ⟨count, after, before⟩
    have reached : count ≤ ⌊now / period⌋ := Int.le_floor.mpr ((le_div_iff₀ scale).mpr before)
    have grown : count * period ≤ ⌊now / period⌋ * period :=
      Int.mul_le_mul_of_nonneg_right reached positive.le
    omega

end Rasat
