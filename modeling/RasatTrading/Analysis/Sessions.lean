import RasatTrading.Analysis.Liquidity

/-! The volume-weighted price of the day, and the levels of the trading sessions. -/

namespace Rasat

open Rounding

def vwapAlgoVersion : String := "vwap-v1"

def sessionAlgoVersion : String := "session-v1"

/-- An exact number in so many decimals, ties to the even one. -/
def roundDecimals (value : ℚ) (decimals : ℕ) : ℚ := (halfEven (value * 10 ^ decimals) : ℚ) / 10 ^ decimals

/-- One point of the series; without volume there is none. -/
structure VwapPoint where
  time : ℤ
  vwap : Option ℚ
  deriving DecidableEq, Repr

/-- What `compute_vwap` returns. -/
structure Vwap where
  algoVersion : String
  anchoredAt : Option ℤ
  current : Option ℚ
  points : List VwapPoint
  deriving DecidableEq, Repr

/-- The sums since the beginning of the day. -/
structure VwapSums where
  cumTp : ℚ := 0
  cumVol : ℚ := 0
  currentDay : Option ℤ := none
  points : List VwapPoint := []

/-- The UTC day of a time. -/
def utcDay (time : ℤ) : ℤ := time / 86400

/-- One candle; a new day begins from zero. -/
def VwapSums.add (sums : VwapSums) (candle : Candle) : VwapSums :=
  let day := utcDay candle.openTime
  let anew := sums.currentDay.any fun current => current ≠ day
  let tp := (candle.high + candle.low + candle.close) / 3
  let cumTp := (if anew then 0 else sums.cumTp) + tp * candle.volume
  let cumVol := (if anew then 0 else sums.cumVol) + candle.volume
  let vwap := if 0 < cumVol then some (roundDecimals (cumTp / cumVol) 8) else none
  { cumTp := cumTp
    cumVol := cumVol
    currentDay := some day
    points := sums.points ++ [⟨candle.openTime, vwap⟩] }

/-- `compute_vwap`. -/
def computeVwap (candles : List Candle) (algoVersion : String := vwapAlgoVersion) : Vwap :=
  let sums := candles.foldl VwapSums.add {}
  { algoVersion := algoVersion
    anchoredAt := sums.currentDay.map (· * 86400)
    current := sums.points.getLast?.bind VwapPoint.vwap
    points := sums.points }

/-- The sessions with their UTC hours. -/
def killzones : List (String × ℤ × ℤ) := [("asian", 0, 8), ("london", 7, 16), ("newyork", 12, 21)]

/-- The levels of a session on its latest day. -/
structure SessionLevels where
  name : String
  day : ℤ
  startHour : ℤ
  endHour : ℤ
  range : Band
  deriving DecidableEq, Repr

/-- What `compute_session_levels` returns. -/
structure Sessions where
  algoVersion : String
  timezone : String
  sessions : List SessionLevels
  deriving DecidableEq, Repr

/-- The hour of a time in its UTC day. -/
def utcHour (time : ℤ) : ℤ := time % 86400 / 3600

/-- The levels of one session, when some candle lies in its hours. -/
def sessionLevels (candles : List Candle) (zone : String × ℤ × ℤ) : Option SessionLevels :=
  let (name, start, stop) := zone
  let entries := candles.filter fun candle =>
    start ≤ utcHour candle.openTime ∧ utcHour candle.openTime < stop
  match entries with
  | [] => none
  | first :: rest =>
    let latestDay := rest.foldl (fun day candle => max day (utcDay candle.openTime)) (utcDay first.openTime)
    let candlesIn := entries.filter fun candle => utcDay candle.openTime = latestDay
    some ⟨name, latestDay, start, stop,
      (bandOf (candlesIn.map Candle.low)).low, (bandOf (candlesIn.map Candle.high)).high⟩

/-- `compute_session_levels`. -/
def computeSessionLevels (candles : List Candle) (algoVersion : String := sessionAlgoVersion) :
    Sessions where
  algoVersion := algoVersion
  timezone := "UTC"
  sessions := killzones.filterMap (sessionLevels candles)

end Rasat
