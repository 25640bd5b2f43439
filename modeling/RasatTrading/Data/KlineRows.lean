import Mathlib.Data.List.Chain
import Mathlib.Data.List.Range
import RasatTrading.Data.Exchange

/-! Which bars the stored answers of the exchange bring, and what the table shows afterwards. -/

namespace Rasat

open Ascending

namespace Market

variable {market : Market} {series : Series} {limit index other : Nat} {now : ℚ}

/-- A bar that is among the last `limit` closed ones. -/
def InWindow (market : Market) (series : Series) (limit : Nat) (now : ℚ) (index : Nat) : Prop :=
  index < market.closed series now ∧ market.closed series now ≤ index + limit

instance : Decidable (market.InWindow series limit now index) :=
  inferInstanceAs (Decidable (_ ∧ _))

/-- Later bars open later. -/
theorem opening_lt_iff : market.opening series index < market.opening series other ↔ index < other := by
  have positive := series.timeframe.seconds_pos
  unfold opening
  rw [add_lt_add_iff_left, mul_lt_mul_iff_left₀ positive]
  exact Nat.cast_lt

/-- A bar is told by its opening time. -/
theorem opening_inj : market.opening series index = market.opening series other ↔ index = other := by
  constructor
  · intro same
    have notBefore := mt opening_lt_iff.mpr same.not_lt
    have notBehind := mt opening_lt_iff.mpr same.not_gt
    omega
  · rintro rfl
    rfl

/-- The window consists of the bars in it, as they are shown now. -/
theorem mem_window {candle : Candle} :
    candle ∈ market.window series limit now ↔ ∃ index, market.InWindow series limit now index ∧
      market.shown series (market.opening series index) now = candle := by
  unfold window
  rw [List.mem_map]
  simp only [mem_lastOf_range]
  rfl

/-- The window has the asked length, unless fewer bars have closed. -/
theorem length_window : (market.window series limit now).length = min limit (market.closed series now) := by
  rw [window, List.length_map, length_lastOf, List.length_range]

/-- The window is in the order of the opening times. -/
theorem window_ascends : Ascends Candle.openTime (market.window series limit now) := by
  refine List.pairwise_map.mpr ?_
  have numbers : Ascends id (lastOf limit (List.range (market.closed series now))) :=
    Ascends.lastOf List.pairwise_lt_range limit
  refine numbers.imp ?_
  intro earlier later less
  rw [market.openTime, market.openTime]
  exact opening_lt_iff.mpr less

/-- Between two consecutive bars of the window there is no gap. -/
theorem window_gapless : (market.window series limit now).IsChain fun earlier later =>
    later.openTime = earlier.openTime + series.timeframe.seconds := by
  have numbers : (lastOf limit (List.range (market.closed series now))).IsChain
      fun earlier later => later = earlier + 1 := by
    have all : (List.range (market.closed series now)).IsChain
        fun earlier later => later = earlier + 1 := (List.isChain_range _ _).mpr fun _ _ => rfl
    exact all.drop _
  refine (List.isChain_map _).mpr (numbers.imp ?_)
  rintro index _ rfl
  rw [market.openTime, market.openTime, opening, opening]
  push_cast
  ring

end Market

variable {market : Market} {series : Series} {index : Nat}

namespace StoredAnswer

/-- A bar that the answer brought to the table: it is among the last `limit` ones that had opened
when the answer was produced, and the reading counts it as closed. -/
def Brings (market : Market) (stored : StoredAnswer) (series : Series) (index : Nat) : Prop :=
  stored.series = series ∧ index < market.opened series stored.answeredAt ∧
    market.opened series stored.answeredAt ≤ index + stored.limit ∧
    market.opening series index ≤ latestClosed series.timeframe.seconds stored.reading

instance (stored : StoredAnswer) : Decidable (stored.Brings market series index) :=
  inferInstanceAs (Decidable (_ ∧ _))

/-- The row of a bar, as the answer showed it. -/
def row (market : Market) (stored : StoredAnswer) (index : Nat) : StoredCandle :=
  ⟨stored.series, market.shown stored.series (market.opening stored.series index) stored.answeredAt,
    truncated stored.reading⟩

variable {stored : StoredAnswer}

/-- The key of a bar's row. -/
theorem key_row : (stored.row market index).key = (stored.series, market.opening stored.series index) := by
  rw [StoredCandle.key, row, market.openTime]

/-- The rows of an answer are those of the bars that it brings. -/
theorem mem_rows {row : StoredCandle} : row ∈ stored.rows market ↔
    ∃ index, stored.Brings market stored.series index ∧ row = stored.row market index := by
  unfold rows Brings
  rw [mem_storeRows]
  constructor
  · rintro ⟨now, read, series, updated, shown, closed⟩
    cases read
    obtain ⟨index, inside, same⟩ := List.mem_map.mp shown
    obtain ⟨below, near⟩ := mem_lastOf_range.mp inside
    rw [← same, market.openTime] at closed
    refine ⟨index, ⟨rfl, below, near, closed⟩, ?_⟩
    obtain ⟨_, candle, updatedAt⟩ := row
    simp only at series updated same
    rw [StoredAnswer.row, series, updated, same]
  · rintro ⟨index, ⟨-, below, near, closed⟩, rfl⟩
    refine ⟨stored.reading, rfl, rfl, rfl, ?_, ?_⟩
    · exact List.mem_map.mpr ⟨index, mem_lastOf_range.mpr ⟨below, near⟩, rfl⟩
    · rw [row, market.openTime]
      exact closed

/-- Under the key of a bar the answer has the row of that bar, if it brings it. -/
theorem find_rows : ((stored.rows market).reverse.find? fun row =>
      decide (row.key = (series, market.opening series index))) =
    if stored.Brings market series index then some (stored.row market index) else none := by
  -- A row under the key is the row of the bar.
  have only : ∀ row ∈ stored.rows market, row.key = (series, market.opening series index) →
      stored.Brings market series index ∧ row = stored.row market index := by
    rintro row member keyed
    obtain ⟨other, brings, rfl⟩ := mem_rows.mp member
    rw [key_row] at keyed
    obtain ⟨rfl, opens⟩ := Prod.mk.inj keyed
    obtain rfl := Market.opening_inj.mp opens
    exact ⟨brings, rfl⟩
  split
  · rename_i brings
    have member : stored.row market index ∈ stored.rows market :=
      mem_rows.mpr ⟨index, brings.1 ▸ brings, rfl⟩
    cases found : (stored.rows market).reverse.find? fun row =>
        decide (row.key = (series, market.opening series index)) with
    | none =>
      have missing := List.find?_eq_none.mp found _ (List.mem_reverse.mpr member)
      rw [key_row, brings.1] at missing
      simp at missing
    | some row =>
      have inside := List.mem_reverse.mp (List.mem_of_find?_eq_some found)
      have keyed : row.key = (series, market.opening series index) := by
        simpa using List.find?_some found
      rw [(only row inside keyed).2]
  · rename_i misses
    refine List.find?_eq_none.mpr ?_
    intro row member keyed
    exact misses (only row (List.mem_reverse.mp member) (of_decide_eq_true keyed)).1

end StoredAnswer

/-- The last answer that brought a bar. -/
def lastBringing (market : Market) (log : List StoredAnswer) (series : Series) (index : Nat) :
    Option StoredAnswer :=
  log.reverse.find? fun stored => decide (stored.Brings market series index)

theorem brings_of_last {log : List StoredAnswer} {stored : StoredAnswer}
    (last : lastBringing market log series index = some stored) :
    stored.Brings market series index := by
  unfold lastBringing at last
  simpa using List.find?_some last

/-- Under the key of a bar the answers have the row of the last one that brought it. -/
theorem find_log (log : List StoredAnswer) :
    ((log.flatMap (StoredAnswer.rows market)).reverse.find? fun row =>
      decide (row.key = (series, market.opening series index))) =
    (lastBringing market log series index).map fun stored => stored.row market index := by
  -- The induction takes the youngest answer off the log.
  induction log using List.reverseRecOn with
  | nil => rfl
  | append_singleton older stored ih =>
    rw [List.flatMap_append, List.reverse_append, List.find?_append, ih]
    simp only [List.flatMap_cons, List.flatMap_nil, List.append_nil, StoredAnswer.find_rows,
      lastBringing, List.reverse_append, List.reverse_cons, List.reverse_nil, List.nil_append,
      List.singleton_append, List.find?_cons]
    by_cases brings : stored.Brings market series index
    · simp [brings]
    · simp [brings]

/-- A bar as the table shows it after the answers: by the last one that brought it, or as before. -/
def lastShown (market : Market) (prior : CandleTable) (log : List StoredAnswer) (series : Series)
    (index : Nat) : Option Candle :=
  match lastBringing market log series index with
  | some stored => some (market.shown series (market.opening series index) stored.answeredAt)
  | none => (prior.find (series, market.opening series index)).map StoredCandle.candle

/-- The table shows a bar as the last answer showed it that brought it, or as before. -/
theorem find_stored (prior : CandleTable) (log : List StoredAnswer) :
    ((prior.upsertAll (log.flatMap (StoredAnswer.rows market))).find
      (series, market.opening series index)).map StoredCandle.candle =
    lastShown market prior log series index := by
  rw [Keyed.Table.find_upsertAll, find_log, lastShown]
  cases last : lastBringing market log series index with
  | none => simp
  | some stored =>
    have brings : stored.Brings market series index := brings_of_last last
    simp [StoredAnswer.row, brings.1]

end Rasat
