import RasatTrading.Data.KlineRows
import RasatTrading.Data.KlineStores

/-! When a call of `get_candles` returns the last closed bars without a gap. -/

namespace Rasat

open Ascending Transition

/-- The answers stored so far, over the prior rows, make the last `limit` closed bars complete. -/
structure WindowCovered (market : Market) (prior : CandleTable) (log : List StoredAnswer)
    (series : Series) (limit : Nat) (now : ℚ) : Prop where
  /-- Every closed bar of the window was brought, and last shown as it is shown now. -/
  brought : ∀ index, market.InWindow series limit now index →
    lastShown market prior log series index =
      some (market.shown series (market.opening series index) now)
  /-- No answer brought a bar that is still forming. -/
  ripe : ∀ stored ∈ log, ∀ index, stored.Brings market series index →
    index < market.closed series now
  /-- A prior row opens with a bar of the window, or before all bars of a full window. -/
  aligned : ∀ row ∈ prior.rows, row.series = series →
    (∃ index, market.InWindow series limit now index ∧
        row.candle.openTime = market.opening series index) ∨
      (limit ≤ market.closed series now ∧ ∀ index, market.InWindow series limit now index →
        row.candle.openTime < market.opening series index)

variable {market : Market} {series : Series} {limit : Nat} {now : ℚ} {candle : Candle}

namespace CandleTable

/-- The read rows are the window when the table shows the bars of the window, and its other bars
stand before a full one. -/
theorem read_eq_window_iff {table : CandleTable} :
    table.read series limit = market.window series limit now ↔
      (∀ bar ∈ market.window series limit now, bar ∈ table.bars series) ∧
        ∀ bar ∈ table.bars series, bar ∈ market.window series limit now ∨
          ((market.window series limit now).length = limit ∧
            ∀ later ∈ market.window series limit now, bar.openTime < later.openTime) := by
  have fits : (market.window series limit now).length ≤ limit := by
    rw [Market.length_window]
    exact Nat.min_le_left _ _
  have sorted := ascends_insertionSort (table.bars_distinct series)
  have told := lastOf_eq_iff sorted Market.window_ascends fits
  simp only [List.mem_insertionSort] at told
  exact told

/-- The table behind the prior rows and the answers stored so far. -/
def after (prior : CandleTable) (market : Market) (log : List StoredAnswer) : CandleTable :=
  prior.upsertAll (log.flatMap (StoredAnswer.rows market))

variable {prior : CandleTable} {log : List StoredAnswer} {index : Nat}

/-- A bar that opens with a bar of the exchange is in the table if it was last shown so. -/
theorem mem_bars_after (opens : candle.openTime = market.opening series index) :
    candle ∈ (prior.after market log).bars series ↔
      lastShown market prior log series index = some candle := by
  rw [mem_bars, opens, after, find_stored]

/-- A bar of the table was brought by an answer, or was there before. -/
theorem origin_of_bar (member : candle ∈ (prior.after market log).bars series) :
    (∃ stored ∈ log, ∃ index, stored.Brings market series index ∧
        candle.openTime = market.opening series index) ∨
      ∃ row ∈ prior.rows, row.series = series ∧ row.candle = candle := by
  rw [mem_bars, after, Keyed.Table.find_upsertAll] at member
  cases found : (log.flatMap (StoredAnswer.rows market)).reverse.find? fun row =>
      decide (row.key = (series, candle.openTime)) with
  | some row =>
    have inside := List.mem_reverse.mp (List.mem_of_find?_eq_some found)
    have keyed : row.key = (series, candle.openTime) := by simpa using List.find?_some found
    obtain ⟨stored, logged, among⟩ := List.mem_flatMap.mp inside
    obtain ⟨index, brings, rfl⟩ := StoredAnswer.mem_rows.mp among
    rw [StoredAnswer.key_row] at keyed
    obtain ⟨rfl, opens⟩ := Prod.mk.inj keyed
    exact .inl ⟨stored, logged, index, brings, opens.symm⟩
  | none =>
    rw [found, Option.none_or] at member
    obtain ⟨row, held, same⟩ := Option.map_eq_some_iff.mp member
    have keyed : row.key = (series, candle.openTime) := Keyed.Table.key_of_find held
    exact .inr ⟨row, List.mem_of_find?_eq_some held, (Prod.mk.inj keyed).1, same⟩

/-- Where the table had a bar, it still has one. -/
theorem bar_of_prior (market : Market) (log : List StoredAnswer) {row : StoredCandle}
    (member : row ∈ prior.rows) (place : row.series = series) :
    ∃ bar ∈ (prior.after market log).bars series, bar.openTime = row.candle.openTime := by
  have held : prior.find (series, row.candle.openTime) = some row := by
    rw [← place]
    exact Keyed.Table.mem_rows_iff.mp member
  have found : ∃ kept, (prior.after market log).find (series, row.candle.openTime) = some kept := by
    rw [after, Keyed.Table.find_upsertAll, held]
    cases (log.flatMap (StoredAnswer.rows market)).reverse.find? fun row' =>
        decide (row'.key = (series, row.candle.openTime)) with
    | none => exact ⟨row, rfl⟩
    | some newer => exact ⟨newer, rfl⟩
  obtain ⟨kept, found⟩ := found
  have keyed : kept.key = (series, row.candle.openTime) := Keyed.Table.key_of_find found
  have opens : kept.candle.openTime = row.candle.openTime := (Prod.mk.inj keyed).2
  refine ⟨kept.candle, mem_bars.mpr ?_, opens⟩
  rw [opens, found]
  rfl

/-- Where an answer brought a bar, the table has one. -/
theorem bar_of_answer (prior : CandleTable) {stored : StoredAnswer} (logged : stored ∈ log)
    (brings : stored.Brings market series index) :
    ∃ bar ∈ (prior.after market log).bars series, bar.openTime = market.opening series index := by
  cases last : lastBringing market log series index with
  | none =>
    have missing := List.find?_eq_none.mp last stored (List.mem_reverse.mpr logged)
    exact absurd (decide_eq_true brings) missing
  | some newest =>
    refine ⟨market.shown series (market.opening series index) newest.answeredAt, ?_,
      market.openTime _ _ _⟩
    refine (mem_bars_after (market.openTime _ _ _)).mpr ?_
    rw [lastShown, last]

/-- A read returns the last closed bars exactly when they are covered. -/
theorem read_after_iff (positive : 1 ≤ limit) :
    (prior.after market log).read series limit = market.window series limit now ↔
      WindowCovered market prior log series limit now := by
  rw [read_eq_window_iff, Market.length_window]
  constructor
  · rintro ⟨among, others⟩
    -- The opening times of the table's bars are told by the window.
    have told : ∀ bar ∈ (prior.after market log).bars series,
        (∃ index, market.InWindow series limit now index ∧
          bar.openTime = market.opening series index) ∨
        (limit ≤ market.closed series now ∧ ∀ index, market.InWindow series limit now index →
          bar.openTime < market.opening series index) := by
      intro bar member
      rcases others bar member with inside | ⟨full, before⟩
      · obtain ⟨index, near, rfl⟩ := Market.mem_window.mp inside
        exact .inl ⟨index, near, market.openTime _ _ _⟩
      · refine .inr ⟨by omega, ?_⟩
        intro index near
        have less := before _ (Market.mem_window.mpr ⟨index, near, rfl⟩)
        rwa [market.openTime] at less
    refine ⟨?_, ?_, ?_⟩
    · intro index near
      have inside := Market.mem_window.mpr ⟨index, near, rfl⟩
      exact (mem_bars_after (market.openTime _ _ _)).mp (among _ inside)
    · intro stored logged index brings
      obtain ⟨bar, member, opens⟩ := bar_of_answer prior logged brings
      rcases told bar member with ⟨other, near, same⟩ | ⟨full, before⟩
      · obtain rfl := Market.opening_inj.mp (opens.symm.trans same)
        exact near.1
      · -- The newest closed bar is in the window.
        have newest := before (market.closed series now - 1) ⟨by omega, by omega⟩
        rw [opens, Market.opening_lt_iff] at newest
        omega
    · intro row member place
      obtain ⟨bar, inside, opens⟩ := bar_of_prior market log member place
      rw [← opens]
      exact told bar inside
  · intro covered
    -- A bar that opens with the window is the bar of the window.
    have shown : ∀ bar ∈ (prior.after market log).bars series, ∀ index,
        market.InWindow series limit now index → bar.openTime = market.opening series index →
        bar ∈ market.window series limit now := by
      intro bar member index near opens
      have last := (mem_bars_after opens).mp member
      rw [covered.brought index near] at last
      exact Market.mem_window.mpr ⟨index, near, Option.some.inj last⟩
    refine ⟨?_, ?_⟩
    · intro bar inside
      obtain ⟨index, near, rfl⟩ := Market.mem_window.mp inside
      exact (mem_bars_after (market.openTime _ _ _)).mpr (covered.brought index near)
    · intro bar member
      have full : limit ≤ market.closed series now →
          (∀ index, market.InWindow series limit now index →
            bar.openTime < market.opening series index) →
          min limit (market.closed series now) = limit ∧
            ∀ later ∈ market.window series limit now, bar.openTime < later.openTime := by
        intro enough before
        refine ⟨by omega, ?_⟩
        intro later inside
        obtain ⟨index, near, rfl⟩ := Market.mem_window.mp inside
        rw [market.openTime]
        exact before index near
      rcases origin_of_bar member with ⟨stored, logged, index, brings, opens⟩ | ⟨row, old, place, rfl⟩
      · have below := covered.ripe stored logged index brings
        by_cases near : market.closed series now ≤ index + limit
        · exact .inl (shown bar member index ⟨below, near⟩ opens)
        · refine .inr (full (by omega) ?_)
          intro later inside
          rw [opens, Market.opening_lt_iff]
          have := inside.2
          omega
      · rcases covered.aligned row old place with ⟨index, near, opens⟩ | ⟨enough, before⟩
        · exact .inl (shown _ member index near opens)
        · exact .inr (full enough before)

end CandleTable

namespace KlineWorld

variable {config : KlineConfig} {world later : KlineWorld} {index : Nat}

/-- What a call of `get_candles` returned. -/
def returned (world : KlineWorld) (index : Nat) : Option (CandleRequest × List Candle) :=
  match world.callers[index]? with
  | some (.returned request rows) => some (request, rows)
  | _ => none

/-- A call that reads its rows returns what the table has. -/
theorem returned_of_read {request : CandleRequest} {rows : List Candle}
    (moved : world.step config market (.read index) = some later)
    (returned : later.returned index = some (request, rows)) :
    rows = world.table.read request.series request.limit := by
  obtain ⟨caller, there, advanced⟩ := Option.bind_eq_some_iff.mp moved
  cases caller with
  | reading own =>
    cases advanced
    have inside := (List.getElem?_eq_some_iff.mp there).1
    simp only [KlineWorld.returned, setCaller, List.getElem?_set_self inside, Option.some.injEq,
      Prod.mk.injEq] at returned
    obtain ⟨rfl, rfl⟩ := returned
    rfl
  | _ => simp [advance] at advanced

/-- In every run a call of `get_candles` returns the last closed bars, without a gap, exactly when
the answers stored so far cover them. -/
theorem candles_complete_iff {workers : Nat} {prior : CandleTable} {time : ℚ}
    {request : CandleRequest} {rows : List Candle}
    (reached : Reach (step config market) (fun _ _ => True) (initial workers prior time) world)
    (moved : world.step config market (.read index) = some later)
    (returned : later.returned index = some (request, rows)) :
    (rows = market.window request.series request.limit world.time ∧
        rows.IsChain fun bar next =>
          next.openTime = bar.openTime + request.series.timeframe.seconds) ↔
      WindowCovered market prior world.log request.series request.limit world.time := by
  have read : rows = (prior.after market world.log).read request.series request.limit := by
    rw [returned_of_read moved returned, table_of_log reached]
    rfl
  rw [← CandleTable.read_after_iff request.positive, ← read]
  constructor
  · rintro ⟨same, -⟩
    exact same
  · rintro rfl
    exact ⟨rfl, Market.window_gapless⟩

/-- One worker, an empty table, at the time of the samples. -/
def coldStart : KlineWorld := initial 1 Keyed.Table.empty 1700000000

/-- The closed-bar pass queues a catch-up job. -/
def catchupPass : List KlineMove :=
  [.wakeScheduler (some 1700000000), .needsCatchup ["BTCUSDT"], .startPass ["BTCUSDT"], .passNext,
    .passNext]

/-- A call asks for three hundred bars. -/
def longRequest : List KlineMove :=
  [.call "BTCUSDT" "15m" 300 "spot", .ensureContains 0 (.ok true), .lookUp 0, .judge 0 (some 1700000000)]

/-- The worker carries out the first job, and the call that waits for it goes on to read. -/
def jobDone : List KlineMove :=
  [.take 0, .work 0 .produce, .work 0 (.arrive (some 1700000000)), .work 0 .commit, .work 0 .resume,
    .callback, .wake 0]

/-- A call for a new listing returns all three bars that have closed. -/
theorem new_listing_complete : ∃ world later request rows,
    Reach (step {} (.flat 1699996500)) (fun _ _ => True) coldStart world ∧
      world.step {} (.flat 1699996500) (.read 0) = some later ∧
      later.returned 0 = some (request, rows) ∧ rows.length = 3 ∧
      WindowCovered (.flat 1699996500) Keyed.Table.empty world.log request.series request.limit
        world.time := by
  have checked : (run (step {} (.flat 1699996500)) (fun _ _ => True) coldStart
      (longRequest ++ jobDone)).any (fun world => decide
        (∃ later ∈ world.step {} (.flat 1699996500) (.read 0), ∃ answer ∈ later.returned 0,
          answer.2.length = 3 ∧ answer.2 = (Market.flat 1699996500).window answer.1.series
            answer.1.limit world.time)) = true := by decide +kernel
  obtain ⟨world, reached, later, moved, ⟨request, rows⟩, returned, three, whole⟩ :=
    exists_of_run checked
  refine ⟨world, later, request, rows, reached, moved, returned, three, ?_⟩
  have gapless : rows.IsChain fun bar next =>
      next.openTime = bar.openTime + request.series.timeframe.seconds := by
    have same : rows = _ := whole
    rw [same]
    exact Market.window_gapless
  exact (candles_complete_iff reached moved returned).mp ⟨whole, gapless⟩

/-- A call that joins the catch-up job returns four bars, though four hundred have closed. -/
theorem joined_catchup_incomplete : ∃ world request rows,
    Reach (step {} (.flat 1699639200)) (fun _ _ => True) coldStart world ∧
      world.returned 0 = some (request, rows) ∧ request.limit = 300 ∧ rows.length = 4 ∧
      (Market.flat 1699639200).closed request.series world.time = 400 ∧
      rows ≠ (Market.flat 1699639200).window request.series request.limit world.time := by
  have checked : (run (step {} (.flat 1699639200)) (fun _ _ => True) coldStart
      (catchupPass ++ longRequest ++ jobDone ++ [.read 0])).any (fun world => decide
        (∃ answer ∈ world.returned 0, answer.1.limit = 300 ∧ answer.2.length = 4 ∧
          (Market.flat 1699639200).closed answer.1.series world.time = 400 ∧
          answer.2 ≠ (Market.flat 1699639200).window answer.1.series answer.1.limit
            world.time)) = true := by decide +kernel
  obtain ⟨world, reached, ⟨request, rows⟩, returned, rest⟩ := exists_of_run checked
  exact ⟨world, request, rows, reached, returned, rest⟩

end KlineWorld

end Rasat
