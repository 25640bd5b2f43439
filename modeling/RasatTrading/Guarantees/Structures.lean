import RasatTrading.Analysis.StructureLaws

/-! Swings, events and the trend are what they are meant to be; what later bars can still change of them. -/

namespace Rasat

section Meets

variable {candles : List Candle} {lookback : ℕ}

/-- The structure of a series: each pivot is a swing, each crossing an event, and the trend moves with the events. -/
structure MeetsStructure (candles : List Candle) (lookback : ℕ) (found : MarketStructure) : Prop where
  swing : ∀ kind i price, Pivot candles lookback kind i price ↔
    ∃ swing ∈ found.swings, swing.index = i ∧ swing.kind = kind ∧ swing.price = price
  swingOnce : (found.swings.map fun swing => (swing.index, swing.kind)).Nodup
  event : ∀ b direction level, Crosses candles lookback b direction level ↔
    ∃ event ∈ found.events, event.index = b ∧ event.direction = direction ∧ event.level = level
  eventOnce : found.events.Pairwise fun one other => one.index < other.index
  typed : ∀ event ∈ found.events, ∃ trend, trendAfter candles lookback event.index = some trend ∧
    event.type = trend.eventType event.direction ∧
      trendAfter candles lookback (event.index + 1) = some (trend.next event.direction)
  trend : found.trend = trendAfter candles lookback candles.length

theorem pivotsAt_iff {i j : ℕ} {kind : SwingKind} {price : ℚ} :
    (i, kind, price) ∈ pivotsAt candles lookback j ↔ i = j ∧ Pivot candles lookback kind i price := by
  unfold pivotsAt
  simp only [List.mem_append, List.mem_map, Option.mem_toList, pivotAt_iff, Prod.mk.injEq]
  cases kind with
  | high =>
    constructor
    · rintro (⟨value, found, rfl, -, rfl⟩ | ⟨value, -, -, impossible, -⟩)
      · exact ⟨rfl, found⟩
      · cases impossible
    · rintro ⟨rfl, found⟩
      exact .inl ⟨price, found, rfl, rfl, rfl⟩
  | low =>
    constructor
    · rintro (⟨value, -, -, impossible, -⟩ | ⟨value, found, rfl, -, rfl⟩)
      · cases impossible
      · exact ⟨rfl, found⟩
    · rintro ⟨rfl, found⟩
      exact .inr ⟨price, found, rfl, rfl, rfl⟩

/-- No place has two pivots of one kind. -/
theorem pivots_once (candles : List Candle) (lookback b : ℕ) :
    (((List.range b).flatMap (pivotsAt candles lookback)).map fun pivot => (pivot.1, pivot.2.1)).Nodup := by
  rw [List.map_flatMap, List.nodup_flatMap]
  constructor
  · intro i _
    unfold pivotsAt
    -- A bar that is a high and a low has one pivot of each kind.
    cases pivotAt candles lookback .high i <;> cases pivotAt candles lookback .low i <;> simp
  · -- Pivots of two bars differ in their places.
    apply List.nodup_range.imp
    intro i j distinct
    rw [Function.onFun_apply, List.disjoint_left]
    intro pair here there
    simp only [List.mem_map] at here there
    obtain ⟨⟨one, kind, price⟩, listed, rfl⟩ := here
    obtain ⟨⟨other, kind', price'⟩, listed', same⟩ := there
    have places := (pivotsAt_iff.mp listed).1.symm.trans (Prod.ext_iff.mp same).1.symm
    exact distinct (places.trans (pivotsAt_iff.mp listed').1)

theorem detectStructure_walked (candles : List Candle) (lookback : ℕ) (algoVersion : String) :
    (detectStructure candles lookback algoVersion).swings = (walked candles lookback candles.length).swings ∧
      (detectStructure candles lookback algoVersion).events = (walked candles lookback candles.length).events ∧
      (detectStructure candles lookback algoVersion).trend = (walked candles lookback candles.length).trend := by
  unfold walked
  rw [List.take_length]
  exact ⟨rfl, rfl, rfl⟩

/-- The detected structure is the one that is meant. -/
theorem structure_detected (candles : List Candle) (lookback : ℕ) (algoVersion : String) :
    MeetsStructure candles lookback (detectStructure candles lookback algoVersion) := by
  -- The walk along all bars knows what the specification has behind the last one.
  obtain ⟨swings, events, trend⟩ := detectStructure_walked candles lookback algoVersion
  have follows := follows_walked candles lookback candles.length (Nat.le_refl _)
  have reported (event : StructureEvent) :
      event ∈ (walked candles lookback candles.length).events ↔ CrossingReport candles lookback event := by
    rw [follows.events]
    constructor
    · exact And.right
    · intro reports
      obtain ⟨-, -, _, candle, -, at_index, -⟩ := reports.1
      exact ⟨(List.getElem?_eq_some_iff.mp at_index).1, reports⟩
  constructor
  · intro kind i price
    -- A pivot has a full window, so its place is within the series.
    have listed : (i, kind, price) ∈ (List.range candles.length).flatMap (pivotsAt candles lookback) ↔
        Pivot candles lookback kind i price := by
      simp only [List.mem_flatMap, List.mem_range, pivotsAt_iff]
      constructor
      · rintro ⟨j, -, -, pivot⟩
        exact pivot
      · intro pivot
        have inside := pivot.2.1
        rw [pricesAs_length] at inside
        exact ⟨i, by omega, rfl, pivot⟩
    rw [← listed, swings, ← follows.swings, List.mem_map]
    simp only [Prod.mk.injEq]
  · have once := pivots_once candles lookback candles.length
    rw [← follows.swings, List.map_map] at once
    rw [swings]
    exact once
  · intro b direction level
    rw [events]
    constructor
    · intro crossed
      obtain ⟨-, -, _, candle, -, at_b, -⟩ := id crossed
      have inside := (List.getElem?_eq_some_iff.mp at_b).1
      -- Both levels are there, so the trend is defined.
      have before := follows_walked candles lookback b (by omega)
      have defined := before.opened.mpr ⟨(before.seen .high).mpr crossed.1, (before.seen .low).mpr crossed.2.1⟩
      obtain ⟨trend, known⟩ := Option.isSome_iff_exists.mp defined
      refine ⟨⟨b, candle.openTime, trend.eventType direction, level, direction⟩, ?_, rfl, rfl, rfl⟩
      rw [reported]
      refine ⟨crossed, ?_, trend, ?_, rfl⟩
      · rw [at_b]
        rfl
      · rw [← before.trend, known]
    · rintro ⟨event, listed, rfl, rfl, rfl⟩
      exact ((reported event).mp listed).1
  · rw [events]
    exact follows.ordered
  · intro event listed
    rw [events, reported] at listed
    obtain ⟨crossed, -, trended, known, typed⟩ := listed
    obtain ⟨-, -, _, candle, -, at_index, -⟩ := id crossed
    have inside := (List.getElem?_eq_some_iff.mp at_index).1
    -- The trend before the event is the one that the walk had there.
    have before := follows_walked candles lookback event.index (by omega)
    exact ⟨trended, known, typed, trendAfter_event before (before.trend.trans known) crossed⟩
  · rw [trend, follows.trend]

end Meets

/-! Extending a series. -/

section Extend

variable {xs ys : List Candle} {lookback : ℕ}

theorem pricesAs_append (kind : SwingKind) : pricesAs (xs ++ ys) kind = pricesAs xs kind ++ pricesAs ys kind := by
  cases kind <;> exact List.map_append

/-- A pivot whose window is complete stays as it is. -/
theorem pivotAt_append {i : ℕ} (complete : i + lookback < xs.length) (kind : SwingKind) :
    pivotAt (xs ++ ys) lookback kind i = pivotAt xs lookback kind i := by
  have length : (pricesAs xs kind).length = xs.length := pricesAs_length xs kind
  ext price
  rw [pivotAt_iff, pivotAt_iff]
  unfold Pivot Peak
  -- The value itself is one of the series.
  rw [pricesAs_append, List.length_append, List.getElem?_append_left (by omega)]
  -- All values of the window lie in the series.
  have window : (∀ j other, (pricesAs xs kind ++ pricesAs ys kind)[j]? = some other → j ≠ i → i ≤ j + lookback →
      j ≤ i + lookback → beatsAs kind price other = true) ↔
        ∀ j other, (pricesAs xs kind)[j]? = some other → j ≠ i → i ≤ j + lookback → j ≤ i + lookback →
          beatsAs kind price other = true := by
    constructor
    · intro wins j other at_j distinct low high
      apply wins j other _ distinct low high
      rw [List.getElem?_append_left (by omega)]
      exact at_j
    · intro wins j other at_j distinct low high
      rw [List.getElem?_append_left (by omega)] at at_j
      exact wins j other at_j distinct low high
  rw [window]
  constructor
  · rintro ⟨left, -, found⟩
    exact ⟨left, by omega, found⟩
  · rintro ⟨left, -, found⟩
    exact ⟨left, by omega, found⟩

/-- Later candles change no close before a bar that was there. -/
theorem closeBefore_append {b : ℕ} (inside : b ≤ xs.length) : closeBefore (xs ++ ys) b = closeBefore xs b := by
  cases b with
  | zero => rfl
  | succ a =>
    show (xs ++ ys)[a]?.map _ = xs[a]?.map _
    rw [List.getElem?_append_left (by omega)]

/-- Until the first pivot that is not settled, both walks are the same. -/
theorem walked_append {b : ℕ} (settled : b + lookback ≤ xs.length) :
    walked (xs ++ ys) lookback b = walked xs lookback b := by
  -- Each bar up to there has the same pivots, the same close before it and the same walk before it.
  induction b with
  | zero => rfl
  | succ b ih =>
    have at_b : xs[b]? = some xs[b] := List.getElem?_eq_getElem (by omega)
    have at_b' : (xs ++ ys)[b]? = some xs[b] := by
      rw [List.getElem?_append_left (by omega)]
      exact at_b
    have pivots : pivotsAt (xs ++ ys) lookback b = pivotsAt xs lookback b := by
      unfold pivotsAt
      rw [pivotAt_append (by omega), pivotAt_append (by omega)]
    rw [walked_succ at_b, walked_succ at_b', ih (by omega), closeBefore_append (by omega)]
    unfold Walk.bar
    rw [detectSwings_at, detectSwings_at, pivots]

/-- A bar adds its event; its pivots and the opening of the trend add none. -/
theorem bar_events (candles : List Candle) (lookback b : ℕ) (walk : Walk) (prevClose : Option ℚ) (candle : Candle) :
    (walk.bar (detectSwings (candles.map Candle.high) (candles.map Candle.low) lookback) b prevClose candle).events =
      (prevClose.elim walk fun prevClose => walk.breaks b candle.openTime prevClose candle.close).events := by
  unfold Walk.bar
  rw [detectSwings_at]
  -- Neither the pivots nor the opening of the trend touch the events.
  obtain ⟨-, -, -, pivoted, -⟩ := Walk.pivots_spec candles lookback b candle.openTime
    (prevClose.elim walk fun prevClose => walk.breaks b candle.openTime prevClose candle.close)
  rw [← pivoted]
  exact (Walk.initial_spec _).2.2.2.1

/-- Later bars add events behind those that are there. -/
theorem events_grow (candles : List Candle) (lookback : ℕ) {b c : ℕ} (later : b ≤ c) (inside : c ≤ candles.length) :
    ∃ more, (walked candles lookback c).events = (walked candles lookback b).events ++ more ∧
      ∀ event ∈ more, b ≤ event.index := by
  -- Bar by bar, each of which adds one event of its own place at most.
  induction c, later using Nat.le_induction with
  | base => exact ⟨[], (List.append_nil _).symm, List.forall_mem_nil _⟩
  | succ c later ih =>
    obtain ⟨more, grown, after⟩ := ih (by omega)
    have at_c : candles[c]? = some candles[c] := List.getElem?_eq_getElem (by omega)
    have step : ∃ added, (walked candles lookback (c + 1)).events = (walked candles lookback c).events ++ added ∧
        ∀ event ∈ added, event.index = c := by
      rw [walked_succ at_c, bar_events]
      rcases (follows_walked candles lookback c (by omega)).breaks at_c with ⟨-, same⟩ | ⟨_, _, _, -, -, same⟩
      · rw [same]
        exact ⟨[], (List.append_nil _).symm, List.forall_mem_nil _⟩
      · rw [same]
        exact ⟨[_], rfl, by simp⟩
    obtain ⟨added, extended, now⟩ := step
    refine ⟨more ++ added, ?_, ?_⟩
    · rw [extended, grown, List.append_assoc]
    · intro event listed
      rw [List.mem_append] at listed
      rcases listed with old | new
      · exact after event old
      · rw [now event new]
        exact later

/-- Later bars change no event before the last `lookback - 1` bars, and add none there. -/
theorem structure_events_settle (xs ys : List Candle) {lookback : ℕ} (positive : 1 ≤ lookback)
    (algoVersion : String) :
    ∃ settled late later, (detectStructure xs lookback algoVersion).events = settled ++ late ∧
      (detectStructure (xs ++ ys) lookback algoVersion).events = settled ++ later ∧
      (∀ event ∈ settled, event.index + lookback ≤ xs.length) ∧
      ∀ event ∈ late ++ later, xs.length < event.index + lookback := by
  have same : (walked (xs ++ ys) lookback (xs.length + 1 - lookback)).events =
      (walked xs lookback (xs.length + 1 - lookback)).events := by
    cases place : xs.length + 1 - lookback with
    | zero => rfl
    | succ b =>
      -- The last of these bars is broken by levels that are settled, whatever its own pivots are.
      have at_b : xs[b]? = some xs[b] := List.getElem?_eq_getElem (by omega)
      have at_b' : (xs ++ ys)[b]? = some xs[b] := by
        rw [List.getElem?_append_left (by omega)]
        exact at_b
      rw [walked_succ at_b, walked_succ at_b', bar_events, bar_events, walked_append (by omega),
        closeBefore_append (by omega)]
  -- What comes later is added behind the settled events, in the series and in its extension.
  obtain ⟨late, whole, after⟩ := events_grow xs lookback (show xs.length + 1 - lookback ≤ xs.length by omega) (by omega)
  obtain ⟨later, extended, after'⟩ := events_grow (xs ++ ys) lookback
    (show xs.length + 1 - lookback ≤ (xs ++ ys).length by rw [List.length_append]; omega) (by omega)
  refine ⟨(walked xs lookback (xs.length + 1 - lookback)).events, late, later, ?_, ?_, ?_, ?_⟩
  · rw [(detectStructure_walked xs lookback algoVersion).2.1, whole]
  · rw [(detectStructure_walked (xs ++ ys) lookback algoVersion).2.1, extended, same]
  · intro event listed
    have before := (((follows_walked xs lookback (xs.length + 1 - lookback) (by omega)).events event).mp listed).1
    omega
  · intro event listed
    rw [List.mem_append] at listed
    rcases listed with old | new
    · have place := after event old
      omega
    · have place := after' event new
      omega

end Extend

/-- A bar with its high, its low and its close. -/
def shapedBar (place : ℤ) (high low close : ℚ) : Candle := ⟨3600 * place, close, high, low, close, 1, 1, 1⟩

/-- A close above the first high, on the bar behind a higher one. -/
def brokenHigh : List Candle :=
  [shapedBar 0 8 6 7, shapedBar 1 9 (13 / 2) 8, shapedBar 2 10 7 8, shapedBar 3 9 5 6, shapedBar 4 8 6 7,
    shapedBar 5 9 (13 / 2) 8, shapedBar 6 12 7 9, shapedBar 7 11 8 (21 / 2)]

/-- Two bars that confirm the higher one. -/
def confirmingBars : List Candle := [shapedBar 8 10 9 (19 / 2), shapedBar 9 10 8 9]

/-- A close above the first high, and two higher bars behind it. -/
def brokenEarly : List Candle :=
  brokenHigh.take 6 ++ [shapedBar 6 11 7 (21 / 2), shapedBar 7 11 8 10, shapedBar 8 12 9 11]

/-- The event of the close is settled by then. -/
theorem brokenEarly_settles :
    ∃ settled late later, (detectStructure brokenEarly 2 swingAlgoVersion).events = settled ++ late ∧
      (detectStructure (brokenEarly ++ confirmingBars) 2 swingAlgoVersion).events = settled ++ later ∧
      (∀ event ∈ settled, event.index + 2 ≤ brokenEarly.length) ∧
      (∀ event ∈ late ++ later, brokenEarly.length < event.index + 2) ∧
      ⟨6, 21600, .chochBullish, 10, .bullish⟩ ∈ settled := by
  obtain ⟨settled, late, later, split, same, early, behind⟩ :=
    structure_events_settle brokenEarly confirmingBars (show 1 ≤ 2 by decide) swingAlgoVersion
  refine ⟨settled, late, later, split, same, early, behind, ?_⟩
  have found : (⟨6, 21600, .chochBullish, 10, .bullish⟩ : StructureEvent) ∈
      (detectStructure brokenEarly 2 swingAlgoVersion).events := by decide +kernel
  rw [split, List.mem_append] at found
  refine found.resolve_right fun listed => ?_
  have place := behind _ (List.mem_append_left _ listed)
  exact absurd place (by decide)

/-- The event of the last bar is withdrawn when two more bars confirm the high before it. -/
theorem brokenHigh_withdrawn :
    (detectStructure brokenHigh).events = [⟨7, 25200, .chochBullish, 10, .bullish⟩] ∧
      (detectStructure (brokenHigh ++ confirmingBars)).events = [] := by
  constructor <;> decide +kernel

end Rasat
