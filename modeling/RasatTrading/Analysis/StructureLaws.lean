import RasatTrading.Analysis.Structure

/-! What swings and breaks of structure are, and what the walk along the bars knows of them. -/

namespace Rasat

/-! The swings. -/

/-- A value that beats all others in its full window. -/
def Peak (beats : ℚ → ℚ → Bool) (values : List ℚ) (lookback i : ℕ) (price : ℚ) : Prop :=
  lookback ≤ i ∧ i + lookback < values.length ∧ values[i]? = some price ∧
    ∀ j other, values[j]? = some other → j ≠ i → i ≤ j + lookback → j ≤ i + lookback → beats price other = true

/-- What beats others at a high, and at a low. -/
def beatsAs : SwingKind → ℚ → ℚ → Bool
  | .high => fun value other => other < value
  | .low => fun value other => value < other

/-- The prices that pivots of a kind are made of. -/
def pricesAs (candles : List Candle) : SwingKind → List ℚ
  | .high => candles.map Candle.high
  | .low => candles.map Candle.low

/-- The price of the pivot at a place, when there is one. -/
def pivotAt (candles : List Candle) (lookback : ℕ) (kind : SwingKind) (i : ℕ) : Option ℚ :=
  if lookback ≤ i ∧ i + lookback < candles.length then
    fractal (beatsAs kind) (pricesAs candles kind) lookback i
  else none

/-- Each candle has one price of a kind. -/
theorem pricesAs_length (candles : List Candle) (kind : SwingKind) :
    (pricesAs candles kind).length = candles.length := by
  cases kind <;> exact List.length_map _

/-- A fractal is a peak. -/
theorem fractal_iff {beats : ℚ → ℚ → Bool} {values : List ℚ} {lookback i : ℕ} (left : lookback ≤ i)
    (right : i + lookback < values.length) (price : ℚ) :
    fractal beats values lookback i = some price ↔ Peak beats values lookback i price := by
  unfold fractal Peak
  simp only [Option.filter_eq_some_iff, Bool.and_eq_true, List.all_eq_true]
  constructor
  · rintro ⟨found, before, after⟩
    refine ⟨left, right, found, ?_⟩
    intro j other at_j distinct low high
    -- The other value stands on one side of the window or on the other.
    rcases Nat.lt_or_gt_of_ne distinct with earlier | later
    · apply before
      rw [List.mem_iff_getElem?]
      refine ⟨j - (i - lookback), ?_⟩
      rw [List.getElem?_take, List.getElem?_take, List.getElem?_drop, if_pos (by omega), if_pos (by omega)]
      have place : i - lookback + (j - (i - lookback)) = j := by omega
      rw [place, at_j]
    · apply after
      rw [List.mem_iff_getElem?]
      refine ⟨j - (i + 1), ?_⟩
      rw [List.getElem?_drop, List.getElem?_take, List.getElem?_drop, if_pos (by omega)]
      have place : i - lookback + (lookback + 1 + (j - (i + 1))) = j := by omega
      rw [place, at_j]
  · rintro ⟨-, -, found, wins⟩
    refine ⟨found, ?_, ?_⟩
    · -- A value of the left half stands before the middle.
      intro other listed
      obtain ⟨k, at_k⟩ := List.mem_iff_getElem?.mp listed
      rw [List.getElem?_take, List.getElem?_take, List.getElem?_drop] at at_k
      have below : k < lookback := by
        by_contra beyond
        rw [if_neg beyond] at at_k
        cases at_k
      rw [if_pos below, if_pos (by omega)] at at_k
      exact wins (i - lookback + k) other at_k (by omega) (by omega) (by omega)
    · -- A value of the right half stands behind it.
      intro other listed
      obtain ⟨k, at_k⟩ := List.mem_iff_getElem?.mp listed
      rw [List.getElem?_drop, List.getElem?_take, List.getElem?_drop] at at_k
      have below : lookback + 1 + k < 2 * lookback + 1 := by
        by_contra beyond
        rw [if_neg beyond] at at_k
        cases at_k
      rw [if_pos below] at at_k
      exact wins (i - lookback + (lookback + 1 + k)) other at_k (by omega) (by omega) (by omega)

/-- A pivot: a high above, or a low below, all others in its full window. -/
def Pivot (candles : List Candle) (lookback : ℕ) (kind : SwingKind) (i : ℕ) (price : ℚ) : Prop :=
  Peak (beatsAs kind) (pricesAs candles kind) lookback i price

/-- What is found at a bar is its pivot. -/
theorem pivotAt_iff {candles : List Candle} {lookback : ℕ} {kind : SwingKind} {i : ℕ} {price : ℚ} :
    pivotAt candles lookback kind i = some price ↔ Pivot candles lookback kind i price := by
  unfold pivotAt
  -- A place without a full window has no pivot.
  by_cases inside : lookback ≤ i ∧ i + lookback < candles.length
  · rw [if_pos inside]
    exact fractal_iff inside.1 (by rw [pricesAs_length]; exact inside.2) price
  · rw [if_neg inside]
    constructor
    · intro found
      cases found
    · rintro ⟨left, right, -⟩
      rw [pricesAs_length] at right
      exact absurd ⟨left, right⟩ inside

/-- The pivots at a place, the high first. -/
def pivotsAt (candles : List Candle) (lookback i : ℕ) : List (ℕ × SwingKind × ℚ) :=
  ((pivotAt candles lookback .high i).toList.map fun price => (i, .high, price)) ++
    (pivotAt candles lookback .low i).toList.map fun price => (i, .low, price)

/-- Only one part of a list of parts is left when all others are empty. -/
theorem flatMap_only {α β : Type} [DecidableEq α] {places : List α} (once : places.Nodup) (place : α)
    (part : α → List β) :
    (places.flatMap fun i => if i = place then part i else []) = if place ∈ places then part place else [] := by
  induction places with
  | nil => rfl
  | cons first rest ih =>
    rw [List.nodup_cons] at once
    rw [List.flatMap_cons, ih once.2]
    -- The part is at the front, and not again behind it; or it is behind.
    by_cases same : first = place
    · subst same
      rw [if_pos rfl, if_neg once.1, if_pos List.mem_cons_self, List.append_nil]
    · have other : (place ∈ first :: rest) ↔ place ∈ rest := by
        rw [List.mem_cons]
        exact or_iff_right (Ne.symm same)
      rw [if_neg same, List.nil_append]
      simp only [other]

/-- The swings of a series at one place. -/
theorem detectSwings_at (candles : List Candle) (lookback b : ℕ) :
    ((detectSwings (candles.map Candle.high) (candles.map Candle.low) lookback).filter fun pivot => pivot.1 = b) =
      pivotsAt candles lookback b := by
  unfold detectSwings
  rw [List.length_map]
  -- A series that is shorter than one window has no swings.
  by_cases short : candles.length < 2 * lookback + 1
  · rw [if_pos short, pivotsAt, pivotAt, pivotAt, if_neg (by omega), if_neg (by omega)]
    rfl
  · rw [if_neg short, List.filter_flatMap]
    have parts (i : ℕ) : (((fractal (fun value other => other < value) (candles.map Candle.high) lookback i).toList.map
          fun price => (i, SwingKind.high, price)) ++
        (fractal (fun value other => value < other) (candles.map Candle.low) lookback i).toList.map fun price =>
          (i, SwingKind.low, price)).filter (fun pivot => pivot.1 = b) =
        if i = b then
          ((fractal (beatsAs .high) (pricesAs candles .high) lookback i).toList.map fun price => (i, .high, price)) ++
            (fractal (beatsAs .low) (pricesAs candles .low) lookback i).toList.map fun price => (i, .low, price)
        else [] := by
      by_cases same : i = b
      · rw [if_pos same, List.filter_eq_self.mpr]
        · rfl
        · intro pivot listed
          simp only [List.mem_append, List.mem_map] at listed
          rcases listed with ⟨price, -, rfl⟩ | ⟨price, -, rfl⟩ <;> exact decide_eq_true same
      · rw [if_neg same, List.filter_eq_nil_iff]
        intro pivot listed
        simp only [List.mem_append, List.mem_map] at listed
        rcases listed with ⟨price, -, rfl⟩ | ⟨price, -, rfl⟩ <;> simpa using same
    -- Of the parts of all places only that of the bar is left.
    simp only [parts]
    rw [flatMap_only List.nodup_range']
    unfold pivotsAt pivotAt
    by_cases inside : lookback ≤ b ∧ b + lookback < candles.length
    · rw [if_pos (by rw [List.mem_range'_1]; omega), if_pos inside, if_pos inside]
    · rw [if_neg (by rw [List.mem_range'_1]; omega), if_neg inside, if_neg inside]
      rfl

/-! Levels, events and the trend, as they are meant. -/

/-- Whether a kind of pivot stands before a bar. -/
def Seen (candles : List Candle) (lookback b : ℕ) (kind : SwingKind) : Prop :=
  ∃ i < b, ∃ price, Pivot candles lookback kind i price

/-- The level of the latest pivot of a kind before a bar. -/
def Level (candles : List Candle) (lookback b : ℕ) (kind : SwingKind) (price : ℚ) : Prop :=
  ∃ i < b, Pivot candles lookback kind i price ∧ ∀ j, i < j → j < b → ∀ other, ¬Pivot candles lookback kind j other

/-- The first pivot before a bar is a high; a bar that is both counts as one. -/
def HighFirst (candles : List Candle) (lookback b : ℕ) : Prop :=
  ∃ i < b, (∃ price, Pivot candles lookback .high i price) ∧ ∀ j < i, ∀ price, ¬Pivot candles lookback .low j price

/-- The close of a bar crosses the level of the latest high upwards, or of the latest low downwards. -/
def Crosses (candles : List Candle) (lookback b : ℕ) (direction : Direction) (level : ℚ) : Prop :=
  Seen candles lookback b .high ∧ Seen candles lookback b .low ∧
    ∃ previous candle, candles[b - 1]? = some previous ∧ candles[b]? = some candle ∧
      match direction with
      | .bullish => Level candles lookback b .high level ∧ previous.close ≤ level ∧ level < candle.close
      | .bearish => Level candles lookback b .low level ∧ level ≤ previous.close ∧ candle.close < level

/-- The trend that a direction goes with. -/
def Direction.trend : Direction → Trend
  | .bullish => .up
  | .bearish => .down

/-- The other trend. -/
def Trend.flip : Trend → Trend
  | .up => .down
  | .down => .up

/-- Whether a direction goes against a trend. -/
def Trend.opposes (trend : Trend) (direction : Direction) : Bool := trend ≠ direction.trend

/-- The type of an event in a trend. -/
def Trend.eventType (trend : Trend) (direction : Direction) : EventType :=
  match direction, trend.opposes direction with
  | .bullish, true => .chochBullish
  | .bullish, false => .bosBullish
  | .bearish, true => .chochBearish
  | .bearish, false => .bosBearish

/-- The trend after an event: one against it flips it. -/
def Trend.next (trend : Trend) (direction : Direction) : Trend :=
  if trend.opposes direction then trend.flip else trend

open Classical in
/-- The trend that the first pivots open with, once both kinds are there. -/
noncomputable def openingTrend (candles : List Candle) (lookback b : ℕ) : Option Trend :=
  if Seen candles lookback b .high ∧ Seen candles lookback b .low then
    some (if HighFirst candles lookback b then .down else .up)
  else none

open Classical in
/-- The trend after some bars: not there until both kinds of pivots are, then as the first pivot has it, then moved by
the events. -/
noncomputable def trendAfter (candles : List Candle) (lookback : ℕ) : ℕ → Option Trend
  | 0 => none
  | b + 1 =>
    match trendAfter candles lookback b with
    | some trend =>
      if ∃ level, Crosses candles lookback b .bullish level then some (trend.next .bullish)
      else if ∃ level, Crosses candles lookback b .bearish level then some (trend.next .bearish)
      else some trend
    | none => openingTrend candles lookback (b + 1)

/-- What an event reports: a crossing, in the trend before its bar. -/
def CrossingReport (candles : List Candle) (lookback : ℕ) (event : StructureEvent) : Prop :=
  Crosses candles lookback event.index event.direction event.level ∧
    (candles[event.index]?.map Candle.openTime = some event.time) ∧
      ∃ trend, trendAfter candles lookback event.index = some trend ∧ event.type = trend.eventType event.direction

variable {direction : Direction}

section Levels

variable {candles : List Candle} {lookback b : ℕ} {kind : SwingKind} {price other : ℚ}

/-- A pivot has one price. -/
theorem Pivot.price_unique {i : ℕ} (one : Pivot candles lookback kind i price)
    (two : Pivot candles lookback kind i other) : price = other := by
  have same := one.2.2.1.symm.trans two.2.2.1
  cases same
  rfl

/-- There is one latest level. -/
theorem Level.unique (one : Level candles lookback b kind price) (two : Level candles lookback b kind other) :
    price = other := by
  obtain ⟨i, i_before, first, none_after⟩ := one
  obtain ⟨j, j_before, second, none_later⟩ := two
  -- The later of two pivots would stand behind the latest one.
  rcases Nat.lt_trichotomy i j with earlier | same | later
  · exact absurd second (none_after j earlier j_before other)
  · subst same
    exact first.price_unique second
  · exact absurd first (none_later i later i_before price)

/-- Where there is a level, a swing was seen. -/
theorem Level.seen (level : Level candles lookback b kind price) : Seen candles lookback b kind := by
  obtain ⟨i, before, pivot, -⟩ := level
  exact ⟨i, before, price, pivot⟩

/-- What was seen stays seen. -/
theorem Seen.succ (seen : Seen candles lookback b kind) : Seen candles lookback (b + 1) kind := by
  obtain ⟨i, before, pivot⟩ := seen
  exact ⟨i, by omega, pivot⟩

/-- A close does not cross both ways. -/
theorem crosses_one_way {up down : ℚ} (bullish : Crosses candles lookback b .bullish up)
    (bearish : Crosses candles lookback b .bearish down) : False := by
  obtain ⟨-, -, previous, candle, at_previous, at_candle, -, below, above⟩ := bullish
  obtain ⟨-, -, previous', candle', at_previous', at_candle', -, above', below'⟩ := bearish
  rw [at_previous] at at_previous'
  rw [at_candle] at at_candle'
  cases at_previous'
  cases at_candle'
  -- The close before lies between the levels, so this close would be above the one and below the other.
  linarith

/-- One bar crosses one level in a direction. -/
theorem Crosses.level_unique {one two : ℚ} (first : Crosses candles lookback b direction one)
    (second : Crosses candles lookback b direction two) : one = two := by
  cases direction with
  | bullish =>
    obtain ⟨-, -, _, _, -, -, found, -⟩ := first
    obtain ⟨-, -, _, _, -, -, other, -⟩ := second
    exact found.unique other
  | bearish =>
    obtain ⟨-, -, _, _, -, -, found, -⟩ := first
    obtain ⟨-, -, _, _, -, -, other, -⟩ := second
    exact found.unique other

end Levels

/-! The walk. -/

namespace Walk

/-- The last level of a kind. -/
def level (walk : Walk) : SwingKind → Option ℚ
  | .high => walk.lastHigh
  | .low => walk.lastLow

/-- The close before the next bar. -/
def closeAfter (prevClose : Option ℚ) (candles : List Candle) : Option ℚ :=
  (candles.getLast?.map Candle.close).or prevClose

/-- The walk goes over a series part by part. -/
theorem bars_append (pivots : List (ℕ × SwingKind × ℚ)) (walk : Walk) (b : ℕ) (prevClose : Option ℚ)
    (front back : List Candle) :
    walk.bars pivots b prevClose (front ++ back) =
      (walk.bars pivots b prevClose front).bars pivots (b + front.length) (closeAfter prevClose front) back := by
  induction front generalizing walk b prevClose with
  | nil => rfl
  | cons candle rest ih =>
    rw [List.cons_append, bars, bars, ih]
    have place : b + 1 + rest.length = b + (candle :: rest).length := by
      rw [List.length_cons]
      omega
    have close : closeAfter (some candle.close) rest = closeAfter prevClose (candle :: rest) := by
      unfold closeAfter
      rw [List.getLast?_cons]
      cases rest.getLast? <;> rfl
    rw [place, close]

/-- What the walk does with the pivots of one bar. -/
theorem pivots_spec (candles : List Candle) (lookback b : ℕ) (time : ℤ) (walk : Walk) :
    let after := (pivotsAt candles lookback b).foldl (pivot time) walk
    (after.lastHigh = (pivotAt candles lookback .high b).or walk.lastHigh ∧
        after.lastLow = (pivotAt candles lookback .low b).or walk.lastLow) ∧
      after.firstKind = walk.firstKind.or
        (((pivotAt candles lookback .high b).map fun _ => .high).or
          ((pivotAt candles lookback .low b).map fun _ => .low)) ∧
      after.trend = walk.trend ∧ after.events = walk.events ∧
      after.swings.map (fun swing => (swing.index, swing.kind, swing.price)) =
        walk.swings.map (fun swing => (swing.index, swing.kind, swing.price)) ++ pivotsAt candles lookback b := by
  unfold pivotsAt
  -- Neither, one or both of the two pivots are there.
  cases pivotAt candles lookback .high b with
  | none =>
    cases pivotAt candles lookback .low b with
    | none => exact ⟨⟨rfl, rfl⟩, Option.or_none.symm, rfl, rfl, (List.append_nil _).symm⟩
    | some low => exact ⟨⟨rfl, rfl⟩, Option.orElse_eq_or, rfl, rfl, List.map_append⟩
  | some high =>
    cases pivotAt candles lookback .low b with
    | none => exact ⟨⟨rfl, rfl⟩, Option.orElse_eq_or, rfl, rfl, List.map_append⟩
    | some low =>
      refine ⟨⟨rfl, rfl⟩, ?_, rfl, rfl, ?_⟩
      · show ((walk.firstKind <|> some .high) <|> some .low) = walk.firstKind.or (some .high)
        cases walk.firstKind <;> rfl
      · show (walk.swings ++ [_] ++ [_]).map _ = _
        rw [List.map_append, List.map_append, List.append_assoc]
        rfl

/-- A bar whose close crosses no level breaks nothing. -/
def Quiet (walk : Walk) (prevClose close : ℚ) : Prop :=
  ∀ high low, walk.lastHigh = some high → walk.lastLow = some low →
    ¬(prevClose ≤ high ∧ high < close) ∧ ¬(low ≤ prevClose ∧ close < low)

/-- A bar that breaks a level in a direction. -/
structure Broken (walk after : Walk) (b : ℕ) (time : ℤ) (prevClose close level : ℚ) (direction : Direction) : Prop where
  seen : walk.lastHigh.isSome ∧ walk.lastLow.isSome
  crossed : match direction with
    | .bullish => walk.lastHigh = some level ∧ prevClose ≤ level ∧ level < close
    | .bearish => walk.lastLow = some level ∧ level ≤ prevClose ∧ close < level
  after : ∀ trend, walk.trend = some trend → after = { walk with
    events := walk.events ++ [⟨b, time, trend.eventType direction, level, direction⟩]
    trend := some (trend.next direction) }

/-- What the close of a bar does. -/
theorem breaks_cases (walk : Walk) (b : ℕ) (time : ℤ) (prevClose close : ℚ) :
    (Quiet walk prevClose close ∧ walk.breaks b time prevClose close = walk) ∨
      ∃ level direction, Broken walk (walk.breaks b time prevClose close) b time prevClose close level direction := by
  obtain ⟨lastHigh, lastLow, prevHigh, prevLow, trend, firstKind, swings, events⟩ := walk
  unfold breaks
  cases lastHigh with
  | none => exact .inl ⟨(fun _ _ found => by cases found), rfl⟩
  | some high =>
    cases lastLow with
    | none => exact .inl ⟨(fun _ _ _ found => by cases found), rfl⟩
    | some low =>
      dsimp only
      -- The break upwards is looked for first.
      by_cases up : close > high ∧ prevClose ≤ high
      · rw [if_pos up]
        refine .inr ⟨high, .bullish, ⟨rfl, rfl⟩, ⟨rfl, up.2, up.1⟩, ?_⟩
        intro trend known
        cases known
        cases trend <;> rfl
      · rw [if_neg up]
        by_cases down : close < low ∧ prevClose ≥ low
        · rw [if_pos down]
          refine .inr ⟨low, .bearish, ⟨rfl, rfl⟩, ⟨rfl, down.2, down.1⟩, ?_⟩
          intro trend known
          cases known
          cases trend <;> rfl
        · rw [if_neg down]
          refine .inl ⟨?_, rfl⟩
          intro high' low' found_high found_low
          cases found_high
          cases found_low
          exact ⟨fun crossed => up ⟨crossed.2, crossed.1⟩, fun crossed => down ⟨crossed.2, crossed.1⟩⟩

/-- What the first two pivots do to the trend. -/
theorem initial_spec (walk : Walk) :
    (∀ kind, walk.initial.level kind = walk.level kind) ∧ walk.initial.firstKind = walk.firstKind ∧
      walk.initial.swings = walk.swings ∧ walk.initial.events = walk.events ∧
      walk.initial.trend = match walk.trend, walk.firstKind, walk.lastHigh, walk.lastLow with
        | none, some kind, some _, some _ => some (if kind = .high then .down else .up)
        | trend, _, _, _ => trend := by
  obtain ⟨lastHigh, lastLow, prevHigh, prevLow, trend, firstKind, swings, events⟩ := walk
  cases trend <;> cases firstKind <;> cases lastHigh <;> cases lastLow <;>
    exact ⟨fun kind => by cases kind <;> rfl, rfl, rfl, rfl, rfl⟩

end Walk

/-! What the walk knows. -/

section Follow

variable {candles : List Candle} {lookback b : ℕ} {kind : SwingKind} {last : Option ℚ}

/-- A pivot on a bar becomes the latest one. -/
theorem level_succ {price : ℚ} (known : ∀ price, last = some price → Level candles lookback b kind price)
    (found : (pivotAt candles lookback kind b).or last = some price) : Level candles lookback (b + 1) kind price := by
  cases here : pivotAt candles lookback kind b with
  | some value =>
    rw [here] at found
    cases found
    exact ⟨b, by omega, pivotAt_iff.mp here, fun j after before => by omega⟩
  | none =>
    rw [here, Option.none_or] at found
    obtain ⟨i, before, pivot, none_after⟩ := known price found
    refine ⟨i, by omega, pivot, ?_⟩
    intro j after j_before other other_pivot
    -- There is none on the bar itself.
    by_cases last_bar : j = b
    · subst last_bar
      rw [pivotAt_iff.mpr other_pivot] at here
      cases here
    · exact none_after j after (by omega) other other_pivot

/-- A bar without a pivot shows no first swing. -/
theorem unseen_succ (known : last = none → ¬Seen candles lookback b kind)
    (absent : (pivotAt candles lookback kind b).or last = none) : ¬Seen candles lookback (b + 1) kind := by
  rw [Option.or_eq_none_iff] at absent
  rintro ⟨i, before, price, pivot⟩
  by_cases last_bar : i = b
  · subst last_bar
    rw [pivotAt_iff.mpr pivot] at absent
    cases absent.1
  · exact known absent.2 ⟨i, by omega, price, pivot⟩

/-- A level is known once a pivot has been seen. -/
theorem isSome_iff_seen (known : ∀ price, last = some price → Level candles lookback b kind price)
    (unseen : last = none → ¬Seen candles lookback b kind) : last.isSome ↔ Seen candles lookback b kind := by
  -- The walk has a level exactly when there is one to know.
  cases found : last with
  | none => exact ⟨fun impossible => (by cases impossible), fun seen => absurd seen (unseen found)⟩
  | some price => exact ⟨fun _ => (known price found).seen, fun _ => rfl⟩

/-- Which kind came first does not change any more. -/
theorem highFirst_succ (seen : Seen candles lookback b kind) :
    HighFirst candles lookback (b + 1) ↔ HighFirst candles lookback b := by
  constructor
  · rintro ⟨i, before, high, no_low⟩
    by_cases last_bar : i = b
    · subst last_bar
      -- What was seen before is no low.
      obtain ⟨j, j_before, price, pivot⟩ := seen
      cases kind with
      | low => exact absurd pivot (no_low j j_before price)
      | high => exact ⟨j, j_before, ⟨price, pivot⟩, fun k earlier => no_low k (by omega)⟩
    · exact ⟨i, by omega, high, no_low⟩
  · rintro ⟨i, before, high, no_low⟩
    exact ⟨i, by omega, high, no_low⟩

/-- The first pivots of all decide. -/
theorem highFirst_new (unseen : ∀ kind, ¬Seen candles lookback b kind) :
    HighFirst candles lookback (b + 1) ↔ (pivotAt candles lookback .high b).isSome := by
  rw [Option.isSome_iff_exists]
  constructor
  · rintro ⟨i, before, ⟨price, pivot⟩, -⟩
    by_cases last_bar : i = b
    · subst last_bar
      exact ⟨price, pivotAt_iff.mpr pivot⟩
    · exact absurd ⟨i, by omega, price, pivot⟩ (unseen .high)
  · rintro ⟨price, found⟩
    refine ⟨b, by omega, ⟨price, pivotAt_iff.mp found⟩, ?_⟩
    intro j earlier other low
    exact unseen .low ⟨j, earlier, other, low⟩

/-- The walk knows the levels, the trend and the events before a bar. -/
structure WalkKnows (candles : List Candle) (lookback b : ℕ) (walk : Walk) : Prop where
  level : ∀ kind price, walk.level kind = some price → Level candles lookback b kind price
  unseen : ∀ kind, walk.level kind = none → ¬Seen candles lookback b kind
  first : ∀ kind, walk.firstKind = some kind → (kind = .high ↔ HighFirst candles lookback b)
  started : walk.firstKind = none → ∀ kind, ¬Seen candles lookback b kind
  seenFirst : walk.firstKind.isSome → ∃ kind, Seen candles lookback b kind
  trend : walk.trend = trendAfter candles lookback b
  opened : walk.trend.isSome ↔ walk.lastHigh.isSome ∧ walk.lastLow.isSome
  swings : walk.swings.map (fun swing => (swing.index, swing.kind, swing.price)) =
    (List.range b).flatMap (pivotsAt candles lookback)
  events : ∀ event, event ∈ walk.events ↔ event.index < b ∧ CrossingReport candles lookback event
  ordered : walk.events.Pairwise fun one other => one.index < other.index

variable {walk : Walk} {candle : Candle}

/-- The walk has a level exactly when a swing was seen. -/
theorem WalkKnows.seen (follows : WalkKnows candles lookback b walk) (kind : SwingKind) :
    (walk.level kind).isSome ↔ Seen candles lookback b kind :=
  isSome_iff_seen (follows.level kind) (follows.unseen kind)

/-- Before the first bar nothing is known. -/
theorem follows_start (candles : List Candle) (lookback : ℕ) : WalkKnows candles lookback 0 {} where
  level kind price found := by cases kind <;> cases found
  unseen kind _ := by
    rintro ⟨i, before, -⟩
    omega
  first kind found := by cases found
  started _ kind := by
    rintro ⟨i, before, -⟩
    omega
  seenFirst found := by cases found
  -- There is neither a trend nor an event before the first bar.
  trend := rfl
  opened := by decide
  swings := rfl
  events event := by
    constructor
    · intro listed
      cases listed
    · intro reported
      exact absurd reported.1 (Nat.not_lt_zero _)
  ordered := .nil

/-- The close before a bar. -/
def closeBefore (candles : List Candle) : ℕ → Option ℚ
  | 0 => none
  | b + 1 => candles[b]?.map Candle.close

/-- The breaks of a bar are the crossings of its close. -/
theorem WalkKnows.breaks (follows : WalkKnows candles lookback b walk)
    (at_b : candles[b]? = some candle) :
    let broken := (closeBefore candles b).elim walk fun prevClose =>
      walk.breaks b candle.openTime prevClose candle.close
    ((∀ direction level, ¬Crosses candles lookback b direction level) ∧ broken = walk) ∨
      ∃ direction level trend, Crosses candles lookback b direction level ∧ walk.trend = some trend ∧
        broken = { walk with
          events := walk.events ++ [⟨b, candle.openTime, trend.eventType direction, level, direction⟩]
          trend := some (trend.next direction) } := by
  intro broken
  -- The first bar has no close before it, and no pivot before it either.
  cases b with
  | zero =>
    refine .inl ⟨?_, rfl⟩
    rintro direction level ⟨⟨i, before, -⟩, -⟩
    omega
  | succ a =>
    have inside : a < candles.length := by
      have bound := (List.getElem?_eq_some_iff.mp at_b).1
      omega
    have at_a : candles[a]? = some candles[a] := List.getElem?_eq_getElem inside
    have same : broken = walk.breaks (a + 1) candle.openTime candles[a].close candle.close := by
      show (candles[a]?.map Candle.close).elim _ _ = _
      rw [at_a]
      rfl
    rw [same]
    rcases walk.breaks_cases (a + 1) candle.openTime candles[a].close candle.close with
      quiet | ⟨level, direction, breaks⟩
    · refine .inl ⟨?_, quiet.2⟩
      rintro direction level ⟨high_seen, low_seen, previous, now, at_previous, at_now, crossed⟩
      rw [Nat.add_sub_cancel, at_a] at at_previous
      rw [at_b] at at_now
      cases at_previous
      cases at_now
      -- A crossing would be one of the levels that the walk has.
      obtain ⟨high, last_high⟩ := Option.isSome_iff_exists.mp ((follows.seen .high).mpr high_seen)
      obtain ⟨low, last_low⟩ := Option.isSome_iff_exists.mp ((follows.seen .low).mpr low_seen)
      have still := quiet.1 high low last_high last_low
      cases direction with
      | bullish =>
        obtain rfl := crossed.1.unique (follows.level .high high last_high)
        exact still.1 crossed.2
      | bearish =>
        obtain rfl := crossed.1.unique (follows.level .low low last_low)
        exact still.2 crossed.2
    · obtain ⟨trend, known⟩ := Option.isSome_iff_exists.mp (follows.opened.mpr breaks.seen)
      refine .inr ⟨direction, level, trend, ?_, known, breaks.after trend known⟩
      refine ⟨(follows.seen .high).mp breaks.seen.1, (follows.seen .low).mp breaks.seen.2,
        candles[a], candle, ?_, at_b, ?_⟩
      · rw [Nat.add_sub_cancel, at_a]
      · have crossed := breaks.crossed
        cases direction with
        | bullish => exact ⟨follows.level .high level crossed.1, crossed.2⟩
        | bearish => exact ⟨follows.level .low level crossed.1, crossed.2⟩

/-- The kind of the first pivot, when the bar may have one. -/
def firstAt (candles : List Candle) (lookback b : ℕ) : Option SwingKind :=
  ((pivotAt candles lookback .high b).map fun _ => SwingKind.high).or
    ((pivotAt candles lookback .low b).map fun _ => SwingKind.low)

/-- The first swing is seen with its bar. -/
theorem firstAt_seen {kind : SwingKind} (found : firstAt candles lookback b = some kind) :
    Seen candles lookback (b + 1) kind ∧ (kind = .high ↔ (pivotAt candles lookback .high b).isSome) := by
  unfold firstAt at found
  cases high : pivotAt candles lookback .high b with
  | some price =>
    rw [high] at found
    cases found
    exact ⟨⟨b, by omega, price, pivotAt_iff.mp high⟩, fun _ => rfl, fun _ => rfl⟩
  | none =>
    rw [high] at found
    cases low : pivotAt candles lookback .low b with
    | none =>
      rw [low] at found
      cases found
    | some price =>
      rw [low] at found
      cases found
      exact ⟨⟨b, by omega, price, pivotAt_iff.mp low⟩,
        fun same => (by cases same), fun impossible => (by cases impossible)⟩

/-- Without a first swing nothing is seen yet. -/
theorem firstAt_none (absent : firstAt candles lookback b = none) (unseen : ∀ kind, ¬Seen candles lookback b kind)
    (kind : SwingKind) : ¬Seen candles lookback (b + 1) kind := by
  unfold firstAt at absent
  rw [Option.or_eq_none_iff, Option.map_eq_none_iff, Option.map_eq_none_iff] at absent
  -- Neither kind has a pivot on the bar.
  have missing : (pivotAt candles lookback kind b).or none = none := by
    rw [Option.or_none]
    cases kind with
    | high => exact absent.1
    | low => exact absent.2
  exact unseen_succ (fun _ => unseen kind) missing

/-- The trend moves with the events of the bar, or opens with its pivots. -/
theorem trendAfter_succ (follows : WalkKnows candles lookback b walk)
    (quiet : ∀ direction level, ¬Crosses candles lookback b direction level) :
    trendAfter candles lookback (b + 1) = walk.trend.or (openingTrend candles lookback (b + 1)) := by
  rw [trendAfter, ← follows.trend]
  -- Without a crossing a trend stays, and without a trend it may open.
  cases walk.trend with
  | none => rfl
  | some trend =>
    dsimp only
    rw [if_neg (by rintro ⟨level, crossed⟩; exact quiet _ level crossed),
      if_neg (by rintro ⟨level, crossed⟩; exact quiet _ level crossed)]
    rfl

/-- A crossing turns the trend, or keeps it. -/
theorem trendAfter_event {level : ℚ} {trend : Trend}
    (follows : WalkKnows candles lookback b walk) (known : walk.trend = some trend)
    (crossed : Crosses candles lookback b direction level) :
    trendAfter candles lookback (b + 1) = some (trend.next direction) := by
  rw [trendAfter, ← follows.trend, known]
  dsimp only
  cases direction with
  | bullish => rw [if_pos ⟨level, crossed⟩]
  | bearish =>
    -- The specification asks for a break upwards first; there is none.
    have other : ¬∃ level, Crosses candles lookback b .bullish level := by
      rintro ⟨up, bullish⟩
      exact crosses_one_way bullish crossed
    rw [if_neg other, if_pos ⟨level, crossed⟩]

/-- The events before the next bar are those before this one, and what this one reports. -/
theorem WalkKnows.event_iff (follows : WalkKnows candles lookback b walk)
    (at_b : candles[b]? = some candle) {level : ℚ} {trend : Trend}
    (known : walk.trend = some trend) (crossed : Crosses candles lookback b direction level) (event : StructureEvent) :
    event ∈ walk.events ++ [⟨b, candle.openTime, trend.eventType direction, level, direction⟩] ↔
      event.index < b + 1 ∧ CrossingReport candles lookback event := by
  rw [List.mem_append, List.mem_singleton, follows.events]
  constructor
  · rintro (⟨before, reports⟩ | rfl)
    · exact ⟨by omega, reports⟩
    · refine ⟨Nat.lt_succ_self b, crossed, ?_, trend, ?_, rfl⟩
      · rw [at_b]
        rfl
      · rw [← follows.trend, known]
  · rintro ⟨before, reports⟩
    by_cases earlier : event.index < b
    · exact .inl ⟨earlier, reports⟩
    · right
      -- It is an event of this bar, and there is only one.
      obtain ⟨index, time, type, eventLevel, eventDirection⟩ := event
      obtain rfl : index = b := by
        have least : ¬index < b := earlier
        have most : index < b + 1 := before
        omega
      obtain ⟨found, timed, trend', trended, typed⟩ := reports
      rw [at_b] at timed
      cases timed
      rw [← follows.trend, known] at trended
      cases trended
      have way : eventDirection = direction := by
        cases eventDirection <;> cases direction
        · rfl
        · exact (crosses_one_way found crossed).elim
        · exact (crosses_one_way crossed found).elim
        · rfl
      subst way
      obtain rfl : eventLevel = level := Crosses.level_unique found crossed
      have named : type = trend.eventType eventDirection := typed
      rw [named]

/-- The trend opens once both kinds were seen. -/
theorem openingTrend_isSome :
    (openingTrend candles lookback b).isSome ↔ Seen candles lookback b .high ∧ Seen candles lookback b .low := by
  unfold openingTrend
  by_cases both : Seen candles lookback b .high ∧ Seen candles lookback b .low
  · rw [if_pos both]
    exact ⟨fun _ => both, fun _ => rfl⟩
  · rw [if_neg both]
    exact ⟨fun impossible => (by cases impossible), fun held => absurd held both⟩

/-- The walk behind a bar whose close has left it with a trend and with events. -/
structure Passed (candles : List Candle) (lookback b : ℕ) (walk after : Walk) (trend : Option Trend)
    (events : List StructureEvent) : Prop where
  level : ∀ kind, after.level kind = (pivotAt candles lookback kind b).or (walk.level kind)
  firstKind : after.firstKind = walk.firstKind.or (firstAt candles lookback b)
  swings : after.swings.map (fun swing => (swing.index, swing.kind, swing.price)) =
    walk.swings.map (fun swing => (swing.index, swing.kind, swing.price)) ++ pivotsAt candles lookback b
  events : after.events = events
  trend : after.trend = match trend, after.firstKind, after.lastHigh, after.lastLow with
    | none, some kind, some _, some _ => some (if kind = .high then .down else .up)
    | trend, _, _, _ => trend

/-- What a bar does besides its event. -/
theorem passed_bar {close : Option ℚ} {trend : Option Trend} {events : List StructureEvent}
    (broken : (close.elim walk fun prevClose => walk.breaks b candle.openTime prevClose candle.close) =
      { walk with events := events, trend := trend }) :
    Passed candles lookback b walk
      (walk.bar (detectSwings (candles.map Candle.high) (candles.map Candle.low) lookback) b close candle)
      trend events := by
  unfold Walk.bar
  rw [detectSwings_at]
  dsimp only
  rw [broken]
  obtain ⟨⟨lastHigh, lastLow⟩, firstKind, sameTrend, sameEvents, swings⟩ :=
    Walk.pivots_spec candles lookback b candle.openTime { walk with events := events, trend := trend }
  generalize (pivotsAt candles lookback b).foldl (Walk.pivot candle.openTime) _ = pivoted at *
  obtain ⟨level, first, sameSwings, finalEvents, finalTrend⟩ := pivoted.initial_spec
  have high : pivoted.initial.lastHigh = pivoted.lastHigh := level .high
  have low : pivoted.initial.lastLow = pivoted.lastLow := level .low
  refine ⟨?_, first.trans firstKind, ?_, finalEvents.trans sameEvents, ?_⟩
  · intro kind
    rw [level]
    cases kind with
    | high => exact lastHigh
    | low => exact lastLow
  · rw [sameSwings, swings]
  · rw [finalTrend, sameTrend, first, high, low]

namespace Passed

variable {walk after : Walk} {trend : Option Trend} {events : List StructureEvent}
  (passed : Passed candles lookback b walk after trend events) (follows : WalkKnows candles lookback b walk)

include passed

/-- A trend that is there stays. -/
theorem settled {trended : Trend} (known : trend = some trended) : after.trend = some trended := by
  rw [passed.trend, known]

include follows

/-- A level of the walk is one of the series, -/
theorem known (kind : SwingKind) (price : ℚ) (found : after.level kind = some price) :
    Level candles lookback (b + 1) kind price := by
  rw [passed.level] at found
  exact level_succ (follows.level kind) found

/-- a level that it lacks was not seen, -/
theorem unseen (kind : SwingKind) (absent : after.level kind = none) : ¬Seen candles lookback (b + 1) kind := by
  rw [passed.level] at absent
  exact unseen_succ (follows.unseen kind) absent

/-- and it has those that were seen. -/
theorem seen (kind : SwingKind) : (after.level kind).isSome ↔ Seen candles lookback (b + 1) kind :=
  isSome_iff_seen (passed.known follows kind) (passed.unseen follows kind)

/-- The first pivot is of the kind that came first. -/
theorem first (kind : SwingKind) (found : after.firstKind = some kind) :
    (kind = .high ↔ HighFirst candles lookback (b + 1)) ∧ ∃ seenKind, Seen candles lookback (b + 1) seenKind := by
  rw [passed.firstKind] at found
  -- Which kind came first is known from before, or is told by the pivots of this bar.
  cases started : walk.firstKind with
  | some earlier =>
    rw [started] at found
    cases found
    obtain ⟨seenKind, before⟩ := follows.seenFirst (by rw [started]; rfl)
    rw [highFirst_succ before]
    exact ⟨follows.first kind started, seenKind, before.succ⟩
  | none =>
    rw [started, Option.none_or] at found
    obtain ⟨now, high⟩ := firstAt_seen found
    rw [highFirst_new (follows.started started)]
    exact ⟨high, kind, now⟩

/-- Before the first swing nothing was seen. -/
theorem unstarted (absent : after.firstKind = none) (kind : SwingKind) : ¬Seen candles lookback (b + 1) kind := by
  rw [passed.firstKind, Option.or_eq_none_iff] at absent
  exact firstAt_none absent.2 (follows.started absent.1) kind

/-- A trend that is not there opens with the pivots of both kinds. -/
theorem opening (flat : trend = none) : after.trend = openingTrend candles lookback (b + 1) := by
  rw [passed.trend, flat]
  unfold openingTrend
  have high := passed.seen follows .high
  have low := passed.seen follows .low
  change after.lastHigh.isSome ↔ _ at high
  change after.lastLow.isSome ↔ _ at low
  -- The walk opens a trend exactly when it has both levels.
  by_cases both : Seen candles lookback (b + 1) .high ∧ Seen candles lookback (b + 1) .low
  · obtain ⟨lastHigh, found_high⟩ := Option.isSome_iff_exists.mp (high.mpr both.1)
    obtain ⟨lastLow, found_low⟩ := Option.isSome_iff_exists.mp (low.mpr both.2)
    cases found : after.firstKind with
    | none => exact absurd both.1 (passed.unstarted follows found .high)
    | some kind =>
      have same := (passed.first follows kind found).1
      rw [found_high, found_low, if_pos both]
      show some (if kind = .high then Trend.down else .up) = _
      by_cases highFirst : HighFirst candles lookback (b + 1)
      · rw [if_pos (same.mpr highFirst), if_pos highFirst]
      · rw [if_neg fun high => highFirst (same.mp high), if_neg highFirst]
  · rw [if_neg both]
    cases found_high : after.lastHigh with
    | none => cases after.firstKind <;> rfl
    | some lastHigh =>
      cases found_low : after.lastLow with
      | none => cases after.firstKind <;> rfl
      | some lastLow =>
        rw [found_high] at high
        rw [found_low] at low
        exact absurd ⟨high.mp rfl, low.mp rfl⟩ both

/-- The walk knows what there is to know, if its trend and its events are right. -/
theorem knows (trended : after.trend = trendAfter candles lookback (b + 1))
    (opened : after.trend.isSome ↔ Seen candles lookback (b + 1) .high ∧ Seen candles lookback (b + 1) .low)
    (listed : ∀ event, event ∈ events ↔ event.index < b + 1 ∧ CrossingReport candles lookback event)
    (ordered : events.Pairwise fun one other => one.index < other.index) :
    WalkKnows candles lookback (b + 1) after where
  level := passed.known follows
  unseen := passed.unseen follows
  first kind found := (passed.first follows kind found).1
  started := passed.unstarted follows
  seenFirst started := by
    obtain ⟨kind, found⟩ := Option.isSome_iff_exists.mp started
    exact (passed.first follows kind found).2
  trend := trended
  opened := by
    rw [opened, ← passed.seen follows .high, ← passed.seen follows .low]
    rfl
  swings := by
    rw [passed.swings, follows.swings, List.range_succ, List.flatMap_append, List.flatMap_singleton]
  events event := by rw [passed.events, listed]
  ordered := by
    rw [passed.events]
    exact ordered

end Passed

/-- A bar without an event: the trend stays, or opens. -/
theorem Passed.quiet {after : Walk} (passed : Passed candles lookback b walk after walk.trend walk.events)
    (follows : WalkKnows candles lookback b walk)
    (still : ∀ direction level, ¬Crosses candles lookback b direction level) :
    WalkKnows candles lookback (b + 1) after := by
  have flow : after.trend = trendAfter candles lookback (b + 1) ∧
      (after.trend.isSome ↔ Seen candles lookback (b + 1) .high ∧ Seen candles lookback (b + 1) .low) := by
    rw [trendAfter_succ follows still]
    cases before : walk.trend with
    | none =>
      rw [Option.none_or, passed.opening follows before]
      exact ⟨rfl, openingTrend_isSome⟩
    | some trended =>
      have seenBefore := follows.opened.mp (by rw [before]; rfl)
      rw [Option.some_or, passed.settled before]
      exact ⟨rfl, fun _ => ⟨((follows.seen .high).mp seenBefore.1).succ, ((follows.seen .low).mp seenBefore.2).succ⟩,
        fun _ => rfl⟩
  refine passed.knows follows flow.1 flow.2 ?_ follows.ordered
  intro event
  rw [follows.events]
  constructor
  · rintro ⟨earlier, reports⟩
    exact ⟨by omega, reports⟩
  · rintro ⟨before, reports⟩
    by_cases last_bar : event.index = b
    · have found := reports.1
      rw [last_bar] at found
      exact absurd found (still _ _)
    · exact ⟨by omega, reports⟩

/-- A bar with an event, which moves the trend. -/
theorem Passed.event {after : Walk} {level : ℚ} {trend : Trend}
    (passed : Passed candles lookback b walk after (some (trend.next direction))
      (walk.events ++ [⟨b, candle.openTime, trend.eventType direction, level, direction⟩]))
    (follows : WalkKnows candles lookback b walk) (at_b : candles[b]? = some candle)
    (known : walk.trend = some trend) (crossed : Crosses candles lookback b direction level) :
    WalkKnows candles lookback (b + 1) after := by
  have moved : after.trend = some (trend.next direction) := passed.settled rfl
  refine passed.knows follows ?_ ?_ (follows.event_iff at_b known crossed) ?_
  · rw [moved, trendAfter_event follows known crossed]
  · rw [moved]
    exact ⟨fun _ => ⟨crossed.1.succ, crossed.2.1.succ⟩, fun _ => rfl⟩
  · rw [List.pairwise_append]
    refine ⟨follows.ordered, List.pairwise_singleton _ _, ?_⟩
    intro earlier listed now new
    rw [List.mem_singleton] at new
    subst new
    exact ((follows.events earlier).mp listed).1

/-- After a bar the walk knows what there is to know before the next one. -/
theorem WalkKnows.bar (follows : WalkKnows candles lookback b walk) (at_b : candles[b]? = some candle) :
    WalkKnows candles lookback (b + 1)
      (walk.bar (detectSwings (candles.map Candle.high) (candles.map Candle.low) lookback) b (closeBefore candles b)
        candle) := by
  rcases follows.breaks at_b with ⟨quiet, same⟩ | ⟨direction, level, trend, crossed, known, same⟩
  · exact (passed_bar same).quiet follows quiet
  · exact (passed_bar same).event follows at_b known crossed

/-- The walk along the first bars of a series. -/
def walked (candles : List Candle) (lookback k : ℕ) : Walk :=
  ({} : Walk).bars (detectSwings (candles.map Candle.high) (candles.map Candle.low) lookback) 0 none (candles.take k)

/-- The walk to the next bar takes that bar. -/
theorem walked_succ (at_b : candles[b]? = some candle) :
    walked candles lookback (b + 1) =
      (walked candles lookback b).bar (detectSwings (candles.map Candle.high) (candles.map Candle.low) lookback) b
        (closeBefore candles b) candle := by
  have inside : b < candles.length := (List.getElem?_eq_some_iff.mp at_b).1
  have close : Walk.closeAfter none (candles.take b) = closeBefore candles b := by
    cases b with
    | zero => rfl
    | succ a =>
      show ((candles.take (a + 1)).getLast?.map Candle.close).or none = candles[a]?.map Candle.close
      rw [Option.or_none, List.getLast?_take, if_neg (Nat.succ_ne_zero a), Nat.add_sub_cancel,
        List.getElem?_eq_getElem (by omega)]
      rfl
  unfold walked
  rw [List.take_add_one, at_b, Walk.bars_append, close, List.length_take, Nat.min_eq_left (by omega), Nat.zero_add]
  rfl

/-- Along the whole series the walk knows what there is to know. -/
theorem follows_walked (candles : List Candle) (lookback b : ℕ) (inside : b ≤ candles.length) :
    WalkKnows candles lookback b (walked candles lookback b) := by
  induction b with
  | zero => exact follows_start candles lookback
  | succ b ih =>
    have at_b : candles[b]? = some candles[b] := List.getElem?_eq_getElem (by omega)
    rw [walked_succ at_b]
    exact (ih (by omega)).bar at_b

end Follow

end Rasat
