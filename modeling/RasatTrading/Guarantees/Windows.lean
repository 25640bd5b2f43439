import RasatTrading.Guarantees.Independence

/-! When a filter over a window has the value that the stored series gives it. -/

namespace Rasat

open Ascending Coop Rounding

/-- All stored records of a type, oldest first. -/
def FuturesTable.history (table : FuturesTable) (symbol type : String) : List FuturesRecord :=
  (table.rows.filter fun record => record.symbol = symbol ∧ record.type = type).insertionSort
    fun left right => left.eventTime ≤ right.eventTime

/-- The records that are fresh. -/
def freshOnly (records : List FuturesRecord) : List FuturesRecord :=
  records.filter fun record => record.freshness = "fresh"

/-- The stored bars of a pair that a reading of a clock counts as closed. -/
def PaWorld.closedHistory (world : PaWorld) (pair : Pair) (now : ℚ) : List Candle :=
  (Timeframe.ofName pair.timeframe).elim [] fun tf =>
    closedOnly (world.candles.history ⟨pair.symbol, tf, .spot⟩) tf now

/-- The closed ones among the newest stored bars of a pair. -/
def PaWorld.closedRead (world : PaWorld) (pair : Pair) (lookback : ℕ) (now : ℚ) : List Candle :=
  (Timeframe.ofName pair.timeframe).elim [] fun tf =>
    closedOnly (lastOf lookback (world.candles.history ⟨pair.symbol, tf, .spot⟩)) tf now

/-- The fresh samples of the open interest of a symbol. -/
def PaWorld.freshHistory (world : PaWorld) (symbol : String) : List FuturesRecord :=
  freshOnly (world.futures.history symbol "open_interest")

/-- The samples of the open interest that a context has. -/
def sampleLimit : ℕ := 20

/-- The fresh ones among the newest samples of the open interest. -/
def PaWorld.freshRead (world : PaWorld) (symbol : String) : List FuturesRecord :=
  freshOnly (lastOf sampleLimit (world.futures.history symbol "open_interest"))

/-- A change over a window. -/
inductive Windowed
  | price (windowBars : ℕ+)
  | volume (recentBars baselineBars : ℕ+)
  | openInterest (window : ℕ+)

namespace Windowed

/-- The leaf that compares the change with thresholds. -/
def test (bounds : Bounds) : Windowed → FilterTest
  | .price windowBars => .priceChange windowBars bounds
  | .volume recentBars baselineBars => .volumeChange recentBars baselineBars bounds
  | .openInterest window => .oiChange window bounds

/-- Whether some closed bars and fresh samples are as many as the window needs. -/
def Enough (closed : List Candle) (fresh : List FuturesRecord) : Windowed → Prop
  | .price windowBars => windowBars + 1 ≤ closed.length
  | .volume recentBars baselineBars => recentBars + baselineBars ≤ closed.length
  | .openInterest window => window + 1 ≤ fresh.length

/-- The change in percent over closed bars or fresh samples, counted from the newest one; there is none without
something to compare with. -/
def change (closed : List Candle) (fresh : List FuturesRecord) : Windowed → Option ℚ
  | .price windowBars => do
    let latest ← closed.reverse[0]?
    let base ← closed.reverse[(windowBars : ℕ)]?
    if base.close = 0 then none else some (changePct latest.close base.close)
  | .volume recentBars baselineBars =>
    let newest := closed.reverse.map Candle.volume
    let base := ((newest.take (recentBars + baselineBars)).drop recentBars).sum
    if base ≤ 0 then none else some (changePct (newest.take recentBars).sum base)
  | .openInterest window => do
    let latest ← (← fresh.reverse[0]?).value
    let base ← (← fresh.reverse[(window : ℕ)]?).value
    if base = 0 then none else some (changePct latest base)

/-- Whether the newest fresh sample says that there is no open interest at all. -/
def Emptied (fresh : List FuturesRecord) : Windowed → Prop
  | .openInterest _ => (fresh.reverse[0]?).bind FuturesRecord.value = some 0
  | _ => False

variable {closed older : List Candle} {fresh : List FuturesRecord} {w : Windowed}

/-- The change over a series is told by any end of it that is as long as the window needs. -/
theorem change_suffix {lastClosed : List Candle} {lastFresh : List FuturesRecord} (bars : lastClosed <:+ closed)
    (samples : lastFresh <:+ fresh) (enough : w.Enough lastClosed lastFresh) :
    w.change closed fresh = w.change lastClosed lastFresh := by
  cases w with
  | price windowBars =>
    have needed : (windowBars : ℕ) + 1 ≤ lastClosed.length := enough
    simp only [change]
    rw [reverse_suffix bars (by omega), reverse_suffix bars (by omega)]
  | volume recentBars baselineBars =>
    have needed : (recentBars : ℕ) + baselineBars ≤ lastClosed.length := enough
    simp only [change, ← List.map_take]
    rw [take_reverse_suffix bars (by omega), take_reverse_suffix bars (by omega)]
  | openInterest window =>
    have needed : (window : ℕ) + 1 ≤ lastFresh.length := enough
    simp only [change]
    rw [reverse_suffix samples (by omega), reverse_suffix samples (by omega)]

end Windowed

/-! The code's values. -/

section Values

variable {ctx : Context}

theorem map_reverse_place {α β : Type} (image : α → β) (list : List α) (back : ℕ) :
    (list.map image).reverse[back]? = (list.reverse[back]?).map image := by
  rw [← List.map_reverse, List.getElem?_map]

/-- The price filter has the change over its candles when they are enough. -/
theorem priceChangePct_enough {windowBars : ℕ+} {fresh : List FuturesRecord}
    (enough : (windowBars : ℕ) + 1 ≤ ctx.candles.length) :
    priceChangePct ctx windowBars = (Windowed.price windowBars).change ctx.candles fresh := by
  have closes : (windowBars : ℕ) + 1 ≤ (ctx.candles.map Candle.close).length := by simpa using enough
  obtain ⟨base, later, read, length, place, newest⟩ := lastOf_succ closes
  unfold priceChangePct Windowed.change
  rw [read]
  simp only [length, lt_irrefl, false_or, newest windowBars.pos]
  rw [map_reverse_place] at place ⊢
  -- The base and the latest close are those of two candles.
  obtain ⟨candle, found, rfl⟩ := Option.map_eq_some_iff.mp place
  rw [found]
  cases ctx.candles.reverse[0]? with
  | none => simp
  | some latest => simp

theorem priceChangePct_short {windowBars : ℕ+} (short : ¬(windowBars : ℕ) + 1 ≤ ctx.candles.length) :
    priceChangePct ctx windowBars = none := by
  unfold priceChangePct
  have length := length_lastOf (windowBars + 1) (ctx.candles.map Candle.close)
  rw [List.length_map] at length
  cases read : lastOf (windowBars + 1) (ctx.candles.map Candle.close) with
  | nil => rfl
  | cons base later =>
    rw [read, List.length_cons] at length
    exact if_pos (.inl (by omega))

/-- The volume filter has the change over its candles when they are enough. -/
theorem volumeChangePct_enough {recentBars baselineBars : ℕ+} {fresh : List FuturesRecord}
    (enough : (recentBars : ℕ) + baselineBars ≤ ctx.candles.length) :
    volumeChangePct ctx recentBars baselineBars =
      (Windowed.volume recentBars baselineBars).change ctx.candles fresh := by
  have volumes : (recentBars : ℕ) + baselineBars ≤ (ctx.candles.map Candle.volume).length := by simpa using enough
  simp only [volumeChangePct, List.length_map]
  rw [if_neg (by omega), sum_lastOf, sum_take_lastOf volumes, ← List.map_reverse]
  simp only [Windowed.change, List.drop_take, Nat.add_sub_cancel_left]

theorem volumeChangePct_short {recentBars baselineBars : ℕ+}
    (short : ¬(recentBars : ℕ) + baselineBars ≤ ctx.candles.length) :
    volumeChangePct ctx recentBars baselineBars = none := by
  simp only [volumeChangePct, List.length_map]
  exact if_pos (by omega)

theorem oiChangePct_eq (window : ℕ) :
    oiChangePct ctx window =
      match lastOf (window + 1) (freshOnly ctx.oiSeries) with
      | [] => none
      | base :: later =>
        if later.length < window then none
        else (do
          let latest ← (← later.getLast?).value
          let base ← base.value
          if latest = 0 ∨ base = 0 then none else some (changePct latest base)) := rfl

/-- The open-interest filter has the change over the fresh samples when they are enough, unless the last one is zero. -/
theorem oiChangePct_enough {window : ℕ+} {candles : List Candle}
    (enough : (window : ℕ) + 1 ≤ (freshOnly ctx.oiSeries).length)
    (filled : ¬(Windowed.openInterest window).Emptied (freshOnly ctx.oiSeries)) :
    oiChangePct ctx window = (Windowed.openInterest window).change candles (freshOnly ctx.oiSeries) := by
  obtain ⟨base, later, read, length, place, newest⟩ := lastOf_succ enough
  rw [oiChangePct_eq, read]
  simp only [Windowed.change, Windowed.Emptied] at filled ⊢
  rw [place]
  simp only [length, lt_irrefl, if_false, newest window.pos]
  -- With a newest value other than zero, only the base can be missing.
  cases last : (freshOnly ctx.oiSeries).reverse[0]? with
  | none => rfl
  | some record =>
    cases latest : record.value with
    | none => simp [latest]
    | some number =>
      have nonzero : number ≠ 0 := by
        intro zero
        simp [last, latest, zero] at filled
      simp [latest, nonzero]

theorem oiChangePct_none {window : ℕ+}
    (short : ¬(window : ℕ) + 1 ≤ (freshOnly ctx.oiSeries).length ∨
      (Windowed.openInterest window).Emptied (freshOnly ctx.oiSeries)) :
    oiChangePct ctx window = none := by
  rw [oiChangePct_eq]
  by_cases enough : (window : ℕ) + 1 ≤ (freshOnly ctx.oiSeries).length
  · have emptied := short.resolve_left (not_not_intro enough)
    obtain ⟨base, later, read, length, place, newest⟩ := lastOf_succ enough
    rw [read]
    simp only [Windowed.Emptied] at emptied
    simp only [length, lt_irrefl, if_false, newest window.pos]
    obtain ⟨record, last, zero⟩ := Option.bind_eq_some_iff.mp emptied
    cases base.value <;> simp [last, zero]
  · have length := length_lastOf (window + 1) (freshOnly ctx.oiSeries)
    cases read : lastOf (window + 1) (freshOnly ctx.oiSeries) with
    | nil => rfl
    | cons base later =>
      rw [read, List.length_cons] at length
      exact if_pos (by omega)

end Values

namespace Windowed

/-- The change that the code computes in a context. -/
def computed (ctx : Context) : Windowed → Option ℚ
  | .price windowBars => priceChangePct ctx windowBars
  | .volume recentBars baselineBars => volumeChangePct ctx recentBars baselineBars
  | .openInterest window => oiChangePct ctx window

theorem eval_test (ctx : Context) (bounds : Bounds) (w : Windowed) :
    (w.test bounds).eval ctx = .ok (between (w.computed ctx) bounds) := by
  cases w <;> rfl

/-- What is within reach: as many bars or samples as the window needs, and a newest sample that counts. -/
def Within (closed : List Candle) (fresh : List FuturesRecord) (w : Windowed) : Prop :=
  w.Enough closed fresh ∧ ¬w.Emptied fresh

theorem computed_within {ctx : Context} {w : Windowed} (within : w.Within ctx.candles (freshOnly ctx.oiSeries)) :
    w.computed ctx = w.change ctx.candles (freshOnly ctx.oiSeries) := by
  obtain ⟨enough, filled⟩ := within
  cases w with
  | price windowBars => exact priceChangePct_enough enough
  | volume recentBars baselineBars => exact volumeChangePct_enough enough
  | openInterest window => exact oiChangePct_enough enough filled

theorem computed_beyond {ctx : Context} {w : Windowed} (beyond : ¬w.Within ctx.candles (freshOnly ctx.oiSeries)) :
    w.computed ctx = none := by
  cases w with
  | price windowBars => exact priceChangePct_short fun enough => beyond ⟨enough, not_false⟩
  | volume recentBars baselineBars => exact volumeChangePct_short fun enough => beyond ⟨enough, not_false⟩
  | openInterest window => exact oiChangePct_none ((not_and_or.mp beyond).imp_right not_not.mp)

/-- A leaf in a context has the value that a longer series gives it, exactly when the context reaches as far as the
window, or that value is false anyway. -/
theorem test_value_iff {ctx : Context} {closed : List Candle} {fresh : List FuturesRecord} (w : Windowed)
    (bounds : Bounds) (bars : ctx.candles <:+ closed) (samples : freshOnly ctx.oiSeries <:+ fresh) :
    (w.test bounds).eval ctx = .ok (between (w.change closed fresh) bounds) ↔
      w.Within ctx.candles (freshOnly ctx.oiSeries) ∨ between (w.change closed fresh) bounds = false := by
  rw [eval_test]
  by_cases within : w.Within ctx.candles (freshOnly ctx.oiSeries)
  · rw [computed_within within, change_suffix bars samples within.1]
    simp [within]
  · -- Beyond its reach the code computes nothing, and nothing lies between no thresholds.
    rw [computed_beyond within]
    simp only [between, Option.any_none, Except.ok.injEq, within, false_or]
    exact eq_comm

end Windowed

/-! The contexts of the screener and of the alarm service. -/

/-- A context that a service built while other tasks went on: which bars it read, when, by which reading of a clock,
and from which state the samples of the open interest came. -/
inductive BuiltContext (budget : ℕ) (env : Surroundings) (pair : Pair) (w : Windowed) (bounds : Bounds) :
    (lookback : ℕ) → (now : ℚ) → (first last : PaWorld) → Context → Prop
  /-- The context of a symbol in a scan; the host's clock is not read. -/
  | screened {analyze : Pair → PaTask Unit} {node : FilterNode} {step after : ℕ} {world last : PaWorld} {ctx : Context}
    (listed : w.test bounds ∈ node.tests)
    (built : exec (among budget env) (buildContext analyze pair node) (step, world) = (.ok (some ctx), after, last)) :
    BuiltContext budget env pair w bounds paLookback (env.choice (step + 1)).server (env.others step world) last ctx
  /-- The context of an alert in a pass over the alerts, or of a clause. -/
  | evaluated {analyze : Pair → PaTask Unit} {step after : ℕ} {world last : PaWorld} {ctx : Context}
    (built : exec (among budget env) (clauseContext analyze pair) (step, world) = (.ok (some ctx), after, last)) :
    BuiltContext budget env pair w bounds alarmLookback (env.choice (step + 1)).host (env.others step world) last ctx
  /-- The context of the alerts behind an analysis. -/
  | updated {tf : Timeframe} {result : AnalysisResult} {step after : ℕ} {world last : PaWorld} {ctx : Context}
    (analyzed : result.pair = pair) (known : Timeframe.ofName pair.timeframe = some tf)
    (built : exec (among budget env) (updatedContext tf result) (step, world) = (.ok ctx, after, last)) :
    BuiltContext budget env pair w bounds alarmLookback (env.choice (step + 1)).host (env.others step world) last ctx

variable {pair : Pair}

section Reads

variable {budget : ℕ} {env : Surroundings} {step after : ℕ} {world last : PaWorld} {state : ℕ × PaWorld}

/-- A reading of the bars of a pair shows the state in which it is served. -/
theorem exec_candles {lookback : ℕ} {rows : List Candle}
    (ran : exec (among budget env) (await (.candles pair lookback)) (step, world) = (.ok rows, state)) :
    rows = (env.others step world).readCandles pair lookback ∧ state = (step + 1, env.others step world) := by
  rw [await, exec_call] at ran
  simp only [among, PaWorld.serve, PaWorld.access] at ran
  split at ran
  · simp at ran
  · simp at ran
  · rename_i same
    cases same
    simp only [Prod.mk.injEq, Except.ok.injEq] at ran
    exact ⟨ran.1.symm, ran.2.symm⟩

/-- A reading of the open interest shows the state that it leaves. -/
theorem exec_openInterest {symbol : String} {records : List FuturesRecord}
    (ran : exec (among budget env) (openInterest symbol) (step, world) = (.ok records, after, last)) :
    records = last.futures.series symbol "open_interest" sampleLimit := by
  rw [openInterest, await, exec_call] at ran
  simp only [among, PaWorld.serve, PaWorld.access] at ran
  split at ran
  · simp at ran
  · simp at ran
  · rename_i same
    cases same
    simp only [Prod.mk.injEq, Except.ok.injEq] at ran
    obtain ⟨rfl, -, rfl⟩ := ran
    rfl

theorem exec_serverNow {now : ℚ}
    (ran : exec (among budget env) (await .serverNow) (step, world) = (.ok now, state)) :
    now = (env.choice step).server := by
  rw [await, exec_call] at ran
  simp only [among, PaWorld.serve, Prod.mk.injEq, Except.ok.injEq] at ran
  exact ran.1.symm

theorem exec_filterClosedCandles {tf : Timeframe} {candles closed : List Candle}
    (ran : exec (among budget env) (filterClosedCandles tf candles) (step, world) = (.ok closed, state)) :
    closed = closedOnly candles tf (env.choice step).host := by
  unfold filterClosedCandles at ran
  split at ran
  · rename_i empty
    rw [List.isEmpty_iff.mp empty]
    simp only [Prog.pure_eq, exec_done, Prod.mk.injEq, Except.ok.injEq] at ran
    exact ran.1.symm
  · simp only [await, Prog.bind_eq] at ran
    obtain ⟨now, middle, read, rest⟩ := exec_bind_eq_ok ran
    rw [exec_call] at read
    simp only [among, PaWorld.serve, Prod.mk.injEq, Except.ok.injEq] at read
    simp only [Prog.pure_eq, exec_done, Prod.mk.injEq, Except.ok.injEq] at rest
    rw [read.1]
    exact rest.1.symm

/-- The rows that are read are the newest stored ones, and the closed ones among them are kept. -/
theorem closedRead_eq {tf : Timeframe} (known : Timeframe.ofName pair.timeframe = some tf)
    (lookback : ℕ) (now : ℚ) :
    world.closedRead pair lookback now = closedOnly (world.readCandles pair lookback) tf now := by
  unfold PaWorld.closedRead PaWorld.readCandles
  rw [known]
  rfl

theorem updatedContext_reads {tf : Timeframe} {result : AnalysisResult} {ctx : Context}
    (known : Timeframe.ofName result.pair.timeframe = some tf)
    (built : exec (among budget env) (updatedContext tf result) (step, world) = (.ok ctx, after, last)) :
    ctx.candles = (env.others step world).closedRead result.pair alarmLookback (env.choice (step + 1)).host ∧
      freshOnly ctx.oiSeries = last.freshRead result.pair.symbol := by
  unfold updatedContext at built
  simp only [Prog.bind_eq] at built
  obtain ⟨candles, _, read, built⟩ := exec_bind_eq_ok built
  obtain ⟨rfl, rfl⟩ := exec_candles read
  obtain ⟨closed, ⟨_, _⟩, filtered, built⟩ := exec_bind_eq_ok built
  obtain ⟨fundingRate, ⟨_, _⟩, -, built⟩ := exec_bind_eq_ok built
  obtain ⟨oiSeries, ⟨_, _⟩, interest, built⟩ := exec_bind_eq_ok built
  simp only [Prog.pure_eq, exec_done, Prod.mk.injEq, Except.ok.injEq] at built
  obtain ⟨rfl, rfl, rfl⟩ := built
  refine ⟨?_, congrArg freshOnly (exec_openInterest interest)⟩
  rw [closedRead_eq known]
  exact exec_filterClosedCandles filtered

theorem clauseContext_reads {analyze : Pair → PaTask Unit} {ctx : Context}
    (built : exec (among budget env) (clauseContext analyze pair) (step, world) = (.ok (some ctx), after, last)) :
    ctx.candles = (env.others step world).closedRead pair alarmLookback (env.choice (step + 1)).host ∧
      freshOnly ctx.oiSeries = last.freshRead pair.symbol := by
  unfold clauseContext at built
  simp only [Prog.bind_eq] at built
  obtain ⟨candles, _, read, built⟩ := exec_bind_eq_ok built
  obtain ⟨rfl, rfl⟩ := exec_candles read
  -- Every branch but one ends without a context.
  split at built
  · cases built
  split at built
  · cases built
  rename_i tf known
  obtain ⟨closed, ⟨_, _⟩, filtered, built⟩ := exec_bind_eq_ok built
  split at built
  · cases built
  obtain ⟨stored, ⟨_, _⟩, -, built⟩ := exec_bind_eq_ok built
  split at built
  · cases built
  split at built
  · cases built
  obtain ⟨now, ⟨_, _⟩, -, built⟩ := exec_bind_eq_ok built
  split at built
  · cases built
  obtain ⟨fundingRate, ⟨_, _⟩, -, built⟩ := exec_bind_eq_ok built
  obtain ⟨oiSeries, ⟨_, _⟩, interest, built⟩ := exec_bind_eq_ok built
  simp only [Prog.pure_eq, exec_done, Prod.mk.injEq, Except.ok.injEq, Option.some.injEq] at built
  obtain ⟨rfl, rfl, rfl⟩ := built
  refine ⟨?_, congrArg freshOnly (exec_openInterest interest)⟩
  rw [closedRead_eq known]
  exact exec_filterClosedCandles filtered

theorem buildContext_reads {analyze : Pair → PaTask Unit} {node : FilterNode} {ctx : Context}
    (built : exec (among budget env) (buildContext analyze pair node) (step, world) = (.ok (some ctx), after, last)) :
    ctx.candles = (env.others step world).closedRead pair paLookback (env.choice (step + 1)).server ∧
      (node.tests.any FilterTest.usesOi = true → freshOnly ctx.oiSeries = last.freshRead pair.symbol) := by
  unfold buildContext at built
  simp only [Prog.bind_eq] at built
  obtain ⟨candles, _, read, built⟩ := exec_bind_eq_ok built
  obtain ⟨rfl, rfl⟩ := exec_candles read
  split at built
  · cases built
  split at built
  · cases built
  rename_i tf known
  obtain ⟨now, ⟨_, _⟩, clock, built⟩ := exec_bind_eq_ok built
  obtain rfl := exec_serverNow clock
  split at built
  · cases built
  rw [closedRead_eq known]
  split at built
  · obtain ⟨stored, ⟨_, _⟩, -, built⟩ := exec_bind_eq_ok built
    split at built
    · cases built
    split at built
    · cases built
    obtain ⟨fundingRate, ⟨_, _⟩, -, built⟩ := exec_bind_eq_ok built
    split at built
    · obtain ⟨oiSeries, ⟨_, _⟩, interest, built⟩ := exec_bind_eq_ok built
      simp only [Prog.pure_eq, exec_done, Prod.mk.injEq, Except.ok.injEq, Option.some.injEq] at built
      obtain ⟨rfl, rfl, rfl⟩ := built
      exact ⟨rfl, fun _ => congrArg freshOnly (exec_openInterest interest)⟩
    · rename_i unused
      simp only [Prog.pure_eq, exec_done, Prod.mk.injEq, Except.ok.injEq, Option.some.injEq] at built
      obtain ⟨rfl, -, -⟩ := built
      exact ⟨rfl, fun used => absurd used unused⟩
  · rename_i unneeded
    simp only [Prog.pure_eq, exec_done, Prod.mk.injEq, Except.ok.injEq, Option.some.injEq] at built
    obtain ⟨rfl, -, -⟩ := built
    refine ⟨rfl, fun used => absurd ?_ unneeded⟩
    -- The open interest is an analysis as far as the screener is concerned.
    rw [List.any_eq_true] at used ⊢
    obtain ⟨test, listed, uses⟩ := used
    refine ⟨test, listed, ?_⟩
    cases test <;> first | rfl | cases uses

end Reads

/-- The bars of a context are an end of the closed ones that are stored. -/
theorem closedRead_suffix (world : PaWorld) (pair : Pair) (lookback : ℕ) (now : ℚ) :
    world.closedRead pair lookback now <:+ world.closedHistory pair now := by
  unfold PaWorld.closedRead PaWorld.closedHistory
  cases Timeframe.ofName pair.timeframe with
  | none => exact List.suffix_refl _
  | some tf => exact (lastOf_suffix lookback _).filter _

theorem freshRead_suffix (world : PaWorld) (symbol : String) :
    world.freshRead symbol <:+ world.freshHistory symbol :=
  (lastOf_suffix sampleLimit _).filter _

/-- What a context has of the stored series, as far as its leaf looks at it. -/
theorem BuiltContext.reads {budget : ℕ} {env : Surroundings} {w : Windowed} {bounds : Bounds}
    {lookback : ℕ} {now : ℚ} {first last : PaWorld} {ctx : Context}
    (built : BuiltContext budget env pair w bounds lookback now first last ctx) :
    ctx.candles = first.closedRead pair lookback now ∧
      ∀ window, w = .openInterest window → freshOnly ctx.oiSeries = last.freshRead pair.symbol := by
  cases built with
  | screened listed built =>
    have reads := buildContext_reads built
    refine ⟨reads.1, fun window same => reads.2 ?_⟩
    subst same
    exact List.any_eq_true.mpr ⟨_, listed, rfl⟩
  | evaluated built =>
    have reads := clauseContext_reads built
    exact ⟨reads.1, fun _ _ => reads.2⟩
  | updated analyzed known built =>
    subst analyzed
    have reads := updatedContext_reads known built
    exact ⟨reads.1, fun _ _ => reads.2⟩

/-- A leaf has the value that the stored series gives it exactly when the service reads as far back as the window, or
the stored change is not within the thresholds anyway. -/
theorem windows_evaluated_iff {budget : ℕ} {env : Surroundings} {pair : Pair} {w : Windowed} {bounds : Bounds}
    {lookback : ℕ} {now : ℚ} {first last : PaWorld} {ctx : Context}
    (built : BuiltContext budget env pair w bounds lookback now first last ctx) :
    (w.test bounds).eval ctx =
        .ok (between (w.change (first.closedHistory pair now) (last.freshHistory pair.symbol)) bounds) ↔
      w.Within (first.closedRead pair lookback now) (last.freshRead pair.symbol) ∨
        between (w.change (first.closedHistory pair now) (last.freshHistory pair.symbol)) bounds = false := by
  obtain ⟨candles, interest⟩ := built.reads
  have bars : ctx.candles <:+ first.closedHistory pair now := by
    rw [candles]
    exact closedRead_suffix first pair lookback now
  rw [← candles]
  cases w with
  | price windowBars =>
    -- The samples have no part in changes over bars.
    have value := Windowed.test_value_iff (.price windowBars) bounds bars (List.suffix_refl (freshOnly ctx.oiSeries))
    exact value
  | volume recentBars baselineBars =>
    have value := Windowed.test_value_iff (.volume recentBars baselineBars) bounds bars
      (List.suffix_refl (freshOnly ctx.oiSeries))
    exact value
  | openInterest window =>
    have samples : freshOnly ctx.oiSeries <:+ last.freshHistory pair.symbol := by
      rw [interest window rfl]
      exact freshRead_suffix last pair.symbol
    rw [← interest window rfl]
    exact Windowed.test_value_iff (.openInterest window) bounds bars samples

/-- Bars of consecutive hours at one price. -/
def hourlyWorld (hours : ℕ) : PaWorld where
  candles := {
    rows := (List.range hours).map fun hour => hourBar "BTCUSDT" hour 10
    unique := by
      rw [List.map_map]
      refine List.nodup_range.map fun hour other same => ?_
      have opens : ((hour : ℤ) * 3600) = other * 3600 := (Prod.mk.inj same).2
      omega }

/-- Surroundings in which nothing happens, at a time. -/
def stillAt (seconds : ℚ) : Surroundings where
  choice _ := { host := seconds, server := seconds }
  others _ world := world

/-- The filter for any change over some bars. -/
def anyChange (windowBars : ℕ+) : FilterNode := .leaf ((Windowed.price windowBars).test .free)

/-- The screener has a context for each market with bars. -/
theorem hourly_context (hours : ℕ) (windowBars : ℕ+) (seconds : ℚ)
    (found : (exec (among 8 (stillAt seconds)) (buildContext (fun _ => .done ()) ⟨"BTCUSDT", "1h"⟩
      (anyChange windowBars)) (0, hourlyWorld hours)).1.toOption.join.isSome = true) :
    ∃ last ctx, BuiltContext 8 (stillAt seconds) ⟨"BTCUSDT", "1h"⟩ (.price windowBars) {} paLookback
      seconds (hourlyWorld hours) last ctx := by
  rcases ran : exec (among 8 (stillAt seconds)) (buildContext (fun _ => .done ()) ⟨"BTCUSDT", "1h"⟩
    (anyChange windowBars)) (0, hourlyWorld hours) with ⟨outcome, after, last⟩
  rw [ran] at found
  obtain ⟨ctx, same⟩ := Option.isSome_iff_exists.mp found
  cases outcome with
  | error raised => cases same
  | ok context =>
    obtain rfl : context = some ctx := same
    exact ⟨last, ctx, .screened (by simp [anyChange, Bounds.free, FilterNode.tests]) ran⟩

/-- The condition for a window of two bars over three hours. -/
theorem short_window_iff : ∃ last ctx,
    BuiltContext 8 (stillAt (3 * 3600)) ⟨"BTCUSDT", "1h"⟩ (.price 2) {} paLookback (3 * 3600) (hourlyWorld 3) last ctx ∧
    (((Windowed.price 2).test {}).eval ctx = .ok (between ((Windowed.price 2).change
        ((hourlyWorld 3).closedHistory ⟨"BTCUSDT", "1h"⟩ (3 * 3600)) (last.freshHistory "BTCUSDT")) {}) ↔
      (Windowed.price 2).Within ((hourlyWorld 3).closedRead ⟨"BTCUSDT", "1h"⟩ paLookback (3 * 3600))
          (last.freshRead "BTCUSDT") ∨
        between ((Windowed.price 2).change ((hourlyWorld 3).closedHistory ⟨"BTCUSDT", "1h"⟩ (3 * 3600))
          (last.freshHistory "BTCUSDT")) {} = false) := by
  obtain ⟨last, ctx, built⟩ := hourly_context 3 2 (3 * 3600) (by decide +kernel)
  exact ⟨last, ctx, built, windows_evaluated_iff built⟩

/-- With 201 closed bars a window of 200 has a change, which lies between no thresholds; the screener reads 200 bars. -/
theorem long_window_unseen : ∃ last ctx,
    BuiltContext 8 (stillAt (201 * 3600)) ⟨"BTCUSDT", "1h"⟩ (.price 200) {} paLookback (201 * 3600) (hourlyWorld 201)
      last ctx ∧
    (Windowed.price 200).Enough ((hourlyWorld 201).closedHistory ⟨"BTCUSDT", "1h"⟩ (201 * 3600))
      (last.freshHistory "BTCUSDT") ∧
    ((Windowed.price 200).test {}).eval ctx ≠ .ok (between ((Windowed.price 200).change
        ((hourlyWorld 201).closedHistory ⟨"BTCUSDT", "1h"⟩ (201 * 3600)) (last.freshHistory "BTCUSDT")) {}) := by
  obtain ⟨last, ctx, built⟩ := hourly_context 201 200 (201 * 3600) (by decide +kernel)
  have read : ((hourlyWorld 201).closedRead ⟨"BTCUSDT", "1h"⟩ paLookback (201 * 3600)).length = 200 := by
    decide +kernel
  have stored : ((hourlyWorld 201).closedHistory ⟨"BTCUSDT", "1h"⟩ (201 * 3600)).length = 201 := by decide +kernel
  have matching : between ((Windowed.price 200).change
      ((hourlyWorld 201).closedHistory ⟨"BTCUSDT", "1h"⟩ (201 * 3600)) (last.freshHistory "BTCUSDT")) {} = true := by
    show between ((Windowed.price 200).change
      ((hourlyWorld 201).closedHistory ⟨"BTCUSDT", "1h"⟩ (201 * 3600)) []) {} = true
    decide +kernel
  refine ⟨last, ctx, built, le_of_eq stored.symm, ?_⟩
  have beyond : ¬(Windowed.price 200).Within ctx.candles (freshOnly ctx.oiSeries) := by
    intro within
    have enough : 201 ≤ ctx.candles.length := within.1
    rw [built.reads.1, read] at enough
    omega
  rw [Windowed.eval_test, Windowed.computed_beyond beyond, matching]
  simp [between]

end Rasat
