import RasatTrading.Analysis.Scan
import RasatTrading.Coop.Returning
import RasatTrading.Guarantees.FilterParsing
import RasatTrading.Guarantees.Windows

/-! When a scan returns: no symbol that it looks at may raise. -/

namespace Rasat

open Coop Ascending Rounding

variable {budget : ℕ} {env : Surroundings} {analyze : Pair → PaTask Unit} {node : FilterNode} {pair : Pair}
  {shown : SummaryText} {order : SortBy} {s t : ℕ × PaWorld}

/-! What is computed from a context. -/

section Values

variable {ctx : Context}

/-- The bars of a context have positive prices. -/
structure Context.Priced (ctx : Context) : Prop extends ctx.Built where
  positive : ∀ candle ∈ ctx.candles, 0 < candle.close

theorem Context.Priced.last (priced : ctx.Priced) : ∃ close, ctx.close = some close ∧ 0 < close := by
  have last := List.getLast?_eq_some_getLast priced.candles
  refine ⟨_, by rw [priced.close, last, Option.map_some], ?_⟩
  exact priced.positive _ (List.getLast_mem priced.candles)

/-- In a priced context nothing that only a price of zero can disturb fails. -/
theorem Smooth.returned {α : Type} {result : Except Exc α} (smooth : Smooth ctx result) (priced : ctx.Priced) :
    ∃ value, result = .ok value := by
  cases result with
  | ok value => exact ⟨value, rfl⟩
  | error raised =>
    obtain ⟨close, known, positive⟩ := priced.last
    have zero := (smooth raised rfl).2
    rw [known, Option.some.injEq] at zero
    exact absurd zero positive.ne'

mutual

theorem evalWithMatches_smooth (built : ctx.Built) : (node : FilterNode) → Smooth ctx (evalWithMatches ctx node)
  | .leaf test => by
    rw [evalWithMatches]
    refine (test_smooth built test).bind fun value => ?_
    split <;> exact .ok _
  | .and first rest => by
    rw [evalWithMatches]
    refine (evalWithMatches_smooth built first).bind fun found => ?_
    dsimp only
    split
    · exact matchAll_smooth built _ rest
    · exact .ok _
  | .or first rest => by
    rw [evalWithMatches]
    refine (evalWithMatches_smooth built first).bind fun found => ?_
    dsimp only
    exact (matchAny_smooth built _ rest).bind fun _ => .ok _

theorem matchAll_smooth (built : ctx.Built) (matched : List FilterTest) :
    (nodes : List FilterNode) → Smooth ctx (matchAll ctx matched nodes)
  | [] => by
    rw [matchAll]
    exact .ok _
  | node :: rest => by
    rw [matchAll]
    refine (evalWithMatches_smooth built node).bind fun found => ?_
    dsimp only
    split
    · exact matchAll_smooth built _ rest
    · exact .ok _

theorem matchAny_smooth (built : ctx.Built) (matched : List FilterTest) :
    (nodes : List FilterNode) → Smooth ctx (matchAny ctx matched nodes)
  | [] => by
    rw [matchAny]
    exact .ok _
  | node :: rest => by
    rw [matchAny]
    refine (evalWithMatches_smooth built node).bind fun found => ?_
    exact matchAny_smooth built _ rest

end

/-- A summary can only fail by a price of zero. -/
theorem signalSummary_smooth (built : ctx.Built) (test : FilterTest) : Smooth ctx (signalSummary shown ctx test) := by
  obtain ⟨close, known⟩ : ∃ close, ctx.close = some close := by
    rw [built.close, List.getLast?_eq_some_getLast built.candles]
    exact ⟨_, rfl⟩
  cases test with
  | structureEvent | liquiditySweepOccurred | fundingRate | priceChange | volumeChange | oiChange => exact .ok _
  | nearOrderBlock limit =>
    have nearest : Smooth ctx (nearestBlock ctx) := by
      simp only [nearestBlock, known]
      split
      · exact .ok _
      · split
        · rename_i zero
          intro raised same
          cases same
          exact ⟨rfl, zero ▸ known⟩
        · exact .ok _
    exact nearest.bind fun _ => .ok _
  | aboveBelowVwap position =>
    simp only [signalSummary, known]
    cases ctx.vwap with
    | none => exact .ok _
    | some vwap =>
      dsimp only
      split <;> exact .ok _

theorem mapM_smooth {α β : Type} {image : α → Except Exc β} (each : ∀ item, Smooth ctx (image item)) (items : List α) :
    Smooth ctx (items.mapM image) := by
  induction items with
  | nil => exact .ok _
  | cons item rest ih =>
    rw [List.mapM_cons]
    exact (each item).bind fun _ => ih.bind fun _ => .ok _

/-- The bars before the last day have no volume, and the order asks for the change of it. -/
def Undivided (order : SortBy) (candles : List Candle) : Prop :=
  order = .volumeChange ∧ 48 ≤ candles.length ∧ baseVolume candles = 0

/-- A place in the order of priced bars is missing exactly when a volume is divided by nothing. -/
theorem sortValue_returns (priced : ctx.Priced) :
    (∃ value, sortValue order ctx.candles = .ok value) ↔ ¬Undivided order ctx.candles := by
  have others {other : SortBy} (known : other ≠ .volumeChange) : ¬Undivided other ctx.candles :=
    fun undivided => known undivided.1
  cases order with
  | symbol =>
    apply iff_of_true
    · exact ⟨0, by unfold sortValue; rfl⟩
    · exact others (by decide)
  | priceChange =>
    refine iff_of_true ?_ (others (by decide))
    unfold sortValue
    cases bars : lastOf 25 ctx.candles with
    | nil => exact ⟨0, rfl⟩
    | cons base later =>
      -- The base is one of the bars, and its price is not zero.
      have listed : base ∈ ctx.candles := by
        apply (lastOf_suffix 25 ctx.candles).subset
        rw [bars]
        exact List.mem_cons_self
      have nonzero := (priced.positive base listed).ne'
      cases last : ctx.candles.getLast? with
      | none => exact ⟨0, rfl⟩
      | some latest =>
        dsimp only
        rw [if_neg nonzero]
        split
        · exact ⟨0, rfl⟩
        · exact ⟨_, rfl⟩
  | volumeChange =>
    unfold sortValue Undivided
    dsimp only
    by_cases short : ctx.candles.length < 48
    · rw [if_pos short]
      exact iff_of_true ⟨0, rfl⟩ fun undivided => absurd undivided.2.1 (by omega)
    rw [if_neg short]
    by_cases none : baseVolume ctx.candles = 0
    · rw [if_pos none]
      apply iff_of_false
      · intro returned
        obtain ⟨value, same⟩ := returned
        cases same
      · exact fun spared => spared ⟨rfl, by omega, none⟩
    · rw [if_neg none]
      exact iff_of_true ⟨_, rfl⟩ fun undivided => none undivided.2.2

theorem describe_returns (shown : SummaryText) (order : SortBy) (priced : ctx.Priced) (screened : Screened) :
    (∃ entry, describe shown order ctx screened = .ok entry) ↔ ¬Undivided order ctx.candles := by
  have each (test : FilterTest) : Smooth ctx (signalSummary shown ctx test) := signalSummary_smooth priced.toBuilt test
  obtain ⟨summaries, written⟩ := (mapM_smooth each screened.matchedFilters).returned priced
  rw [← sortValue_returns priced]
  simp only [describe, written]
  cases sortValue order ctx.candles with
  | ok value => exact iff_of_true ⟨_, rfl⟩ ⟨value, rfl⟩
  | error raised =>
    refine iff_of_false ?_ ?_
    · intro returned
      obtain ⟨entry, same⟩ := returned
      cases same
    · intro returned
      obtain ⟨value, same⟩ := returned
      cases same

end Values

/-! The turns of a scan. -/

/-- No access to the database or to the exchange fails. -/
def Faultless (env : Surroundings) : Prop := ∀ step, (env.choice step).fault = none

/-- The requests that are answered whatever the market data are. -/
def AlwaysAnswered : PaReq → Prop
  | .candles _ _ | .serverNow | .futuresSeries _ _ _ | .current _ _ | .spend _ | .beginPass _ | .candidateSymbols
  | .symbolValidity _ => True
  | _ => False

/-- Without faults a plain request is answered. -/
theorem plain_answered (budget : ℕ) (faultless : Faultless env) (request : PaReq) (plain : AlwaysAnswered request)
    (s : ℕ × PaWorld) : ∃ value t, exec (among budget env) (await request) s = (.ok value, t) := by
  have served : ∃ value t, among budget env request s = (.ok value, t) := by
    unfold among
    cases request with
    | candles | futuresSeries | current | candidateSymbols =>
      simp only [PaWorld.serve, PaWorld.access, faultless s.1]
      exact ⟨_, _, rfl⟩
    | spend =>
      simp only [PaWorld.serve]
      split <;> exact ⟨_, _, rfl⟩
    | serverNow | beginPass | symbolValidity => exact ⟨_, _, rfl⟩
    | _ => exact plain.elim
  rw [await, exec_call]
  exact served

theorem readStored_answered (budget : ℕ) (faultless : Faultless env) (pair : Pair) (s : ℕ × PaWorld) :
    ∃ stored t, exec (among budget env) (readStored pair) s = (.ok stored, t) := by
  obtain ⟨found, s₁, first⟩ := plain_answered budget faultless (.current .marketStructure pair) trivial s
  obtain ⟨zones, s₂, second⟩ := plain_answered budget faultless (.current .liquidityZones pair) trivial s₁
  obtain ⟨blocks, s₃, third⟩ := plain_answered budget faultless (.current .orderBlocks pair) trivial s₂
  refine ⟨⟨found, zones, blocks⟩, s₃, ?_⟩
  unfold readStored
  simp only [Prog.bind_eq, Prog.pure_eq]
  rw [exec_bind_ok first, exec_bind_ok second, exec_bind_ok third]
  rfl

/-- Whether the stored analysis of a pair lacks a part and the budget grants a new one. -/
def partMissing (pair : Pair) : PaTask Bool := do
  let stored ← readStored pair
  if stored.marketStructure.isNone ∨ stored.liquidity.isNone ∨ stored.orderBlocks.isNone then
    await (.spend .screener)
  else return false

/-- Whether a turn analyses its pair. -/
def analysisDue (pair : Pair) (node : FilterNode) : PaTask Bool := do
  let candles ← await (.candles pair paLookback)
  if candles.isEmpty then return false
  else
    match Timeframe.ofName pair.timeframe with
    | none => return false
    | some tf =>
      let now ← await .serverNow
      if (closedOnly candles tf now).isEmpty then return false
      else if node.tests.any FilterTest.needsAnalysis then partMissing pair
      else return false

/-- The analysis that a turn asks for returns. -/
def AnalysisReturns (budget : ℕ) (env : Surroundings) (analyze : Pair → PaTask Unit) (pair : Pair) (due : Bool)
    (s : ℕ × PaWorld) : Prop := due = true → Returns (among budget env) (analyze pair) s

theorem storedAnalysis_returns (faultless : Faultless env) :
    Returns (among budget env) (storedAnalysis .screener analyze pair) s ↔
      After (among budget env) (partMissing pair) (AnalysisReturns budget env analyze pair) s := by
  unfold storedAnalysis partMissing
  simp only [Prog.bind_eq, Prog.pure_eq]
  obtain ⟨stored, s₁, read⟩ := readStored_answered budget faultless pair s
  rw [returns_then read, after_then read]
  by_cases missing : stored.marketStructure.isNone ∨ stored.liquidity.isNone ∨ stored.orderBlocks.isNone
  · rw [if_pos missing, if_pos missing]
    obtain ⟨granted, s₂, spent⟩ := plain_answered budget faultless (.spend .screener) trivial s₁
    rw [returns_then spent, after_of spent]
    cases granted with
    | false => exact iff_of_true (returns_done _) fun due => nomatch due
    | true =>
      rw [if_pos rfl, returns_bind]
      constructor
      · exact fun both _ => both.1
      · intro returned
        refine ⟨returned rfl, fun _ s₃ _ => ?_⟩
        obtain ⟨made, s₄, again⟩ := readStored_answered budget faultless pair s₃
        exact (returns_then again).mpr (returns_done _)
  · rw [if_neg missing, if_neg missing]
    exact iff_of_true (returns_done _) (after_done.mpr fun due => nomatch due)

/-- What follows the analysis of a context returns. -/
theorem context_rest_returns (faultless : Faultless env) (closed : List Candle) (stored : StoredParts)
    (s : ℕ × PaWorld) :
    Returns (among budget env) (match stored.marketStructure with
      | none => .done none
      | some (asOf, found) => (latestFutures pair.symbol "funding_rate").bind fun fundingRate =>
        if node.tests.any FilterTest.usesOi then
          (openInterest pair.symbol).bind fun oiSeries =>
            .done (some (storedContext closed asOf found stored fundingRate oiSeries))
        else .done (some (storedContext closed asOf found stored fundingRate []))) s := by
  cases stored.marketStructure with
  | none => exact returns_done _
  | some part =>
    obtain ⟨asOf, found⟩ := part
    obtain ⟨series, s₁, funding⟩ :=
      plain_answered budget faultless (.futuresSeries pair.symbol "funding_rate" 1) trivial s
    have latest : exec (among budget env) (latestFutures pair.symbol "funding_rate") s = (.ok series.getLast?, s₁) := by
      unfold latestFutures
      simp only [Prog.bind_eq, Prog.pure_eq]
      rw [exec_bind_ok funding]
      rfl
    dsimp only
    rw [returns_then latest]
    split
    · obtain ⟨oiSeries, s₂, interest⟩ :=
        plain_answered budget faultless (.futuresSeries pair.symbol "open_interest" 20) trivial s₁
      exact (returns_then interest).mpr (returns_done _)
    · exact returns_done _

/-- A stored row has a known timeframe. -/
theorem timeframe_of_read {world : PaWorld} {lookback : ℕ}
    (filled : ¬(world.readCandles pair lookback).isEmpty = true) :
    ∃ tf, Timeframe.ofName pair.timeframe = some tf := by
  cases known : Timeframe.ofName pair.timeframe with
  | some tf => exact ⟨tf, rfl⟩
  | none =>
    refine absurd ?_ filled
    unfold PaWorld.readCandles
    rw [known]
    rfl

/-- A context is built unless the analysis that it needs raises. -/
theorem buildContext_returns (faultless : Faultless env) :
    Returns (among budget env) (buildContext analyze pair node) s ↔
      After (among budget env) (analysisDue pair node) (AnalysisReturns budget env analyze pair) s := by
  have nothing {due : Bool} (not : due = false) (t : ℕ × PaWorld) : AnalysisReturns budget env analyze pair due t := by
    intro is
    rw [not] at is
    cases is
  -- Both programs ask the same, so that they are compared request by request.
  unfold buildContext analysisDue
  simp only [Prog.bind_eq, Prog.pure_eq]
  obtain ⟨candles, s₁, read⟩ := plain_answered budget faultless (.candles pair paLookback) trivial s
  rw [returns_then read, after_then read]
  by_cases empty : candles.isEmpty
  · rw [if_pos empty, if_pos empty]
    exact iff_of_true (returns_done _) (after_done.mpr (nothing rfl _))
  rw [if_neg empty, if_neg empty]
  obtain ⟨tf, known⟩ : ∃ tf, Timeframe.ofName pair.timeframe = some tf := by
    rw [(exec_candles read).1] at empty
    exact timeframe_of_read empty
  rw [known]
  dsimp only
  obtain ⟨now, s₂, clock⟩ := plain_answered budget faultless .serverNow trivial s₁
  rw [returns_then clock, after_then clock]
  cases last : (closedOnly candles tf now).getLast? with
  | none =>
    rw [if_pos (List.isEmpty_iff.mpr (List.getLast?_eq_none_iff.mp last))]
    exact iff_of_true (returns_done _) (after_done.mpr (nothing rfl _))
  | some bar =>
    have closed : ¬(closedOnly candles tf now).isEmpty = true := by
      intro none
      rw [List.isEmpty_iff.mp none] at last
      cases last
    rw [if_neg closed]
    dsimp only
    -- Only a filter that needs an analysis can make one on demand, which may not return.
    by_cases needed : node.tests.any FilterTest.needsAnalysis
    · rw [if_pos needed, if_pos needed, ← storedAnalysis_returns faultless, returns_bind]
      refine and_iff_left_of_imp fun _ found t _ => ?_
      cases found with
      | none => exact returns_done _
      | some stored => exact context_rest_returns faultless _ stored t
    · rw [if_neg needed, if_neg needed]
      exact iff_of_true (returns_done _) (after_done.mpr (nothing rfl _))

/-- A context that is built has the closed ones of the bars that were read, and the close of the last of them. -/
theorem buildContext_built {ctx : Context}
    (ran : exec (among budget env) (buildContext analyze pair node) s = (.ok (some ctx), t)) :
    ctx.Built ∧ (Timeframe.ofName pair.timeframe).isSome ∧
      ∀ candle ∈ ctx.candles, candle ∈ (env.others s.1 s.2).readCandles pair paLookback := by
  have reads := (buildContext_reads ran).1
  unfold buildContext at ran
  simp only [Prog.bind_eq, Prog.pure_eq] at ran
  obtain ⟨candles, s₁, -, ran⟩ := exec_bind_eq_ok ran
  split at ran
  · cases ran
  split at ran
  · cases ran
  rename_i tf known
  have listed : ∀ candle ∈ ctx.candles, candle ∈ (env.others s.1 s.2).readCandles pair paLookback := by
    rw [reads, closedRead_eq known]
    exact fun candle kept => (List.mem_filter.mp kept).1
  refine ⟨?_, known ▸ rfl, listed⟩
  obtain ⟨now, s₂, -, ran⟩ := exec_bind_eq_ok ran
  split at ran
  · cases ran
  rename_i last found
  have filled : closedOnly candles tf now ≠ [] := by
    intro none
    rw [none] at found
    cases found
  -- Both kinds of context have the same bars and the same close.
  split at ran
  · obtain ⟨stored, s₃, -, ran⟩ := exec_bind_eq_ok ran
    split at ran
    · cases ran
    split at ran
    · cases ran
    obtain ⟨fundingRate, s₄, -, ran⟩ := exec_bind_eq_ok ran
    split at ran
    · obtain ⟨oiSeries, s₅, -, ran⟩ := exec_bind_eq_ok ran
      cases ran
      exact ⟨filled, rfl⟩
    · cases ran
      exact ⟨filled, rfl⟩
  · cases ran
    refine ⟨filled, ?_⟩
    show some last.close = (closedOnly candles tf now).getLast?.map Candle.close
    rw [found]
    rfl

/-- The bars that a turn reads have positive prices. -/
def TurnPriced (budget : ℕ) (env : Surroundings) (timeframe symbol : String) (s : ℕ × PaWorld) : Prop :=
  After (among budget env) (await (.symbolValidity symbol)) (fun _ =>
    After (among budget env) (await (.candles ⟨symbol, timeframe⟩ paLookback)) fun rows _ =>
      ∀ candle ∈ rows, 0 < candle.close) s

/-- A market that is traded has its analysis made when that is due, and if it matches then its place in the order does
not depend on a day without volume. -/
def TurnSpared (budget : ℕ) (env : Surroundings) (analyze : Pair → PaTask Unit) (order : SortBy) (node : FilterNode)
    (timeframe symbol : String) (s : ℕ × PaWorld) : Prop :=
  After (among budget env) (await (.symbolValidity symbol)) (fun valid t => valid ≠ some false →
    After (among budget env) (analysisDue ⟨symbol, timeframe⟩ node)
        (AnalysisReturns budget env analyze ⟨symbol, timeframe⟩) t ∧
      After (among budget env) (buildContext analyze ⟨symbol, timeframe⟩ node) (fun built _ =>
        ∀ ctx ∈ built, ∀ matched, evalWithMatches ctx node = .ok (true, matched) → ¬Undivided order ctx.candles) t) s

theorem exec_screen (budget : ℕ) (env : Surroundings) {ctx : Context} {result : Bool × List FilterTest}
    (evaluated : evalWithMatches ctx node = .ok result) (s : ℕ × PaWorld) :
    ∃ t, exec (among budget env) (await (.screen ctx node)) s = (.ok result, t) := by
  rw [await, exec_call]
  simp only [among, PaWorld.serve, evaluated]
  exact ⟨_, rfl⟩

/-- What a turn does with a context returns unless the order fails. -/
theorem reported_returns (faultless : Faultless env) {ctx : Context} (priced : ctx.Priced) {symbol timeframe : String}
    (known : (Timeframe.ofName timeframe).isSome) {valid : Option Bool} (s : ℕ × PaWorld) :
    Returns (among budget env) ((await (.screen ctx node)).bind fun result =>
        if result.1 then
          match Timeframe.ofName timeframe with
          | none => .fail (.other timeframe)
          | some tf => (await .serverNow).bind fun now =>
            (Prog.ofExcept (describe shown order ctx {
              symbol := symbol
              dataStale := ¬isFresh tf ctx.asOf now
              symbolValid := valid
              price := ctx.close
              asOf := ctx.asOf
              matchedFilters := result.2 })).bind fun entry => .done (some entry)
        else .done none) s ↔
      ∀ matched, evalWithMatches ctx node = .ok (true, matched) → ¬Undivided order ctx.candles := by
  obtain ⟨tf, named⟩ := Option.isSome_iff_exists.mp known
  -- With a price the filters are evaluated without an error, so only the summary can fail.
  obtain ⟨⟨ok, matched⟩, evaluated⟩ := (evalWithMatches_smooth priced.toBuilt node).returned priced
  obtain ⟨s₁, screened⟩ := exec_screen budget env evaluated s
  rw [returns_then screened, evaluated]
  cases ok with
  | false => exact iff_of_true (returns_done _) fun _ same => nomatch same
  | true =>
    rw [if_pos rfl, named]
    dsimp only
    obtain ⟨now, s₂, clock⟩ := plain_answered budget faultless .serverNow trivial s₁
    rw [returns_then clock]
    have place := describe_returns shown order priced {
      symbol := symbol
      dataStale := ¬isFresh tf ctx.asOf now
      symbolValid := valid
      price := ctx.close
      asOf := ctx.asOf
      matchedFilters := matched }
    constructor
    · intro returned _ _
      apply place.mp
      revert returned
      cases describe shown order ctx _ with
      | ok entry => exact fun _ => ⟨entry, rfl⟩
      | error raised => exact fun returned => absurd returned (not_returns_fail raised)
    · intro spared
      obtain ⟨entry, described⟩ := place.mpr (spared matched rfl)
      rw [described]
      exact returns_done _

/-- A turn over priced bars returns exactly when it is spared. -/
theorem turn_returns (faultless : Faultless env) {timeframe symbol : String}
    (priced : TurnPriced budget env timeframe symbol s) :
    Returns (among budget env) (scanSymbol analyze shown order node ⟨symbol, timeframe⟩) s ↔
      TurnSpared budget env analyze order node timeframe symbol s := by
  unfold scanSymbol screenSymbol TurnSpared
  simp only [Prog.bind_eq, Prog.pure_eq]
  obtain ⟨valid, s₁, listed⟩ := plain_answered budget faultless (.symbolValidity symbol) trivial s
  rw [returns_then listed, after_of listed]
  by_cases gone : valid = some false
  · rw [if_pos gone]
    exact iff_of_true (returns_done _) fun traded => absurd gone traded
  rw [if_neg gone, returns_bind, buildContext_returns faultless, forall_prop_of_true gone]
  apply and_congr_right'
  have bars := (after_of listed).mp priced
  obtain ⟨rows, s₂, read⟩ := plain_answered budget faultless (.candles ⟨symbol, timeframe⟩ paLookback) trivial s₁
  have positive := (after_of read).mp bars
  rw [(exec_candles read).1] at positive
  have usable {ctx : Context} {t : ℕ × PaWorld}
      (ran : exec (among budget env) (buildContext analyze ⟨symbol, timeframe⟩ node) s₁ = (.ok (some ctx), t)) :
      ctx.Priced ∧ (Timeframe.ofName timeframe).isSome := by
    have ⟨built, timed, source⟩ := buildContext_built ran
    exact ⟨⟨built, fun candle kept => positive candle (source candle kept)⟩, timed⟩
  -- Only a context that is built has something to report.
  constructor
  · intro rest found t ran ctx known
    obtain rfl : found = some ctx := known
    have ⟨good, timed⟩ := usable ran
    exact (reported_returns faultless good timed t).mp (rest (some ctx) t ran)
  · intro spared found t ran
    cases found with
    | none => exact returns_done _
    | some ctx =>
      have ⟨good, timed⟩ := usable ran
      exact (reported_returns faultless good timed t).mpr (spared (some ctx) t ran ctx rfl)

section Engine

variable {cfg : PaConfig} {depth : ℕ}

/-- No step of an analysis on demand meets a cause to raise by the tables that it finds: enough closed bars are stored,
and the alarm service that is told of it is not stopped either. -/
def Unstopped (cfg : PaConfig) (depth : ℕ) (env : Surroundings) (pair : Pair) (s : ℕ × PaWorld) : Prop :=
  ∀ newer step older raised, visits (among cfg.budget env) (analyzePair cfg (depth + 1) pair) s = newer ++ step :: older →
    ¬(Stops env older step raised ∨ TooDeep cfg.budget env newer step raised)

/-- The analysis of the engine returns exactly when nothing stops it. -/
theorem analyzePair_returns (timed : (Timeframe.ofName pair.timeframe).isSome) :
    Returns (among cfg.budget env) (analyzePair cfg (depth + 1) pair) s ↔ Unstopped cfg depth env pair s := by
  have noted : Noted (analyzePair cfg (depth + 1) pair) ⟨none, []⟩ :=
    analyzePair_noted (analyze_nested cfg depth) timed rfl rfl
  have raises := @noted_raises_iff _ _ noted cfg.budget env s
  unfold Returns Unstopped
  cases came : (exec (among cfg.budget env) (analyzePair cfg (depth + 1) pair) s).1 with
  | ok value =>
    rw [came] at raises
    refine iff_of_true ⟨value, rfl⟩ fun newer step older raised steps meets => ?_
    cases raises.mpr ⟨newer, step, older, steps, meets⟩
  | error raised =>
    rw [came] at raises
    refine iff_of_false (by rintro ⟨value, same⟩; cases same) fun calm => ?_
    obtain ⟨newer, step, older, steps, meets⟩ := raises.mp rfl
    exact calm newer step older raised steps meets

/-- So with the engine a turn is spared by what its analysis finds stored. -/
theorem turnSpared_engine {timeframe symbol : String} (timed : (Timeframe.ofName timeframe).isSome) :
    TurnSpared cfg.budget env (analyzePair cfg (depth + 1)) order node timeframe symbol s ↔
      After (among cfg.budget env) (await (.symbolValidity symbol)) (fun valid t => valid ≠ some false →
        After (among cfg.budget env) (analysisDue ⟨symbol, timeframe⟩ node)
            (fun due u => due = true → Unstopped cfg depth env ⟨symbol, timeframe⟩ u) t ∧
          After (among cfg.budget env) (buildContext (analyzePair cfg (depth + 1)) ⟨symbol, timeframe⟩ node)
            (fun built _ => ∀ ctx ∈ built, ∀ matched, evalWithMatches ctx node = .ok (true, matched) →
              ¬Undivided order ctx.candles) t) s := by
  unfold TurnSpared AnalysisReturns
  have returns (u : ℕ × PaWorld) := @analyzePair_returns env ⟨symbol, timeframe⟩ u cfg depth timed
  simp only [returns]

end Engine

/-- What a scan finds out before its turns: which symbols there are. -/
def candidates : PaTask (List String) := do
  await (.beginPass .screener)
  await .candidateSymbols

/-- With no fault and with positive prices, an accepted scan returns exactly when all its turns are spared: an analysis
that is due is made, and no match is placed by the change of a volume of zero. -/
theorem scan_returns_iff (faultless : Faultless env) {combine sortBy timeframe : String} {limit : ℤ}
    {cursor : Option ℤ} {requireFresh : Bool} (allowed : 1 ≤ limit ∧ limit ≤ 250)
    (named : SortBy.ofName sortBy = some order)
    (priced : After (among budget env) candidates
      (InTurns (among budget env) (fun symbol => scanSymbol analyze shown order node ⟨symbol, timeframe⟩)
        (TurnPriced budget env timeframe)) s) :
    Returns (among budget env) (scanMarket analyze shown node combine sortBy limit cursor timeframe requireFresh) s ↔
      After (among budget env) candidates
        (InTurns (among budget env) (fun symbol => scanSymbol analyze shown order node ⟨symbol, timeframe⟩)
          (TurnSpared budget env analyze order node timeframe)) s := by
  obtain ⟨_, s₁, begun⟩ := plain_answered budget faultless (.beginPass .screener) trivial s
  obtain ⟨symbols, s₂, listed⟩ := plain_answered budget faultless .candidateSymbols trivial s₁
  have known : exec (among budget env) candidates s = (.ok symbols, s₂) := by
    unfold candidates
    rw [Prog.bind_eq, exec_bind_ok begun]
    exact listed
  rw [after_of known] at priced ⊢
  have accepted : rejectIf (¬(1 ≤ limit ∧ limit ≤ 250)) .invalidRequest
      ("limit must be between 1 and 250 (given: " ++ toString limit ++ ")") = .ok () :=
    if_neg (not_not_intro allowed)
  unfold scanMarket
  simp only [accepted, named, Prog.ofExcept, Prog.bind_eq, Prog.pure_eq, Prog.done_bind]
  rw [returns_then begun, returns_then listed, returns_bind]
  -- The reply over the matches is a value.
  refine Iff.trans (and_iff_left_of_imp fun _ found t _ => returns_done _) ?_
  refine returns_foldlM.trans (inTurns_congr ?_ priced)
  exact fun symbol t priced => turn_returns faultless priced

/-- The bars that are read are stored ones. -/
theorem read_priced {world : PaWorld} (positive : ∀ row ∈ world.candles.rows, 0 < row.candle.close) {lookback : ℕ} :
    ∀ candle ∈ world.readCandles pair lookback, 0 < candle.close := by
  unfold PaWorld.readCandles
  cases Timeframe.ofName pair.timeframe with
  | none => exact fun candle none => nomatch none
  | some tf =>
    intro candle listed
    obtain ⟨row, kept, -, rfl⟩ := CandleTable.mem_history.mp ((lastOf_suffix lookback _).subset listed)
    exact positive row kept

/-- A turn over stored bars with positive prices reads such bars, when nobody else is at work. -/
theorem still_priced {timeframe symbol : String} (alone : ∀ step world, env.others step world = world)
    (positive : ∀ row ∈ s.2.candles.rows, 0 < row.candle.close) : TurnPriced budget env timeframe symbol s := by
  intro valid t ran rows u read
  have same : t.2.candles = s.2.candles := by
    rw [await, exec_call] at ran
    simp only [among, PaWorld.serve, Prod.mk.injEq] at ran
    rw [← ran.2, alone]
  rw [(exec_candles read).1, alone]
  apply read_priced
  rw [same]
  exact positive

/-- Numbers that nobody reads. -/
def wordless : SummaryText := ⟨fun _ => "", fun _ => "", fun _ => "", fun _ => ""⟩

/-- A day on which nothing else happens, with some markets. -/
def marketDay (symbols : List String) : Surroundings where
  choice _ := { host := 48 * 3600, server := 48 * 3600, symbols := symbols }
  others _ world := world

/-- A scan for all markets with two bars, by the change of their volumes. -/
def volumeScan : PaTask ScanReply :=
  scanMarket (fun _ => .done ()) wordless anyPrice "AND" "volume_change" 50 none "1h" true

/-- Bars of two days for two markets; the first day of the second one has no volume. -/
def twoDays : PaWorld where
  candles := Keyed.Table.empty.upsertAll
    ((List.range 48).map (fun hour => hourBar "BTCUSDT" hour 10) ++
      (List.range 48).map fun hour =>
        let row := hourBar "NEWUSDT" hour 10
        if hour < 24 then { row with candle := { row.candle with volume := 0 } } else row)

theorem twoDays_positive : ∀ row ∈ twoDays.candles.rows, 0 < row.candle.close ∧ 0 ≤ row.candle.volume := by
  decide +kernel

/-- One market without a silent day. -/
theorem lively_scan_iff :
    Returns (among 8 (marketDay ["BTCUSDT"])) volumeScan (0, twoDays) ↔
      After (among 8 (marketDay ["BTCUSDT"])) candidates
        (InTurns (among 8 (marketDay ["BTCUSDT"]))
          (fun symbol => scanSymbol (fun _ => .done ()) wordless .volumeChange anyPrice ⟨symbol, "1h"⟩)
          (TurnSpared 8 (marketDay ["BTCUSDT"]) (fun _ => .done ()) .volumeChange anyPrice "1h")) (0, twoDays) := by
  apply scan_returns_iff (fun _ => rfl) (by decide) rfl
  intro symbols t ran
  cases ran
  exact ⟨still_priced (fun _ _ => rfl) fun row listed => (twoDays_positive row listed).1, trivial⟩

/-- The silent day of one market fails the scan, which returns for the other market alone. -/
theorem silent_day_fails :
    (∀ row ∈ twoDays.candles.rows, 0 < row.candle.close ∧ 0 ≤ row.candle.volume) ∧
      Returns (among 8 (marketDay ["BTCUSDT"])) volumeScan (0, twoDays) ∧
      ¬Returns (among 8 (marketDay ["BTCUSDT", "NEWUSDT"])) volumeScan (0, twoDays) := by
  refine ⟨twoDays_positive, ?_, ?_⟩
  · rw [returns_iff_isSome]
    decide +kernel
  · rw [returns_iff_isSome]
    decide +kernel

end Rasat
