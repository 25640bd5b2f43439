import RasatTrading.Coop.Played
import RasatTrading.Guarantees.Triggers

/-! What the alerts can do to the analysis that they are told of. -/

namespace Rasat

open Coop Prog

/-- The error that an outcome raises. -/
def raisedBy {α : Type} : Except Exc α → Option Exc
  | .ok _ => none
  | .error raised => some raised

/-- The error of an analysis that has found no candles. -/
def noCandleData (pair : Pair) : Exc :=
  .rasat ⟨.staleData, "no candle data for " ++ pair.symbol ++ " " ++ pair.timeframe⟩

/-- The error of an analysis whose closed candles are too few. -/
def fewClosedCandles (pair : Pair) : Exc :=
  .rasat ⟨.staleData, "not enough closed candles for " ++ pair.symbol ++ " " ++ pair.timeframe⟩

/-- The error of the window of an analysis. -/
def windowFault (pair : Pair) (lookback : ℕ) (rows : List Candle) (now : ℚ) : Option Exc :=
  (Timeframe.ofName pair.timeframe).bind fun tf =>
    if lookback = paLookback ∧ (closedOnly rows tf now).length < 2 * swingLookback + 1 then
      some (fewClosedCandles pair)
    else none

/-- The error of a candle read: an analysis has nothing after its warm-up, or the timeframe is unknown. -/
def candleFault (warmed : Bool) (pair : Pair) (lookback : ℕ) (rows : List Candle) : Option Exc :=
  if warmed = true ∧ lookback = paLookback ∧ rows.isEmpty then some (noCandleData pair)
  else if ¬rows.isEmpty ∧ (Timeframe.ofName pair.timeframe).isNone then
    some (unknownTimeframe pair.timeframe)
  else none

/-- The candles that a step has read, with the pair and the number asked for. -/
def candlesRead : (request : PaReq) → Except Exc request.Ans → Option (Pair × ℕ × List Candle)
  | .candles pair lookback, .ok rows => some (pair, lookback, rows)
  | _, _ => none

/-- Whether a request warms a pair up. -/
def PaReq.warms : PaReq → Bool
  | .warmUp _ _ => true
  | _ => false

/-- Whether the last step was a warm-up. -/
def warmedUp (hist : Hist PaReq PaReq.Ans Exc) : Bool := hist.head?.any fun event => event.request.warms

/-- What an answer that did not raise stops, after the steps before it. -/
def valueStop (older : Hist PaReq PaReq.Ans Exc) : (request : PaReq) → request.Ans → Option Exc
  | .candles pair lookback, rows => candleFault (warmedUp older) pair lookback rows
  | .serverNow, now => do
    let last ← older.head?
    let (pair, lookback, rows) ← candlesRead last.request last.answer
    windowFault pair lookback rows now
  | _, _ => none

/-- What the last step stops: an answer that raises, or an analysis on demand without enough closed candles. -/
def stopOf : Hist PaReq PaReq.Ans Exc → Option Exc
  | [] => none
  | event :: older =>
    match event.answer with
    | .error raised => some raised
    | .ok value => valueStop older event.request value

/-- Whether a step was granted an analysis on demand. -/
def wasGranted : (request : PaReq) → Except Exc request.Ans → Bool
  | .spend _, .ok granted => granted
  | _, _ => false

/-- Whether the last step was granted an analysis on demand. -/
def grantedLast (hist : Hist PaReq PaReq.Ans Exc) : Bool :=
  hist.head?.any fun event => wasGranted event.request event.answer

/-- The fault in the last step of a coroutine, if that step ends it: it stops it, or grants an analysis that would
nest too deep. -/
def faultOf (hist : Hist PaReq PaReq.Ans Exc) : Option Exc :=
  if grantedLast hist then some recursionError else stopOf hist

/-- A history whose last step is no fault, and leaves none for a reading of the clock or of candles. -/
structure Rested (hist : Hist PaReq PaReq.Ans Exc) : Prop where
  clear : faultOf hist = none
  clock : ∀ now : ℚ, stopOf (⟨.serverNow, .ok now⟩ :: hist) = none
  cool : warmedUp hist = false

variable {α β σ : Type} {record : PaRecord} {hist : Hist PaReq PaReq.Ans Exc}

/-- A history at rest goes on. -/
theorem Rested.going (rested : Rested hist) : stopOf hist = none := by
  have clear := rested.clear
  unfold faultOf at clear
  split at clear
  · cases clear
  · exact clear

/-- An answer that raises is a fault. -/
theorem faultOf_error {request : PaReq} {raised : Exc} : faultOf (⟨request, .error raised⟩ :: hist) = some raised := by
  cases request <;> rfl

/-- What the alarm service asks for after an analysis. -/
def PaReq.ofAlarms : PaReq → Prop
  | .candles _ _ | .warmUp _ _ | .serverNow | .hostNow | .futuresContext _ | .futuresSeries _ _ _ | .store _ _ _ _
  | .current _ _ | .spend _ | .alertsBySymbol _ | .compositeAlerts | .evaluate _ _ | .maybeTrigger _ => True
  | _ => False

/-- The alarm service goes on only where nothing has stopped it. -/
def going (record : PaRecord) (request : PaReq) : Prop := stopOf record.hist = none ∧ request.ofAlarms

/-- A coroutine of the alarm service that goes on only where nothing stops it, comes to rest when it returns, and had
the fault that it raises in its last step. -/
abbrev Noted (program : PaTask α) (record : PaRecord) : Prop :=
  Safe (recording going) program record
    (Outcome (fun _ later => Rested later.hist) fun raised later => faultOf later.hist = some raised)

/-! Sequences and loops. -/

/-- A coroutine that returns comes to rest. -/
theorem noted_done {value : α} (rested : Rested record.hist) : Noted (.done value) record := .done rested

/-- A coroutine raises the fault of its last step. -/
theorem noted_fail {raised : Exc} (fault : faultOf record.hist = some raised) :
    Noted (.fail raised : PaTask α) record := .fail fault

/-- A request, and what follows its answer. -/
theorem noted_await {request : PaReq} {next : request.Ans → PaTask β} (clear : stopOf record.hist = none)
    (kind : request.ofAlarms) (rest : ∀ value, Noted (next value) (record.after request (.ok value))) :
    Noted ((await request).bind next) record :=
  recording_then ⟨clear, kind⟩ rest fun _ => faultOf_error

/-- A single request, behind whose answers a coroutine may rest. -/
theorem noted_call {request : PaReq} (clear : stopOf record.hist = none) (kind : request.ofAlarms)
    (rests : ∀ value, Rested (⟨request, .ok value⟩ :: record.hist)) : Noted (await request) record :=
  recording_call.mpr ⟨⟨clear, kind⟩, fun answer => by
    cases answer with
    | error raised => exact faultOf_error
    | ok value => exact rests value⟩

/-- A sequence, whose second part starts from rest. -/
theorem noted_bind {program : PaTask α} {next : α → PaTask β} (first : Noted program record)
    (rest : ∀ value (later : PaRecord), Rested later.hist → Noted (next value) later) :
    Noted (program.bind next) record :=
  Safe.bind first rest fun _ _ fault => fault

/-- A loop, each of whose turns starts from rest. -/
theorem noted_foldlM {ι : Type} {body : σ → ι → PaTask σ} {items : List ι} {start : σ}
    (rested : Rested record.hist)
    (each : ∀ state item (later : PaRecord), Rested later.hist → Noted (body state item) later) :
    Noted (items.foldlM body start) record :=
  Safe.foldlM (fun _ _ later => Rested later.hist) _ rested
    fun item _ state later known => each state item later known

/-! Steps that are no fault. -/

variable {pair : Pair} {result : AnalysisResult}

/-- The alarm service's candles stop nothing when their timeframe is known. -/
theorem stopOf_candles {rows : List Candle} (known : rows.isEmpty ∨ (Timeframe.ofName pair.timeframe).isSome) :
    stopOf (⟨.candles pair alarmLookback, .ok rows⟩ :: hist) = none := by
  have other : ¬(alarmLookback = paLookback) := by decide
  show candleFault _ pair alarmLookback rows = none
  unfold candleFault
  rw [if_neg fun both => other both.2.1, if_neg]
  rintro ⟨filled, missing⟩
  rcases known with empty | named
  · exact filled empty
  · rw [Option.isSome_iff_ne_none] at named
    exact named (Option.isNone_iff_eq_none.mp missing)

/-- Behind them it may rest. -/
theorem rested_candles {rows : List Candle} (known : rows.isEmpty ∨ (Timeframe.ofName pair.timeframe).isSome) :
    Rested (⟨.candles pair alarmLookback, .ok rows⟩ :: hist) := by
  have other : ¬(alarmLookback = paLookback) := by decide
  refine ⟨stopOf_candles known, fun now => ?_, rfl⟩
  show windowFault pair alarmLookback rows now = none
  unfold windowFault
  cases Timeframe.ofName pair.timeframe with
  | none => rfl
  | some tf =>
    rw [Option.bind_some, if_neg]
    exact fun both => other both.1

/-- A reading of the clock leaves a history at rest. -/
theorem rested_clock {now : ℚ} (rested : Rested hist) : Rested (⟨.serverNow, .ok now⟩ :: hist) :=
  ⟨rested.clock now, fun _ => rfl, rfl⟩

/-! The parts of an evaluation. -/

/-- The newest futures record is read without a fault of its own. -/
theorem latestFutures_noted (symbol type : String) (clear : stopOf record.hist = none) :
    Noted (latestFutures symbol type) record :=
  noted_await clear trivial fun _ => noted_done ⟨rfl, fun _ => rfl, rfl⟩

/-- So are the records of the open interest. -/
theorem openInterest_noted (symbol : String) (clear : stopOf record.hist = none) :
    Noted (openInterest symbol) record :=
  noted_call clear trivial fun _ => ⟨rfl, fun _ => rfl, rfl⟩

/-- So are the three stored parts of an analysis. -/
theorem readStored_noted (pair : Pair) (clear : stopOf record.hist = none) : Noted (readStored pair) record :=
  noted_await clear trivial fun _ => noted_await rfl trivial fun _ => noted_await rfl trivial fun _ =>
    noted_done ⟨rfl, fun _ => rfl, rfl⟩

/-- The filter of the closed candles reads the clock at most. -/
theorem filterClosedCandles_noted (tf : Timeframe) (candles : List Candle)
    (rested : Rested record.hist) : Noted (filterClosedCandles tf candles) record := by
  unfold filterClosedCandles
  split
  · exact noted_done rested
  · exact noted_await rested.going trivial fun _ => noted_done ⟨rfl, fun _ => rfl, rfl⟩

/-- The candles of an analysis on demand: some that stop nothing, or none after the warm-up. -/
theorem loadCandles_noted (known : (Timeframe.ofName pair.timeframe).isSome)
    (clear : stopOf record.hist = none) (cool : warmedUp record.hist = false) :
    Safe (recording going) (loadCandles pair paLookback) record
      (Outcome (fun rows later => ∃ older, later.hist = ⟨.candles pair paLookback, .ok rows⟩ :: older ∧
          (rows.isEmpty → warmedUp older = true) ∧ (¬rows.isEmpty → stopOf later.hist = none))
        fun raised later => faultOf later.hist = some raised) := by
  have named : ¬(Timeframe.ofName pair.timeframe).isNone := by
    rw [Option.isNone_iff_eq_none]
    exact Option.isSome_iff_ne_none.mp known
  -- Candles that are there stop nothing, whatever came before them.
  have filled (rows : List Candle) (older : Hist PaReq PaReq.Ans Exc) (some_ : ¬rows.isEmpty) :
      stopOf (⟨.candles pair paLookback, .ok rows⟩ :: older) = none := by
    show candleFault _ pair paLookback rows = none
    rw [candleFault, if_neg fun all => some_ all.2.2, if_neg fun both => named both.2]
  refine recording_then ⟨clear, trivial⟩ (fun rows => ?_) fun _ => rfl
  by_cases empty : rows.isEmpty
  · rw [if_pos empty]
    have first : stopOf (record.after (.candles pair paLookback) (.ok rows)).hist = none := by
      show candleFault (warmedUp record.hist) pair paLookback rows = none
      rw [candleFault, cool, if_neg (fun all => nomatch all.1), if_neg fun both => named both.2]
    -- Without candles the pair is warmed up, and read once more.
    refine recording_then ⟨first, trivial⟩ (fun _ => ?_) fun _ => rfl
    refine recording_call.mpr ⟨⟨rfl, trivial⟩, fun answer => ?_⟩
    cases answer with
    | error raised => rfl
    | ok value => exact ⟨_, rfl, fun _ => rfl, filled value _⟩
  · rw [if_neg empty]
    exact .done ⟨_, rfl, fun impossible => absurd impossible empty, filled rows _⟩

/-- An analysis on demand raises when its window is too short, and its steps show it. -/
theorem analysisWindow_noted (known : (Timeframe.ofName pair.timeframe).isSome)
    (clear : stopOf record.hist = none) (cool : warmedUp record.hist = false) :
    Noted (analysisWindow pair paLookback) record := by
  obtain ⟨tf, named⟩ := Option.isSome_iff_exists.mp known
  unfold analysisWindow
  rw [named]
  refine Safe.bind (loadCandles_noted known clear cool) (fun rows later read => ?_) fun _ _ fault => fault
  obtain ⟨older, last, warmed, filled⟩ := read
  by_cases empty : rows.isEmpty
  · rw [if_pos empty]
    -- There are none after the warm-up either, which the read shows.
    refine noted_fail ?_
    rw [last]
    show candleFault (warmedUp older) pair paLookback rows = _
    rw [candleFault, if_pos ⟨warmed empty, rfl, empty⟩]
    rfl
  rw [if_neg empty]
  refine noted_await (filled empty) trivial fun now => ?_
  -- The clock tells how many of the bars just read are closed.
  have fault : stopOf (later.after .serverNow (.ok now)).hist = windowFault pair paLookback rows now := by
    simp only [Record.after, last]
    rfl
  rw [windowFault, named, Option.bind_some] at fault
  by_cases short : (closedOnly rows tf now).length < 2 * swingLookback + 1
  · rw [if_pos short]
    rw [if_pos ⟨rfl, short⟩] at fault
    exact noted_fail fault
  · rw [if_neg short]
    rw [if_neg fun both => short both.2] at fault
    exact noted_done ⟨fault, fun _ => rfl, rfl⟩

/-- What follows an analysis on demand. -/
theorem computeAnalysis_noted {general8 : ℚ → String}
    {next : AnalysisResult → PaTask β} (known : (Timeframe.ofName pair.timeframe).isSome)
    (clear : stopOf record.hist = none) (cool : warmedUp record.hist = false)
    (rest : ∀ window futures (later : PaRecord), Rested later.hist →
      Noted (next (analysisOf general8 pair window futures)) later) :
    Noted ((computeAnalysis general8 pair paLookback).bind next) record := by
  unfold computeAnalysis
  simp only [Prog.bind_eq, bind_assoc]
  refine noted_bind (analysisWindow_noted known clear cool) fun window _ rested => ?_
  refine noted_await rested.going trivial fun futures => ?_
  have stored (result : AnalysisResult) (later : PaRecord) (clear : stopOf later.hist = none) :
      Noted (storeAnalysis result) later :=
    noted_await clear trivial fun _ => noted_await rfl trivial fun _ =>
      noted_call rfl trivial fun _ => ⟨rfl, fun _ => rfl, rfl⟩
  refine noted_bind (stored _ _ rfl) fun _ later rested => ?_
  exact rest window futures later rested

/-- Analyses on demand that show their faults; nesting too deep shows in the grant before them. -/
def Nested (analyze : Pair → PaTask Unit) : Prop :=
  ∀ (pair : Pair) (record : PaRecord), (Timeframe.ofName pair.timeframe).isSome → stopOf record.hist = none →
    warmedUp record.hist = false → faultOf record.hist = some recursionError → Noted (analyze pair) record

variable {analyze : Pair → PaTask Unit}

/-- A stored analysis is read, or made within the budget. -/
theorem storedAnalysis_noted (nested : Nested analyze) (who : Evaluator)
    (known : (Timeframe.ofName pair.timeframe).isSome) (clear : stopOf record.hist = none) :
    Noted (storedAnalysis who analyze pair) record := by
  refine noted_bind (readStored_noted pair clear) fun stored later rested => ?_
  split
  · refine noted_await rested.going trivial fun granted => ?_
    -- Only a granted analysis nests: it starts from a grant, or there is none.
    cases granted with
    | false => exact noted_done ⟨rfl, fun _ => rfl, rfl⟩
    | true =>
      refine noted_bind (nested pair _ known rfl rfl rfl) fun _ _ rested => ?_
      exact noted_bind (readStored_noted pair rested.going) fun _ _ rested => noted_done rested
  · exact noted_done rested

/-- The context of a clause: its candles, its analysis and its futures. -/
theorem clauseContext_noted (nested : Nested analyze) (pair : Pair) (clear : stopOf record.hist = none) :
    Noted (clauseContext analyze pair) record := by
  refine noted_await clear trivial fun rows => ?_
  by_cases empty : rows.isEmpty
  · rw [if_pos empty]
    exact noted_done (rested_candles (.inl empty))
  rw [if_neg empty]
  cases named : Timeframe.ofName pair.timeframe with
  -- Candles of an unknown timeframe raise at once.
  | none =>
    refine noted_fail ?_
    show candleFault _ pair alarmLookback rows = _
    rw [candleFault, if_neg fun all => empty all.2.2, if_pos ⟨empty, by rw [named]; rfl⟩]
  | some tf =>
    have known : (Timeframe.ofName pair.timeframe).isSome := by rw [named]; rfl
    refine noted_bind (filterClosedCandles_noted tf rows (rested_candles (.inr known)))
      fun closed later rested => ?_
    split
    · exact noted_done rested
    -- Only this step can nest an analysis.
    refine noted_bind (storedAnalysis_noted nested .alarms known rested.going) fun stored later rested => ?_
    split
    · exact noted_done rested
    split
    · exact noted_done rested
    refine noted_await rested.going trivial fun now => ?_
    split
    · exact noted_done (rested_clock rested)
    refine noted_bind (latestFutures_noted _ _ (rested_clock rested).going) fun _ _ rested => ?_
    exact noted_bind (openInterest_noted _ rested.going) fun _ _ rested => noted_done rested

/-- An alert's state depends on the clock alone. -/
theorem isArmed_noted (row : AlertRow) (clear : stopOf record.hist = none) : Noted (isArmed row) record :=
  noted_await clear trivial fun _ => noted_done ⟨rfl, fun _ => rfl, rfl⟩

/-- A trigger reads the clock and writes the alert. -/
theorem maybeTrigger_noted (row : AlertRow) (triggerKey : String) (payload : TriggerPayload)
    (clear : stopOf record.hist = none) : Noted (maybeTrigger row triggerKey payload) record :=
  noted_await clear trivial fun _ => noted_call rfl trivial fun _ => ⟨rfl, fun _ => rfl, rfl⟩

/-- A simple alert asks for its context, evaluates its condition and may trigger. -/
theorem evaluateSimple_noted {context : PaTask (Option Context)} (pair : Pair)
    (triggers : List TriggeredAlert) (row : AlertRow)
    (noted : ∀ later : PaRecord, Rested later.hist → Noted context later) (rested : Rested record.hist) :
    Noted (evaluateSimple context pair triggers row) record := by
  unfold evaluateSimple
  split
  · exact noted_done rested
  refine noted_bind (isArmed_noted row rested.going) fun armed later rested => ?_
  split
  · refine noted_bind (noted later rested) fun ctx later rested => ?_
    split
    · exact noted_done rested
    refine noted_await rested.going trivial fun matched => ?_
    split
    · exact noted_bind (maybeTrigger_noted _ _ _ rfl) fun _ _ rested => noted_done rested
    · exact noted_done ⟨rfl, fun _ => rfl, rfl⟩
  · exact noted_done rested

/-- The contexts of the clauses are built one after the other. -/
theorem clauseContexts_noted (nested : Nested analyze) (clauses : List Clause)
    (rested : Rested record.hist) : Noted (clauseContexts analyze clauses) record := by
  induction clauses generalizing record with
  | nil => exact noted_done rested
  | cons clause rest ih =>
    refine noted_bind (clauseContext_noted nested _ rested.going) fun ctx later rested => ?_
    split
    · exact noted_done rested
    · exact noted_bind (ih rested) fun _ _ rested => noted_done rested

/-- The clauses are evaluated one after the other. -/
theorem evaluateClauses_noted (combine : Combine) (contexts : List (Clause × Context))
    (rested : Rested record.hist) : Noted (evaluateClauses combine contexts) record := by
  induction contexts generalizing record with
  | nil => exact noted_done rested
  | cons entry rest ih =>
    refine noted_await rested.going trivial fun matched => ?_
    split
    · exact noted_done ⟨rfl, fun _ => rfl, rfl⟩
    · exact ih ⟨rfl, fun _ => rfl, rfl⟩

/-- A composite alert builds its contexts, evaluates them and may trigger. -/
theorem evaluateComposite_noted (nested : Nested analyze) (row : AlertRow)
    (rested : Rested record.hist) : Noted (evaluateComposite analyze row) record := by
  unfold evaluateComposite
  split
  · exact noted_done rested
  refine noted_bind (isArmed_noted row rested.going) fun armed later rested => ?_
  split
  · -- An armed alert needs the contexts of all its clauses before it evaluates any.
    refine noted_bind (clauseContexts_noted nested _ rested) fun contexts later rested => ?_
    split
    · exact noted_done rested
    refine noted_bind (evaluateClauses_noted _ _ rested) fun matched later rested => ?_
    split
    · exact maybeTrigger_noted _ _ _ rested.going
    · exact noted_done rested
  · exact noted_done rested

/-- All composite alerts over a pair are evaluated. -/
theorem evaluateCompositesFor_noted (nested : Nested analyze) (pair : Pair)
    (triggers : List TriggeredAlert) (clear : stopOf record.hist = none) :
    Noted (evaluateCompositesFor analyze pair triggers) record := by
  refine noted_await clear trivial fun rows => ?_
  refine noted_foldlM ⟨rfl, fun _ => rfl, rfl⟩ fun triggers row later rested => ?_
  split
  · exact noted_bind (evaluateComposite_noted nested row rested) fun _ _ rested => noted_done rested
  · exact noted_done rested

/-- What the alarm service does after an analysis shows its faults. -/
theorem onAnalysisUpdated_noted (nested : Nested analyze) (result : AnalysisResult)
    (known : (Timeframe.ofName result.pair.timeframe).isSome) (rested : Rested record.hist) :
    Noted (onAnalysisUpdated analyze result) record := by
  obtain ⟨tf, named⟩ := Option.isSome_iff_exists.mp known
  unfold onAnalysisUpdated
  rw [named]
  refine noted_await rested.going trivial fun now => ?_
  split
  · exact noted_done (rested_clock rested)
  have context (later : PaRecord) (clear : stopOf later.hist = none) : Noted (updatedContext tf result) later := by
    refine noted_await clear trivial fun rows => ?_
    refine noted_bind (filterClosedCandles_noted tf rows (rested_candles (.inr known))) fun _ _ rested => ?_
    refine noted_bind (latestFutures_noted _ _ rested.going) fun _ _ rested => ?_
    exact noted_bind (openInterest_noted _ rested.going) fun _ _ rested => noted_done rested
  refine noted_bind (context _ (rested_clock rested).going) fun ctx _ rested => ?_
  refine noted_await rested.going trivial fun alerts => ?_
  refine noted_bind (noted_foldlM ⟨rfl, fun _ => rfl, rfl⟩ fun triggers row later rested =>
    evaluateSimple_noted _ triggers row (fun _ rested => noted_done rested) rested) fun triggers _ rested => ?_
  exact evaluateCompositesFor_noted nested _ triggers rested.going

/-- An analysis shows its faults when the analyses on demand of the level below do. -/
theorem analyzePair_noted {cfg : PaConfig} {depth : ℕ} (nested : Nested (analyzePair cfg depth))
    (known : (Timeframe.ofName pair.timeframe).isSome) (clear : stopOf record.hist = none)
    (cool : warmedUp record.hist = false) : Noted (analyzePair cfg (depth + 1) pair) record := by
  unfold analyzePair Rasat.analyze
  simp only [Prog.bind_eq, bind_assoc]
  refine computeAnalysis_noted known clear cool fun window futures later rested => ?_
  -- The alarm service is told once the parts are stored.
  refine noted_bind (onAnalysisUpdated_noted nested _ known rested) fun _ _ rested => ?_
  exact noted_done rested

/-- Analyses on demand show their faults, however deep they nest. -/
theorem analyze_nested (cfg : PaConfig) (depth : ℕ) : Nested (analyzePair cfg depth) := by
  -- On each level the analyses on demand are those of the level below.
  induction depth with
  | zero => exact fun pair record _ _ _ granted => noted_fail granted
  | succ depth ih => exact fun pair record known clear cool _ => analyzePair_noted ih known clear cool

/-! Two runs of an analysis, over tables that differ in the alerts. -/

/-- What surrounds a task: the free inputs of each of its steps, and what the other tasks do to the
tables before it. -/
structure Surroundings where
  choice : ℕ → PaChoice
  others : ℕ → PaWorld → PaWorld

/-- Serve a task among others; the state counts its steps. -/
def among (budget : ℕ) (env : Surroundings) : Server PaReq PaReq.Ans Exc (ℕ × PaWorld) :=
  fun request state =>
    let served := (env.others state.1 state.2).serve budget request (env.choice state.1)
    (served.1, state.1 + 1, served.2)

/-- Two states that may differ in the tables of the alarm service and in what it has spent. -/
structure SameMarket (first second : PaWorld) : Prop where
  candles : first.candles = second.candles
  futures : first.futures = second.futures
  payloads : first.payloads = second.payloads

/-- Two surroundings with the same inputs, whose tasks treat the market data alike. -/
structure SameSurroundings (first second : Surroundings) : Prop where
  choice : first.choice = second.choice
  others : ∀ step w v, SameMarket w v → SameMarket (first.others step w) (second.others step v)

/-- The same step of two tasks, over states with the same market data. -/
def InStep (first second : ℕ × PaWorld) : Prop := first.1 = second.1 ∧ SameMarket first.2 second.2

/-- A request for market data is answered from the market data, and changes these alike. -/
theorem serve_alike {budget : ℕ} {w v : PaWorld} {request : PaReq} {choice : PaChoice}
    (kind : MarketOnly request) (same : SameMarket w v) :
    (w.serve budget request choice).1 = (v.serve budget request choice).1 ∧
      SameMarket (w.serve budget request choice).2 (v.serve budget request choice).2 := by
  obtain ⟨candles, futures, payloads⟩ := same
  cases request with
  | candles pair lookback =>
    simp only [PaWorld.serve, PaWorld.readCandles, candles, PaWorld.access]
    -- An access that fails changes nothing in either state.
    cases choice.fault <;> exact ⟨rfl, candles, futures, payloads⟩
  | warmUp pair lookback =>
    simp only [PaWorld.serve, candles, PaWorld.access]
    cases choice.fault
    · exact ⟨rfl, rfl, futures, payloads⟩
    · exact ⟨rfl, candles, futures, payloads⟩
  | serverNow => exact ⟨rfl, candles, futures, payloads⟩
  | futuresContext symbol =>
    simp only [PaWorld.serve, futures, PaWorld.access]
    cases choice.fault <;> exact ⟨rfl, candles, futures, payloads⟩
  | store table pair effectiveFrom payload =>
    simp only [PaWorld.serve, PaWorld.store, payloads, PaWorld.access]
    cases choice.fault
    · exact ⟨rfl, candles, futures, rfl⟩
    · exact ⟨rfl, candles, futures, payloads⟩
  | _ => exact absurd kind id

/-- Requests for market data are answered alike. -/
theorem among_agree {budget : ℕ} {first second : Surroundings} (alike : SameSurroundings first second) :
    Agree (among budget first) (among budget second) MarketOnly InStep := by
  -- The other tasks keep the market data alike before the request is served.
  have both (request : PaReq) (s t : ℕ × PaWorld) (kind : MarketOnly request) (step : InStep s t) :
      (among budget first request s).1 = (among budget second request t).1 ∧
        InStep (among budget first request s).2 (among budget second request t).2 := by
    obtain ⟨count, w⟩ := s
    obtain ⟨other, v⟩ := t
    obtain ⟨rfl, same⟩ := step
    have met := alike.others count w v same
    have served : (PaWorld.serve budget _ request (second.choice count)).1 =
          (PaWorld.serve budget _ request (second.choice count)).1 ∧
        SameMarket (PaWorld.serve budget _ request (second.choice count)).2
          (PaWorld.serve budget _ request (second.choice count)).2 := serve_alike kind met
    simp only [among, alike.choice]
    exact ⟨served.1, rfl, served.2⟩
  exact ⟨fun request s t kind step => (both request s t kind step).1,
    fun request s t kind step => (both request s t kind step).2⟩

variable {lookback : ℕ}

/-- An analysis that succeeds is one of its pair, whose timeframe is known. -/
theorem analysis_pair {serve : Server PaReq PaReq.Ans Exc σ} {general8 : ℚ → String} {state : σ}
    (returned : (exec serve (computeAnalysis general8 pair lookback) state).1 = .ok result) :
    result.pair = pair ∧ (Timeframe.ofName pair.timeframe).isSome := by
  obtain ⟨window, middle, found, rest⟩ := of_exec_bind returned
  obtain ⟨futures, later, -, rest⟩ := of_exec_bind rest
  obtain ⟨stored, last, -, same⟩ := of_exec_bind rest
  cases same
  refine ⟨rfl, ?_⟩
  -- The window of an analysis reads nothing for an unknown timeframe and raises.
  by_contra unknown
  rw [Option.not_isSome_iff_eq_none] at unknown
  unfold analysisWindow at found
  rw [unknown] at found
  cases found

/-- What the alarm service is told to do after an analysis. -/
def callback (cfg : PaConfig) (depth : ℕ) (result : AnalysisResult) : PaTask (List TriggeredAlert) :=
  onAnalysisUpdated (fun other => (Rasat.analyze cfg depth other paLookback).bind fun _ => .done ()) result

/-! What can stop the alarm service. -/

/-- A step of a task among others: what it asks for, how many steps it took before, and the tables then. -/
abbrev PaStep := PaReq × ℕ × PaWorld

/-- A request to the database or to the exchange. -/
def PaReq.isAccess : PaReq → Prop
  | .serverNow | .hostNow | .spend _ | .beginPass _ | .evaluate _ _ | .screen _ _ | .symbolValidity _ => False
  | _ => True

/-- What stops the alarm service at a step, by the tables that the step meets after the activity of the other tasks,
and by what the schedule decides there; `older` are the steps before it. -/
inductive Stops (env : Surroundings) : List PaStep → PaStep → Exc → Prop
  /-- An access fails. -/
  | access {older : List PaStep} {request : PaReq} {n : ℕ} {w : PaWorld} {raised : Exc} (kind : request.isAccess)
      (failed : (env.choice n).fault = some raised) : Stops env older (request, n, w) raised
  /-- A condition is undefined in its context. -/
  | undefined {older : List PaStep} {ctx : Context} {node : FilterNode} {n : ℕ} {w : PaWorld} {raised : Exc}
      (undefined : evalNode ctx node = .error raised) : Stops env older (.evaluate ctx node, n, w) raised
  /-- The alert that is to be triggered was deleted meanwhile. -/
  | deleted {older : List PaStep} {args : TriggerArgs} {n : ℕ} {w : PaWorld} (works : (env.choice n).fault = none)
      (gone : (env.others n w).alarms.alert args.alertId = none) :
      Stops env older (.maybeTrigger args, n, w) (.rasat ⟨.notFound, "alert not found: " ++ args.alertId⟩)
  /-- The id of the order that it is to make is taken. -/
  | taken {older : List PaStep} {args : TriggerArgs} {n : ℕ} {w : PaWorld} {raised : Exc} {row : AlertRow}
      (works : (env.choice n).fault = none) (stands : (env.others n w).alarms.alert args.alertId = some row)
      (refused : (env.others n w).alarms.maybeTrigger args (uuidHex (env.choice n).uuid) = .error raised) :
      Stops env older (.maybeTrigger args, n, w) raised
  /-- A pair that is to be analysed on demand has no candles, not even after its warm-up. -/
  | noCandles {older : List PaStep} {pair : Pair} {n : ℕ} {w : PaWorld} (works : (env.choice n).fault = none)
      (warmed : older.head?.any fun step => step.1.warms)
      (empty : (env.others n w).readCandles pair paLookback = []) :
      Stops env older (.candles pair paLookback, n, w) (noCandleData pair)
  /-- Its candles are fewer than five when those are left out that the clock, read next, has not closed. -/
  | fewCandles {older : List PaStep} {pair : Pair} {tf : Timeframe} {m n : ℕ} {v w : PaWorld}
      (worked : (env.choice m).fault = none) (named : Timeframe.ofName pair.timeframe = some tf)
      (few : (closedOnly ((env.others m v).readCandles pair paLookback) tf (env.choice n).server).length <
        2 * swingLookback + 1) :
      Stops env ((.candles pair paLookback, m, v) :: older) (.serverNow, n, w) (fewClosedCandles pair)

/-- The alarm service was granted an analysis that it cannot begin, since the analyses nest as deep as they may. -/
def TooDeep (budget : ℕ) (env : Surroundings) (newer : List PaStep) (step : PaStep) (raised : Exc) : Prop :=
  newer = [] ∧ raised = recursionError ∧
    ∃ who n w, step = (.spend who, n, w) ∧ (env.others n w).used who < budget

/-- The steps that the alarm service takes after an analysis, newest first; none when the analysis
itself fails. -/
def callbackSteps (cfg : PaConfig) (depth : ℕ) (env : Surroundings) (pair : Pair) (lookback : ℕ)
    (world : PaWorld) : List PaStep :=
  match exec (among cfg.budget env) (computeAnalysis cfg.general8 pair lookback) (0, world) with
  | (.ok result, state) => visits (among cfg.budget env) (callback cfg depth result) state
  | (.error _, _) => []

/-- Some step of the alarm service after an analysis meets a cause to raise an error. -/
def Hampered (cfg : PaConfig) (depth : ℕ) (env : Surroundings) (pair : Pair) (lookback : ℕ) (world : PaWorld)
    (raised : Exc) : Prop :=
  ∃ newer step older, callbackSteps cfg depth env pair lookback world = newer ++ step :: older ∧
    (Stops env older step raised ∨ TooDeep cfg.budget env newer step raised)

section Stops

variable {budget : ℕ} {env : Surroundings} {older : List PaStep} {n : ℕ} {w : PaWorld} {raised : Exc}

/-- Candles that were read have a known timeframe. -/
theorem readCandles_known {world : PaWorld} {pair : Pair}
    (filled : ¬(world.readCandles pair lookback).isEmpty) : ¬(Timeframe.ofName pair.timeframe).isNone := by
  intro unknown
  rw [Option.isNone_iff_eq_none] at unknown
  rw [PaWorld.readCandles, unknown] at filled
  exact filled rfl

/-- A step meets a cause exactly when its answer stops the service with it. -/
def Tells (budget : ℕ) (env : Surroundings) (older : List PaStep) (step : PaStep) (raised : Exc) : Prop :=
  Stops env older step raised ↔
    stopOf (heardAt (among budget env) step :: older.map (heardAt (among budget env))) = some raised

/-- An access that fails stops the service. -/
theorem stops_failed {request : PaReq} {fault : Exc} (kind : request.isAccess)
    (failed : (env.choice n).fault = some fault)
    (heard : heardAt (among budget env) (request, n, w) = ⟨request, .error fault⟩) :
    Tells budget env older (request, n, w) raised := by
  rw [Tells, heard]
  change _ ↔ some fault = some raised
  constructor
  · intro stops
    cases stops with
    | access _ same => exact failed.symm.trans same
    | undefined => exact kind.elim
    | deleted works | taken works | noCandles works =>
      rw [failed] at works
      cases works
    | fewCandles => exact kind.elim
  · exact fun same => .access kind (failed.trans same)

/-- A plain access stops the service exactly when it fails. -/
theorem stops_access {request : PaReq} (kind : request.isAccess) {world changed : PaWorld} {answer : request.Ans}
    (served : (PaWorld.serve budget (env.others n w) request (env.choice n)).1 =
      (PaWorld.access world (env.choice n).fault (.ok (answer, changed))).1)
    (harmless : ∀ value, valueStop (older.map (heardAt (among budget env))) request value = none)
    (only : (env.choice n).fault = none → ¬Stops env older (request, n, w) raised) :
    Tells budget env older (request, n, w) raised := by
  have heard : heardAt (among budget env) (request, n, w) =
      ⟨request, (PaWorld.access world (env.choice n).fault (.ok (answer, changed))).1⟩ := by
    rw [← served]
    rfl
  cases failed : (env.choice n).fault with
  | some fault => exact stops_failed kind failed (by rw [heard, failed]; rfl)
  | none =>
    -- An access that works returns its answer, which stops nothing.
    rw [Tells, heard, failed]
    refine iff_of_false (only failed) fun stopped => ?_
    change valueStop (older.map (heardAt (among budget env))) request answer = _ at stopped
    rw [harmless] at stopped
    cases stopped

/-- The last step was a warm-up exactly when that is the newest of the steps. -/
theorem warmedUp_visits : warmedUp (older.map (heardAt (among budget env))) =
    older.head?.any fun step => step.1.warms := by
  cases older <;> rfl

/-- A read of candles that works. -/
theorem heard_candles {pair : Pair} (works : (env.choice n).fault = none) :
    heardAt (among budget env) (.candles pair lookback, n, w) =
      ⟨.candles pair lookback, .ok ((env.others n w).readCandles pair lookback)⟩ := by
  simp only [heardAt, among, PaWorld.serve, PaWorld.access, works]

/-- A read of candles stops the service when it fails, and when it finds none behind a warm-up. -/
theorem candles_tells {pair : Pair} : Tells budget env older (.candles pair lookback, n, w) raised := by
  cases failed : (env.choice n).fault with
  | some fault => exact stops_failed trivial failed (by simp only [heardAt, among, PaWorld.serve, PaWorld.access, failed])
  | none =>
    rw [Tells, heard_candles failed]
    change _ ↔ candleFault (warmedUp (older.map (heardAt (among budget env)))) pair lookback
      ((env.others n w).readCandles pair lookback) = some raised
    -- The two faults of a read are told apart by the step before it.
    rw [warmedUp_visits, candleFault]
    constructor
    · intro stops
      cases stops with
      | access _ same =>
        rw [failed] at same
        cases same
      | noCandles works warmed empty => rw [if_pos ⟨warmed, rfl, by rw [empty]; rfl⟩]
    · intro stopped
      split at stopped
      · rename_i found
        obtain ⟨warmed, rfl, empty⟩ := found
        cases stopped
        exact .noCandles failed warmed (List.isEmpty_iff.mp empty)
      · -- A read for an unknown timeframe is empty.
        split at stopped
        · rename_i odd
          exact absurd odd.2 (readCandles_known odd.1)
        · cases stopped

/-- The clock stops it when the candles read just before are too few by it. -/
theorem serverNow_tells : Tells budget env older (.serverNow, n, w) raised := by
  have heard : heardAt (among budget env) (.serverNow, n, w) = ⟨.serverNow, .ok (env.choice n).server⟩ := rfl
  rw [Tells, heard]
  change _ ↔ valueStop (older.map (heardAt (among budget env))) .serverNow (env.choice n).server = some raised
  constructor
  · intro stops
    cases stops with
    | access kind => exact kind.elim
    | @fewCandles older pair tf m _ v _ worked named few =>
      rw [List.map_cons, heard_candles worked]
      change windowFault pair paLookback _ _ = _
      rw [windowFault, named, Option.bind_some, if_pos ⟨rfl, few⟩]
  · intro stopped
    -- Only a read of candles right before makes the clock tell anything.
    cases older with
    | nil => cases stopped
    | cons last rest =>
      obtain ⟨request, m, v⟩ := last
      cases request with
      | candles pair lookback =>
        cases worked : (env.choice m).fault with
        | some fault =>
          have read : heardAt (among budget env) (.candles pair lookback, m, v) =
              ⟨.candles pair lookback, .error fault⟩ := by
            simp only [heardAt, among, PaWorld.serve, PaWorld.access, worked]
          rw [List.map_cons, read] at stopped
          cases stopped
        | none =>
          rw [List.map_cons, heard_candles worked] at stopped
          change windowFault pair lookback _ _ = _ at stopped
          cases named : Timeframe.ofName pair.timeframe with
          | none =>
            rw [windowFault, named] at stopped
            cases stopped
          | some tf =>
            rw [windowFault, named, Option.bind_some] at stopped
            split at stopped
            · rename_i found
              obtain ⟨rfl, few⟩ := found
              cases stopped
              exact .fewCandles worked named few
            · cases stopped
      | _ => cases stopped

/-- A condition stops it when it is undefined. -/
theorem evaluate_tells {ctx : Context} {node : FilterNode} :
    Tells budget env older (.evaluate ctx node, n, w) raised := by
  have heard : heardAt (among budget env) (.evaluate ctx node, n, w) = ⟨.evaluate ctx node, evalNode ctx node⟩ := rfl
  rw [Tells, heard]
  constructor
  · intro stops
    cases stops with
    | access kind => exact kind.elim
    | undefined undefined =>
      rw [undefined]
      rfl
  · intro stopped
    cases evaluated : evalNode ctx node with
    | error fault =>
      rw [evaluated] at stopped
      cases stopped
      exact .undefined evaluated
    | ok matched =>
      rw [evaluated] at stopped
      cases stopped

/-- A trigger stops it when it fails, when its alert is gone, and when the id of its order is taken. -/
theorem maybeTrigger_tells {args : TriggerArgs} : Tells budget env older (.maybeTrigger args, n, w) raised := by
  cases failed : (env.choice n).fault with
  | some fault => exact stops_failed trivial failed (by simp only [heardAt, among, PaWorld.serve, PaWorld.access, failed])
  | none =>
    cases ran : (env.others n w).alarms.maybeTrigger args (uuidHex (env.choice n).uuid) with
    | ok result =>
      have heard : heardAt (among budget env) (.maybeTrigger args, n, w) = ⟨.maybeTrigger args, .ok result.1⟩ := by
        simp only [heardAt, among, PaWorld.serve, PaWorld.access, failed, ran, Except.map]
      rw [Tells, heard]
      refine iff_of_false (fun stops => ?_) fun stopped => by cases stopped
      cases stops with
      | access _ same =>
        rw [failed] at same
        cases same
      | deleted works gone =>
        rw [AlertTables.maybeTrigger, gone] at ran
        cases ran
      | taken works stands refused =>
        rw [ran] at refused
        cases refused
    | error fault =>
      have heard : heardAt (among budget env) (.maybeTrigger args, n, w) = ⟨.maybeTrigger args, .error fault⟩ := by
        simp only [heardAt, among, PaWorld.serve, PaWorld.access, failed, ran, Except.map]
      rw [Tells, heard]
      change _ ↔ some fault = some raised
      constructor
      · intro stops
        cases stops with
        | access _ same =>
          rw [failed] at same
          cases same
        | deleted works gone =>
          rw [AlertTables.maybeTrigger, gone] at ran
          cases ran
          rfl
        | taken works stands refused => exact congrArg some (Except.error.inj (ran.symm.trans refused))
      · intro same
        cases same
        -- What refuses is a missing alert, or the insertion of the order.
        cases stands : (env.others n w).alarms.alert args.alertId with
        | none =>
          rw [AlertTables.maybeTrigger, stands] at ran
          cases ran
          exact .deleted failed stands
        | some row => exact .taken failed stands ran

/-- The alarm service is stopped at a step exactly when the step meets one of the causes. -/
theorem stops_iff {request : PaReq} (kind : request.ofAlarms) : Tells budget env older (request, n, w) raised := by
  cases request with
  | candles pair lookback => exact candles_tells
  | serverNow => exact serverNow_tells
  | evaluate ctx node => exact evaluate_tells
  | maybeTrigger args => exact maybeTrigger_tells
  | hostNow =>
    have heard : heardAt (among budget env) (.hostNow, n, w) = ⟨.hostNow, .ok (env.choice n).host⟩ := rfl
    rw [Tells, heard]
    refine iff_of_false (fun stops => ?_) fun stopped => by cases stopped
    cases stops with
    | access kind => exact kind.elim
  | spend who =>
    obtain ⟨granted, heard⟩ : ∃ granted, heardAt (among budget env) (.spend who, n, w) = ⟨.spend who, .ok granted⟩ := by
      unfold heardAt among
      dsimp only [PaWorld.serve]
      split <;> exact ⟨_, rfl⟩
    rw [Tells, heard]
    refine iff_of_false (fun stops => ?_) fun stopped => by cases stopped
    cases stops with
    | access kind => exact kind.elim
  | warmUp | futuresContext | futuresSeries | store | current | alertsBySymbol | compositeAlerts =>
    refine stops_access trivial rfl (fun _ => rfl) fun works stops => ?_
    cases stops with
    | access _ same =>
      rw [works] at same
      cases same
  | _ => exact kind.elim

/-- A step stops nothing by what it raises when it is granted an analysis. -/
theorem grantedLast_of_stopOf (stopped : stopOf hist = some raised) : grantedLast hist = false := by
  rcases hist with _ | ⟨⟨request, answer⟩, older⟩
  · cases stopped
  · cases request with
    | spend who =>
      cases answer with
      | error fault => rfl
      | ok granted => cases stopped
    | _ => rfl

/-- The last step is granted an analysis exactly when its service has not used up its budget. -/
theorem grantedLast_iff {step : PaStep} {rest : Hist PaReq PaReq.Ans Exc} :
    grantedLast (heardAt (among budget env) step :: rest) = true ↔
      ∃ who n w, step = (.spend who, n, w) ∧ (env.others n w).used who < budget := by
  obtain ⟨request, n, w⟩ := step
  cases request with
  | spend who =>
    by_cases used : budget ≤ (env.others n w).used who
    · have heard : heardAt (among budget env) (.spend who, n, w) = ⟨.spend who, .ok false⟩ := by
        simp only [heardAt, among, PaWorld.serve, if_pos used]
      rw [heard]
      refine iff_of_false (fun granted => by cases granted) ?_
      rintro ⟨_, _, _, same, within⟩
      cases same
      exact absurd within (Nat.not_lt.mpr used)
    · have heard : heardAt (among budget env) (.spend who, n, w) = ⟨.spend who, .ok true⟩ := by
        simp only [heardAt, among, PaWorld.serve, if_neg used]
      rw [heard]
      exact iff_of_true rfl ⟨who, n, w, rfl, Nat.lt_of_not_le used⟩
  | _ =>
    refine iff_of_false (fun granted => by cases granted) ?_
    rintro ⟨_, _, _, same, -⟩
    cases same

end Stops

variable {cfg : PaConfig} {depth : ℕ}

/-- The alarm service shows its faults. -/
theorem callback_noted (known : (Timeframe.ofName result.pair.timeframe).isSome) :
    Noted (callback cfg depth result) ⟨none, []⟩ :=
  onAnalysisUpdated_noted (analyze_nested cfg depth) result known ⟨rfl, fun _ => rfl, rfl⟩

section Noted

variable {program : PaTask α} (noted : Noted program ⟨none, []⟩)
include noted

/-- A coroutine that shows its faults raises the fault of its last step. -/
theorem noted_fault (serve : Server PaReq PaReq.Ans Exc σ) (state : σ) :
    raisedBy (exec serve program state).1 = faultOf (events serve program state) := by
  have served := noted.served serve state
  rw [show (⟨none, []⟩ : PaRecord).hist = [] from rfl, List.append_nil] at served
  -- The history starts empty, so it is what the steps heard.
  change Outcome _ _ (exec serve program state).1 _ at served
  -- It rests after its last step when it returns, and raises the fault of that step otherwise.
  cases came : (exec serve program state).1 with
  | ok value =>
    rw [came] at served
    exact served.clear.symm
  | error raised =>
    rw [came] at served
    exact served.symm

/-- It raises exactly when a step of it meets a cause, which ends it there. -/
theorem noted_raises_iff {budget : ℕ} {env : Surroundings} {state : ℕ × PaWorld} {raised : Exc} :
    raisedBy (exec (among budget env) program state).1 = some raised ↔
      ∃ newer step older, visits (among budget env) program state = newer ++ step :: older ∧
        (Stops env older step raised ∨ TooDeep budget env newer step raised) := by
  -- What is asked next was allowed after the steps before it: nothing had stopped the service.
  have goes {newer older : List PaStep} {step : PaStep}
      (split : visits (among budget env) program state = newer ++ step :: older) :
      stopOf (older.map (heardAt (among budget env))) = none ∧ step.1.ofAlarms := by
    have allowed := noted.served_asks split
    rw [show (⟨none, []⟩ : PaRecord).hist = [] from rfl, List.append_nil] at allowed
    exact allowed
  rw [noted_fault noted, events_visits]
  constructor
  · intro fault
    cases steps : visits (among budget env) program state with
    | nil =>
      rw [steps] at fault
      cases fault
    | cons step older =>
      obtain ⟨-, kind⟩ := @goes [] _ _ steps
      rw [steps, List.map_cons, faultOf] at fault
      refine ⟨[], step, older, rfl, ?_⟩
      split at fault
      · rename_i granted
        cases fault
        exact .inr ⟨rfl, rfl, grantedLast_iff.mp granted⟩
      · exact .inl ((stops_iff kind).mpr fault)
  · rintro ⟨newer, step, older, steps, stops | ⟨rfl, rfl, granted⟩⟩
    · obtain ⟨-, kind⟩ := goes steps
      have stopped := (@stops_iff budget _ _ _ _ _ _ kind).mp stops
      rcases List.eq_nil_or_concat newer with rfl | ⟨later, next, rfl⟩
      · rw [steps, List.nil_append, List.map_cons, faultOf, if_neg]
        · exact stopped
        · rw [grantedLast_of_stopOf stopped]
          exact Bool.false_ne_true
      · -- A step after it would have been asked although the service was stopped.
        rw [List.concat_eq_append, List.append_assoc] at steps
        obtain ⟨still, -⟩ := goes steps
        exact absurd (stopped.symm.trans still) nofun
    · rw [steps, List.nil_append, List.map_cons, faultOf, if_pos (grantedLast_iff.mpr granted)]

end Noted

/-- An analysis returns its result unless the alarm service raises. -/
theorem exec_analyze {serve : Server PaReq PaReq.Ans Exc σ} {state after : σ}
    (computed : exec serve (computeAnalysis cfg.general8 pair lookback) state = (.ok result, after)) :
    (exec serve (Rasat.analyze cfg (depth + 1) pair lookback) state).1 =
      (raisedBy (exec serve (callback cfg depth result) after).1).elim (.ok result) .error := by
  have unfolded : Rasat.analyze cfg (depth + 1) pair lookback =
      (computeAnalysis cfg.general8 pair lookback).bind fun result =>
        (callback cfg depth result).bind fun _ => .done result := rfl
  -- The result is there before the alarm service runs, and is lost when that raises.
  rw [unfolded, exec_bind_ok computed]
  rcases came : exec serve (callback cfg depth result) after with ⟨outcome, last⟩
  cases outcome with
  | ok triggers =>
    rw [exec_bind_ok came]
    rfl
  | error raised =>
    rw [exec_bind_error came]
    rfl

/-- An analysis that raises nothing met no cause. -/
theorem not_hampered {env : Surroundings} {world : PaWorld}
    (returned : raisedBy (exec (among cfg.budget env) (Rasat.analyze cfg (depth + 1) pair lookback) (0, world)).1 = none)
    (raised : Exc) : ¬Hampered cfg depth env pair lookback world raised := by
  unfold Hampered callbackSteps
  rcases computed : exec (among cfg.budget env) (computeAnalysis cfg.general8 pair lookback) (0, world)
    with ⟨outcome, state⟩
  cases outcome with
  | error fault =>
    rintro ⟨newer, step, older, steps, -⟩
    simp at steps
  | ok result =>
    obtain ⟨named, known⟩ := analysis_pair (congrArg Prod.fst computed)
    rw [← named] at known
    dsimp only
    rw [← noted_raises_iff (callback_noted known)]
    intro failed
    rw [exec_analyze computed, failed] at returned
    cases returned

/-- For every two states that differ in the alerts, triggers and orders only, whatever other tasks do
to these meanwhile: an analysis returns the same result or raises the same error exactly when the
steps of the alarm service after it meet the same causes to raise, or none in both. -/
theorem analysis_ignores_alerts_iff (cfg : PaConfig) (depth : ℕ) (pair : Pair) (lookback : ℕ)
    {first second : Surroundings} {w v : PaWorld} (same : SameMarket w v)
    (alike : SameSurroundings first second) :
    (exec (among cfg.budget first) (Rasat.analyze cfg (depth + 1) pair lookback) (0, w)).1 =
        (exec (among cfg.budget second) (Rasat.analyze cfg (depth + 1) pair lookback) (0, v)).1 ↔
      ∀ raised, Hampered cfg depth first pair lookback w raised ↔ Hampered cfg depth second pair lookback v raised := by
  have start : InStep (0, w) (0, v) := ⟨rfl, same⟩
  have agree : Agree (among cfg.budget first) (among cfg.budget second) MarketOnly InStep :=
    among_agree alike
  have agreed := (agree.exec (computeAnalysis_market cfg.general8 pair lookback) start).1
  unfold Hampered callbackSteps
  rcases left : exec (among cfg.budget first) (computeAnalysis cfg.general8 pair lookback) (0, w)
    with ⟨outcome, state⟩
  rcases right : exec (among cfg.budget second) (computeAnalysis cfg.general8 pair lookback) (0, v)
    with ⟨other, state'⟩
  rw [left, right] at agreed
  dsimp only at agreed
  subst agreed
  cases outcome with
  | error raised =>
    -- The analysis fails before the alerts have a part in it.
    have failed : Rasat.analyze cfg (depth + 1) pair lookback =
        (computeAnalysis cfg.general8 pair lookback).bind fun result =>
          (callback cfg depth result).bind fun _ => .done result := rfl
    rw [failed, exec_bind_error left, exec_bind_error right]
    refine iff_of_true rfl fun _ => iff_of_false ?_ ?_
    · rintro ⟨newer, step, older, steps, -⟩
      simp at steps
    · rintro ⟨newer, step, older, steps, -⟩
      simp at steps
  | ok result =>
    obtain ⟨named, known⟩ := analysis_pair (congrArg Prod.fst left)
    rw [← named] at known
    rw [exec_analyze left, exec_analyze right]
    dsimp only
    -- Both analyses have the same result, so that they differ by what the alarm service raises.
    have outcomes (fault fault' : Option Exc) :
        (fault.elim (.ok result) .error : Except Exc AnalysisResult) = fault'.elim (.ok result) .error ↔
          ∀ raised, fault = some raised ↔ fault' = some raised := by
      rw [← Option.ext_iff]
      cases fault <;> cases fault' <;> simp
    rw [outcomes]
    exact forall_congr' fun raised => iff_congr (noted_raises_iff (callback_noted known)) (noted_raises_iff (callback_noted known))

/-- Six bars of one market and a single bar of another, without alerts. -/
def unwatched : PaWorld where
  candles := Keyed.Table.empty.upsertAll
    ((List.range 6).map (fun hour => hourBar "BTCUSDT" hour 10) ++ [hourBar "NEWUSDT" 5 10])

/-- The same with an armed alert. -/
def unwatched.alarmed (body : AlertBody) : PaWorld :=
  { unwatched with
    alarms := { alerts := [{
      alertId := "a"
      definition := ⟨body, 300, none⟩
      state := .armed
      createdAt := 0
      updatedAt := 0
      cooldownUntil := none }] } }

/-- The same with a composite alert over both markets. -/
def watched : PaWorld :=
  unwatched.alarmed (.composite .and ⟨⟨"BTCUSDT", "1h"⟩, anyPrice⟩ [⟨⟨"NEWUSDT", "1h"⟩, anyPrice⟩])

/-- The same with an alert over the market with six bars. -/
def guarded : PaWorld := unwatched.alarmed (.simple ⟨"BTCUSDT", "1h"⟩ anyPrice none)

/-- An hour after the last bar, with no other task. -/
def quietHour : Surroundings where
  choice _ := { host := 6 * 3600, server := 6 * 3600 }
  others _ world := world

/-- An alert that its evaluation can decide triggers, and leaves the analysis as it is. -/
theorem guarded_alike :
    (exec (among 8 quietHour) (Rasat.analyze plainConfig 3 ⟨"BTCUSDT", "1h"⟩ paLookback) (0, guarded)).2.2.alarms.alerts.map
        AlertRow.state = [.cooldown] ∧
      (exec (among 8 quietHour) (Rasat.analyze plainConfig 3 ⟨"BTCUSDT", "1h"⟩ paLookback) (0, unwatched)).1 =
        (exec (among 8 quietHour) (Rasat.analyze plainConfig 3 ⟨"BTCUSDT", "1h"⟩ paLookback) (0, guarded)).1 := by
  have plain (raised : Exc) : ¬Hampered plainConfig 2 quietHour ⟨"BTCUSDT", "1h"⟩ paLookback unwatched raised :=
    not_hampered (by decide +kernel) raised
  have decided (raised : Exc) : ¬Hampered plainConfig 2 quietHour ⟨"BTCUSDT", "1h"⟩ paLookback guarded raised :=
    not_hampered (by decide +kernel) raised
  -- Neither is hampered, so that the alert makes no difference.
  have same : SameMarket unwatched guarded := ⟨rfl, rfl, rfl⟩
  have alike : SameSurroundings quietHour quietHour := ⟨rfl, fun _ _ _ same => same⟩
  exact ⟨by decide +kernel, (analysis_ignores_alerts_iff plainConfig 2 ⟨"BTCUSDT", "1h"⟩ paLookback same alike).mpr
    fun raised => iff_of_false (plain raised) (decided raised)⟩

/-- The analysis succeeds without the alert, and with it raises that the other market has no data. -/
theorem alert_breaks_analysis :
    (exec (among 8 quietHour) (Rasat.analyze plainConfig 3 ⟨"BTCUSDT", "1h"⟩ paLookback) (0, unwatched)).1 ≠
      (exec (among 8 quietHour) (Rasat.analyze plainConfig 3 ⟨"BTCUSDT", "1h"⟩ paLookback) (0, watched)).1 := by
  intro same
  have differ : raisedBy (exec (among 8 quietHour)
        (Rasat.analyze plainConfig 3 ⟨"BTCUSDT", "1h"⟩ paLookback) (0, unwatched)).1 ≠
      raisedBy (exec (among 8 quietHour)
        (Rasat.analyze plainConfig 3 ⟨"BTCUSDT", "1h"⟩ paLookback) (0, watched)).1 := by
    decide +kernel
  exact differ (congrArg raisedBy same)

end Rasat
