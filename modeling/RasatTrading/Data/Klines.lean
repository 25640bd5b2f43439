import RasatTrading.Data.Board
import RasatTrading.Data.Exchange

/-! The kline service: workers, background loops and callers over one board and one table. -/

namespace Rasat

/-- The settings of the service. -/
structure KlineConfig where
  intervals : List Timeframe := [.m15, .h1, .h4, .d1]
  catchupBars : Nat := 5
  backfillBars : Nat := 300

/-- A validated call of `get_candles`. -/
structure CandleRequest where
  series : Series
  limit : Nat
  positive : 1 ≤ limit
  bounded : limit ≤ 1000
  deriving DecidableEq, Repr

/-- The checks at the top of `get_candles`. -/
def checkCandles (symbol timeframe : String) (limit : ℤ) (source : String) :
    Except Exc CandleRequest :=
  match timeframes.find? fun tf => decide (tf.name = timeframe) with
  | none => reject .invalidRequest ("invalid timeframe: " ++ timeframe)
  | some tf =>
    if outside : limit < 1 ∨ 1000 < limit then
      reject .invalidRequest ("limit must be between 1 and 1000 (given: " ++ toString limit ++ ")")
    else if source = "spot" then
      .ok ⟨⟨symbol, tf, .spot⟩, limit.toNat, by omega, by omega⟩
    else if source = "futures" then
      .ok ⟨⟨symbol, tf, .futures⟩, limit.toNat, by omega, by omega⟩
    else reject .invalidRequest ("invalid source: " ++ source)

/-- The error of a symbol that the universe of its source does not have. -/
def unknownSymbol (series : Series) : Exc :=
  match series.source with
  | .futures => .rasat ⟨.invalidSymbol, "unknown symbol in futures universe: " ++ series.symbol⟩
  | .spot => .rasat ⟨.invalidSymbol, "unknown symbol in universe: " ++ series.symbol⟩

/-- The error that a waiting caller raises for a failed job. -/
def waitError : Exc → Exc
  | .rasat error => .rasat error
  | exc => .rasat ⟨.staleData, "could not retrieve candle data: " ++ exc.text⟩

/-- Where a fetch and the storing of its answer stand. -/
inductive KlineErrand
  /-- The request is under way. -/
  | asking
  /-- The exchange has produced its answer at this time. -/
  | answered (at_ : ℚ)
  /-- The write of the closed bars is queued. -/
  | writing (answer : StoredAnswer) (count : Nat)
  /-- The write is committed. -/
  | stored (count : Nat)
  deriving DecidableEq

/-- One step of a fetch. -/
inductive FetchMove
  /-- The exchange produces its answer. -/
  | produce
  /-- The answer arrives; the clock is read. -/
  | arrive (reading : Option ℚ)
  | commit
  | resume
  /-- The request or the write raises. -/
  | raises (exc : Exc)
  deriving DecidableEq

/-- What a step of a fetch leads to: the fetch goes on or ends, perhaps with a stored answer. -/
structure Fetched where
  next : KlineErrand ⊕ Except Exc Nat
  stored : List StoredAnswer := []

/-- `_fetch` followed by `_store`, one step. -/
def KlineErrand.step (market : Market) (now : ℚ) (series : Series) (limit : Nat) :
    KlineErrand → FetchMove → Option Fetched
  | .asking, .produce => some ⟨.inl (.answered now), []⟩
  | .answered at_, .arrive reading =>
    let rows := market.answer series limit at_
    match reading with
    -- Without a reading of the server's time nothing is stored.
    | none => some ⟨.inr (.ok rows.length), []⟩
    | some now =>
      if closedOnly rows series.timeframe now = [] then some ⟨.inr (.ok rows.length), []⟩
      else some ⟨.inl (.writing ⟨series, limit, at_, now⟩ rows.length), []⟩
  | .writing answer count, .commit => some ⟨.inl (.stored count), [answer]⟩
  | .stored count, .resume => some ⟨.inr (.ok count), []⟩
  | .asking, .raises exc | .answered _, .raises exc | .writing _ _, .raises exc =>
    some ⟨.inr (.error exc), []⟩
  | _, _ => none

/-- A write that is still queued when its task is cancelled. -/
def KlineErrand.adrift : KlineErrand → List StoredAnswer
  | .writing answer _ => [answer]
  | _ => []

/-- One worker. -/
inductive KlineWorker
  | idle
  | busy (job : Job) (errand : KlineErrand)
  | stopped
  deriving DecidableEq

/-- Where a call of `get_candles` stands. -/
inductive KlineCaller
  /-- The universe of the source is asked for the symbol. -/
  | checking (request : CandleRequest)
  /-- The warm map is being read. -/
  | lookingUp (request : CandleRequest)
  /-- The warm map has been read. -/
  | judging (request : CandleRequest) (latest : Option ℤ)
  /-- A job is awaited. -/
  | waiting (request : CandleRequest) (number : Nat)
  /-- A timeframe outside the fixed set is fetched at once. -/
  | fetching (request : CandleRequest) (errand : KlineErrand)
  /-- The rows are about to be read. -/
  | reading (request : CandleRequest)
  | returned (request : CandleRequest) (rows : List Candle)
  | failed (exc : Exc)
  /-- The awaited job was cancelled, and the call with it. -/
  | interrupted (cause : Option Nat)
  /-- The call itself was cancelled. -/
  | withdrawn
  deriving DecidableEq

/-- Where the scheduler stands. -/
inductive KlineScheduler
  | resting
  /-- A pass over the timeframes, by one reading of the clock. -/
  | looping (now : ℚ) (remaining : List Timeframe)
  /-- Some symbol lags behind; next the universe is read again. -/
  | lagging (now : ℚ) (tf : Timeframe) (remaining : List Timeframe)
  /-- The jobs of the closed-bar pass are being queued. -/
  | passing (now : ℚ) (tf : Timeframe) (symbols : List String) (remaining : List Timeframe)
  | stopped

/-- Where the backfill stands. -/
inductive KlineBackfill
  | resting
  | starting (symbols : List String)
  /-- The series are being judged by one reading of the table. -/
  | scanning (warm : CandleTable) (remaining : List Series)
  | stopped

/-- The whole service. -/
structure KlineWorld where
  board : Board
  workers : List KlineWorker
  callers : List KlineCaller := []
  scheduler : KlineScheduler := .resting
  backfill : KlineBackfill := .resting
  table : CandleTable
  /-- The time at the exchange. -/
  time : ℚ
  /-- The writes of cancelled tasks. -/
  adrift : List StoredAnswer := []
  /-- The answers that reached the table, oldest first. -/
  log : List StoredAnswer := []

/-- One move of the service or of its surroundings. -/
inductive KlineMove
  | tick (step : ℚ)
  /-- A worker takes a job. -/
  | take (worker : Nat)
  | work (worker : Nat) (move : FetchMove)
  /-- `stop` cancels a worker. -/
  | cancelWorker (worker : Nat)
  /-- The oldest done callback runs. -/
  | callback
  /-- A write of a cancelled task is committed, or dropped. -/
  | settleAdrift (committed : Bool)
  | call (symbol timeframe : String) (limit : ℤ) (source : String)
  /-- The universe answers. -/
  | ensureContains (caller : Nat) (known : Except Exc Bool)
  | lookUp (caller : Nat)
  | judge (caller : Nat) (reading : Option ℚ)
  | wake (caller : Nat)
  | fetch (caller : Nat) (move : FetchMove)
  | read (caller : Nat)
  | cancelCaller (caller : Nat)
  | wakeScheduler (reading : Option ℚ)
  /-- `_needs_catchup` of the next timeframe, with the symbols of the universe. -/
  | needsCatchup (symbols : List String)
  | startPass (symbols : List String)
  | passNext
  | wakeBackfill (reading : Option ℚ) (symbols : List String)
  | readWarmMap
  | scanNext (reading : Option ℚ)
  /-- A background loop raises and rests. -/
  | schedulerRaises
  | backfillRaises
  | stopScheduler
  | stopBackfill
  deriving DecidableEq

namespace KlineWorld

/-- Put stored answers into the table. -/
def keep (market : Market) (stored : List StoredAnswer) (world : KlineWorld) : KlineWorld :=
  { world with
    table := world.table.upsertAll (stored.flatMap (StoredAnswer.rows market))
    log := world.log ++ stored }

/-- The world with another state of one worker. -/
def setWorker (world : KlineWorld) (index : Nat) (worker : KlineWorker) : KlineWorld :=
  { world with workers := world.workers.set index worker }

/-- The world with another state of one caller. -/
def setCaller (world : KlineWorld) (index : Nat) (caller : KlineCaller) : KlineWorld :=
  { world with callers := world.callers.set index caller }

/-- `_worker_loop` behind `queue.get()`, one step. -/
def work (market : Market) (world : KlineWorld) (index : Nat) (job : Job) (errand : KlineErrand)
    (move : FetchMove) : Option KlineWorld := do
  let fetched ← errand.step market world.time job.series job.limit move
  let kept := world.keep market fetched.stored
  match fetched.next with
  | .inl next => return kept.setWorker index (.busy job next)
  | .inr (.ok count) =>
    return { kept with board := world.board.settle job.series job.number (.result count) }.setWorker
      index .idle
  | .inr (.error exc) =>
    return { kept with board := world.board.settle job.series job.number (.failed exc) }.setWorker
      index .idle

/-- `get_candles`, one step behind its checks. -/
def advance (config : KlineConfig) (market : Market) (world : KlineWorld) (index : Nat) :
    KlineCaller → KlineMove → Option KlineWorld
  | .checking request, .ensureContains _ known =>
    match known with
    | .error exc => some (world.setCaller index (.failed exc))
    | .ok false => some (world.setCaller index (.failed (unknownSymbol request.series)))
    | .ok true =>
      if request.series.timeframe ∈ config.intervals then
        some (world.setCaller index (.lookingUp request))
      else some (world.setCaller index (.fetching request .asking))
  | .lookingUp request, .lookUp _ =>
    some (world.setCaller index (.judging request (world.table.latestOpen request.series)))
  | .judging request latest, .judge _ reading =>
    if isWarm latest request.series reading then
      some (world.setCaller index (.reading request))
    else
      let (number, board) := world.board.enqueue request.series request.limit priorityOndemand
      some ({ world with board := board }.setCaller index (.waiting request number))
  | .waiting request number, .wake _ =>
    match world.board.futures number with
    | .pending => none
    | .result _ => some (world.setCaller index (.reading request))
    | .failed exc => some (world.setCaller index (.failed (waitError exc)))
    | .cancelled cause => some (world.setCaller index (.interrupted cause))
  | .fetching request errand, .fetch _ move => do
    let fetched ← errand.step market world.time request.series request.limit move
    let kept := world.keep market fetched.stored
    match fetched.next with
    | .inl next => return kept.setCaller index (.fetching request next)
    | .inr (.ok _) => return kept.setCaller index (.reading request)
    | .inr (.error exc) => return kept.setCaller index (.failed exc)
  | .reading request, .read _ =>
    some (world.setCaller index
      (.returned request (world.table.read request.series request.limit)))
  | _, _ => none

/-- Cancel a call: the future that it awaits is cancelled with it. -/
def cancelCaller (world : KlineWorld) (index : Nat) : KlineCaller → Option KlineWorld
  | .returned _ _ | .failed _ | .interrupted _ | .withdrawn => none
  | .waiting request number =>
    some ({ world with
      board := world.board.settle request.series number (.cancelled (some index)) }.setCaller
        index .withdrawn)
  | .fetching _ errand =>
    some ({ world with adrift := world.adrift ++ errand.adrift }.setCaller index .withdrawn)
  | _ => some (world.setCaller index .withdrawn)

/-- `_enqueue` of a background job. -/
def enqueueBackground (world : KlineWorld) (series : Series) (limit priority : Nat) : KlineWorld :=
  { world with board := (world.board.enqueue series limit priority).2 }

/-- Carry out one move, if it can be made. -/
def step (config : KlineConfig) (market : Market) (world : KlineWorld) :
    KlineMove → Option KlineWorld
  | .tick step => if 0 ≤ step then some { world with time := world.time + step } else none
  | .take index =>
    match world.workers[index]? with
    | some .idle => do
      let (job, board) ← world.board.take
      return { world with board := board }.setWorker index (.busy job .asking)
    | _ => none
  | .work index move =>
    match world.workers[index]? with
    | some (.busy job errand) => world.work market index job errand move
    | _ => none
  | .cancelWorker index =>
    match world.workers[index]? with
    | some .idle => some (world.setWorker index .stopped)
    | some (.busy job errand) =>
      some ({ world with
        board := world.board.settle job.series job.number (.cancelled none)
        adrift := world.adrift ++ errand.adrift }.setWorker index .stopped)
    | _ => none
  | .callback => do
    let board ← world.board.runCallback
    return { world with board := board }
  | .settleAdrift committed =>
    match world.adrift with
    | [] => none
    | answer :: rest =>
      let left := { world with adrift := rest }
      some (if committed then left.keep market [answer] else left)
  | .call symbol timeframe limit source =>
    match checkCandles symbol timeframe limit source with
    | .ok request => some { world with callers := world.callers ++ [.checking request] }
    | .error exc => some { world with callers := world.callers ++ [.failed exc] }
  | .cancelCaller index => do
    let caller ← world.callers[index]?
    world.cancelCaller index caller
  | .wakeScheduler reading =>
    match world.scheduler, reading with
    | .resting, none => some world
    | .resting, some now => some { world with scheduler := .looping now config.intervals }
    | _, _ => none
  | .needsCatchup symbols =>
    match world.scheduler with
    | .looping _ [] => some { world with scheduler := .resting }
    | .looping now (tf :: rest) =>
      if symbols.any fun symbol =>
          !isWarm (world.table.latestOpen ⟨symbol, tf, .spot⟩) ⟨symbol, tf, .spot⟩ (some now) then
        some { world with scheduler := .lagging now tf rest }
      else some { world with scheduler := .looping now rest }
    | _ => none
  | .startPass symbols =>
    match world.scheduler with
    | .lagging now tf rest => some { world with scheduler := .passing now tf symbols rest }
    | _ => none
  | .passNext =>
    match world.scheduler with
    | .passing now _ [] rest => some { world with scheduler := .looping now rest }
    | .passing now tf (symbol :: symbols) rest =>
      some { world.enqueueBackground ⟨symbol, tf, .spot⟩ config.catchupBars priorityClosedBar with
        scheduler := .passing now tf symbols rest }
    | _ => none
  | .wakeBackfill reading symbols =>
    match world.backfill, reading with
    | .resting, none => some world
    | .resting, some _ =>
      if symbols = [] then some world else some { world with backfill := .starting symbols }
    | _, _ => none
  | .readWarmMap =>
    match world.backfill with
    | .starting symbols =>
      let series := symbols.flatMap fun symbol =>
        config.intervals.map fun tf => ⟨symbol, tf, .spot⟩
      some { world with backfill := .scanning world.table series }
    | _ => none
  | .scanNext reading =>
    match world.backfill with
    | .scanning _ [] => some { world with backfill := .resting }
    | .scanning warm (series :: rest) =>
      let scanned := { world with backfill := .scanning warm rest }
      some (if isWarm (warm.latestOpen series) series reading then scanned
        else scanned.enqueueBackground series config.backfillBars priorityBackfill)
    | _ => none
  | .schedulerRaises =>
    match world.scheduler with
    | .stopped => none
    | _ => some { world with scheduler := .resting }
  | .backfillRaises =>
    match world.backfill with
    | .stopped => none
    | _ => some { world with backfill := .resting }
  | .stopScheduler => some { world with scheduler := .stopped }
  | .stopBackfill => some { world with backfill := .stopped }
  | .ensureContains index known => do
    let caller ← world.callers[index]?
    world.advance config market index caller (.ensureContains index known)
  | .lookUp index => do
    let caller ← world.callers[index]?
    world.advance config market index caller (.lookUp index)
  | .judge index reading => do
    let caller ← world.callers[index]?
    world.advance config market index caller (.judge index reading)
  | .wake index => do
    let caller ← world.callers[index]?
    world.advance config market index caller (.wake index)
  | .fetch index move => do
    let caller ← world.callers[index]?
    world.advance config market index caller (.fetch index move)
  | .read index => do
    let caller ← world.callers[index]?
    world.advance config market index caller (.read index)

/-- The service after its start, over a table with prior rows. -/
def initial (workers : Nat) (prior : CandleTable) (time : ℚ) : KlineWorld where
  board := {}
  workers := List.replicate workers .idle
  table := prior
  time := time

end KlineWorld

end Rasat
