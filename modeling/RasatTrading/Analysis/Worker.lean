import RasatTrading.Analysis.Services
import RasatTrading.Coop.Gather

/-! The background worker that keeps the analyses of the fixed timeframes current. -/

namespace Rasat

open Coop

/-- What the worker is set up with. -/
structure WorkerConfig extends PaConfig where
  /-- `kline_intervals`. -/
  intervals : List String
  /-- `pa_worker_concurrency`. -/
  concurrency : ℕ

/-- Where `_process` returns. -/
inductive Processed
  /-- The candles could not be loaded. -/
  | unloaded (raised : Exc)
  | empty
  /-- The candles have not reached the last closed bar. -/
  | behind
  | analyzed
  /-- `analyze` raised this. -/
  | refused (raised : Exc)
  deriving DecidableEq, Repr

/-- What `_process` returns: `True`, `"insufficient"` or `False`. -/
inductive ProcessResult
  | success | insufficient | failure
  deriving DecidableEq, Repr

/-- The value that is returned at each of these places. -/
def Processed.result : Processed → ProcessResult
  | .analyzed => .success
  -- STALE_DATA counts as done: a new symbol would hold the mark of all others back.
  | .refused (.rasat error) => if error.code = .staleData then .insufficient else .failure
  | .refused _ | .unloaded _ | .empty | .behind => .failure

/-- `_process`, once it is behind the semaphore. -/
def process (cfg : PaConfig) (tf : Timeframe) (symbol : String) : PaTask Processed := do
  let pair : Pair := ⟨symbol, tf.name⟩
  -- The first reading of the candles, for the check of their age only.
  match ← (loadCandles pair paLookback).attempt with
  | .error raised => return .unloaded raised
  | .ok candles =>
    match candles.getLast? with
    | none => return .empty
    | some last =>
      let now ← await .serverNow
      -- The clock is read anew here, later than at the start of the pass.
      if ¬isFresh tf last.openTime now then return .behind
      else
        -- `analyze` reads the candles and the clock once more.
        match ← (analyze cfg cfg.depth pair paLookback).attempt with
        | .ok _ => return .analyzed
        | .error raised => return .refused raised

/-- What happens during a gather, besides the requests of its programs. -/
inductive GatherEntry
  | entered (symbol : String)
  /-- Retention deleted the candles of a timeframe before a time. -/
  | pruned (timeframe : Timeframe) (cutoff : ℤ)
  deriving DecidableEq, Repr

/-- The gather of a pass over one timeframe. -/
structure Gathering where
  timeframe : Timeframe
  /-- `latest_closed`: the bar that the pass is to reach. -/
  target : ℤ
  /-- The sorted snapshot of the universe. -/
  symbols : List String
  members : Gather String PaReq PaReq.Ans Exc Processed
  /-- What happened since it began, newest first. -/
  log : List GatherEntry := []

/-- One run of `check_and_process`. -/
structure Pass where
  now : ℚ
  /-- The timeframes still to come. -/
  rest : List String
  gathering : Option Gathering := none
  processed : ℕ := 0

/-- The worker with the stored state, the clock and the universe around it. -/
structure WorkerState where
  world : PaWorld
  /-- The latest reading of `PAEngine._now`. -/
  clock : ℚ
  /-- The symbols that `universe.snapshot` gives. -/
  snapshot : List String
  /-- `_last_processed`. -/
  lastProcessed : String → Option ℤ := fun _ => none
  pass : Option Pass := none

/-- What may happen next. -/
inductive WorkerMove
  /-- The universe is refreshed. -/
  | refresh (symbols : List String)
  /-- Another task of the daemon has a request served. -/
  | other (request : PaReq) (choice : PaChoice)
  | begin (reading : ℚ)
  /-- The pass comes to its next timeframe. -/
  | next
  /-- A program of the gather passes the semaphore. -/
  | enter (index : ℕ)
  /-- A program of the gather has its request served. -/
  | resume (index : ℕ) (choice : PaChoice)
  /-- All programs of the gather have returned. -/
  | finish
  /-- The pass has no timeframes left. -/
  | conclude
  /-- The pass is cancelled. -/
  | cancel
  /-- The daemon starts anew. -/
  | restart

/-- What retention deletes by a request. -/
def prunedBy : PaReq → PaChoice → Option (Timeframe × ℤ)
  | .feed (.pruneCandles timeframe cutoff), choice => if choice.fault = none then some (timeframe, cutoff) else none
  | _, _ => none

/-- What the log of a gather has of a request. -/
def logged (request : PaReq) (choice : PaChoice) : List GatherEntry :=
  ((prunedBy request choice).map fun (tf, cutoff) => .pruned tf cutoff).toList

/-- Add to the log of a gather. -/
def Gathering.note (gathering : Gathering) (entries : List GatherEntry) : Gathering :=
  { gathering with log := entries ++ gathering.log }

/-- Add to the log of the gather that is under way. -/
def Pass.note (pass : Pass) (entries : List GatherEntry) : Pass :=
  { pass with gathering := pass.gathering.map fun gathering => gathering.note entries }

/-- `check_and_process` takes up a timeframe: the gather that it begins, if there is anything to do. -/
def gatheringOf (cfg : WorkerConfig) (s : WorkerState) (now : ℚ) (tf : Timeframe) : Option Gathering :=
  let target := latestClosed tf.seconds now
  -- The bar is done already.
  if s.lastProcessed tf.name = some target then none
  else
    -- The snapshot is taken once for each timeframe; later changes of the universe do not matter.
    let symbols := s.snapshot.insertionSort (· ≤ ·)
    if symbols = [] then none
    else
      some {
        timeframe := tf
        target := target
        symbols := symbols
        members := Gather.start (process cfg.toPaConfig tf) symbols }

/-- How many results of a gather are of a kind; a raised error is of none. -/
def countResults (kind : ProcessResult) (results : List (Except Exc Processed)) : ℕ :=
  results.countP fun
    | .ok value => value.result = kind
    | .error _ => false

namespace WorkerState

/-- Serve a request at the reading of its choice. -/
def serve (cfg : WorkerConfig) (s : WorkerState) (choice : PaChoice) (request : PaReq) :
    Option (Except Exc request.Ans × WorkerState) :=
  (paPerform cfg.budget s.world 0 request choice).map fun (answer, world) =>
    -- Every request reads the clock; its log shows what retention did while programs were under way.
    (answer, { s with
      world := world
      clock := choice.server
      pass := s.pass.map fun pass => pass.note (logged request choice) })

/-- The pass comes to its next timeframe. -/
def next (cfg : WorkerConfig) (s : WorkerState) : Option WorkerState :=
  match s.pass with
  | some ⟨now, name :: rest, none, processed⟩ =>
    match Timeframe.ofName name with
    -- TIMEFRAME_SECONDS has no such key, and the error ends the pass.
    | none => some { s with pass := none }
    | some tf => some { s with pass := some ⟨now, rest, gatheringOf cfg s now tf, processed⟩ }
  | _ => none

/-- A program of the gather passes the semaphore. -/
def enter (cfg : WorkerConfig) (s : WorkerState) (index : ℕ) : Option WorkerState :=
  match s.pass with
  | some ⟨now, rest, some gathering, processed⟩ => do
    let member ← gathering.members[index]?
    let members ← Gather.enter cfg.concurrency gathering.members index
    return { s with
      pass := some ⟨now, rest, some ({ gathering with members := members }.note [.entered member.key]), processed⟩ }
  | _ => none

/-- A program of the gather has its request served. -/
def resume (cfg : WorkerConfig) (s : WorkerState) (index : ℕ) (choice : PaChoice) : Option WorkerState :=
  match s.pass with
  | some ⟨_, _, some gathering, _⟩ => do
    let (members, after) ← Gather.resume (s.serve cfg choice) gathering.members index
    return { after with
      pass := after.pass.map fun pass =>
        { pass with gathering := pass.gathering.map fun gathering => { gathering with members := members } } }
  | _ => none

/-- All programs of the gather have returned. -/
def finish (s : WorkerState) : Option WorkerState :=
  match s.pass with
  | some ⟨now, rest, some gathering, processed⟩ => do
    let results ← Gather.outcomes gathering.members
    let successes := countResults .success results
    let insufficient := countResults .insufficient results
    return { s with
      lastProcessed :=
        -- One other result, or one raised error, keeps the mark where it is.
        if successes + insufficient = gathering.symbols.length then
          Function.update s.lastProcessed gathering.timeframe.name (some gathering.target)
        else s.lastProcessed
      -- Symbols with too few bars are not counted in the reply.
      pass := some ⟨now, rest, none, processed + successes⟩ }
  | _ => none

/-- One move, where it can be made. -/
def step (cfg : WorkerConfig) (s : WorkerState) : WorkerMove → Option WorkerState
  | .refresh symbols => some { s with snapshot := symbols }
  | .other request choice => (s.serve cfg choice request).map Prod.snd
  | .begin reading =>
    match s.pass with
    | none => some { s with clock := reading, pass := some { now := reading, rest := cfg.intervals } }
    | some _ => none
  | .next => s.next cfg
  | .enter index => s.enter cfg index
  | .resume index choice => s.resume cfg index choice
  | .finish => s.finish
  | .conclude =>
    match s.pass with
    | some ⟨_, [], none, _⟩ => some { s with pass := none }
    | _ => none
  | .cancel => some { s with pass := none }
  | .restart =>
    some { s with
      world := { s.world with used := fun _ => 0 }
      lastProcessed := fun _ => none
      pass := none }

end WorkerState

end Rasat
