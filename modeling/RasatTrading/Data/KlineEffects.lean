import RasatTrading.Data.Klines
import RasatTrading.Transition.Runs

/-! What one move of the kline service can do to the jobs and to those who wait for them. -/

namespace Rasat

/-- The job that a worker is at. -/
def KlineWorker.job : KlineWorker → Option Job
  | .busy job _ => some job
  | _ => none

/-- What a caller waits for. -/
def KlineCaller.awaits : KlineCaller → Option (CandleRequest × Nat)
  | .waiting request number => some (request, number)
  | _ => none

namespace KlineWorld

/-- The jobs that workers are at. -/
def running (world : KlineWorld) : List Job := world.workers.filterMap KlineWorker.job

/-- The jobs that are queued or running. -/
def active (world : KlineWorld) : List Job := world.board.queue ++ world.running

/-- Who waits: the index of the caller, its request, and the number of the awaited job. -/
def waits (world : KlineWorld) : List (Nat × CandleRequest × Nat) :=
  (List.range world.callers.length).filterMap fun index =>
    (world.callers[index]?.bind KlineCaller.awaits).map (Prod.mk index)

/-- The job that a move asks `_enqueue` for: its series, its limit and its priority. -/
def asks (config : KlineConfig) (world : KlineWorld) : KlineMove → Option (Series × Nat × Nat)
  | .judge index reading =>
    match world.callers[index]? with
    | some (.judging request latest) =>
      if isWarm latest request.series reading then none
      else some (request.series, request.limit, priorityOndemand)
    | _ => none
  | .passNext =>
    match world.scheduler with
    | .passing _ tf (symbol :: _) _ =>
      some (⟨symbol, tf, .spot⟩, config.catchupBars, priorityClosedBar)
    | _ => none
  | .scanNext reading =>
    match world.backfill with
    | .scanning warm (series :: _) =>
      if isWarm (warm.latestOpen series) series reading then none
      else some (series, config.backfillBars, priorityBackfill)
    | _ => none
  | _ => none

variable {config : KlineConfig} {market : Market} {world after : KlineWorld} {index : Nat}

/-- The waiting callers are those in the list. -/
theorem mem_waits {request : CandleRequest} {number : Nat} :
    (index, request, number) ∈ world.waits ↔
      world.callers[index]? = some (.waiting request number) := by
  unfold waits
  constructor
  · intro member
    obtain ⟨place, -, found⟩ := List.mem_filterMap.mp member
    obtain ⟨awaited, held, same⟩ := Option.map_eq_some_iff.mp found
    cases same
    obtain ⟨caller, there, waits⟩ := Option.bind_eq_some_iff.mp held
    cases caller with
    | waiting own count =>
      cases waits
      exact there
    | _ => simp [KlineCaller.awaits] at waits
  · intro there
    have inside := (List.getElem?_eq_some_iff.mp there).1
    refine List.mem_filterMap.mpr ⟨index, List.mem_range.mpr inside, ?_⟩
    simp [there, KlineCaller.awaits]

/-- No caller begins to wait, and none is interrupted but by the cancelled job that it awaits. -/
structure Calmer (world after : KlineWorld) : Prop where
  waits : ∀ wait ∈ after.waits, wait ∈ world.waits
  interrupted : ∀ index cause, after.callers[index]? = some (.interrupted (some cause)) →
    world.callers[index]? = some (.interrupted (some cause)) ∨ ∃ wait ∈ world.waits,
      wait.1 = index ∧ world.board.futures wait.2.2 = .cancelled (some cause)

variable {caller : KlineCaller} {worker : KlineWorker} {move : KlineMove}

/-- A caller changed at its index, looked up. -/
theorem callers_setCaller {found : KlineCaller} {place : Nat}
    (there : (world.setCaller index caller).callers[place]? = some found) :
    (place = index ∧ found = caller) ∨ (place ≠ index ∧ world.callers[place]? = some found) := by
  by_cases same : index = place
  · subst same
    have inside := (List.getElem?_eq_some_iff.mp there).1
    simp only [setCaller, List.length_set] at inside
    simp only [setCaller, List.getElem?_set_self inside, Option.some.injEq] at there
    exact .inl ⟨rfl, there.symm⟩
  · exact .inr ⟨Ne.symm same, by simpa [setCaller, List.getElem?_set_ne same] using there⟩

/-- The same callers are no less calm. -/
theorem calmer_of_eq (callers : after.callers = world.callers) : Calmer world after where
  waits := by
    have same : after.waits = world.waits := by simp [KlineWorld.waits, callers]
    rw [same]
    exact fun _ member => member
  interrupted := by
    intro index cause there
    exact .inl (callers ▸ there)

/-- A caller that goes on to something else than waiting leaves the others as they are. -/
theorem calmer_setCaller {other : KlineWorld}
    (callers : other.callers = world.callers) (quiet : caller.awaits = none)
    (calm : ∀ cause, caller = .interrupted (some cause) → ∃ wait ∈ world.waits,
      wait.1 = index ∧ world.board.futures wait.2.2 = .cancelled (some cause)) :
    Calmer world (other.setCaller index caller) where
  waits := by
    rintro ⟨place, request, number⟩ member
    rcases callers_setCaller (mem_waits.mp member) with ⟨-, rfl⟩ | ⟨-, there⟩
    · simp [KlineCaller.awaits] at quiet
    · exact mem_waits.mpr (callers ▸ there)
  interrupted := by
    intro place cause there
    rcases callers_setCaller there with ⟨rfl, same⟩ | ⟨-, old⟩
    · exact .inr (calm cause same.symm)
    · exact .inl (callers ▸ old)

/-- Behind a caller that went on, nobody of its index waits. -/
theorem waits_setCaller_ne (quiet : caller.awaits = none) :
    ∀ wait ∈ (world.setCaller index caller).waits, wait.1 ≠ index := by
  rintro ⟨place, request, number⟩ member rfl
  rcases callers_setCaller (mem_waits.mp member) with ⟨-, rfl⟩ | ⟨differs, -⟩
  · simp [KlineCaller.awaits] at quiet
  · exact differs rfl

variable {other : KlineWorker}

/-- A worker's change replaces its job among the running ones. -/
theorem running_set (there : world.workers[index]? = some worker)
    (workers : after.workers = world.workers.set index other) :
    ∃ before behind, world.running = before ++ (worker.job.toList ++ behind) ∧
      after.running = before ++ (other.job.toList ++ behind) := by
  obtain ⟨inside, same⟩ := List.getElem?_eq_some_iff.mp there
  refine ⟨(world.workers.take index).filterMap KlineWorker.job,
    (world.workers.drop (index + 1)).filterMap KlineWorker.job, ?_, ?_⟩
  · have split : world.workers =
        world.workers.take index ++ worker :: world.workers.drop (index + 1) := by
      rw [← same, List.getElem_cons_drop, List.take_append_drop]
    conv_lhs => rw [running, split]
    rw [List.filterMap_append, List.filterMap_cons]
    cases worker.job <;> rfl
  · have split : after.workers =
        world.workers.take index ++ other :: world.workers.drop (index + 1) := by
      rw [workers]
      simp [List.set_eq_take_append_cons_drop, inside]
    rw [running, split, List.filterMap_append, List.filterMap_cons]
    cases other.job <;> rfl

/-- A worker that stays at its job changes nothing about the running jobs. -/
theorem running_stays (there : world.workers[index]? = some worker)
    (workers : after.workers = world.workers.set index other) (job : other.job = worker.job) :
    after.running = world.running := by
  obtain ⟨before, behind, was, is⟩ := running_set there workers
  rw [is, was, job]

variable {job : Job}

/-- A worker that begins a job adds it to the running ones. -/
theorem running_begins (there : world.workers[index]? = some worker)
    (workers : after.workers = world.workers.set index other) (idle : worker.job = none)
    (busy : other.job = some job) : after.running.Perm (job :: world.running) := by
  obtain ⟨before, behind, was, is⟩ := running_set there workers
  rw [is, was, idle, busy]
  exact List.perm_middle

/-- A worker that ends its job takes it from the running ones. -/
theorem running_ends (there : world.workers[index]? = some worker)
    (workers : after.workers = world.workers.set index other) (busy : worker.job = some job)
    (idle : other.job = none) : world.running.Perm (job :: after.running) := by
  obtain ⟨before, behind, was, is⟩ := running_set there workers
  rw [is, was, idle, busy]
  exact List.perm_middle

/-- What one move does to the jobs and to those who wait. -/
inductive Effect (config : KlineConfig) (world after : KlineWorld) : KlineMove → Prop
  /-- The jobs stay as they are. -/
  | quiet {move : KlineMove} (board : after.board = world.board)
      (running : after.running = world.running) (callers : Calmer world after) :
      Effect config world after move
  /-- A call of `get_candles` asks for a job. -/
  | requests {index : Nat} {reading : Option ℚ} {request : CandleRequest}
      (asked : world.asks config (.judge index reading) =
        some (request.series, request.limit, priorityOndemand))
      (board : after.board =
        (world.board.enqueue request.series request.limit priorityOndemand).2)
      (running : after.running = world.running)
      (waits : ∀ wait ∈ after.waits, wait ∈ world.waits ∨ wait = (index, request,
        (world.board.enqueue request.series request.limit priorityOndemand).1))
      (interrupted : ∀ (place cause : Nat),
        after.callers[place]? = some (KlineCaller.interrupted (some cause)) →
        world.callers[place]? = some (KlineCaller.interrupted (some cause))) :
      Effect config world after (.judge index reading)
  /-- A background loop asks for a job. -/
  | background {move : KlineMove} {series : Series} {limit priority : Nat}
      (asked : world.asks config move = some (series, limit, priority)) (behind : 0 < priority)
      (board : after.board = (world.board.enqueue series limit priority).2)
      (running : after.running = world.running) (callers : Calmer world after) :
      Effect config world after move
  /-- A worker takes the first job of the queue. -/
  | takes {index : Nat} {job : Job} (board : world.board.take = some (job, after.board))
      (running : after.running.Perm (job :: world.running))
      (callers : Calmer world after) : Effect config world after (.take index)
  /-- A worker is through with its job, or cancelled. -/
  | finishes {move : KlineMove} {job : Job} {status : FutureStatus}
      (done : status ≠ .pending) (own : ∀ caller, status ≠ .cancelled (some caller))
      (board : after.board = world.board.settle job.series job.number status)
      (running : world.running.Perm (job :: after.running))
      (callers : Calmer world after) : Effect config world after move
  /-- A waiting call is cancelled. -/
  | withdraws {index : Nat} {request : CandleRequest} {number : Nat}
      (waited : (index, request, number) ∈ world.waits)
      (board : after.board =
        world.board.settle request.series number (.cancelled (some index)))
      (running : after.running = world.running) (callers : Calmer world after)
      (gone : ∀ wait ∈ after.waits, wait.1 ≠ index) : Effect config world after (.cancelCaller index)
  /-- A done callback runs. -/
  | callback (board : world.board.runCallback = some after.board)
      (running : after.running = world.running) (callers : Calmer world after) :
      Effect config world after .callback

/-- A move that changes one caller, but no job, is quiet if the caller does not wait afterwards. -/
theorem quiet_setCaller {other : KlineWorld}
    (board : other.board = world.board) (workers : other.workers = world.workers)
    (callers : other.callers = world.callers) (quiet : caller.awaits = none)
    (calm : ∀ cause, caller = .interrupted (some cause) → ∃ wait ∈ world.waits,
      wait.1 = index ∧ world.board.futures wait.2.2 = .cancelled (some cause)) :
    Effect config world (other.setCaller index caller) move :=
  .quiet board (by simp [running, setCaller, workers]) (calmer_setCaller callers quiet calm)

/-- A move that leaves jobs, workers and callers alone is quiet. -/
theorem quiet_of_eq (board : after.board = world.board)
    (workers : after.workers = world.workers) (callers : after.callers = world.callers) :
    Effect config world after move :=
  .quiet board (by simp [running, workers]) (calmer_of_eq callers)

/-- A worker's step keeps its job, or ends it. -/
theorem work_effect {errand : KlineErrand} {move : FetchMove}
    (there : world.workers[index]? = some (.busy job errand))
    (worked : world.work market index job errand move = some after) :
    Effect config world after (.work index move) := by
  obtain ⟨fetched, -, rest⟩ := Option.bind_eq_some_iff.mp worked
  cases next : fetched.next with
  | inl errand' =>
    rw [next] at rest
    cases rest
    exact .quiet rfl (running_stays there rfl rfl) (calmer_of_eq rfl)
  | inr outcome =>
    -- Whatever the outcome, the future is completed and the worker is free.
    have finished : ∀ status : FutureStatus, status ≠ .pending →
        (∀ caller, status ≠ .cancelled (some caller)) →
        Effect config world ({ world.keep market fetched.stored with
          board := world.board.settle job.series job.number status }.setWorker index .idle)
          (.work index move) := by
      intro status done own
      exact .finishes done own rfl (running_ends there rfl rfl rfl) (calmer_of_eq rfl)
    cases outcome with
    | ok count =>
      rw [next] at rest
      cases rest
      exact finished (.result count) (by simp) (by simp)
    | error exc =>
      rw [next] at rest
      cases rest
      exact finished (.failed exc) (by simp) (by simp)

/-- A caller's step leaves the jobs alone, or asks for one. -/
theorem advance_effect (there : world.callers[index]? = some caller)
    (names : ∀ other reading, move = .judge other reading → other = index)
    (advanced : world.advance config market index caller move = some after) :
    Effect config world after move := by
  cases caller with
  | checking request =>
    cases move with
    | ensureContains other known =>
      cases known with
      | error exc =>
        cases advanced
        exact quiet_setCaller rfl rfl rfl rfl (by simp)
      | ok found =>
        cases found with
        | false =>
          cases advanced
          exact quiet_setCaller rfl rfl rfl rfl (by simp)
        | true =>
          simp only [advance] at advanced
          split at advanced
          · cases advanced
            exact quiet_setCaller rfl rfl rfl rfl (by simp)
          · cases advanced
            exact quiet_setCaller rfl rfl rfl rfl (by simp)
    | _ => simp [advance] at advanced
  | lookingUp request =>
    cases move with
    | lookUp other =>
      cases advanced
      exact quiet_setCaller rfl rfl rfl rfl (by simp)
    | _ => simp [advance] at advanced
  | judging request latest =>
    cases move with
    | judge other reading =>
      obtain rfl := names other reading rfl
      cases warm : isWarm latest request.series reading with
      | true =>
        simp only [advance, warm, if_true] at advanced
        cases advanced
        exact quiet_setCaller rfl rfl rfl rfl (by simp)
      | false =>
        -- A cold series asks for a job.
        simp only [advance, warm] at advanced
        cases advanced
        refine .requests (by simp [asks, there, warm]) rfl rfl ?_ ?_
        · rintro ⟨place, own, number⟩ member
          rcases callers_setCaller (mem_waits.mp member) with ⟨rfl, same⟩ | ⟨-, old⟩
          · obtain ⟨rfl, rfl⟩ := KlineCaller.waiting.inj same
            exact .inr rfl
          · exact .inl (mem_waits.mpr old)
        · intro place cause found
          rcases callers_setCaller found with ⟨rfl, same⟩ | ⟨-, old⟩
          · simp at same
          · exact old
    | _ => simp [advance] at advanced
  | waiting request number =>
    cases move with
    | wake other =>
      simp only [advance] at advanced
      split at advanced
      · contradiction
      · cases advanced
        exact quiet_setCaller rfl rfl rfl rfl (by simp)
      · cases advanced
        exact quiet_setCaller rfl rfl rfl rfl (by simp)
      · -- The awaited job was cancelled.
        rename_i cause cancelled
        cases advanced
        refine quiet_setCaller rfl rfl rfl rfl ?_
        rintro blamed same
        obtain rfl : cause = some blamed := by simpa using same
        exact ⟨(index, request, number), mem_waits.mpr there, rfl, cancelled⟩
    | _ => simp [advance] at advanced
  | fetching request errand =>
    cases move with
    | fetch other fetchMove =>
      obtain ⟨fetched, -, rest⟩ := Option.bind_eq_some_iff.mp advanced
      split at rest
      · cases rest
        exact quiet_setCaller rfl rfl rfl rfl (by simp)
      · cases rest
        exact quiet_setCaller rfl rfl rfl rfl (by simp)
      · cases rest
        exact quiet_setCaller rfl rfl rfl rfl (by simp)
    | _ => simp [advance] at advanced
  | reading request =>
    cases move with
    | read other =>
      cases advanced
      exact quiet_setCaller rfl rfl rfl rfl (by simp)
    | _ => simp [advance] at advanced
  | returned request rows => simp [advance] at advanced
  | failed exc => simp [advance] at advanced
  | interrupted cause => simp [advance] at advanced
  | withdrawn => simp [advance] at advanced

/-- A cancelled call withdraws, and with it the job that it waits for. -/
theorem cancelCaller_effect (there : world.callers[index]? = some caller)
    (cancelled : world.cancelCaller index caller = some after) :
    Effect config world after (.cancelCaller index) := by
  cases caller with
  | waiting request number =>
    cases cancelled
    exact .withdraws (mem_waits.mpr there) rfl rfl (calmer_setCaller rfl rfl (by simp))
      (waits_setCaller_ne rfl)
  | checking request | lookingUp request | judging request latest | fetching request errand
  | reading request =>
    cases cancelled
    exact quiet_setCaller rfl rfl rfl rfl (by simp)
  | returned request rows | failed exc | interrupted cause | withdrawn =>
    simp [KlineWorld.cancelCaller] at cancelled

/-- A worker takes the first job. -/
theorem take_effect {board : Board} (there : world.workers[index]? = some .idle)
    (taken : world.board.take = some (job, board)) :
    Effect config world ({ world with board := board }.setWorker index (.busy job .asking))
      (.take index) :=
  .takes taken (running_begins there rfl rfl rfl) (calmer_of_eq rfl)

/-- A cancelled worker is through with its job, if it has one. -/
theorem cancelWorker_effect (there : world.workers[index]? = some worker)
    (cancelled : world.step config market (.cancelWorker index) = some after) :
    Effect config world after (.cancelWorker index) := by
  simp only [step, there] at cancelled
  cases worker with
  | idle =>
    cases cancelled
    exact .quiet rfl (running_stays there rfl rfl) (calmer_of_eq rfl)
  | busy job errand =>
    cases cancelled
    have done : FutureStatus.cancelled none ≠ .pending := by simp
    exact .finishes done (by simp) rfl (running_ends there rfl rfl rfl) (calmer_of_eq rfl)
  | stopped => simp at cancelled

/-- A new caller does not wait. -/
theorem calmer_append (quiet : caller.awaits = none) (calm : ∀ cause, caller ≠ .interrupted cause) :
    Calmer world { world with callers := world.callers ++ [caller] } := by
  -- Whoever is found is the new caller, or was there before.
  have found : ∀ {place : Nat} {other : KlineCaller},
      (world.callers ++ [caller])[place]? = some other →
      other = caller ∨ world.callers[place]? = some other := by
    intro place other there
    by_cases inside : place < world.callers.length
    · exact .inr (by rwa [List.getElem?_append_left inside] at there)
    · rw [List.getElem?_append_right (Nat.le_of_not_lt inside)] at there
      exact .inl (List.mem_singleton.mp (List.mem_of_getElem? there))
  refine ⟨?_, ?_⟩
  · rintro ⟨place, request, number⟩ member
    rcases found (mem_waits.mp member) with same | old
    · rw [← same] at quiet
      simp [KlineCaller.awaits] at quiet
    · exact mem_waits.mpr old
  · intro place cause there
    rcases found there with same | old
    · exact absurd same.symm (calm (some cause))
    · exact .inl old

/-- The call of `get_candles` adds a caller that does not wait. -/
theorem call_effect {symbol timeframe source : String} {limit : ℤ}
    (called : world.step config market (.call symbol timeframe limit source) = some after) :
    Effect config world after (.call symbol timeframe limit source) := by
  simp only [step] at called
  split at called
  · cases called
    exact .quiet rfl rfl (calmer_append rfl (by simp))
  · cases called
    exact .quiet rfl rfl (calmer_append rfl (by simp))

/-- A move of the scheduler or of the backfill. -/
def OfLoop : KlineMove → Prop
  | .wakeScheduler _ | .needsCatchup _ | .startPass _ | .passNext | .wakeBackfill _ _
  | .readWarmMap | .scanNext _ | .schedulerRaises | .backfillRaises | .stopScheduler
  | .stopBackfill => True
  | _ => False

/-- A background loop goes on, or asks for a job on its way. -/
theorem loop_cases (loop : OfLoop move) (moved : world.step config market move = some after) :
    ∃ scheduler backfill,
      after = { world with scheduler := scheduler, backfill := backfill } ∨
      ∃ series limit priority, world.asks config move = some (series, limit, priority) ∧
        0 < priority ∧ after = { world.enqueueBackground series limit priority with
          scheduler := scheduler, backfill := backfill } := by
  cases move with
  | wakeScheduler reading =>
    simp only [step] at moved
    split at moved
    · exact ⟨_, _, .inl (Option.some.inj moved).symm⟩
    · exact ⟨_, _, .inl (Option.some.inj moved).symm⟩
    · contradiction
  | needsCatchup symbols =>
    simp only [step] at moved
    split at moved
    · exact ⟨_, _, .inl (Option.some.inj moved).symm⟩
    · split at moved
      · exact ⟨_, _, .inl (Option.some.inj moved).symm⟩
      · exact ⟨_, _, .inl (Option.some.inj moved).symm⟩
    · contradiction
  | startPass symbols =>
    simp only [step] at moved
    split at moved
    · exact ⟨_, _, .inl (Option.some.inj moved).symm⟩
    · contradiction
  | passNext =>
    simp only [step] at moved
    split at moved
    · exact ⟨_, _, .inl (Option.some.inj moved).symm⟩
    · -- The next symbol of the closed-bar pass is asked for.
      rename_i now tf symbol symbols rest passing
      have asked : world.asks config .passNext =
          some (⟨symbol, tf, .spot⟩, config.catchupBars, priorityClosedBar) := by
        simp [asks, passing]
      exact ⟨_, _, .inr ⟨_, _, _, asked, by decide, (Option.some.inj moved).symm⟩⟩
    · contradiction
  | wakeBackfill reading symbols =>
    simp only [step] at moved
    split at moved
    · exact ⟨_, _, .inl (Option.some.inj moved).symm⟩
    · split at moved
      · exact ⟨_, _, .inl (Option.some.inj moved).symm⟩
      · exact ⟨_, _, .inl (Option.some.inj moved).symm⟩
    · contradiction
  | readWarmMap =>
    simp only [step] at moved
    split at moved
    · exact ⟨_, _, .inl (Option.some.inj moved).symm⟩
    · contradiction
  | scanNext reading =>
    simp only [step] at moved
    split at moved
    · exact ⟨_, _, .inl (Option.some.inj moved).symm⟩
    · rename_i warm series rest scanning
      split at moved
      · exact ⟨_, _, .inl (Option.some.inj moved).symm⟩
      · -- A cold series is asked for.
        rename_i cold
        have asked : world.asks config (.scanNext reading) =
            some (series, config.backfillBars, priorityBackfill) := by
          simp [asks, scanning, cold]
        exact ⟨_, _, .inr ⟨_, _, _, asked, by decide, (Option.some.inj moved).symm⟩⟩
    · contradiction
  | schedulerRaises | backfillRaises =>
    simp only [step] at moved
    split at moved
    · contradiction
    · exact ⟨_, _, .inl (Option.some.inj moved).symm⟩
  | stopScheduler | stopBackfill => exact ⟨_, _, .inl (Option.some.inj moved).symm⟩
  | _ => exact loop.elim

/-- The background loops leave the jobs alone, or ask for one. -/
theorem loop_effect (loop : OfLoop move)
    (moved : world.step config market move = some after) : Effect config world after move := by
  obtain ⟨scheduler, backfill, rfl | ⟨series, limit, priority, asked, behind, rfl⟩⟩ :=
    loop_cases loop moved
  · exact quiet_of_eq rfl rfl rfl
  · exact .background asked behind rfl rfl (calmer_of_eq rfl)

/-- Every move has one of the effects. -/
theorem step_effect (moved : world.step config market move = some after) : Effect config world after move := by
  cases move with
  | tick seconds =>
    simp only [step] at moved
    split at moved
    · cases moved
      exact quiet_of_eq rfl rfl rfl
    · contradiction
  | take index =>
    simp only [step] at moved
    split at moved
    · rename_i there
      obtain ⟨⟨job, board⟩, taken, same⟩ := Option.bind_eq_some_iff.mp moved
      cases same
      exact take_effect there taken
    · contradiction
  | work index fetchMove =>
    simp only [step] at moved
    split at moved
    · rename_i there
      exact work_effect there moved
    · contradiction
  | cancelWorker index =>
    cases there : world.workers[index]? with
    | none => simp [step, there] at moved
    | some worker => exact cancelWorker_effect there moved
  | callback =>
    obtain ⟨board, ran, same⟩ := Option.bind_eq_some_iff.mp moved
    cases same
    exact .callback ran rfl (calmer_of_eq rfl)
  | settleAdrift committed =>
    simp only [step] at moved
    split at moved
    · contradiction
    · cases moved
      cases committed with
      | true => exact quiet_of_eq rfl rfl rfl
      | false => exact quiet_of_eq rfl rfl rfl
  | call symbol timeframe limit source => exact call_effect moved
  | cancelCaller index =>
    obtain ⟨caller, there, rest⟩ := Option.bind_eq_some_iff.mp moved
    exact cancelCaller_effect there rest
  | wakeScheduler _ | needsCatchup _ | startPass _ | passNext | wakeBackfill _ _ | readWarmMap
  | scanNext _ | schedulerRaises | backfillRaises | stopScheduler | stopBackfill =>
    exact loop_effect trivial moved
  | judge index reading =>
    obtain ⟨caller, there, rest⟩ := Option.bind_eq_some_iff.mp moved
    refine advance_effect there ?_ rest
    rintro other _ same
    injection same with index'
    exact index'.symm
  | ensureContains index known | lookUp index | wake index | fetch index fetchMove | read index =>
    obtain ⟨caller, there, rest⟩ := Option.bind_eq_some_iff.mp moved
    exact advance_effect there (by simp) rest

end KlineWorld

end Rasat
