import RasatTrading.Coop.Outcome
import RasatTrading.Lifecycle

/-! The daemon closes on its way out what it has opened, and is ready only when everything is open. -/

namespace Rasat.Lifecycle

open Coop Keeping

/-- What the runner has done and what came of it, newest first. -/
abbrev Log := Hist Act (fun _ => Unit) Fault

/-- What was done, oldest first. -/
def acts (log : Log) : List Act := (log.map fun event => event.request).reverse

/-- Whether something was begun. -/
def asked (log : Log) (act : Act) : Bool := log.any fun event => event.request = act

/-- Whether something was done without a fault. -/
def went (log : Log) (act : Act) : Bool := log.any fun event => event.request = act && event.answer.isOk

/-- Whether an act closes something, or gives the lock back. -/
def Act.closes : Act → Bool
  | .joinWorker | .stopSite | .cleanUpRunner | .closeBroker | .stopPipeline | .stopDb | .release => true
  | _ => false

/-- Something to close, if it is there. -/
def given (there : Bool) (act : Act) : List Act := if there then [act] else []

/-- What there is to close, in the order in which it is closed: the worker and the broker come with a pipeline that
has started, the site and the HTTP runner with the start of the site, and the pipeline and the database already with
the attempt. A runner that was set up for a site that did not start is not among it. -/
def closings (log : Log) : List Act :=
  given (went log .startPipeline) .joinWorker ++ given (went log .startSite) .stopSite ++
    given (went log .startSite) .cleanUpRunner ++ given (went log .startPipeline) .closeBroker ++
    given (asked log .startPipeline) .stopPipeline ++ given (asked log .startDb) .stopDb

/-- What closes the things that an act opens. -/
def Act.closers : Act → List Act
  | .startDb => [.stopDb]
  -- The worker and the broker are made behind it.
  | .startPipeline => [.joinWorker, .closeBroker, .stopPipeline]
  | .setUpRunner => [.cleanUpRunner]
  | .startSite => [.stopSite]
  | _ => []

/-- What a runner closes. -/
def closingsOf (runner : Runner) : List Act :=
  given runner.paWorkerTask .joinWorker ++ given runner.http .stopSite ++ given runner.http .cleanUpRunner ++
    given runner.orderBroker .closeBroker ++ given runner.pipeline .stopPipeline ++ given runner.db .stopDb

@[simp] theorem acts_nil : acts [] = [] := rfl

@[simp] theorem acts_cons (event : Event Act (fun _ => Unit) Fault) (log : Log) :
    acts (event :: log) = acts log ++ [event.request] := by simp [acts]

@[simp] theorem acts_append (newer older : Log) : acts (newer ++ older) = acts older ++ acts newer := by simp [acts]

variable {rule : Log → Act → Prop} {runner : Runner} {log : Log}

/-- An awaited act. -/
theorem sure_await {act : Act} (permitted : rule log act) :
    Sure (logging rule) (await act) runner log fun outcome after log' =>
      after = runner ∧ log' = ⟨act, outcome⟩ :: log := sure_logged permitted fun _ => ⟨rfl, rfl⟩

/-- An act that is not awaited cannot be cancelled. -/
theorem sure_perform {act : Act} (permitted : rule log act) :
    Sure (logging rule) (perform act) runner log fun outcome after log' =>
      after = runner ∧ outcome ≠ .error .cancelled ∧
        ∃ answer, log' = ⟨act, answer⟩ :: log ∧ (outcome = .ok () ↔ answer = .ok ()) := by
  refine (sure_await permitted).rescue ?_ ?_
  · rintro value after _ ⟨rfl, rfl⟩
    exact ⟨rfl, by simp, .ok value, rfl, by simp⟩
  · rintro raised after _ ⟨rfl, rfl⟩
    cases raised with
    | cancelled => exact sure_raise ⟨rfl, by simp, _, rfl, by simp⟩
    | lockHeld => exact sure_raise ⟨rfl, by simp, _, rfl, by simp⟩
    | exception text => exact sure_raise ⟨rfl, by simp, _, rfl, by simp⟩

/-- Where every exception is logged, only a cancellation gets out. -/
theorem Sure.logged {program : Life Unit} {post weaker : Except Fault Unit → Runner → Log → Prop}
    (sure : Sure (logging rule) program runner log post)
    (ok : ∀ outcome after log', outcome ≠ .error .cancelled → post outcome after log' → weaker (.ok ()) after log')
    (cancelled : ∀ after log', post (.error .cancelled) after log' → weaker (.error .cancelled) after log') :
    Sure (logging rule) (logged program) runner log weaker := by
  refine sure.rescue (fun value after log' holds => ok _ after log' (by simp) holds) ?_
  rintro raised after log' holds
  cases raised with
  | cancelled => exact sure_raise (cancelled after log' holds)
  | lockHeld => exact sure_pure (ok _ after log' (by simp) holds)
  | exception text => exact sure_pure (ok _ after log' (by simp) holds)

/-! The way out. -/

/-- After some closings: all of these were done, or the last of them was cancelled. -/
def Closing (before : Log) (closed : List Act) : Except Fault Unit → Log → Prop
  | .ok _, log => ∃ down, log = down ++ before ∧ acts down = closed
  | .error fault, log => fault = .cancelled ∧
      ∃ event down, log = event :: down ++ before ∧ acts (event :: down) <+: closed ∧ event.answer = .error .cancelled

/-- Nothing but closings, and the runner as it was. -/
def Closes (rule : Log → Act → Prop) (program : Life Unit) (runner : Runner) (closed : List Act) : Prop :=
  ∀ log, Sure (logging rule) program runner log fun outcome after log' => after = runner ∧ Closing log closed outcome log'

/-- One closing of which every exception is logged. -/
theorem closes_logged {act : Act} (permitted : ∀ log, rule log act) :
    Closes rule (logged (await act)) runner [act] := by
  intro log
  refine Sure.logged (sure_await (permitted log)) ?_ ?_
  · rintro outcome after _ - ⟨rfl, rfl⟩
    exact ⟨rfl, [⟨act, outcome⟩], rfl, rfl⟩
  · rintro after _ ⟨rfl, rfl⟩
    exact ⟨rfl, rfl, ⟨act, .error .cancelled⟩, [], rfl, List.prefix_rfl, rfl⟩

/-- The same if there is something to close. -/
theorem closes_given {act : Act} {there : Bool} (permitted : ∀ log, rule log act) :
    Closes rule (onlyIf there (logged (await act))) runner (given there act) := by
  cases there with
  | true => exact closes_logged permitted
  | false => exact fun log => sure_pure ⟨rfl, [], rfl, rfl⟩

/-- Closings one after the other; a cancelled one is the last. -/
theorem Closes.then {first next : Life Unit} {closed others : List Act} (closes : Closes rule first runner closed)
    (rest : Closes rule next runner others) : Closes rule (first >>= fun _ => next) runner (closed ++ others) := by
  intro log
  refine (closes log).bind ?_ ?_
  · rintro value after log' ⟨rfl, down, rfl, rfl⟩
    refine (rest _).mono ?_
    rintro outcome after' log'' ⟨rfl, closing⟩
    refine ⟨rfl, ?_⟩
    cases outcome with
    | ok value =>
      obtain ⟨later, rfl, rfl⟩ := closing
      exact ⟨later ++ down, by simp, by simp⟩
    | error fault =>
      obtain ⟨same, event, later, rfl, started, cancelled⟩ := closing
      refine ⟨same, event, later ++ down, by simp, ?_, cancelled⟩
      have joined : acts (event :: (later ++ down)) = acts down ++ acts (event :: later) := by simp
      rw [joined]
      exact (List.prefix_append_right_inj _).mpr started
  · rintro raised after log' ⟨rfl, same, event, down, split, started, cancelled⟩
    exact ⟨rfl, same, event, down, split, started.trans (List.prefix_append _ _), cancelled⟩

/-- What there is to close is closed in its order. -/
theorem closeAll_closes (permitted : ∀ log act, act.closes = true → rule log act) :
    Closes rule closeAll runner (closingsOf runner) := by
  intro log
  unfold closeAll gather
  refine sure_get_then ?_
  have each : ∀ {act : Act} {there : Bool}, act.closes = true →
      Closes rule (onlyIf there (logged (await act))) runner (given there act) :=
    fun closing => closes_given fun log => permitted log _ closing
  have parts : closingsOf runner = given runner.paWorkerTask .joinWorker ++ (given runner.http .stopSite ++
      (given runner.http .cleanUpRunner ++ (given runner.orderBroker .closeBroker ++
        (given runner.pipeline .stopPipeline ++ given runner.db .stopDb)))) := by
    simp only [closingsOf, List.append_assoc]
  rw [parts]
  refine Closes.then (each rfl) ?_ log
  refine Closes.then (each rfl) ?_
  refine Closes.then (each rfl) ?_
  refine Closes.then (each rfl) ?_
  exact Closes.then (each rfl) (each rfl)

/-- After `stop`: what there was to close, and then the release as the last act. -/
def Stopped (runner : Runner) (before log : Log) : Prop :=
  ∃ last down, log = last :: down ++ before ∧ last.request = .release ∧ acts down <+: closingsOf runner ∧
    (acts down = closingsOf runner ∨ ∃ event rest, down = event :: rest ∧ event.answer = .error .cancelled)

theorem stop_sure (permitted : ∀ log act, act.closes = true → rule log act) (running : runner.shutdownComplete = false) :
    Sure (logging rule) stop runner log fun _ _ log' => Stopped runner log log' := by
  unfold stop
  refine sure_get_then ?_
  rw [running]
  refine (closeAll_closes permitted log).lastly ?_
  rintro outcome after log' ⟨rfl, closing⟩
  -- Whatever the closings came to, the lock is given back.
  have down : ∃ down, log' = down ++ log ∧ acts down <+: closingsOf after ∧
      (acts down = closingsOf after ∨ ∃ event rest, down = event :: rest ∧ event.answer = .error .cancelled) := by
    cases outcome with
    | ok value =>
      obtain ⟨down, split, all⟩ := closing
      exact ⟨down, split, all ▸ List.prefix_rfl, .inl all⟩
    | error fault =>
      obtain ⟨-, event, down, split, started, cancelled⟩ := closing
      exact ⟨event :: down, split, started, .inr ⟨event, down, rfl, cancelled⟩⟩
  obtain ⟨down, rfl, started, ended⟩ := down
  have performed : Sure (logging rule) (logged (perform .release)) after (down ++ log) fun ended _ log'' =>
      ended = .ok () ∧ ∃ answer, log'' = ⟨.release, answer⟩ :: (down ++ log) := by
    refine Sure.logged (sure_perform (permitted _ .release rfl)) ?_ ?_
    · rintro outcome' after' log'' - ⟨-, -, answer, heard, -⟩
      exact ⟨rfl, answer, heard⟩
    · rintro after' log'' ⟨-, impossible, -⟩
      exact absurd rfl impossible
  refine performed.bind ?_ ?_
  · rintro value after' log'' ⟨-, answer, rfl⟩
    exact sure_modify ⟨⟨.release, answer⟩, down, rfl, rfl, started, ended⟩
  · rintro raised after' log'' ⟨impossible, -⟩
    cases impossible

/-! The way up. -/

/-- The acts whose faults do not keep the runner from going on. -/
def Act.tolerated : Act → Bool
  | .reconcileLog | .reconcileOrders | .reconcilePending | .awaitStop | .joinWatchers => true
  | _ => false

/-- Some acts were done one after the other, and none of their faults counted. -/
structure Walked (done : List Act) (log : Log) : Prop where
  acts : acts log = done
  fine : ∀ event ∈ log, event.request.tolerated = false → event.answer = .ok ()

/-- After some acts another one came to a fault. -/
def Halted (done : List Act) (act : Act) (log : Log) : Prop :=
  ∃ fault before, log = ⟨act, .error fault⟩ :: before ∧ Walked done before

/-- The states that the lock file was told. -/
def told (seen : List Act) : List String := seen.filterMap fun
  | .updateState state => some state
  | _ => none

/-- What a runner knows of itself after some acts were done and some begun. -/
structure Knows (done seen : List Act) (runner : Runner) : Prop where
  held : .acquire ∈ done
  state : runner.readiness.state = (told seen).getLastD "starting"
  db : runner.db = decide (.startDb ∈ seen)
  pipeline : runner.pipeline = decide (.startPipeline ∈ seen)
  worker : runner.paWorkerTask = decide (.reconcileOrders ∈ seen)
  broker : runner.orderBroker = decide (.reconcileOrders ∈ seen)
  http : runner.http = decide (.startSite ∈ done)
  running : runner.shutdownComplete = false

/-- On the way through a plan: some acts are done, or one of the plan halted. -/
def Rising (plan done : List Act) : Except Fault Unit → Runner → Log → Prop
  | .ok _, runner, log => Walked done log ∧ Knows done done runner
  | .error _, runner, log => ∃ done act, done ++ [act] <+: plan ∧ Halted done act log ∧
      Knows done (done ++ [act]) runner

/-- The rule permits the acts of a plan in their order. -/
def Guides (rule : Log → Act → Prop) (plan : List Act) : Prop :=
  ∀ done act log, done ++ [act] <+: plan → Walked done log → rule log act

theorem Walked.next {done : List Act} {act : Act} {answer : Except Fault Unit} (walked : Walked done log)
    (fine : act.tolerated = true ∨ answer = .ok ()) : Walked (done ++ [act]) (⟨act, answer⟩ :: log) where
  acts := by rw [acts_cons, walked.acts]
  fine := by
    intro event member strict
    rcases List.mem_cons.mp member with rfl | older
    · exact fine.resolve_left (by simp [strict])
    · exact walked.fine event older strict

variable {plan done : List Act} {act : Act}

/-- The next act of a plan. -/
theorem rise_await (guides : Guides rule plan) (walked : Walked done log) (within : done ++ [act] <+: plan)
    (begun : Knows done (done ++ [act]) runner) (finished : Knows (done ++ [act]) (done ++ [act]) runner) :
    Sure (logging rule) (await act) runner log (Rising plan (done ++ [act])) := by
  refine (sure_await (guides done act log within walked)).mono ?_
  rintro outcome after _ ⟨rfl, rfl⟩
  cases outcome with
  | ok value => exact ⟨walked.next (.inr rfl), finished⟩
  | error fault => exact ⟨done, act, within, ⟨fault, log, rfl, walked⟩, begun⟩

/-- One that is not awaited. -/
theorem walk_perform (permitted : rule log act) (walked : Walked done log) :
    Sure (logging rule) (perform act) runner log fun outcome after log' => after = runner ∧
      (outcome = .ok () → Walked (done ++ [act]) log') ∧ (outcome ≠ .ok () → Halted done act log') := by
  refine (sure_perform permitted).mono ?_
  rintro outcome after _ ⟨rfl, -, answer, rfl, same⟩
  refine ⟨rfl, fun ok => walked.next (.inr (same.mp ok)), fun failed => ?_⟩
  cases answer with
  | ok value => exact absurd (same.mpr rfl) failed
  | error fault => exact ⟨fault, log, rfl, walked⟩

/-- One whose exceptions are logged. -/
theorem rise_logged (guides : Guides rule plan) (walked : Walked done log) (within : done ++ [act] <+: plan)
    (tolerated : act.tolerated = true) (begun : Knows done (done ++ [act]) runner)
    (finished : Knows (done ++ [act]) (done ++ [act]) runner) :
    Sure (logging rule) (logged (await act)) runner log (Rising plan (done ++ [act])) := by
  refine Sure.logged (sure_await (guides done act log within walked)) ?_ ?_
  · rintro outcome after _ - ⟨rfl, rfl⟩
    exact ⟨walked.next (.inl tolerated), finished⟩
  · rintro after _ ⟨rfl, rfl⟩
    exact ⟨done, act, within, ⟨.cancelled, log, rfl, walked⟩, begun⟩

/-- What comes after a part of the way. -/
theorem rise_then {first next : Life Unit} {middle : List Act}
    (sure : Sure (logging rule) first runner log (Rising plan middle))
    (rest : ∀ runner log, Walked middle log → Knows middle middle runner →
      Sure (logging rule) next runner log (Rising plan done)) :
    Sure (logging rule) (first >>= fun _ => next) runner log (Rising plan done) :=
  sure.bind (fun _ after log' holds => rest after log' holds.1 holds.2) fun _ _ _ holds => holds

/-- The next state, where it comes after the one before. -/
theorem walk_enter {state : String} (permitted : rule log (.updateState state)) (walked : Walked done log)
    (knows : Knows done done runner) (known : state ∈ states) (later : state ≠ "starting")
    (order : (told done).getLastD "starting" ∈ states.take (states.idxOf state)) :
    Sure (logging rule) (enter state) runner log fun outcome after log' =>
      (outcome = .ok () → Walked (done ++ [.updateState state]) log' ∧
        Knows (done ++ [.updateState state]) (done ++ [.updateState state]) after) ∧
      (outcome ≠ .ok () → Halted done (.updateState state) log' ∧ Knows done (done ++ [.updateState state]) after) := by
  have set : runner.readiness.setState state =
      .ok { state := state
            history := runner.readiness.history ++ [state]
            event := runner.readiness.event || state = "ready" } := by
    unfold Readiness.setState
    rw [knows.state, if_neg (not_not.mpr known), if_neg (fun both => later both.1), if_neg (fun both => both.2 order)]
  unfold enter
  refine sure_get_then ?_
  simp only [set]
  -- The runner enters the state before the lock file is told of it.
  refine sure_modify_then ?_
  have next : ∀ before, before = done ∨ before = done ++ [.updateState state] →
      Knows before (done ++ [.updateState state]) { runner with readiness :=
        { state := state
          history := runner.readiness.history ++ [state]
          event := runner.readiness.event || state = "ready" } } := by
    rintro before place
    exact {
      held := by rcases place with rfl | rfl <;> simp [knows.held]
      state := by simp [told]
      db := by simp [knows.db]
      pipeline := by simp [knows.pipeline]
      worker := by simp [knows.worker]
      broker := by simp [knows.broker]
      http := by rcases place with rfl | rfl <;> simp [knows.http]
      running := knows.running }
  refine (walk_perform permitted walked).mono ?_
  rintro outcome after log' ⟨rfl, ok, failed⟩
  exact ⟨fun same => ⟨ok same, next _ (.inr rfl)⟩, fun other => ⟨failed other, next _ (.inl rfl)⟩⟩

theorem rise_enter {state : String} (guides : Guides rule plan) (walked : Walked done log) (knows : Knows done done runner)
    (within : done ++ [.updateState state] <+: plan) (known : state ∈ states) (later : state ≠ "starting")
    (order : (told done).getLastD "starting" ∈ states.take (states.idxOf state)) :
    Sure (logging rule) (enter state) runner log (Rising plan (done ++ [.updateState state])) := by
  refine (walk_enter (guides done _ log within walked) walked knows known later order).mono ?_
  rintro outcome after log' ⟨ok, failed⟩
  cases outcome with
  | ok value => exact ok rfl
  | error fault =>
    obtain ⟨halted, begun⟩ := failed (by simp)
    exact ⟨done, _, within, halted, begun⟩

/-- The same is known after other acts that say the same. -/
theorem Knows.carry {done seen done' seen' : List Act} (knows : Knows done seen runner)
    (state : (told seen').getLastD "starting" = (told seen).getLastD "starting")
    (same : ∀ act ∈ [Act.startDb, .startPipeline, .reconcileOrders], act ∈ seen' ↔ act ∈ seen)
    (sure : ∀ act ∈ [Act.acquire, .startSite], act ∈ done' ↔ act ∈ done) : Knows done' seen' runner where
  held := (sure .acquire (by decide)).mpr knows.held
  state := knows.state.trans state.symm
  db := by rw [knows.db, decide_eq_decide, same .startDb (by decide)]
  pipeline := by rw [knows.pipeline, decide_eq_decide, same .startPipeline (by decide)]
  worker := by rw [knows.worker, decide_eq_decide, same .reconcileOrders (by decide)]
  broker := by rw [knows.broker, decide_eq_decide, same .reconcileOrders (by decide)]
  http := by rw [knows.http, decide_eq_decide, sure .startSite (by decide)]
  running := knows.running

/-- Some acts leave no mark on the runner, neither when they begin nor when they are done. -/
theorem Knows.unmarked (knows : Knows done done runner)
    (unmarked : act ∈ [Act.migrate, .reconcileOverrides, .reconcileLog, .reconcilePending, .setUpRunner]) :
    Knows done (done ++ [act]) runner ∧ Knows (done ++ [act]) (done ++ [act]) runner := by
  simp only [List.mem_cons, List.not_mem_nil, or_false] at unmarked
  -- None of the fields of a runner is about one of these.
  rcases unmarked with rfl | rfl | rfl | rfl | rfl <;>
    exact ⟨knows.carry (by simp [told]) (by simp) (by simp), knows.carry (by simp [told]) (by simp) (by simp)⟩

/-- So they only have to be awaited. -/
theorem rise_unmarked (guides : Guides rule plan) (walked : Walked done log) (knows : Knows done done runner)
    (within : done ++ [act] <+: plan)
    (unmarked : act ∈ [Act.migrate, .reconcileOverrides, .reconcileLog, .reconcilePending, .setUpRunner]) :
    Sure (logging rule) (await act) runner log (Rising plan (done ++ [act])) :=
  rise_await guides walked within (knows.unmarked unmarked).1 (knows.unmarked unmarked).2

/-- What is done before the data come in. -/
def migrated : List Act :=
  [.prepare, .acquire, .startDb, .updateState "migrating", .migrate, .reconcileOverrides, .reconcileLog,
    .updateState "warming_up"]

/-- What is done until the daemon can be asked. -/
def opened (pipelineEnabled : Bool) : List Act :=
  migrated ++ (if pipelineEnabled then [.startPipeline, .reconcileOrders, .reconcilePending] else []) ++
    [.setUpRunner, .startSite]

/-- The whole way of the runner until it stops. -/
def lifetime (pipelineEnabled : Bool) : List Act :=
  opened pipelineEnabled ++ [.updateState "ready", .awaitStop, .joinWatchers]

/-- The migrations and what is made up for after them. -/
theorem runMigrations_sure (guides : Guides rule plan) (within : migrated <+: plan)
    (walked : Walked [.prepare, .acquire] log) (knows : Knows [.prepare, .acquire] [.prepare, .acquire] runner) :
    Sure (logging rule) runMigrations runner log (Rising plan migrated) := by
  have part : ∀ front, front <+: migrated → front <+: plan := fun front early => early.trans within
  have begun : Knows [.prepare, .acquire] [.prepare, .acquire, .startDb] { runner with db := true } :=
    { knows with db := rfl }
  unfold runMigrations
  -- The database is known before it is started.
  refine sure_modify_then ?_
  refine rise_then (rise_await guides walked (part _ (by decide)) begun
    (begun.carry (by decide) (by decide) (by decide))) fun runner log walked knows => ?_
  refine rise_then (rise_enter guides walked knows (part _ (by decide)) (by decide) (by decide) (by decide))
    fun runner log walked knows => ?_
  refine rise_then (rise_unmarked guides walked knows (part _ (by decide)) (by decide))
    fun runner log walked knows => ?_
  refine rise_then (rise_unmarked guides walked knows (part _ (by decide)) (by decide))
    fun runner log walked knows => ?_
  refine rise_then (rise_logged guides walked (part _ (by decide)) rfl (knows.unmarked (by decide)).1
    (knows.unmarked (by decide)).2) fun runner log walked knows => ?_
  exact rise_enter guides walked knows (part _ (by decide)) (by decide) (by decide) (by decide)

/-- The site comes last, and is known only when it has started. -/
theorem startSite_sure (guides : Guides rule plan) (walked : Walked done log) (knows : Knows done done runner)
    (within : done ++ [.startSite] <+: plan) :
    Sure (logging rule) (await .startSite >>= fun _ => Keeping.modify fun runner => { runner with http := true })
      runner log (Rising plan (done ++ [.startSite])) := by
  have begun : Knows done (done ++ [.startSite]) runner :=
    knows.carry (by simp [told]) (by simp) fun _ _ => Iff.rfl
  refine (sure_await (guides done _ log within walked)).bind ?_ ?_
  · rintro value after _ ⟨rfl, heard⟩
    have finished : Knows (done ++ [.startSite]) (done ++ [.startSite]) { after with http := true } :=
      { begun with held := by simp [begun.held], http := by simp }
    exact sure_modify ⟨heard ▸ walked.next (.inr rfl), finished⟩
  · rintro raised after _ ⟨rfl, rfl⟩
    exact ⟨done, _, within, ⟨raised, log, rfl, walked⟩, begun⟩

/-- Everything between the lock and the first request. -/
theorem opened_sure {pipelineEnabled : Bool} (guides : Guides rule (opened pipelineEnabled))
    (walked : Walked [.prepare, .acquire] log) (knows : Knows [.prepare, .acquire] [.prepare, .acquire] runner) :
    Sure (logging rule) (startupSequence pipelineEnabled >>= fun _ => startHttp) runner log
      (Rising (opened pipelineEnabled) (opened pipelineEnabled)) := by
  cases pipelineEnabled with
  | false =>
    -- Without a pipeline only the site is left.
    refine rise_then (rise_then (runMigrations_sure guides (by decide) walked knows) fun runner log walked knows =>
      (sure_pure ⟨walked, knows⟩ : Sure _ _ _ _ (Rising (opened false) migrated))) fun runner log walked knows => ?_
    unfold startHttp
    refine sure_get_then ?_
    rw [knows.pipeline]
    refine rise_then (sure_pure ⟨walked, knows⟩ : Sure _ _ _ _ (Rising (opened false) migrated))
      fun runner log walked knows => ?_
    refine rise_then (rise_unmarked guides walked knows (by decide) (by decide)) fun runner log walked knows => ?_
    exact startSite_sure guides walked knows (by decide)
  | true =>
    -- The pipeline is known before it is started.
    have piped : ∀ {runner : Runner}, Knows migrated migrated runner →
        Knows migrated (migrated ++ [.startPipeline]) { runner with pipeline := true } :=
      fun knows => { knows with pipeline := rfl }
    have started : Sure (logging rule) (startupSequence true) runner log
        (Rising (opened true) (migrated ++ [.startPipeline])) :=
      rise_then (runMigrations_sure guides (by decide) walked knows) fun runner log walked knows =>
        sure_modify_then (rise_await guides walked (by decide) (piped knows)
          ((piped knows).carry (by decide) (by decide) (by decide)))
    refine rise_then started fun runner log walked knows => ?_
    unfold startHttp
    refine sure_get_then ?_
    rw [knows.pipeline]
    -- So are the worker and the broker, before anything else is asked.
    have staffed : Knows (migrated ++ [.startPipeline]) (migrated ++ [.startPipeline, .reconcileOrders])
        { runner with paWorkerTask := true, orderBroker := true } :=
      { knows with worker := rfl, broker := rfl }
    refine rise_then (?_ : Sure _ _ _ _ (Rising (opened true)
      (migrated ++ [.startPipeline] ++ [.reconcileOrders] ++ [.reconcilePending]))) ?_
    · refine sure_modify_then ?_
      refine rise_then (rise_logged guides walked (by decide) rfl staffed
        (staffed.carry (by decide) (by decide) (by decide))) fun runner log walked knows => ?_
      exact rise_logged guides walked (by decide) rfl (knows.unmarked (by decide)).1 (knows.unmarked (by decide)).2
    · intro runner log walked knows
      refine rise_then (rise_unmarked guides walked knows (by decide) (by decide)) fun runner log walked knows => ?_
      exact startSite_sure guides walked knows (by decide)

/-! The whole life. -/

/-- How the life of a runner ends. -/
inductive Ended (pipelineEnabled : Bool) (log : Log) : Prop
  /-- It has not got the lock. -/
  | unheld (done : List Act) (act : Act) (within : done ++ [act] <+: [.prepare, .acquire]) (halted : Halted done act log)
  /-- It could not say that it is ready. -/
  | unready (halted : Halted (opened pipelineEnabled) (.updateState "ready") log)
  /-- It was cancelled before it was stopped. -/
  | cut (before : Log) (walked : Walked (opened pipelineEnabled ++ [.updateState "ready"] ++ [.awaitStop]) before)
      (cancelled : log = ⟨.joinWatchers, .error .cancelled⟩ :: before)
  /-- It was stopped after it had begun to open something. -/
  | given (done : List Act) (act : Act) (up : Log) (runner : Runner) (within : done ++ [act] <+: opened pipelineEnabled)
      (halted : Halted done act up) (knows : Knows done (done ++ [act]) runner) (stopped : Stopped runner up log)
  /-- It was stopped after everything else. -/
  | whole (up : Log) (runner : Runner) (walked : Walked (lifetime pipelineEnabled) up)
      (knows : Knows (lifetime pipelineEnabled) (lifetime pipelineEnabled) runner) (stopped : Stopped runner up log)

/-- After some acts of a life that goes on, or at its end. -/
def Onward (pipelineEnabled : Bool) (done : List Act) : Except Fault Unit → Runner → Log → Prop
  | .ok _, runner, log => Walked done log ∧ Knows done done runner
  | .error _, _, log => Ended pipelineEnabled log

variable {pipelineEnabled : Bool}

theorem opened_prefix : opened pipelineEnabled <+: lifetime pipelineEnabled := List.prefix_append _ _

/-- What cannot be opened is an end with everything closed. -/
theorem rescued_sure (guides : Guides rule (lifetime pipelineEnabled))
    (permitted : ∀ log act, act.closes = true → rule log act) (walked : Walked [.prepare, .acquire] log)
    (knows : Knows [.prepare, .acquire] [.prepare, .acquire] runner) :
    Sure (logging rule)
      (Keeping.rescue (startupSequence pipelineEnabled >>= fun _ => startHttp) fun fault =>
        stop >>= fun _ => Keeping.raise fault)
      runner log (Onward pipelineEnabled (opened pipelineEnabled)) := by
  have fewer : Guides rule (opened pipelineEnabled) :=
    fun done act log within walked => guides done act log (within.trans opened_prefix) walked
  refine (opened_sure fewer walked knows).rescue (fun _ _ _ holds => holds) ?_
  rintro raised after log' ⟨done, act, within, halted, knows⟩
  have ended : ∀ log'', Stopped after log' log'' → Ended pipelineEnabled log'' := fun log'' stopped =>
    .given done act log' after within halted knows stopped
  -- Whatever halted the way up, the runner is stopped and the fault goes on.
  refine (stop_sure permitted knows.running).bind ?_ ?_
  · exact fun value last log'' stopped => sure_raise (ended log'' stopped)
  · exact fun fault last log'' stopped => ended log'' stopped

theorem start_sure (guides : Guides rule (lifetime pipelineEnabled))
    (permitted : ∀ log act, act.closes = true → rule log act) :
    Sure (logging rule) (start pipelineEnabled) {} []
      (Onward pipelineEnabled (opened pipelineEnabled ++ [.updateState "ready"])) := by
  have idle : Walked [] [] := ⟨rfl, by simp⟩
  have fresh : Knows [.prepare, .acquire] [.prepare, .acquire] {} :=
    ⟨by decide, rfl, rfl, rfl, rfl, rfl, rfl, rfl⟩
  have last : opened pipelineEnabled ++ [.updateState "ready"] <+: lifetime pipelineEnabled :=
    (List.prefix_append_right_inj _).mpr ⟨[.awaitStop, .joinWatchers], rfl⟩
  unfold start
  refine (walk_perform (guides [] .prepare [] ?_ idle) idle).bind ?_ ?_
  · cases pipelineEnabled <;> decide
  · rintro value after log ⟨rfl, prepared, -⟩
    refine (walk_perform (guides _ .acquire log ?_ (prepared rfl)) (prepared rfl)).bind ?_ ?_
    · cases pipelineEnabled <;> decide
    · rintro value' after log ⟨rfl, acquired, -⟩
      refine (rescued_sure guides permitted (acquired rfl) fresh).bind ?_ fun _ _ _ ended => ended
      rintro value' runner log ⟨walked, knows⟩
      refine (walk_enter (guides _ _ log last walked) walked knows (by decide) (by decide) ?_).mono ?_
      · cases pipelineEnabled <;> decide
      · rintro outcome after log ⟨ok, failed⟩
        cases outcome with
        | ok value => exact ok rfl
        | error fault => exact .unready (failed (by simp)).1
    · rintro raised after log' ⟨-, -, failed⟩
      exact .unheld _ .acquire (by decide) (failed (by simp))
  · rintro raised after log ⟨-, -, failed⟩
    exact .unheld [] .prepare (by decide) (failed (by simp))

theorem run_sure (guides : Guides rule (lifetime pipelineEnabled))
    (permitted : ∀ log act, act.closes = true → rule log act)
    (walked : Walked (opened pipelineEnabled ++ [.updateState "ready"]) log)
    (knows : Knows (opened pipelineEnabled ++ [.updateState "ready"]) (opened pipelineEnabled ++ [.updateState "ready"])
      runner) : Sure (logging rule) run runner log fun _ _ log' => Ended pipelineEnabled log' := by
  have split : opened pipelineEnabled ++ [.updateState "ready"] ++ [.awaitStop] ++ [.joinWatchers] =
      lifetime pipelineEnabled := by simp [lifetime]
  have joined : opened pipelineEnabled ++ [.updateState "ready"] ++ [.awaitStop] ++ [.joinWatchers] <+:
      lifetime pipelineEnabled := split ▸ List.prefix_rfl
  have waited : opened pipelineEnabled ++ [.updateState "ready"] ++ [.awaitStop] <+: lifetime pipelineEnabled :=
    (List.prefix_append _ _).trans joined
  unfold run gather
  -- The wait may end in any way; the watchers are joined all the same.
  refine (sure_await (guides _ .awaitStop log waited walked)).lastly ?_
  rintro outcome after _ ⟨rfl, rfl⟩
  have paused : Walked (opened pipelineEnabled ++ [.updateState "ready"] ++ [.awaitStop]) (⟨.awaitStop, outcome⟩ :: log) :=
    walked.next (.inl rfl)
  have ready : Knows (lifetime pipelineEnabled) (lifetime pipelineEnabled) after := by
    rw [← split]
    exact knows.carry (by simp [told]) (by simp) (by simp)
  have gathered : Sure (logging rule) (logged (await .joinWatchers)) after (⟨.awaitStop, outcome⟩ :: log)
      fun outcome last log' => last = after ∧ (outcome = .ok () → Walked (lifetime pipelineEnabled) log') ∧
        (outcome ≠ .ok () → Ended pipelineEnabled log') := by
    refine Sure.logged (sure_await (guides _ .joinWatchers _ joined paused)) ?_ ?_
    · rintro outcome' last _ - ⟨rfl, rfl⟩
      exact ⟨rfl, fun _ => split ▸ paused.next (.inl rfl), fun other => absurd rfl other⟩
    · rintro last _ ⟨rfl, rfl⟩
      exact ⟨rfl, by simp, fun _ => .cut _ paused rfl⟩
  refine gathered.bind ?_ ?_
  · rintro value last log' ⟨rfl, whole, -⟩
    exact (stop_sure permitted knows.running).mono fun _ _ log'' stopped => .whole log' last (whole rfl) ready stopped
  · exact fun raised last log' holds => holds.2.2 (by simp)

/-- After the start: on the way, or at an end. -/
def Launched (pipelineEnabled : Bool) (held : Except Fault Bool) (runner : Runner) (log : Log) : Prop :=
  (held = .ok false → Onward pipelineEnabled (opened pipelineEnabled ++ [.updateState "ready"]) (.ok ()) runner log) ∧
    (held ≠ .ok false → Ended pipelineEnabled log)

/-- Every life of the daemon comes to one of its ends. -/
theorem runDaemon_sure (guides : Guides rule (lifetime pipelineEnabled))
    (permitted : ∀ log act, act.closes = true → rule log act) :
    Sure (logging rule) (runDaemon pipelineEnabled) {} [] fun _ _ log => Ended pipelineEnabled log := by
  have body : Sure (logging rule) (start pipelineEnabled >>= fun _ => pure false) {} []
      (Launched pipelineEnabled) := by
    refine (start_sure guides permitted).bind ?_ ?_
    · exact fun value runner log onward => sure_pure ⟨fun _ => onward, fun other => absurd rfl other⟩
    · exact fun raised runner log ended => ⟨by simp, fun _ => ended⟩
  have caught : ∀ raised runner log, Launched pipelineEnabled (.error raised) runner log →
      Sure (logging rule) (unlessHeld raised) runner log (Launched pipelineEnabled) := by
    rintro raised runner log ⟨-, ended⟩
    have comes : Ended pipelineEnabled log := ended (by simp)
    cases raised with
    -- A lock that is held ends the life quietly.
    | lockHeld => exact sure_pure ⟨by simp, fun _ => comes⟩
    | exception text => exact sure_raise ⟨by simp, fun _ => comes⟩
    | cancelled => exact sure_raise ⟨by simp, fun _ => comes⟩
  unfold runDaemon
  refine (body.rescue (fun _ _ _ holds => holds) caught).bind ?_ ?_
  · rintro held runner log ⟨onward, ended⟩
    cases held with
    | true => exact sure_pure (ended (by simp))
    | false =>
      obtain ⟨walked, knows⟩ := onward rfl
      exact run_sure guides permitted walked knows
  · exact fun raised runner log holds => holds.2 (by simp)

/-! What the log says about it. -/

theorem asked_eq (log : Log) (act : Act) : asked log act = decide (act ∈ acts log) := by
  rw [Bool.eq_iff_iff, decide_eq_true_eq]
  simp [asked, acts]

/-- What was done on a walk went well, unless its faults do not count. -/
theorem Walked.went (walked : Walked done log) (strict : act.tolerated = false) : went log act = decide (act ∈ done) := by
  rw [Bool.eq_iff_iff, decide_eq_true_eq, ← walked.acts]
  simp only [Lifecycle.went, Lifecycle.acts, List.any_eq_true, Bool.and_eq_true, decide_eq_true_eq, List.mem_reverse, List.mem_map]
  constructor
  · rintro ⟨event, member, same, -⟩
    exact ⟨event, member, same⟩
  · rintro ⟨event, member, rfl⟩
    exact ⟨event, member, rfl, by rw [walked.fine event member strict]; rfl⟩

theorem Halted.went (halted : Halted done act log) {other : Act} (strict : other.tolerated = false) :
    went log other = decide (other ∈ done) := by
  obtain ⟨fault, before, rfl, walked⟩ := halted
  rw [← walked.went strict]
  simp [Lifecycle.went, Except.isOk, Except.toBool]

theorem Halted.acts (halted : Halted done act log) : acts log = done ++ [act] := by
  obtain ⟨fault, before, rfl, walked⟩ := halted
  rw [acts_cons, walked.acts]

/-- No part of a life closes anything before its end. -/
theorem lifetime_opens : ∀ pipelineEnabled, ∀ act ∈ lifetime pipelineEnabled, act.closes = false := by decide

theorem opens_of_prefix {seen : List Act} (within : seen <+: lifetime pipelineEnabled) (same : acts log = seen) :
    ∀ event ∈ log, event.request.closes = false := by
  intro event member
  refine lifetime_opens pipelineEnabled _ (within.subset ?_)
  rw [← same]
  simpa [acts] using ⟨event, member, rfl⟩

/-- The first thing after a pipeline has started is to look after open orders. -/
theorem worker_follows : ∀ pipelineEnabled, ∀ count < (opened pipelineEnabled).length,
    .startPipeline ∈ (opened pipelineEnabled).take count ↔
      .reconcileOrders ∈ (opened pipelineEnabled).take (count + 1) := by decide

/-- What a runner knows of itself is what the log says about it. -/
theorem Knows.closings {done seen : List Act} (knows : Knows done seen runner)
    (began : ∀ act, asked log act = decide (act ∈ seen))
    (went : ∀ act, act.tolerated = false → went log act = decide (act ∈ done))
    (follows : .startPipeline ∈ done ↔ .reconcileOrders ∈ seen) : closingsOf runner = closings log := by
  unfold closingsOf Lifecycle.closings
  rw [knows.db, knows.pipeline, knows.worker, knows.broker, knows.http, began, began, went _ rfl, went _ rfl]
  simp only [follows]

/-- What an act has opened is to be closed, but for an HTTP runner whose site has not started. -/
theorem closers_listed {closer : Act} (opened : Lifecycle.went log act = true) (closes : closer ∈ act.closers) :
    closer ∈ Lifecycle.closings log ↔ (act = .setUpRunner → Lifecycle.went log .startSite = true) := by
  have begun : asked log act = true := by
    simp only [Lifecycle.went, asked, List.any_eq_true, Bool.and_eq_true] at opened ⊢
    obtain ⟨event, member, same, -⟩ := opened
    exact ⟨event, member, same⟩
  cases act with
  | startPipeline =>
    simp only [Act.closers, List.mem_cons, List.not_mem_nil, or_false] at closes
    rcases closes with rfl | rfl | rfl <;> simp [Lifecycle.closings, Lifecycle.given, opened, begun]
  | startDb | setUpRunner | startSite =>
    obtain rfl := List.mem_singleton.mp closes
    simp [Lifecycle.closings, Lifecycle.given, opened, begun]
  | _ => exact absurd closes List.not_mem_nil

/-- Every life of the daemon, whatever goes wrong in it: it does not get the lock and opens nothing; or it ends with a
failure to say that it is ready or with a cancellation between two waits, and closes nothing; or it is stopped, closes
things in the order of `closings` and up to the first closing that is cancelled, and gives the lock back as the very
last thing. What it closes is all that it had opened by then, but for an HTTP runner whose site has not started. -/
theorem closes_what_it_opened {outcome : Except Fault Unit} (reached :
    Reaches (runDaemon pipelineEnabled {}) [] (.done (outcome, runner)) log) :
    (went log .acquire = false ∧ ∀ event ∈ log, event.request = .prepare ∨ event.request = .acquire) ∨
      ((∃ event before, log = event :: before ∧ (event = ⟨.joinWatchers, .error .cancelled⟩ ∨
          ∃ fault, event = ⟨.updateState "ready", .error fault⟩)) ∧ ∀ event ∈ log, event.request.closes = false) ∨
      ∃ up down last, log = last :: down ++ up ∧ last.request = .release ∧ went up .acquire = true ∧
        (∀ event ∈ up, event.request.closes = false) ∧
        (∀ act, went up act = true → ∀ closer ∈ act.closers,
          closer ∈ closings up ↔ (act = .setUpRunner → went up .startSite = true)) ∧ acts down <+: closings up ∧
        (acts down = closings up ∨ ∃ event rest, down = event :: rest ∧ event.answer = .error .cancelled) := by
  have free : Sure (logging fun _ _ => True) (runDaemon pipelineEnabled) {} [] fun _ _ log => Ended pipelineEnabled log :=
    runDaemon_sure (fun _ _ _ _ _ => trivial) fun _ _ _ => trivial
  cases free.ended reached with
  | unheld done act within halted =>
    refine .inl ⟨?_, fun event member => ?_⟩
    · rw [halted.went rfl, decide_eq_false_iff_not]
      -- Before the attempt there is only the preparation.
      intro there
      have short : done.length ≤ 1 := by simpa using within.length_le
      have front := List.prefix_iff_eq_take.mp ((List.prefix_append done [act]).trans within)
      rw [front] at there
      have early := List.take_subset_take_left [Act.prepare, .acquire] short there
      simp at early
    · have listed : event.request ∈ acts log := by simpa [acts] using ⟨event, member, rfl⟩
      rw [halted.acts] at listed
      simpa using within.subset listed
  | unready halted =>
    have within : opened pipelineEnabled ++ [.updateState "ready"] <+: lifetime pipelineEnabled :=
      (List.prefix_append_right_inj _).mpr ⟨[.awaitStop, .joinWatchers], rfl⟩
    refine .inr (.inl ⟨?_, opens_of_prefix within halted.acts⟩)
    obtain ⟨fault, before, rfl, -⟩ := halted
    exact ⟨_, before, rfl, .inr ⟨fault, rfl⟩⟩
  | cut before walked cancelled =>
    have whole : acts log = lifetime pipelineEnabled := by
      rw [cancelled, acts_cons, walked.acts]
      simp [lifetime]
    exact .inr (.inl ⟨⟨_, before, cancelled, .inl rfl⟩, opens_of_prefix List.prefix_rfl whole⟩)
  -- It halted on the way up: the runner knows what it has begun.
  | given done act up runner within halted knows stopped =>
    obtain ⟨last, down, rfl, release, started, ended⟩ := stopped
    have same : closingsOf runner = closings up := by
      refine knows.closings (fun other => ?_) (fun other strict => halted.went strict) ?_
      · rw [asked_eq, halted.acts]
      · have count := within.length_le
        rw [List.length_append, List.length_singleton] at count
        have whole := List.prefix_iff_eq_take.mp within
        have front := List.prefix_iff_eq_take.mp ((List.prefix_append done [act]).trans within)
        rw [List.length_append, List.length_singleton] at whole
        have follows := worker_follows pipelineEnabled done.length count
        rw [← whole, ← front] at follows
        exact follows
    refine .inr (.inr ⟨up, down, last, rfl, release, ?_, ?_, fun _ opened _ => closers_listed opened,
      same ▸ started, same ▸ ended⟩)
    · rw [halted.went rfl, decide_eq_true_eq]
      exact knows.held
    · exact opens_of_prefix (within.trans opened_prefix) halted.acts
  | whole up runner walked knows stopped =>
    obtain ⟨last, down, rfl, release, started, ended⟩ := stopped
    have same : closingsOf runner = closings up := by
      refine knows.closings (fun other => ?_) (fun other strict => walked.went strict) ?_
      · rw [asked_eq, walked.acts]
      · cases pipelineEnabled <;> decide
    refine .inr (.inr ⟨up, down, last, rfl, release, ?_, ?_, fun _ opened _ => closers_listed opened,
      same ▸ started, same ▸ ended⟩)
    · rw [walked.went rfl, decide_eq_true_eq]
      exact knows.held
    · exact opens_of_prefix List.prefix_rfl walked.acts

/-- A day on which the exchange cannot be reached. -/
def offline : (act : Act) → Except Fault Unit
  | .startPipeline => .error (.exception "no route to host")
  | _ => .ok ()

/-- A pipeline that does not start is closed with everything that was opened before it. -/
theorem closes_what_it_opened_offline : ∃ outcome runner up down last,
    Reaches (runDaemon true {}) [] (.done (outcome, runner)) (last :: down ++ up) ∧
      last.request = .release ∧ acts down = closings up := by
  have reached : Reaches (runDaemon true {}) [] _ _ := Prog.replay_reaches offline (runDaemon true {}) []
  obtain ⟨outcome, runner, came⟩ : ∃ outcome runner,
      ((runDaemon true {}).replay offline).2 = .ok (outcome, runner) := ⟨_, _, rfl⟩
  rw [came] at reached
  rcases closes_what_it_opened reached with ⟨unheld, -⟩ | ⟨-, quiet⟩ | ⟨up, down, last, split, release, facts⟩
  · exact absurd unheld (by decide)
  · exact absurd quiet (by decide)
  · rw [split] at reached
    refine ⟨outcome, runner, up, down, last, reached, release, facts.2.2.2.2.resolve_right ?_⟩
    rintro ⟨event, rest, rfl, cancelled⟩
    have listed : event ∈ ((runDaemon true {}).replay offline).1.reverse ++ [] := by rw [split]; simp
    have answered := Prog.replay_answers (List.mem_reverse.mp (by simpa using listed))
    rw [answered] at cancelled
    cases act : event.request <;> rw [act] at cancelled <;> cases cancelled

/-! Readiness. -/

/-- What has to be done before requests are taken. -/
def needed (pipelineEnabled : Bool) : List Act :=
  [.acquire, .startDb, .migrate, .reconcileOverrides] ++ (if pipelineEnabled then [.startPipeline] else []) ++
    [.setUpRunner]

/-- Requests are taken after all of that, and the daemon is called ready after requests are taken, with nothing
closed. -/
def Orderly (pipelineEnabled : Bool) (log : Log) : Act → Prop
  | .updateState state => told (acts log) ++ [state] <+: ["migrating", "warming_up", "ready"] ∧
      (state = "ready" → (∀ act ∈ needed pipelineEnabled ++ [Act.startSite], went log act = true) ∧
        ∀ event ∈ log, event.request.closes = false)
  | .startSite => ∀ act ∈ needed pipelineEnabled, went log act = true
  | _ => True

/-- What the rule says of acts that were done one after the other. -/
def orderly (pipelineEnabled : Bool) (done : List Act) : Act → Bool
  | .updateState state => (told done ++ [state]).isPrefixOf ["migrating", "warming_up", "ready"] &&
      (state ≠ "ready" || (needed pipelineEnabled ++ [Act.startSite]).all fun act => act ∈ done)
  | .startSite => (needed pipelineEnabled).all fun act => act ∈ done
  | _ => true

theorem needed_strict : ∀ pipelineEnabled, ∀ act ∈ needed pipelineEnabled ++ [Act.startSite],
    act.tolerated = false := by decide

/-- Every act of a life comes in its order. -/
theorem lifetime_orderly : ∀ pipelineEnabled, ∀ count : Fin (lifetime pipelineEnabled).length,
    orderly pipelineEnabled ((lifetime pipelineEnabled).take count) ((lifetime pipelineEnabled).get count) = true := by
  intro pipelineEnabled
  cases pipelineEnabled <;> decide +kernel

/-- So the rule permits a life. -/
theorem orderly_guides : Guides (Orderly pipelineEnabled) (lifetime pipelineEnabled) := by
  intro done act log within walked
  have early : done <+: lifetime pipelineEnabled := (List.prefix_append done [act]).trans within
  have passes : orderly pipelineEnabled done act = true := by
    -- The rule is checked once for each place of the plan.
    obtain ⟨rest, whole⟩ := within
    have below : done.length < (lifetime pipelineEnabled).length := by rw [← whole]; simp
    have checked := lifetime_orderly pipelineEnabled ⟨done.length, below⟩
    have front : (lifetime pipelineEnabled).take done.length = done := by rw [← whole]; simp
    have next : (lifetime pipelineEnabled).get ⟨done.length, below⟩ = act := by simp [← whole]
    rw [next] at checked
    exact front ▸ checked
  have there : ∀ act ∈ needed pipelineEnabled ++ [Act.startSite], act ∈ done → went log act = true := by
    intro act listed member
    rw [walked.went (needed_strict pipelineEnabled act listed), decide_eq_true_eq]
    exact member
  cases act with
  | updateState state =>
    simp only [orderly, Bool.and_eq_true, Bool.or_eq_true, List.all_eq_true, decide_eq_true_eq,
      List.isPrefixOf_iff_prefix] at passes
    refine ⟨walked.acts ▸ passes.1, ?_⟩
    rintro rfl
    exact ⟨fun act listed => there act listed (passes.2.resolve_left (by simp) act listed),
      opens_of_prefix early walked.acts⟩
  | startSite =>
    simp only [orderly, List.all_eq_true, decide_eq_true_eq] at passes
    exact fun act listed => there act (List.mem_append_left _ listed) (passes act listed)
  | _ => trivial

/-- At every point of every life: the lock file is told one state after the other in their order; requests are taken
only after the lock, the migrations and what the data need are there; and the daemon says that it is ready only after
requests are taken, with everything open and nothing closed. -/
theorem ready_comes_last {program : Prog Act (fun _ => Unit) Fault (Except Fault Unit × Runner)}
    (reached : Reaches (runDaemon pipelineEnabled {}) [] program log) {newer older : Log}
    {event : Event Act (fun _ => Unit) Fault} (split : log = newer ++ event :: older) :
    Orderly pipelineEnabled older event.request := by
  have guided : Sure (logging (Orderly pipelineEnabled)) (runDaemon pipelineEnabled) {} [] fun _ _ log =>
      Ended pipelineEnabled log := by
    refine runDaemon_sure orderly_guides fun log act closing => ?_
    cases act <;> first | exact trivial | cases closing
  have permitted := (guided.asked reached).2 newer event older (by simpa using split)
  simpa using permitted

/-- A life in which nothing goes wrong says that it is ready once its pipeline runs and its site is up. -/
theorem ready_comes_last_calm : ∃ program log newer older,
    Reaches (runDaemon true {}) [] program log ∧
      log = newer ++ ⟨.updateState "ready", .ok ()⟩ :: older ∧ Orderly true older (.updateState "ready") := by
  have reached := Prog.replay_reaches (fun _ => .ok ()) (runDaemon true {}) []
  have listed : .updateState "ready" ∈ ((runDaemon true {}).replay fun _ => .ok ()).1.map Event.request := by
    decide +kernel
  obtain ⟨event, member, same⟩ := List.mem_map.mp listed
  have answered := Prog.replay_answers member
  rw [same] at answered
  obtain ⟨newer, older, split⟩ := List.append_of_mem (List.mem_append_left [] (List.mem_reverse.mpr member))
  rw [answered] at split
  exact ⟨_, _, newer, older, reached, split, ready_comes_last reached split⟩

end Rasat.Lifecycle
