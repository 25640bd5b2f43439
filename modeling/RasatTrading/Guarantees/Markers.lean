import RasatTrading.Analysis.WorkerLaws
import RasatTrading.Coop.Outcome
import RasatTrading.Guarantees.Triggers
import RasatTrading.Transition.Runs

/-! What the marker of the background worker says: every symbol of its pass has been analyzed up to that bar. -/

namespace Rasat

open Coop Transition

variable {move : WorkerMove}

namespace WorkerState

/-- The reading up to which bars may be marked as processed. -/
def bound (s : WorkerState) : ℚ := s.pass.elim s.clock Pass.now

/-- What holds in every state that a run comes to. -/
structure Sound (cfg : WorkerConfig) (s : WorkerState) : Prop where
  closed : s.world.OnlyClosed s.clock
  begun : ∀ pass, s.pass = some pass → pass.now ≤ s.clock
  marks : ∀ tf bar, s.lastProcessed (Timeframe.name tf) = some bar → bar ≤ latestClosed tf.seconds s.bound
  gathers : ∀ pass g, s.pass = some pass → pass.gathering = some g →
    g.Sound cfg s.world s.clock pass.now ∧ s.lastProcessed g.timeframe.name ≠ some g.target

variable {cfg : WorkerConfig} {s after : WorkerState}

theorem bound_running {pass : Pass} (running : s.pass = some pass) : s.bound = pass.now := by
  unfold bound
  rw [running]
  rfl

theorem Sound.bound_le (sound : s.Sound cfg) : s.bound ≤ s.clock := by
  unfold bound
  cases passes : s.pass with
  | none => exact le_refl _
  | some pass => exact sound.begun pass passes

/-- Without a pass, all marks are to be of bars that have closed. -/
theorem sound_idle (idle : s.pass = none) (closed : s.world.OnlyClosed s.clock)
    (marks : ∀ tf bar, s.lastProcessed (Timeframe.name tf) = some bar → bar ≤ latestClosed tf.seconds s.clock) :
    s.Sound cfg := by
  refine ⟨closed, ?_, ?_, ?_⟩
  · intro pass passes
    rw [idle] at passes
    cases passes
  · unfold bound
    rw [idle]
    exact marks
  · intro pass g passes
    rw [idle] at passes
    cases passes

/-- A pass may end at any time. -/
theorem Sound.idle (sound : s.Sound cfg) : { s with pass := none }.Sound cfg := by
  refine sound_idle rfl ?_ ?_
  · exact sound.closed
  · intro tf bar marked
    -- The reading of the pass is not later than the clock.
    exact le_trans (sound.marks tf bar marked) (latestClosed_mono tf.seconds_pos sound.bound_le)

variable {choice : PaChoice} {request : PaReq}

theorem serve_cases {answer : Except Exc request.Ans}
    (served : s.serve cfg choice request = some (answer, after)) :
    ∃ world, s.world.serve cfg.budget request choice = (answer, world) ∧ after = { s with
      world := world
      clock := choice.server
      pass := s.pass.map fun pass => pass.note (logged request choice) } := by
  unfold serve at served
  obtain ⟨⟨found, world⟩, performed, same⟩ := Option.map_eq_some_iff.mp served
  cases same
  -- A request that is not served makes no move.
  unfold paPerform at performed
  split at performed
  · cases performed
  · exact ⟨world, Option.some.inj performed, rfl⟩

/-- A served request moves the clock on and sustains the marks as they are. -/
theorem Sound.moved (sound : s.Sound cfg) {world : PaWorld}
    (sustains : Sustains s.world world request choice) (grows : s.clock ≤ choice.server)
    (offered : ∀ row ∈ request.stores choice, row.ClosedAt choice.server) {pass : Option Pass}
    (same : pass.map Pass.now = s.pass.map Pass.now)
    (gathers : ∀ found g, pass = some found → found.gathering = some g →
      g.Sound cfg world choice.server found.now ∧ s.lastProcessed g.timeframe.name ≠ some g.target) :
    { s with world := world, clock := choice.server, pass := pass }.Sound cfg := by
  refine ⟨?_, ?_, ?_, gathers⟩
  · exact sustains.closed _ (fun row listed => (sound.closed row listed).later grows) offered
  · intro found passes
    obtain rfl : pass = some found := passes
    obtain ⟨old, running, now⟩ := Option.map_eq_some_iff.mp same.symm
    rw [← now]
    exact le_trans (sound.begun old running) grows
  · -- The marks stay, and the bound is that of the pass, or the clock, which has moved on.
    intro tf bar marked
    apply le_trans (sound.marks tf bar marked)
    apply latestClosed_mono tf.seconds_pos
    unfold bound
    show s.pass.elim s.clock Pass.now ≤ pass.elim choice.server Pass.now
    cases running : s.pass with
    | none =>
      rw [running] at same
      obtain rfl := Option.map_eq_none_iff.mp same
      exact grows
    | some old =>
      rw [running] at same
      obtain ⟨found, rfl, now⟩ := Option.map_eq_some_iff.mp same
      exact le_of_eq now.symm

theorem Sound.other (sound : s.Sound cfg) {answer : Except Exc request.Ans}
    (grows : s.clock ≤ choice.server) (offered : ∀ row ∈ request.stores choice, row.ClosedAt choice.server)
    (served : s.serve cfg choice request = some (answer, after)) : after.Sound cfg := by
  obtain ⟨world, performed, rfl⟩ := serve_cases served
  have sustains := sustains_of_serve performed
  apply sound.moved sustains grows offered
  · rw [Option.map_map]
    rfl
  · intro found g passes gathers
    obtain ⟨pass, running, rfl⟩ := Option.map_eq_some_iff.mp passes
    obtain ⟨old, gathering, rfl⟩ := Option.map_eq_some_iff.mp gathers
    obtain ⟨known, unmarked⟩ := sound.gathers pass old running gathering
    exact ⟨known.serve sustains grows, unmarked⟩

theorem Sound.resume (sound : s.Sound cfg) {index : ℕ}
    (admits : s.Admits (.resume index choice)) (moved : s.resume cfg index choice = some after) : after.Sound cfg := by
  unfold WorkerState.resume at moved
  split at moved
  · rename_i now rest g processed running
    obtain ⟨⟨members, middle⟩, resumed, moved⟩ := Option.bind_eq_some_iff.mp moved
    cases moved
    obtain ⟨member, found, request, next, answer, inside, asking, served, keys, others⟩ := Gather.resume_cases resumed
    obtain ⟨world, performed, rfl⟩ := serve_cases served
    -- The candles that the answer stores are those that the premise of the run is about.
    have asked : s.asks index = some request := by
      unfold WorkerState.asks
      rw [running]
      simp only [Option.bind_eq_bind, Option.bind_some, found, asking]
    have offered := admits.2 request asked
    obtain ⟨known, unmarked⟩ := sound.gathers _ g running rfl
    rw [running]
    apply sound.moved (sustains_of_serve performed) admits.1 offered
    · rw [running]
      rfl
    · intro pass again passes gathers
      cases passes
      cases gathers
      exact ⟨known.answer sound.closed admits.1 performed (List.mem_of_getElem? found) inside asking keys others,
        unmarked⟩
  · cases moved

/-- The running pass may go on with another gather, if that is sound. -/
theorem Sound.passing (sound : s.Sound cfg) {old new : Pass} (running : s.pass = some old) (same : new.now = old.now)
    (gathers : ∀ g, new.gathering = some g →
      g.Sound cfg s.world s.clock new.now ∧ s.lastProcessed g.timeframe.name ≠ some g.target) :
    { s with pass := some new }.Sound cfg := by
  refine ⟨sound.closed, ?_, ?_, ?_⟩
  · intro pass passes
    cases passes
    rw [same]
    exact sound.begun _ running
  · intro tf bar marked
    have closed := sound.marks tf bar marked
    rw [bound_running running, ← same] at closed
    exact closed
  · intro pass g passes gathering
    cases passes
    exact gathers g gathering

theorem Sound.enter (sound : s.Sound cfg) {index : ℕ} (moved : s.enter cfg index = some after) : after.Sound cfg := by
  unfold WorkerState.enter at moved
  split at moved
  · rename_i now rest g processed running
    obtain ⟨member, found, moved⟩ := Option.bind_eq_some_iff.mp moved
    obtain ⟨members, entered, moved⟩ := Option.bind_eq_some_iff.mp moved
    cases moved
    obtain ⟨other, same, -, keys, others⟩ := Gather.enter_cases entered
    -- The log has the entry of the member that passed.
    obtain rfl : member = other := Option.some.inj (found.symm.trans same)
    obtain ⟨known, unmarked⟩ := sound.gathers _ g running rfl
    refine sound.passing running ?_ ?_
    · rfl
    intro again gathers
    cases gathers
    exact ⟨known.enter (List.mem_of_getElem? found) keys others, unmarked⟩
  · cases moved

theorem Sound.next (sound : s.Sound cfg) (moved : s.next cfg = some after) : after.Sound cfg := by
  unfold WorkerState.next at moved
  split at moved
  · rename_i now name rest processed running
    split at moved
    · -- An interval without a timeframe ends the pass.
      cases moved
      exact sound.idle
    · rename_i tf known
      cases moved
      have past : now ≤ s.clock := sound.begun _ running
      refine sound.passing running ?_ ?_
      · rfl
      intro g begins
      exact Gathering.Sound.start cfg s.world past begins
  · cases moved

/-- What the end of a gather does to the marks. -/
theorem finish_cases (moved : s.finish = some after) :
    ∃ now rest g processed results, s.pass = some ⟨now, rest, some g, processed⟩ ∧
      Gather.outcomes g.members = some results ∧
      after = { s with
        lastProcessed :=
          if countResults .success results + countResults .insufficient results = g.symbols.length then
            Function.update s.lastProcessed g.timeframe.name (some g.target)
          else s.lastProcessed
        pass := some ⟨now, rest, none, processed + countResults .success results⟩ } := by
  unfold WorkerState.finish at moved
  split at moved
  · rename_i now rest g processed running
    obtain ⟨results, ended, moved⟩ := Option.bind_eq_some_iff.mp moved
    cases moved
    exact ⟨now, rest, g, processed, results, running, ended, rfl⟩
  · -- Without a gather there is nothing to finish.
    cases moved

theorem Sound.finish (sound : s.Sound cfg) (moved : s.finish = some after) : after.Sound cfg := by
  obtain ⟨now, rest, g, processed, results, running, -, rfl⟩ := finish_cases moved
  have past : now ≤ s.clock := sound.begun _ running
  refine ⟨sound.closed, ?_, ?_, ?_⟩
  · intro pass passes
    cases passes
    exact past
  · -- Only the mark of the timeframe that was gathered is new.
    intro tf bar marked
    have before := sound.marks tf bar
    rw [bound_running running] at before
    show bar ≤ latestClosed tf.seconds now
    simp only at marked
    split at marked
    · by_cases own : tf.name = g.timeframe.name
      · -- The new mark is the target of the pass.
        have same : tf = g.timeframe := Aim.name_injective own
        subst same
        rw [Function.update_self, Option.some.injEq] at marked
        rw [← marked, (sound.gathers _ g running rfl).1.target]
      · rw [Function.update_of_ne own] at marked
        exact before marked
    · exact before marked
  · intro pass again passes gathers
    cases passes
    cases gathers

/-- Every move keeps a sound state sound. -/
theorem Sound.step (sound : s.Sound cfg) (admits : s.Admits move)
    (moved : s.step cfg move = some after) : after.Sound cfg := by
  cases move with
  | refresh symbols =>
    cases moved
    exact ⟨sound.closed, sound.begun, sound.marks, sound.gathers⟩
  | other request choice =>
    obtain ⟨⟨answer, middle⟩, served, rfl⟩ := Option.map_eq_some_iff.mp moved
    exact sound.other admits.1 admits.2 served
  | begin reading =>
    simp only [WorkerState.step] at moved
    split at moved
    · rename_i idle
      cases moved
      have grows : s.clock ≤ reading := admits
      refine ⟨fun row listed => (sound.closed row listed).later grows, ?_, ?_, ?_⟩
      · intro pass passes
        cases passes
        exact le_refl _
      · intro tf bar marked
        -- A new pass raises the bound to its own reading.
        apply le_trans (sound.marks tf bar marked)
        exact latestClosed_mono tf.seconds_pos (le_trans sound.bound_le grows)
      · intro pass g passes gathers
        cases passes
        cases gathers
    · cases moved
  | next => exact sound.next moved
  | enter index => exact sound.enter moved
  | resume index choice => exact sound.resume admits moved
  | finish => exact sound.finish moved
  | conclude =>
    simp only [WorkerState.step] at moved
    split at moved
    · cases moved
      exact sound.idle
    · cases moved
  | cancel =>
    cases moved
    exact sound.idle
  | restart =>
    cases moved
    refine sound_idle rfl ?_ ?_
    · exact sound.closed
    · intro tf bar marked
      cases marked

end WorkerState

/-! What the results of a gather say. -/

/-- The program of a symbol returned `False` or raised an error. -/
def Gathering.Failed (g : Gathering) : Prop :=
  ∃ member ∈ g.members, ∃ outcome, member.outcome = some outcome ∧
    ∀ value, outcome = .ok value → value.result = .failure

/-- `analyze` raised STALE_DATA for a symbol, as the last thing that its program waited for. -/
def Gathering.RaisedStale (cfg : WorkerConfig) (g : Gathering) (symbol : String) : Prop :=
  ∃ member ∈ g.members, member.key = symbol ∧ ∃ message events,
    member.outcome = some (.ok (.refused (.rasat ⟨.staleData, message⟩))) ∧
      Reaches (analyze cfg.toPaConfig cfg.depth ⟨symbol, g.timeframe.name⟩ paLookback) []
        (.fail (.rasat ⟨.staleData, message⟩)) events ∧
      events <+: member.hist

variable {results : List (Except Exc Processed)}

/-- The counts add up to the results exactly when each is a success or insufficient. -/
theorem countResults_iff : countResults .success results + countResults .insufficient results = results.length ↔
      ∀ result ∈ results, ∃ value, result = .ok value ∧ value.result ≠ .failure := by
  unfold countResults
  rw [countP_add_eq_length_iff]
  · -- One result counts for one of the two, unless it is a failure or a raised error.
    apply forall₂_congr
    intro result _
    cases result with
    | error raised => simp
    | ok value =>
      simp only [decide_eq_true_eq, Except.ok.injEq, exists_eq_left']
      cases value.result <;> simp
  · -- No result is of both kinds.
    intro result success
    cases result with
    | error raised => cases success
    | ok value =>
      rw [decide_eq_true_eq] at success
      simp [success]

/-- They add up to the symbols exactly when none has failed. -/
theorem countResults_failed {g : Gathering}
    (keys : g.members.map Member.key = g.symbols) (ended : Gather.outcomes g.members = some results) :
    countResults .success results + countResults .insufficient results = g.symbols.length ↔ ¬g.Failed := by
  have size : results.length = g.symbols.length := by
    rw [Gather.length_outcomes ended, ← keys, List.length_map]
  -- There are as many results as symbols, so a sum that falls short has a failure in it.
  rw [← size, countResults_iff]
  constructor
  · rintro all ⟨member, listed, outcome, came, failed⟩
    obtain ⟨result, among, own⟩ := Gather.outcome_mem ended listed
    obtain rfl : outcome = result := Option.some.inj (came.symm.trans own)
    obtain ⟨value, rfl, counted⟩ := all outcome among
    exact counted (failed value rfl)
  · intro fine result among
    obtain ⟨member, listed, came⟩ := Gather.mem_of_outcome ended among
    by_contra uncounted
    apply fine
    refine ⟨member, listed, result, came, ?_⟩
    intro value same
    by_contra counted
    exact uncounted ⟨value, same, counted⟩

/-- A program that returned an error of `analyze` has seen `analyze` raise it. -/
theorem process_refused {cfg : PaConfig} {tf : Timeframe} {symbol : String} {raised : Exc}
    {hist : Hist PaReq PaReq.Ans Exc}
    (reached : Reaches (process cfg tf symbol) [] (.done (.refused raised)) hist) :
    ∃ events, Reaches (analyze cfg cfg.depth ⟨symbol, tf.name⟩ paLookback) [] (.fail raised) events ∧
      events <+: hist := by
  -- `_process` is cut at each of its answers; only the last part returns an error of `analyze`.
  unfold process at reached
  simp only [Prog.bind_eq] at reached
  obtain ⟨loaded, early, -, reached⟩ := Reaches.of_bind reached
  cases loaded with
  | error raised =>
    obtain ⟨impossible, -⟩ := Reaches.of_done reached
    cases impossible
  | ok candles =>
    dsimp only at reached
    split at reached
    · obtain ⟨impossible, -⟩ := Reaches.of_done reached
      cases impossible
    · obtain ⟨now, read, -, reached⟩ := Reaches.of_bind reached
      split at reached
      · obtain ⟨impossible, -⟩ := Reaches.of_done reached
        cases impossible
      · obtain ⟨analyzed, final, attempted, reached⟩ := Reaches.of_bind reached
        cases analyzed with
        | ok result =>
          obtain ⟨impossible, -⟩ := Reaches.of_done reached
          cases impossible
        | error found =>
          obtain ⟨same, rfl⟩ := Reaches.of_done reached
          cases same
          -- What came before the analysis is older in the record.
          obtain ⟨events, rfl, own⟩ := (Reaches.of_attempt attempted).fresh
          exact ⟨events, own, List.prefix_append _ _⟩

namespace Gathering

variable {cfg : WorkerConfig} {world : PaWorld} {clock now : ℚ} {g : Gathering} {symbol : String}

/-- A symbol that did not fail is analyzed up to the target, or its data were insufficient. -/
theorem Sound.counted (sound : g.Sound cfg world clock now) (fine : ¬g.Failed) (given : symbol ∈ g.symbols)
    (ended : Gather.outcomes g.members = some results) :
    (∀ table, world.HasAnalysis ⟨symbol, g.timeframe.name⟩ g.target table) ∨ g.RaisedStale cfg symbol ∨
      g.PrunedSince symbol := by
  rw [← sound.keys] at given
  obtain ⟨member, listed, rfl⟩ := List.mem_map.mp given
  obtain ⟨result, among, came⟩ := Gather.outcome_mem ended listed
  obtain ⟨value, rfl, counted⟩ := countResults_iff.mp (by
    rw [(countResults_failed sound.keys ended).mpr fine, Gather.length_outcomes ended, ← sound.keys,
      List.length_map]) result among
  -- A counted result is a success or STALE_DATA; the other places count as failures.
  cases value with
  | analyzed =>
    -- What the program learned on its way is true at its end.
    obtain ⟨known, holds, fulfilled⟩ := (sound.knows member listed).outcome came
    rcases fulfilled rfl with lost | stored
    · exact .inr (.inr (holds.lost lost))
    · exact .inl fun table => holds.stored table (stored table)
  | refused raised =>
    cases raised with
    | rasat error =>
      obtain ⟨code, message⟩ := error
      have stale : code = .staleData := by
        by_contra other
        apply counted
        simp only [Processed.result]
        exact if_neg other
      subst stale
      right
      left
      -- The program is where `process` comes to by these answers.
      have track := sound.tracks member listed
      unfold Member.OnTrack at track
      rw [Member.rest_of_outcome came] at track
      obtain ⟨events, raising, among⟩ := process_refused track
      exact ⟨member, listed, rfl, message, events, came, raising, among⟩
    | timeout | integrity _ | other _ => exact absurd rfl counted
  | unloaded _ | empty | behind => exact absurd rfl counted

end Gathering

namespace WorkerState

variable {cfg : WorkerConfig} {s after : WorkerState}

/-- What a move does to the marks, and to the reading up to which bars may be marked. -/
structure Turn (s : WorkerState) (move : WorkerMove) (after : WorkerState) : Prop where
  /-- Only the end of a gather sets a mark. -/
  marks : move = .finish ∨ after.lastProcessed = s.lastProcessed ∨ after.lastProcessed = fun _ => none
  bound : s.Admits move → after.bound = s.bound ∨ s.clock ≤ after.bound

theorem step_turn (moved : s.step cfg move = some after) : Turn s move after := by
  -- One case for each kind of move; only the end of a gather touches a mark.
  cases move with
  | refresh _ =>
    cases moved
    exact ⟨.inr (.inl rfl), fun _ => .inl rfl⟩
  | cancel =>
    cases moved
    exact ⟨.inr (.inl rfl), fun _ => .inr (le_refl _)⟩
  | restart =>
    cases moved
    exact ⟨.inr (.inr rfl), fun _ => .inr (le_refl _)⟩
  | conclude =>
    simp only [WorkerState.step] at moved
    split at moved <;> cases moved
    exact ⟨.inr (.inl rfl), fun _ => .inr (le_refl _)⟩
  | begin reading =>
    simp only [WorkerState.step] at moved
    split at moved <;> cases moved
    exact ⟨.inr (.inl rfl), fun admits => .inr admits⟩
  | other request choice =>
    obtain ⟨⟨answer, middle⟩, served, rfl⟩ := Option.map_eq_some_iff.mp moved
    obtain ⟨world, -, rfl⟩ := serve_cases served
    refine ⟨.inr (.inl rfl), ?_⟩
    intro admits
    -- Without a pass the marks may be up to the clock, which moves on.
    unfold bound
    cases s.pass with
    | none => exact .inr admits.1
    | some pass => exact .inl rfl
  | next =>
    simp only [WorkerState.step, WorkerState.next] at moved
    split at moved
    · rename_i now name rest processed running
      split at moved <;> cases moved
      · exact ⟨.inr (.inl rfl), fun _ => .inr (le_refl _)⟩
      · exact ⟨.inr (.inl rfl), fun _ => .inl (bound_running running).symm⟩
    · cases moved
  | enter index =>
    simp only [WorkerState.step, WorkerState.enter] at moved
    split at moved
    · rename_i now rest g processed running
      obtain ⟨member, -, moved⟩ := Option.bind_eq_some_iff.mp moved
      obtain ⟨members, -, moved⟩ := Option.bind_eq_some_iff.mp moved
      cases moved
      exact ⟨.inr (.inl rfl), fun _ => .inl (bound_running running).symm⟩
    · cases moved
  | resume index choice =>
    simp only [WorkerState.step, WorkerState.resume] at moved
    split at moved
    · rename_i now rest g processed running
      obtain ⟨⟨members, middle⟩, resumed, moved⟩ := Option.bind_eq_some_iff.mp moved
      cases moved
      obtain ⟨member, -, request, next, answer, -, -, served, -, -⟩ := Gather.resume_cases resumed
      obtain ⟨world, -, rfl⟩ := serve_cases served
      refine ⟨.inr (.inl rfl), fun _ => .inl ?_⟩
      unfold bound
      rw [running]
      rfl
    · cases moved
  | finish =>
    obtain ⟨now, rest, g, processed, results, running, -, rfl⟩ := finish_cases moved
    exact ⟨.inl rfl, fun _ => .inl (bound_running running).symm⟩

/-- The reading of the marks does not go back. -/
theorem Sound.bound_grows (sound : s.Sound cfg) (admits : s.Admits move)
    (moved : s.step cfg move = some after) : s.bound ≤ after.bound := by
  rcases (step_turn moved).bound admits with same | later
  · exact le_of_eq same.symm
  · exact le_trans sound.bound_le later

/-- The move is the end of a gather over a timeframe. -/
def Finishes (tf : Timeframe) (s : WorkerState) (move : WorkerMove) : Prop :=
  move = .finish ∧ ∃ pass g, s.pass = some pass ∧ pass.gathering = some g ∧ g.timeframe = tf

/-- A bar of a timeframe that has closed is not yet marked, nor is a later one. -/
structure Behind (cfg : WorkerConfig) (tf : Timeframe) (bar : ℤ) (s : WorkerState) : Prop where
  sound : s.Sound cfg
  closed : bar ≤ latestClosed tf.seconds s.bound
  unmarked : ∀ mark, s.lastProcessed tf.name = some mark → mark < bar

/-- As long as no gather over the timeframe ends, the bar stays unmarked. -/
theorem Behind.step {tf : Timeframe} {bar : ℤ} (behind : Behind cfg tf bar s)
    (admits : s.Admits move) (elsewhere : ¬Finishes tf s move) (moved : s.step cfg move = some after) :
    Behind cfg tf bar after := by
  refine ⟨behind.sound.step admits moved, ?_, ?_⟩
  · exact le_trans behind.closed (latestClosed_mono tf.seconds_pos (behind.sound.bound_grows admits moved))
  · rcases (step_turn moved).marks with rfl | same | reset
    · -- The gather that ends is one over another timeframe, with another name.
      obtain ⟨now, rest, g, processed, results, running, -, rfl⟩ := finish_cases moved
      have other : tf ≠ g.timeframe := by
        rintro rfl
        exact elsewhere ⟨rfl, _, g, running, rfl, rfl⟩
      have names : tf.name ≠ g.timeframe.name := fun same => other (Aim.name_injective same)
      intro mark marked
      apply behind.unmarked mark
      simp only at marked
      split at marked
      · rw [Function.update_of_ne names] at marked
        exact marked
      · exact marked
    · rw [same]
      exact behind.unmarked
    · intro mark marked
      rw [reset] at marked
      cases marked

/-- A gather in which a symbol failed leaves the marks as they are, and its target unmarked. -/
theorem Sound.failed (sound : s.Sound cfg) {pass : Pass} {g : Gathering} (running : s.pass = some pass)
    (gathers : pass.gathering = some g) (moved : s.finish = some after) (failed : g.Failed) :
    after.lastProcessed = s.lastProcessed ∧ Behind cfg g.timeframe g.target after := by
  obtain ⟨known, unmarked⟩ := sound.gathers pass g running gathers
  have marks := sound.marks g.timeframe
  rw [bound_running running, ← known.target] at marks
  have finished := sound.finish moved
  obtain ⟨now, rest, other, processed, results, same, ended, rfl⟩ := finish_cases moved
  rw [running, Option.some.injEq] at same
  subst same
  cases gathers
  have uncounted : ¬countResults .success results + countResults .insufficient results = g.symbols.length := by
    rw [countResults_failed known.keys ended]
    exact not_not.mpr failed
  refine ⟨if_neg uncounted, finished, le_of_eq known.target, ?_⟩
  intro mark marked
  simp only [if_neg uncounted] at marked
  -- The mark of before is at most the target, and the gather would not have begun at the target itself.
  apply lt_of_le_of_ne (marks mark marked)
  rintro rfl
  exact unmarked marked

/-- A timeframe whose last closed bar is not marked is gathered for all symbols. -/
theorem Behind.gathers {tf : Timeframe} {bar : ℤ} (behind : Behind cfg tf bar s) {now : ℚ} {rest : List String}
    {processed : ℕ} (running : s.pass = some ⟨now, tf.name :: rest, none, processed⟩) (symbols : s.snapshot ≠ []) :
    ∃ again, s.next cfg = some { s with pass := some ⟨now, rest, some again, processed⟩ } ∧
      again.timeframe = tf ∧ again.target = latestClosed tf.seconds now ∧ bar ≤ again.target ∧
      again.symbols = s.snapshot.insertionSort (· ≤ ·) ∧
      again.members = Gather.start (process cfg.toPaConfig tf) again.symbols := by
  have closed := behind.closed
  rw [bound_running running] at closed
  have reaches : bar ≤ latestClosed tf.seconds now := closed
  -- All marks are of earlier bars, so the pass does not skip the timeframe.
  have unmarked : s.lastProcessed tf.name ≠ some (latestClosed tf.seconds now) := by
    intro marked
    have before := behind.unmarked _ marked
    omega
  have some_symbols : s.snapshot.insertionSort (· ≤ ·) ≠ [] := by
    intro none_left
    apply symbols
    apply List.length_eq_zero_iff.mp
    rw [← List.length_insertionSort (· ≤ ·) s.snapshot, none_left]
    rfl
  -- Hence `gatheringOf` comes to its last branch.
  have begins : gatheringOf cfg s now tf = some {
      timeframe := tf
      target := latestClosed tf.seconds now
      symbols := s.snapshot.insertionSort (· ≤ ·)
      members := Gather.start (process cfg.toPaConfig tf) (s.snapshot.insertionSort (· ≤ ·)) } := by
    unfold gatheringOf
    simp only [if_neg unmarked, if_neg some_symbols]
  have moves : s.next cfg = some { s with pass := some ⟨now, rest, gatheringOf cfg s now tf, processed⟩ } := by
    unfold WorkerState.next
    rw [running]
    simp only [Aim.ofName_name]
  rw [begins] at moves
  exact ⟨_, moves, rfl, rfl, reaches, rfl, rfl⟩

end WorkerState

/-- Along every run in which the clock does not go back and no forming bars are stored: a mark is set only at the end of
a gather, of which every symbol has all parts of an analysis as new as the mark, or had STALE_DATA raised by `analyze`,
or lost bars as new as the mark to retention while it was processed. A gather in which a symbol fails otherwise leaves
the marks as they are, and the next pass that comes to its timeframe gathers that bar again, or a later one. -/
theorem worker_marks (cfg : WorkerConfig) (world : PaWorld) (clock : ℚ) (snapshot : List String)
    (closed : world.OnlyClosed clock) {s : WorkerState}
    (reached : Reach (WorkerState.step cfg) WorkerState.Admits
      { world := world, clock := clock, snapshot := snapshot } s) :
    (∀ move after, s.step cfg move = some after → ∀ name bar, after.lastProcessed name = some bar →
      s.lastProcessed name ≠ some bar →
        move = .finish ∧ ∃ pass g, s.pass = some pass ∧ pass.gathering = some g ∧ g.timeframe.name = name ∧
          g.target = bar ∧ bar = latestClosed g.timeframe.seconds pass.now ∧
          ∀ symbol ∈ g.symbols, (∀ table, after.world.HasAnalysis ⟨symbol, name⟩ bar table) ∨
            g.RaisedStale cfg symbol ∨ g.PrunedSince symbol) ∧
      ∀ pass g after, s.pass = some pass → pass.gathering = some g → s.finish = some after → g.Failed →
        after.lastProcessed = s.lastProcessed ∧
          ∀ later, Reach (WorkerState.step cfg)
              (fun state move => state.Admits move ∧ ¬WorkerState.Finishes g.timeframe state move) after later →
            ∀ now rest processed, later.pass = some ⟨now, g.timeframe.name :: rest, none, processed⟩ →
              later.snapshot ≠ [] →
                ∃ again, later.next cfg = some { later with pass := some ⟨now, rest, some again, processed⟩ } ∧
                  again.timeframe = g.timeframe ∧ again.target = latestClosed g.timeframe.seconds now ∧
                  g.target ≤ again.target ∧ again.symbols = later.snapshot.insertionSort (· ≤ ·) ∧
                  again.members = Gather.start (process cfg.toPaConfig g.timeframe) again.symbols := by
  -- The invariant holds before the first pass and is kept by every move of the run.
  have sound : s.Sound cfg := by
    apply reached.invariant
    · refine WorkerState.sound_idle rfl ?_ ?_
      · exact closed
      · intro tf bar marked
        cases marked
    · intro before after move holds admits moved
      exact holds.step admits moved
  refine ⟨?_, ?_⟩
  · -- A mark that was not there before comes from the end of a gather in which nothing failed.
    intro move after moved name bar marked fresh
    rcases (WorkerState.step_turn moved).marks with rfl | same | reset
    · refine ⟨rfl, ?_⟩
      obtain ⟨now, rest, g, processed, results, running, ended, rfl⟩ := WorkerState.finish_cases moved
      obtain ⟨known, -⟩ := sound.gathers _ g running rfl
      simp only at marked
      split at marked
      · rename_i counts
        have fine := (countResults_failed known.keys ended).mp counts
        by_cases own : name = g.timeframe.name
        · subst own
          rw [Function.update_self, Option.some.injEq] at marked
          subst marked
          exact ⟨_, g, running, rfl, rfl, rfl, known.target, fun symbol given => known.counted fine given ended⟩
        · rw [Function.update_of_ne own] at marked
          exact absurd marked fresh
      · exact absurd marked fresh
    · rw [same] at marked
      exact absurd marked fresh
    · rw [reset] at marked
      cases marked
  · -- Behind a failure the bar stays unmarked until its timeframe is gathered again.
    intro pass g after running gathers moved failed
    obtain ⟨kept, behind⟩ := sound.failed running gathers moved failed
    refine ⟨kept, ?_⟩
    intro later run now rest processed coming symbols
    have still : WorkerState.Behind cfg g.timeframe g.target later := by
      apply run.invariant behind
      intro before after move holds meets moved
      exact holds.step meets.1 meets.2 moved
    exact still.gathers coming symbols

/-- The stored bar of a day at one price. -/
def dayBar (day : ℤ) : StoredCandle := ⟨⟨"BTCUSDT", .d1, .spot⟩, flatBar 10 (day * 86400), 0⟩

/-- A worker for daily bars, an hour after the end of the ninth day, with five closed bars. -/
def dailyConfig : WorkerConfig := { plainConfig with intervals := ["1d"], concurrency := 4 }

def dailyWorld : PaWorld := { candles := Keyed.Table.empty.upsertAll ([5, 6, 7, 8, 9].map dayBar) }

def dailyClock : ℚ := 10 * 86400 + 3600

def dailyChoice : PaChoice := { host := dailyClock, server := dailyClock }

/-- The worker before its first pass. -/
def dailyStart : WorkerState := { world := dailyWorld, clock := dailyClock, snapshot := ["BTCUSDT"] }

theorem dailyWorld_closed : dailyWorld.OnlyClosed dailyClock := by
  unfold PaWorld.OnlyClosed
  decide +kernel

/-- A pass in which nothing else happens, up to the end of its gather. -/
def dailyMoves : List WorkerMove :=
  [.begin dailyClock, .next, .enter 0] ++ List.replicate 15 (.resume 0 dailyChoice)

/-- The pass sets the mark, and what the mark says is true. -/
theorem daily_marked : ∃ s after, Reach (WorkerState.step dailyConfig) WorkerState.Admits dailyStart s ∧
    s.finish = some after ∧ after.lastProcessed "1d" = some (9 * 86400) ∧
    ∃ pass g, s.pass = some pass ∧ pass.gathering = some g ∧ g.target = 9 * 86400 ∧
      ∀ symbol ∈ g.symbols, (∀ table, after.world.HasAnalysis ⟨symbol, "1d"⟩ (9 * 86400) table) ∨
        g.RaisedStale dailyConfig symbol ∨ g.PrunedSince symbol := by
  have checked : (run (WorkerState.step dailyConfig) WorkerState.Admits dailyStart dailyMoves).any (fun s =>
      decide (s.lastProcessed "1d" = none ∧
        (s.finish.bind fun after => after.lastProcessed "1d") = some (9 * 86400))) = true := by decide +kernel
  obtain ⟨s, reached, unmarked, finishes⟩ := exists_of_run checked
  obtain ⟨after, finished, marked⟩ := Option.bind_eq_some_iff.mp finishes
  have told := (worker_marks dailyConfig dailyWorld dailyClock ["BTCUSDT"] dailyWorld_closed reached).1
    .finish after finished "1d" (9 * 86400) marked (by rw [unmarked]; exact nofun)
  obtain ⟨-, pass, g, running, gathers, -, target, -, symbols⟩ := told
  exact ⟨s, after, reached, finished, marked, pass, g, running, gathers, target, symbols⟩

/-- Retention keeps one day of daily bars, and deletes those of the symbol between the check of its candles and their
second reading; the answer of the exchange that fills the gap is without the last bar. -/
def retentionMoves : List WorkerMove :=
  [.begin dailyClock, .next, .enter 0, .resume 0 dailyChoice, .resume 0 dailyChoice,
    .other (.feed (.pruneCandles .d1 (truncated dailyClock - 86400))) dailyChoice] ++
    List.replicate 9 (.resume 0 { dailyChoice with warmed := [4, 5, 6, 7, 8].map dayBar })

/-- The mark is set although nothing as new is stored and `analyze` has raised nothing. -/
def Unfounded (s : WorkerState) : Bool :=
  match s.pass, s.finish with
  | some ⟨_, _, some g, _⟩, some after =>
    decide (after.lastProcessed "1d" = some g.target) && decide ("BTCUSDT" ∈ g.symbols) &&
      (g.members.all fun member =>
        match member.outcome with
        | some (.ok value) => decide (value = .analyzed)
        | _ => false) &&
      (after.world.payloads .marketStructure).rows.all fun row => decide (row.effectiveFrom < g.target)
  | _, _ => false

/-- The clock stands still and only closed bars are stored, but retention takes away the bar that was checked. -/
theorem retention_unmarked : dailyWorld.OnlyClosed dailyClock ∧
    ∃ s after pass g, Reach (WorkerState.step dailyConfig) WorkerState.Admits dailyStart s ∧
      s.finish = some after ∧ s.pass = some pass ∧ pass.gathering = some g ∧
      after.lastProcessed "1d" = some g.target ∧ "BTCUSDT" ∈ g.symbols ∧
      ¬(∀ table, after.world.HasAnalysis ⟨"BTCUSDT", "1d"⟩ g.target table) ∧
      ¬g.RaisedStale dailyConfig "BTCUSDT" := by
  refine ⟨dailyWorld_closed, ?_⟩
  have checked : (run (WorkerState.step dailyConfig) WorkerState.Admits dailyStart retentionMoves).any (fun s =>
      decide (Unfounded s = true)) = true := by decide +kernel
  obtain ⟨s, reached, unfounded⟩ := exists_of_run checked
  unfold Unfounded at unfounded
  split at unfounded
  · rename_i now rest g processed after running finished
    simp only [Bool.and_eq_true, decide_eq_true_eq, List.all_eq_true] at unfounded
    -- Every program has returned success, so `analyze` raised nothing.
    obtain ⟨⟨⟨marked, given⟩, returned⟩, older⟩ := unfounded
    refine ⟨s, after, _, g, reached, finished, running, rfl, marked, given, ?_, ?_⟩
    · -- The rows of the market structure are all older than the mark.
      intro stored
      obtain ⟨row, listed, -, reaches⟩ := stored .marketStructure
      have old := older row listed
      omega
    · rintro ⟨member, listed, -, message, events, came, -⟩
      have analyzed := returned member listed
      rw [came] at analyzed
      cases of_decide_eq_true analyzed
  · cases unfounded

end Rasat
