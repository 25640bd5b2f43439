import RasatTrading.Data.KlineEffects

/-! What the moves of the kline service write to the table. -/

namespace Rasat

open Transition

namespace KlineWorld

/-- The table took in some answers of the exchange, and the log tells which. -/
def Stores (market : Market) (world after : KlineWorld) : Prop :=
  ∃ stored : List StoredAnswer, after.log = world.log ++ stored ∧
    after.table = world.table.upsertAll (stored.flatMap (StoredAnswer.rows market))

variable {config : KlineConfig} {market : Market} {world after : KlineWorld} {index : Nat}

/-- Nothing was written. -/
theorem stores_none (log : after.log = world.log) (table : after.table = world.table) :
    Stores market world after :=
  ⟨[], by simp [log], by simp [table, Keyed.Table.upsertAll]⟩

/-- Answers that are kept were written. -/
theorem stores_keep {stored : List StoredAnswer} (log : after.log = (world.keep market stored).log)
    (table : after.table = (world.keep market stored).table) : Stores market world after :=
  ⟨stored, log, table⟩

/-- A worker writes what its fetch stores. -/
theorem work_stores {job : Job} {errand : KlineErrand} {move : FetchMove}
    (worked : world.work market index job errand move = some after) :
    Stores market world after := by
  obtain ⟨fetched, -, rest⟩ := Option.bind_eq_some_iff.mp worked
  split at rest
  · cases rest
    exact stores_keep rfl rfl
  · cases rest
    exact stores_keep rfl rfl
  · cases rest
    exact stores_keep rfl rfl

variable {move : KlineMove}

/-- A call of `get_candles` writes only what a fetch of its own stores. -/
theorem advance_stores {caller : KlineCaller}
    (advanced : world.advance config market index caller move = some after) :
    Stores market world after := by
  unfold advance at advanced
  split at advanced
  · split at advanced
    · cases advanced
      exact stores_none rfl rfl
    · cases advanced
      exact stores_none rfl rfl
    · split at advanced
      · cases advanced
        exact stores_none rfl rfl
      · cases advanced
        exact stores_none rfl rfl
  · cases advanced
    exact stores_none rfl rfl
  · split at advanced
    · cases advanced
      exact stores_none rfl rfl
    · cases advanced
      exact stores_none rfl rfl
  · split at advanced
    · contradiction
    · cases advanced
      exact stores_none rfl rfl
    · cases advanced
      exact stores_none rfl rfl
    · cases advanced
      exact stores_none rfl rfl
  · -- A timeframe outside the fixed set is fetched by the call itself.
    obtain ⟨fetched, -, rest⟩ := Option.bind_eq_some_iff.mp advanced
    split at rest
    · cases rest
      exact stores_keep rfl rfl
    · cases rest
      exact stores_keep rfl rfl
    · cases rest
      exact stores_keep rfl rfl
  · cases advanced
    exact stores_none rfl rfl
  · contradiction

/-- A cancelled call writes nothing. -/
theorem cancelCaller_stores {caller : KlineCaller}
    (cancelled : world.cancelCaller index caller = some after) : Stores market world after := by
  unfold KlineWorld.cancelCaller at cancelled
  split at cancelled
  · contradiction
  · contradiction
  · contradiction
  · contradiction
  · cases cancelled
    exact stores_none rfl rfl
  · cases cancelled
    exact stores_none rfl rfl
  · cases cancelled
    exact stores_none rfl rfl

/-- The background loops only read the table. -/
theorem loop_stores (moved : world.step config market move = some after)
    (loop : OfLoop move) : Stores market world after := by
  obtain ⟨scheduler, backfill, rfl | ⟨series, limit, priority, -, -, rfl⟩⟩ := loop_cases loop moved
  · exact stores_none rfl rfl
  · exact stores_none rfl rfl

/-- Every move writes some answers, or none. -/
theorem step_stores (moved : world.step config market move = some after) : Stores market world after := by
  cases move with
  | work place fetchMove =>
    simp only [step] at moved
    split at moved
    · exact work_stores moved
    · contradiction
  | call symbol timeframe limit source =>
    simp only [step] at moved
    split at moved
    · cases moved
      exact stores_none rfl rfl
    · cases moved
      exact stores_none rfl rfl
  | cancelCaller place =>
    obtain ⟨caller, -, rest⟩ := Option.bind_eq_some_iff.mp moved
    exact cancelCaller_stores rest
  | ensureContains place known | lookUp place | judge place reading | wake place | fetch place fetchMove
  | read place =>
    obtain ⟨caller, -, rest⟩ := Option.bind_eq_some_iff.mp moved
    exact advance_stores rest
  | tick seconds =>
    simp only [step] at moved
    split at moved
    · cases moved
      exact stores_none rfl rfl
    · contradiction
  | take place =>
    simp only [step] at moved
    split at moved
    · obtain ⟨⟨job, board⟩, -, same⟩ := Option.bind_eq_some_iff.mp moved
      cases same
      exact stores_none rfl rfl
    · contradiction
  | cancelWorker place =>
    simp only [step] at moved
    split at moved
    · cases moved
      exact stores_none rfl rfl
    · cases moved
      exact stores_none rfl rfl
    · contradiction
  | callback =>
    obtain ⟨board, -, same⟩ := Option.bind_eq_some_iff.mp moved
    cases same
    exact stores_none rfl rfl
  | settleAdrift committed =>
    simp only [step] at moved
    split at moved
    · contradiction
    · cases moved
      -- The write of a cancelled task is committed, or dropped.
      cases committed with
      | true => exact stores_keep rfl rfl
      | false => exact stores_none rfl rfl
  | wakeScheduler _ | needsCatchup _ | startPass _ | passNext | wakeBackfill _ _ | readWarmMap
  | scanNext _ | schedulerRaises | backfillRaises | stopScheduler | stopBackfill =>
    exact loop_stores moved trivial

/-- In every run the table shows the prior rows and, over them, what the logged answers brought. -/
theorem table_of_log {workers : Nat} {prior : CandleTable} {time : ℚ} {allowed : KlineWorld → KlineMove → Prop}
    (reached : Reach (step config market) allowed (initial workers prior time) world) :
    world.table = prior.upsertAll (world.log.flatMap (StoredAnswer.rows market)) := by
  induction reached with
  | start => rfl
  | step _ _ moved shown =>
    obtain ⟨stored, log, table⟩ := step_stores moved
    rw [table, log, shown, List.flatMap_append, Keyed.Table.upsertAll_append]

end KlineWorld

end Rasat
