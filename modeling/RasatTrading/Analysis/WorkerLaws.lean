import RasatTrading.Analysis.StoreLaws
import RasatTrading.Analysis.Worker

/-! What the programs of the background worker know while other tasks go on. -/

namespace Rasat

open Coop Ascending

/-! What a request may do to the candles and to the stored analyses. -/

/-- The bar of a row has closed by a reading of the clock. -/
def StoredCandle.ClosedAt (row : StoredCandle) (now : ℚ) : Prop :=
  row.candle.openTime ≤ latestClosed row.series.timeframe.seconds now

instance (row : StoredCandle) (now : ℚ) : Decidable (row.ClosedAt now) := Int.decLe _ _

/-- The candles that a request stores. -/
def PaReq.stores (choice : PaChoice) : PaReq → List StoredCandle
  | .feed (.candles rows) => rows
  -- What the exchange answers is up to the schedule.
  | .warmUp _ _ => choice.warmed
  | _ => []

namespace PaWorld

/-- No forming bars are stored. -/
def OnlyClosed (world : PaWorld) (now : ℚ) : Prop := ∀ row ∈ world.candles.rows, row.ClosedAt now

/-- A bar of a series is stored that opened at a time or later. -/
def HasBar (world : PaWorld) (series : Series) (time : ℤ) : Prop :=
  ∃ row ∈ world.candles.rows, row.series = series ∧ time ≤ row.candle.openTime

/-- An analysis of a pair is stored for a bar or a later one. -/
def HasAnalysis (world : PaWorld) (pair : Pair) (bar : ℤ) (table : PaTable) : Prop :=
  ∃ row ∈ (world.payloads table).rows, row.pair = pair ∧ bar ≤ row.effectiveFrom

end PaWorld

/-- The last closed bar does not go back with a clock that does not. -/
theorem latestClosed_mono {period : ℤ} (positive : 0 < period) {earlier later : ℚ} (grows : earlier ≤ later) :
    latestClosed period earlier ≤ latestClosed period later := by
  have scale : (0 : ℚ) < period := by exact_mod_cast positive
  -- The number of whole periods that have passed grows with the clock.
  have floors : ⌊earlier / period⌋ ≤ ⌊later / period⌋ := Int.floor_le_floor (div_le_div_of_nonneg_right grows scale.le)
  have scaled : ⌊earlier / period⌋ * period ≤ ⌊later / period⌋ * period :=
    Int.mul_le_mul_of_nonneg_right floors positive.le
  unfold latestClosed
  omega

theorem StoredCandle.ClosedAt.later {row : StoredCandle} {now later : ℚ} (closed : row.ClosedAt now)
    (grows : now ≤ later) : row.ClosedAt later :=
  le_trans closed (latestClosed_mono row.series.timeframe.seconds_pos grows)

/-- What serving a request leaves of the bars and of the stored analyses. -/
structure Sustains (before after : PaWorld) (request : PaReq) (choice : PaChoice) : Prop where
  analyses : ∀ pair bar table, before.HasAnalysis pair bar table → after.HasAnalysis pair bar table
  /-- Only retention takes bars away, and only those before its cutoff. -/
  bars : ∀ series time, before.HasBar series time → after.HasBar series time ∨
    ∃ cutoff, prunedBy request choice = some (series.timeframe, cutoff) ∧ time < cutoff
  closed : ∀ now, before.OnlyClosed now → (∀ row ∈ request.stores choice, row.ClosedAt now) → after.OnlyClosed now

section Serve

variable {before after : PaWorld} {request : PaReq} {choice : PaChoice}

/-- A request that touches neither the candles nor the analyses. -/
theorem sustains_same (candles : after.candles = before.candles) (payloads : after.payloads = before.payloads) :
    Sustains before after request choice := by
  refine ⟨?_, ?_, ?_⟩
  · intro pair bar table stored
    unfold PaWorld.HasAnalysis at stored ⊢
    rw [payloads]
    exact stored
  · intro series time stored
    unfold PaWorld.HasBar at stored ⊢
    rw [candles]
    exact .inl stored
  · intro now closed _
    unfold PaWorld.OnlyClosed at closed ⊢
    rw [candles]
    exact closed

/-- A request that stores candles. -/
theorem sustains_upsert {rows : List StoredCandle} (stores : request.stores choice = rows)
    (candles : after.candles = before.candles.upsertAll rows) (payloads : after.payloads = before.payloads) :
    Sustains before after request choice := by
  refine ⟨?_, ?_, ?_⟩
  · intro pair bar table stored
    unfold PaWorld.HasAnalysis at stored ⊢
    rw [payloads]
    exact stored
  · -- The row under the key of the bar may be another one, but it is of the same time.
    intro series time ⟨row, listed, place, reached⟩
    obtain ⟨kept, stored, same⟩ := Keyed.Table.key_kept_upsertAll listed rows
    have keys := Prod.mk.inj same
    refine .inl ⟨kept, ?_, keys.1.trans place, ?_⟩
    · rw [candles]
      exact stored
    · rw [keys.2]
      exact reached
  · intro now closed offered row listed
    rw [candles] at listed
    -- A row of the table was there before, or has just come.
    rcases Keyed.Table.mem_of_mem_upsertAll listed with old | new
    · exact closed row old
    · exact offered row (stores ▸ new)

/-- Retention deletes bars of one timeframe. -/
theorem sustains_prune {timeframe : Timeframe} {cutoff : ℤ}
    (pruned : prunedBy request choice = some (timeframe, cutoff))
    (candles : after.candles = before.candles.keep fun row =>
      ¬(row.series.timeframe = timeframe ∧ row.candle.openTime < cutoff))
    (payloads : after.payloads = before.payloads) : Sustains before after request choice := by
  have kept (row : StoredCandle) : row ∈ after.candles.rows ↔ row ∈ before.candles.rows ∧
      ¬(row.series.timeframe = timeframe ∧ row.candle.openTime < cutoff) := by
    rw [candles]
    unfold Keyed.Table.keep
    rw [List.mem_filter, decide_eq_true_eq]
  refine ⟨?_, ?_, ?_⟩
  · intro pair bar table stored
    unfold PaWorld.HasAnalysis at stored ⊢
    rw [payloads]
    exact stored
  · intro series time ⟨row, listed, place, reached⟩
    -- A row that is deleted tells of the cutoff, and any other row stays.
    by_cases gone : row.series.timeframe = timeframe ∧ row.candle.openTime < cutoff
    · obtain ⟨same, old⟩ := gone
      refine .inr ⟨cutoff, ?_, lt_of_le_of_lt reached old⟩
      rw [pruned, ← same, place]
    · exact .inl ⟨row, (kept row).mpr ⟨listed, gone⟩, place, reached⟩
  · intro now closed _ row listed
    exact closed row ((kept row).mp listed).1

/-- Storing an analysis leaves the rows that were there, and has one for its own bar. -/
theorem storePayload_has {π : Type} [DecidableEq π] (table : PayloadTable π) (call : StoreCall π) :
    (∀ row ∈ table.rows, ∃ kept ∈ (table.storePayload call).rows,
        kept.pair = row.pair ∧ kept.effectiveFrom = row.effectiveFrom) ∧
      ∃ row ∈ (table.storePayload call).rows, row.pair = call.pair ∧ row.effectiveFrom = call.effectiveFrom := by
  have inserted (base : PayloadTable π) (effectiveTo : Option ℤ) : ∃ row ∈ (base.insert call effectiveTo).rows,
      row.pair = call.pair ∧ row.effectiveFrom = call.effectiveFrom :=
    ⟨_, PayloadTable.mem_insert.mpr (.inr rfl), rfl, rfl⟩
  have closing (id : ℕ) (last : ℤ) : ∀ row ∈ table.rows, ∃ kept ∈ ((table.close id last).insert call none).rows,
      kept.pair = row.pair ∧ kept.effectiveFrom = row.effectiveFrom := by
    intro row listed
    refine ⟨_, PayloadTable.mem_insert.mpr (.inl (PayloadTable.mem_close.mpr ⟨row, listed, rfl⟩)), ?_⟩
    split <;> exact ⟨rfl, rfl⟩
  have inserting (effectiveTo : Option ℤ) : ∀ row ∈ table.rows, ∃ kept ∈ (table.insert call effectiveTo).rows,
      kept.pair = row.pair ∧ kept.effectiveFrom = row.effectiveFrom :=
    fun row listed => ⟨row, PayloadTable.mem_insert.mpr (.inl listed), rfl, rfl⟩
  -- Storing has one of six effects; none of them takes a row away.
  have changed := PayloadTable.storePayload_change table call
  generalize table.storePayload call = result at changed ⊢
  cases changed with
  | same row stored pair bar => exact ⟨fun row listed => ⟨row, listed, rfl, rfl⟩, row, stored, pair, bar⟩
  | first | copy | backfill => exact ⟨inserting _, inserted _ _⟩
  | revise | advance => exact ⟨closing _ _, inserted _ _⟩

section Store

variable {table : PaTable} {pair : Pair} {bar now : ℤ} {payload : table.Payload}

theorem payloads_store : (before.store table pair bar payload now).payloads table =
    (before.payloads table).storePayload ⟨pair, table.algoVersion payload, bar, payload, now⟩ :=
  Function.update_self ..

/-- A part of an analysis that is stored is there. -/
theorem has_stored : (before.store table pair bar payload now).HasAnalysis pair bar table := by
  obtain ⟨row, there, pairs, bars⟩ :=
    (storePayload_has (before.payloads table) ⟨pair, table.algoVersion payload, bar, payload, now⟩).2
  unfold PaWorld.HasAnalysis
  rw [payloads_store]
  exact ⟨row, there, pairs, le_of_eq bars.symm⟩

/-- Storing one part of an analysis. -/
theorem sustains_store : Sustains before (before.store table pair bar payload now) request choice := by
  refine ⟨?_, fun series time found => .inl found, fun now closed _ => closed⟩
  intro other time place ⟨row, listed, same, reached⟩
  unfold PaWorld.HasAnalysis
  -- The other two parts are in tables of their own.
  by_cases here : place = table
  · subst here
    obtain ⟨kept, there, pairs, bars⟩ :=
      (storePayload_has (before.payloads place) ⟨pair, place.algoVersion payload, bar, payload, now⟩).1 row listed
    rw [payloads_store]
    exact ⟨kept, there, pairs.trans same, bars ▸ reached⟩
  · have others : (before.store table pair bar payload now).payloads place = before.payloads place :=
      Function.update_of_ne here ..
    rw [others]
    exact ⟨row, listed, same, reached⟩

end Store

/-- What any request leaves. -/
theorem sustains_of_serve {budget : ℕ} {answer : Except Exc request.Ans}
    (served : before.serve budget request choice = (answer, after)) : Sustains before after request choice := by
  -- Only candles, retention, warm-ups and analyses change the two tables.
  cases request with
  | maybeTrigger args | insertAlert definition now =>
    rcases PaWorld.access_cases served with ⟨raised, rfl, rfl⟩ | ⟨value, rfl, ran⟩
    · exact sustains_same rfl rfl
    · generalize uuidHex choice.uuid = made at ran
      obtain ⟨found, -, same⟩ := PaWorld.except_map_ok.mp ran
      cases same
      exact sustains_same rfl rfl
  | spend who =>
    simp only [PaWorld.serve] at served
    split at served <;> cases served <;> exact sustains_same rfl rfl
  | serverNow | hostNow | beginPass _ | evaluate _ _ | screen _ _ | symbolValidity _ =>
    cases served
    exact sustains_same rfl rfl
  | feed change =>
    rcases PaWorld.access_cases served with ⟨raised, rfl, rfl⟩ | ⟨value, rfl, ran⟩
    · exact sustains_same rfl rfl
    · cases ran
      cases change with
      | candles rows => exact sustains_upsert rfl rfl rfl
      | pruneCandles timeframe cutoff =>
        -- A faulty answer would have deleted nothing.
        have done : choice.fault = none := by
          cases fault : choice.fault with
          | none => rfl
          | some raised =>
            simp only [PaWorld.serve, PaWorld.access, fault] at served
            cases (Prod.mk.inj served).1
        have pruned : prunedBy (.feed (.pruneCandles timeframe cutoff)) choice = some (timeframe, cutoff) := by
          simp only [prunedBy, done, if_true]
        exact sustains_prune pruned rfl rfl
      | futures _ | ageFutures _ | pruneFutures _ => exact sustains_same rfl rfl
  | warmUp _ _ =>
    rcases PaWorld.access_cases served with ⟨raised, rfl, rfl⟩ | ⟨value, rfl, ran⟩
    · exact sustains_same rfl rfl
    · cases ran
      exact sustains_upsert rfl rfl rfl
  | store table pair bar payload =>
    rcases PaWorld.access_cases served with ⟨raised, rfl, rfl⟩ | ⟨value, rfl, ran⟩
    · exact sustains_same rfl rfl
    · cases ran
      exact sustains_store
  | candles _ _ | futuresContext _ | futuresSeries _ _ _ | current _ _ | alertSymbols | candidateSymbols
  | alertsBySymbol _ | compositeAlerts | deleteAlert _ | settle _ _ _ =>
    rcases PaWorld.access_cases served with ⟨raised, rfl, rfl⟩ | ⟨value, rfl, ran⟩
    · exact sustains_same rfl rfl
    · cases ran
      exact sustains_same rfl rfl

end Serve

/-! What the processing of a symbol learns on its way. -/

/-- A symbol, and the bar that its analysis is to reach. -/
structure Aim where
  symbol : String
  timeframe : Timeframe
  target : ℤ

/-- What is known after some answers. -/
structure Insight where
  /-- The clock has come this far. -/
  reading : ℚ
  /-- A stored bar was as new as the target. -/
  seen : Prop
  /-- Retention has deleted bars as new as the target. -/
  lost : Prop
  /-- This part of an analysis is stored, as new as the target. -/
  stored : PaTable → Prop

/-- Nothing is forgotten. -/
structure Insight.Keeps (known learned : Insight) : Prop where
  reading : known.reading ≤ learned.reading
  seen : known.seen → learned.seen
  lost : known.lost → learned.lost
  stored : ∀ table, known.stored table → learned.stored table

theorem Insight.Keeps.refl (known : Insight) : known.Keeps known := ⟨le_refl _, id, id, fun _ => id⟩

theorem Insight.Keeps.trans {first second third : Insight} (early : first.Keeps second) (late : second.Keeps third) :
    first.Keeps third where
  reading := le_trans early.reading late.reading
  seen := late.seen ∘ early.seen
  lost := late.lost ∘ early.lost
  stored table := late.stored table ∘ early.stored table

namespace Aim

variable (aim : Aim)

def pair : Pair := ⟨aim.symbol, aim.timeframe.name⟩

def series : Series := ⟨aim.symbol, aim.timeframe, .spot⟩

/-- One of the bars is as new as the target. -/
def Reached (rows : List Candle) : Prop := ∃ row ∈ rows, aim.target ≤ row.openTime

/-- What the newest stored bars tell. -/
structure Reads (known : Insight) (rows : List Candle) (learned : Insight) : Prop where
  ordered : rows.Pairwise fun a b => a.openTime ≤ b.openTime
  closed : ∀ row ∈ rows, row.openTime ≤ latestClosed aim.timeframe.seconds learned.reading
  seen : aim.Reached rows → learned.seen
  again : known.seen → learned.lost ∨ aim.Reached rows

/-- What an answer tells. -/
def Tells (known : Insight) : (request : PaReq) → Except Exc request.Ans → Insight → Prop
  | .candles pair lookback, .ok rows, learned => pair = aim.pair → lookback = paLookback → aim.Reads known rows learned
  | .serverNow, .ok now, learned => learned.reading = now
  | .store table pair bar _, .ok _, learned => pair = aim.pair → aim.target ≤ bar → learned.stored table
  | _, _, _ => True

/-- Any request may be made, and its answer may tell something. -/
def lessons : Discipline PaReq PaReq.Ans Exc Insight where
  rule _ _ := True
  learn known request answer learned := known.Keeps learned ∧ aim.Tells known request answer learned

variable {aim} {known : Insight}

/-- No program forgets anything. -/
theorem safe_keeps {α : Type} (program : PaTask α) :
    Safe aim.lessons program known fun _ learned => known.Keeps learned := by
  apply Safe.of_only (fun _ => True) (fun learned => known.Keeps learned)
  · intro _ _ _ _
    trivial
  · intro middle request answer learned kept _ lesson
    exact kept.trans lesson.1
  · exact Prog.only_of_forall (fun _ => trivial) program
  · exact Insight.Keeps.refl known

/-- A request that is not asked for what it tells. -/
theorem await_safe (request : PaReq) :
    Safe aim.lessons (await request) known fun answer learned =>
      known.Keeps learned ∧ aim.Tells known request answer learned :=
  Safe.call_iff.mpr ⟨trivial, fun _ _ lesson => lesson⟩

/-- `_load_candles` reads the stored bars, once or again after they were fetched. -/
theorem load_safe : Safe aim.lessons (loadCandles aim.pair paLookback) known
    (Outcome (fun rows learned => known.Keeps learned ∧ aim.Reads known rows learned) fun _ _ => True) := by
  unfold loadCandles
  rw [Prog.bind_eq]
  apply Safe.bind (await_safe _)
  · intro rows learned ⟨kept, told⟩
    -- The first reading of the table.
    have reads : aim.Reads known rows learned := told rfl rfl
    split
    · rename_i none_stored
      -- Nothing was stored, so the bars are fetched and read a second time.
      rw [Prog.bind_eq]
      apply Safe.bind (await_safe _)
      · intro _ warmed ⟨kept_warm, _⟩
        apply Safe.mono (await_safe _)
        intro outcome final ⟨kept_final, told_final⟩
        cases outcome with
        | error raised => trivial
        | ok found =>
          have later : aim.Reads warmed found final := told_final rfl rfl
          refine ⟨(kept.trans kept_warm).trans kept_final, later.ordered, later.closed, later.seen, ?_⟩
          -- A target that was seen before was lost when no bar was found.
          intro seen_before
          rcases reads.again seen_before with lost | ⟨row, listed, _⟩
          · exact .inl (kept_final.lost (kept_warm.lost lost))
          · rw [List.isEmpty_iff.mp none_stored] at listed
            cases listed
      · intro _ _ _
        trivial
    · exact Safe.done ⟨kept, reads⟩
  · intro _ _ _
    trivial

theorem ofName_name (tf : Timeframe) : Timeframe.ofName tf.name = some tf := by
  cases tf <;> decide

/-- Timeframes of one name are the same. -/
theorem name_injective {tf other : Timeframe} (same : tf.name = other.name) : tf = other := by
  have found := congrArg Timeframe.ofName same
  rw [ofName_name, ofName_name, Option.some.injEq] at found
  exact found

/-- Where the target was seen, the bars of an analysis reach it unless retention took it away. -/
theorem window_safe : Safe aim.lessons (analysisWindow aim.pair paLookback) known
    (Outcome (fun window learned => known.Keeps learned ∧
      (known.seen → learned.lost ∨ ∃ last, window.getLast? = some last ∧ aim.target ≤ last.openTime))
      fun _ _ => True) := by
  unfold analysisWindow
  -- The timeframe of an aim has a name of its own, so the analysis does not refuse it.
  have name : Timeframe.ofName aim.pair.timeframe = some aim.timeframe := ofName_name aim.timeframe
  rw [name]
  simp only [Prog.bind_eq]
  apply Safe.bind load_safe
  · intro rows loaded ⟨kept, reads⟩
    split
    · exact Safe.fail trivial
    · apply Safe.bind (await_safe _)
      · rintro now learned ⟨kept_now, told⟩
        -- The clock is read behind the bars.
        obtain rfl : learned.reading = now := told
        split
        · exact Safe.fail trivial
        · refine Safe.done ⟨kept.trans kept_now, ?_⟩
          -- None of the bars was still forming when they were read, so all of them are used.
          have all : closedOnly rows aim.timeframe learned.reading = rows := by
            unfold closedOnly
            rw [List.filter_eq_self]
            intro row listed
            have closed := reads.closed row listed
            have grown := latestClosed_mono aim.timeframe.seconds_pos kept_now.reading
            exact decide_eq_true (le_trans closed grown)
          intro seen
          rcases reads.again seen with lost | ⟨row, listed, reached⟩
          · exact .inl (kept_now.lost lost)
          · right
            rw [all]
            obtain ⟨last, ends⟩ := Option.isSome_iff_exists.mp
              (List.getLast?_isSome.mpr (List.ne_nil_of_mem listed))
            exact ⟨last, ends, le_trans reached (key_le_last reads.ordered ends row listed)⟩
      · intro _ _ _
        trivial
  · intro _ _ _
    trivial

/-- A stored analysis as new as the target is stored in all of its parts. -/
theorem store_safe {result : AnalysisResult} (own : result.pair = aim.pair) :
    Safe aim.lessons (storeAnalysis result) known (Outcome (fun _ learned => known.Keeps learned ∧
      (aim.target ≤ result.asOf → ∀ table, learned.stored table)) fun _ _ => True) := by
  unfold storeAnalysis
  simp only [Prog.bind_eq]
  apply Safe.bind (await_safe _)
  · intro _ first ⟨kept_first, told_first⟩
    apply Safe.bind (await_safe _)
    · intro _ second ⟨kept_second, told_second⟩
      apply Safe.mono (await_safe _)
      intro outcome third ⟨kept_third, told_third⟩
      cases outcome with
      | error raised => trivial
      | ok _ =>
        refine ⟨(kept_first.trans kept_second).trans kept_third, ?_⟩
        intro reached table
        -- Each part was stored by one of the three writes, and the later ones leave it there.
        cases table with
        | marketStructure => exact kept_third.stored _ (kept_second.stored _ (told_first own reached))
        | liquidityZones => exact kept_third.stored _ (told_second own reached)
        | orderBlocks => exact told_third own reached
    · intro _ _ _
      trivial
  · intro _ _ _
    trivial

theorem compute_safe (general8 : ℚ → String) : Safe aim.lessons (computeAnalysis general8 aim.pair paLookback) known
    (Outcome (fun _ learned => known.seen → learned.lost ∨ ∀ table, learned.stored table) fun _ _ => True) := by
  unfold computeAnalysis
  simp only [Prog.bind_eq]
  apply Safe.bind window_safe
  · intro window read ⟨kept_read, reaches⟩
    apply Safe.bind (await_safe _)
    · intro futures fetched ⟨kept_fetched, _⟩
      apply Safe.bind (store_safe rfl)
      · intro _ learned ⟨kept_stored, stored⟩
        apply Safe.done
        intro seen
        -- The analysis is stored for the last bar of its window.
        rcases reaches seen with lost | ⟨last, ends, reached⟩
        · exact .inl (kept_stored.lost (kept_fetched.lost lost))
        · right
          apply stored
          show aim.target ≤ (window.getLast?.map Candle.openTime).getD 0
          rw [ends]
          exact reached
      · intro _ _ _
        trivial
    · intro _ _ _
      trivial
  · intro _ _ _
    trivial

/-- An analysis that returns has stored all of its parts, as new as a target that was seen before. -/
theorem analyze_safe (cfg : PaConfig) (depth : ℕ) : Safe aim.lessons (analyze cfg depth aim.pair paLookback) known
    (Outcome (fun _ learned => known.seen → learned.lost ∨ ∀ table, learned.stored table) fun _ _ => True) := by
  cases depth with
  -- The interpreter gives up on analyses that are nested too deeply.
  | zero => exact Safe.fail trivial
  | succ depth =>
    unfold analyze
    simp only [Prog.bind_eq]
    apply Safe.bind (compute_safe cfg.general8)
    · intro result computed stored
      -- The evaluation of the alerts may ask anything, but forgets nothing.
      apply Safe.bind (safe_keeps _)
      · intro _ learned kept
        apply Safe.done
        intro seen
        rcases stored seen with lost | all
        · exact .inl (kept.lost lost)
        · exact .inr fun table => kept.stored table (all table)
      · intro _ _ _
        trivial
    · intro _ _ _
      trivial

/-- What `_process` promises by its success. -/
def Fulfilled (outcome : Except Exc Processed) (learned : Insight) : Prop :=
  outcome = .ok .analyzed → learned.lost ∨ ∀ table, learned.stored table

theorem process_safe (cfg : PaConfig) (begun : aim.target ≤ latestClosed aim.timeframe.seconds known.reading) :
    Safe aim.lessons (process cfg aim.timeframe aim.symbol) known Fulfilled := by
  have unmet (place : Processed) (differs : place ≠ .analyzed) (learned : Insight) :
      Safe aim.lessons (Prog.done place : PaTask Processed) learned Fulfilled := by
    apply Safe.done
    intro analyzed
    cases analyzed
    exact absurd rfl differs
  unfold process
  simp only [Prog.bind_eq]
  -- The first reading tells whether a bar as new as the target is stored.
  apply Safe.attempt_bind load_safe
  intro outcome loaded facts
  cases outcome with
  | error raised => exact unmet _ (by simp) loaded
  | ok candles =>
    obtain ⟨kept, reads⟩ := facts
    dsimp only
    split
    · exact unmet _ (by simp) loaded
    · rename_i last ends
      apply Safe.bind (await_safe _)
      · rintro now learned ⟨kept_now, told⟩
        obtain rfl : learned.reading = now := told
        split
        · exact unmet _ (by simp) learned
        · rename_i fresh
          -- The last bar that has closed now is at least the one that had closed when the pass began.
          have reached : aim.target ≤ last.openTime := by
            have grown := latestClosed_mono aim.timeframe.seconds_pos (kept.trans kept_now).reading
            have newest : latestClosed aim.timeframe.seconds learned.reading ≤ last.openTime := by
              by_contra behind
              exact fresh (by simp [isFresh, behind])
            omega
          -- From here on only retention can take that bar away.
          have seen : learned.seen := kept_now.seen (reads.seen ⟨last, List.mem_of_getLast? ends, reached⟩)
          apply Safe.attempt_bind (analyze_safe cfg cfg.depth)
          intro analyzed final stored
          cases analyzed with
          | error raised => exact unmet _ (by simp) final
          | ok result => exact Safe.done fun _ => stored seen
      · intro _ _ _ impossible
        cases impossible

end Aim

/-! What is true of a gather while other tasks go on. -/

/-- Which of the requests of a gather is served next. -/
def WorkerState.asks (s : WorkerState) (index : ℕ) : Option PaReq := do
  let pass ← s.pass
  let gathering ← pass.gathering
  let member ← gathering.members[index]?
  match member.rest with
  | .ask request _ => some request
  | _ => none

/-- The readings of the clock do not go back, and no forming bars are stored. -/
def WorkerState.Admits (s : WorkerState) : WorkerMove → Prop
  | .begin reading => s.clock ≤ reading
  | .other request choice => s.clock ≤ choice.server ∧ ∀ row ∈ request.stores choice, row.ClosedAt choice.server
  | .resume index choice =>
    s.clock ≤ choice.server ∧ ∀ request ∈ s.asks index, ∀ row ∈ request.stores choice, row.ClosedAt choice.server
  | _ => True

instance (s : WorkerState) (move : WorkerMove) : Decidable (s.Admits move) := by
  cases move <;> unfold WorkerState.Admits <;> infer_instance

namespace Gathering

/-- Retention has deleted bars as new as the target since the processing of a symbol began. -/
def PrunedSince (g : Gathering) (symbol : String) : Prop :=
  ∃ newer older cutoff, g.log = newer ++ .pruned g.timeframe cutoff :: older ∧ g.target < cutoff ∧
    .entered symbol ∈ older

def aim (g : Gathering) (symbol : String) : Aim := ⟨symbol, g.timeframe, g.target⟩

/-- What is true of a symbol. -/
def insight (g : Gathering) (world : PaWorld) (clock : ℚ) (symbol : String) : Insight where
  reading := clock
  seen := .entered symbol ∈ g.log ∧ (world.HasBar (g.aim symbol).series g.target ∨ g.PrunedSince symbol)
  lost := g.PrunedSince symbol
  stored := world.HasAnalysis (g.aim symbol).pair g.target

/-- The gather of a pass that began at a reading, and what its programs know. -/
structure Sound (cfg : WorkerConfig) (world : PaWorld) (clock now : ℚ) (g : Gathering) : Prop where
  target : g.target = latestClosed g.timeframe.seconds now
  keys : g.members.map Member.key = g.symbols
  entered : ∀ member ∈ g.members, member.entered = true → .entered member.key ∈ g.log
  tracks : ∀ member ∈ g.members, member.OnTrack (process cfg.toPaConfig g.timeframe)
  knows : ∀ member ∈ g.members, member.Knows (g.aim member.key).lessons
    (fun known => known.Keeps (g.insight world clock member.key)) Aim.Fulfilled

variable {cfg : WorkerConfig} {world after : PaWorld} {clock later now : ℚ} {g : Gathering} {symbol : String}

theorem PrunedSince.note (pruned : g.PrunedSince symbol) (entries : List GatherEntry) :
    (g.note entries).PrunedSince symbol := by
  obtain ⟨newer, older, cutoff, shape, beyond, began⟩ := pruned
  refine ⟨entries ++ newer, older, cutoff, ?_, beyond, began⟩
  show entries ++ g.log = _
  rw [shape, List.append_assoc]
  rfl

/-- What was true of a symbol stays true when any request is served. -/
theorem insight_served {request : PaReq} {choice : PaChoice} (sustains : Sustains world after request choice)
    (grows : clock ≤ later) :
    (g.insight world clock symbol).Keeps ((g.note (logged request choice)).insight after later symbol) := by
  refine ⟨grows, ?_, ?_, ?_⟩
  · rintro ⟨began, known⟩
    refine ⟨List.mem_append_right _ began, ?_⟩
    rcases known with stored | pruned
    · -- The bar is still stored, or this very request has deleted it.
      rcases sustains.bars _ _ stored with kept | ⟨cutoff, deleted, beyond⟩
      · exact .inl kept
      · -- The deletion is the newest entry of the log.
        right
        refine ⟨[], g.log, cutoff, ?_, beyond, began⟩
        show logged request choice ++ g.log = _
        unfold logged
        rw [deleted]
        rfl
    · exact .inr (pruned.note _)
  · intro lost
    exact PrunedSince.note lost _
  · intro table stored
    exact sustains.analyses _ _ _ stored

/-- A further entry of the log takes nothing away. -/
theorem insight_note (entries : List GatherEntry) :
    (g.insight world clock symbol).Keeps ((g.note entries).insight world clock symbol) := by
  refine ⟨le_refl _, ?_, ?_, fun _ stored => stored⟩
  · rintro ⟨began, known⟩
    refine ⟨List.mem_append_right _ began, ?_⟩
    rcases known with stored | pruned
    · exact .inl stored
    · exact .inr (pruned.note _)
  · intro lost
    exact PrunedSince.note lost _

end Gathering

/-- The bars that are read stand in order. -/
theorem read_ordered (table : CandleTable) (series : Series) (limit : ℕ) :
    (table.read series limit).Pairwise fun a b => a.openTime ≤ b.openTime :=
  ((table.history_ascends series).lastOf limit).imp le_of_lt

/-- A bar that is read is stored. -/
theorem mem_of_mem_read {table : CandleTable} {series : Series} {limit : ℕ} {candle : Candle}
    (listed : candle ∈ table.read series limit) : ∃ row ∈ table.rows, row.series = series ∧ row.candle = candle :=
  CandleTable.mem_history.mp (List.mem_of_mem_drop listed)

/-- The newest bars are among those that are read. -/
theorem read_reaches {world : PaWorld} {series : Series} {time : ℤ} {limit : ℕ} (some_read : 0 < limit)
    (stored : world.HasBar series time) : ∃ candle ∈ world.candles.read series limit, time ≤ candle.openTime := by
  obtain ⟨row, listed, place, reached⟩ := stored
  -- The last stored bar is the last one that is read, however few are read.
  have inside : row.candle ∈ world.candles.history series := CandleTable.mem_history.mpr ⟨row, listed, place, rfl⟩
  have positive := List.length_pos_of_mem inside
  obtain ⟨last, ends⟩ := Option.isSome_iff_exists.mp (List.getLast?_isSome.mpr (List.ne_nil_of_mem inside))
  have ending : (world.candles.read series limit).getLast? = some last := by
    show (lastOf limit (world.candles.history series)).getLast? = some last
    unfold lastOf
    rw [List.getLast?_drop, if_neg (by omega), ends]
  exact ⟨last, List.mem_of_getLast? ending,
    le_trans reached (key_le_last ((world.candles.history_ascends series).imp le_of_lt) ends row.candle inside)⟩

namespace Gathering

variable {cfg : WorkerConfig} {world after : PaWorld} {clock later now : ℚ} {g : Gathering} {symbol : String}

theorem readCandles_aim (aim : Aim) (lookback : ℕ) :
    world.readCandles aim.pair lookback = world.candles.read aim.series lookback := by
  unfold PaWorld.readCandles
  have name : Timeframe.ofName aim.pair.timeframe = some aim.timeframe := Aim.ofName_name aim.timeframe
  rw [name]
  rfl

/-- What the answer of a served request tells about the symbol that asked. -/
theorem served_tells {budget : ℕ} {request : PaReq} {choice : PaChoice} {answer : Except Exc request.Ans}
    {known : Insight} (closed : world.OnlyClosed clock) (grows : clock ≤ choice.server)
    (began : .entered symbol ∈ g.log) (holds : known.Keeps (g.insight world clock symbol))
    (served : world.serve budget request choice = (answer, after)) :
    (g.aim symbol).Tells known request answer
      ((g.note (logged request choice)).insight after choice.server symbol) := by
  -- Only the readings of the candles and the clock and the writes of an analysis tell something.
  cases request with
  | candles pair lookback =>
    rcases PaWorld.access_cases served with ⟨raised, rfl, rfl⟩ | ⟨rows, rfl, ran⟩
    · trivial
    cases ran
    intro own some_read
    subst own some_read
    rw [readCandles_aim]
    refine ⟨read_ordered _ _ _, ?_, ?_, ?_⟩
    · intro candle listed
      obtain ⟨row, stored, place, rfl⟩ := mem_of_mem_read listed
      have before := (closed row stored).later grows
      unfold StoredCandle.ClosedAt at before
      rw [place] at before
      exact before
    · intro ⟨candle, listed, reached⟩
      obtain ⟨row, stored, place, rfl⟩ := mem_of_mem_read listed
      exact ⟨List.mem_append_right _ began, .inl ⟨row, stored, place, reached⟩⟩
    · intro seen
      -- What was seen before is still stored, or retention has taken it away since.
      rcases (holds.seen seen).2 with stored | pruned
      · exact .inr (read_reaches (by decide) stored)
      · exact .inl (pruned.note _)
  | serverNow =>
    cases served
    rfl
  | store table pair bar payload =>
    rcases PaWorld.access_cases served with ⟨raised, rfl, rfl⟩ | ⟨value, rfl, ran⟩
    · trivial
    cases ran
    intro own reached
    subst own
    have has : (world.store table (g.aim symbol).pair bar payload (truncated choice.host)).HasAnalysis
        (g.aim symbol).pair bar table := has_stored
    obtain ⟨row, stored, place, exactly⟩ := has
    exact ⟨row, stored, place, le_trans reached exactly⟩
  | warmUp _ _ | hostNow | futuresContext _ | futuresSeries _ _ _ | current _ _ | spend _ | beginPass _
  | alertsBySymbol _ | compositeAlerts | alertSymbols | evaluate _ _ | screen _ _ | maybeTrigger _
  | insertAlert _ _ | deleteAlert _ | candidateSymbols | symbolValidity _ | feed _ | settle _ _ _ => trivial

end Gathering

namespace Gathering

variable {cfg : WorkerConfig} {world after : PaWorld} {clock later now : ℚ} {g : Gathering}

/-- A gather stays as it should be when any request is served. -/
theorem Sound.serve (sound : g.Sound cfg world clock now) {request : PaReq} {choice : PaChoice}
    (sustains : Sustains world after request choice) (grows : clock ≤ later) :
    (g.note (logged request choice)).Sound cfg after later now where
  target := sound.target
  keys := sound.keys
  entered member listed inside := List.mem_append_right _ (sound.entered member listed inside)
  tracks := sound.tracks
  knows member listed := (sound.knows member listed).mono fun _ holds => holds.trans (insight_served sustains grows)

/-- So it does when the program for one of its symbols gets an answer. -/
theorem Sound.answer (sound : g.Sound cfg world clock now) (closed : world.OnlyClosed clock) {budget : ℕ}
    {request : PaReq} {choice : PaChoice} {answer : Except Exc request.Ans} (grows : clock ≤ choice.server)
    (served : world.serve budget request choice = (answer, after))
    {member : Member String PaReq PaReq.Ans Exc Processed} {next : Except Exc request.Ans → PaTask Processed}
    (listed : member ∈ g.members) (inside : member.entered = true) (running : member.rest = .ask request next)
    {members : Gather String PaReq PaReq.Ans Exc Processed} (keys : members.map Member.key = g.members.map Member.key)
    (others : ∀ other ∈ members, other ∈ g.members ∨ other = member.answered request next answer) :
    { g.note (logged request choice) with members := members }.Sound cfg after choice.server now := by
  -- For the other members it is a request like any other.
  have still := sound.serve (sustains_of_serve served) grows
  have began := sound.entered member listed inside
  refine ⟨sound.target, keys.trans sound.keys, ?_, ?_, ?_⟩
  · intro other found has_entered
    rcases others other found with old | rfl
    · exact still.entered other old has_entered
    · exact List.mem_append_right _ began
  · intro other found
    rcases others other found with old | rfl
    · exact sound.tracks other old
    · exact (sound.tracks member listed).answered running answer
  · intro other found
    rcases others other found with old | rfl
    · exact still.knows other old
    · apply (sound.knows member listed).answered running
      intro known holds
      -- The member learns what is true now.
      exact ⟨_, ⟨holds.trans (insight_served (sustains_of_serve served) grows),
        served_tells closed grows began holds served⟩, Insight.Keeps.refl _⟩

/-- So it does when one of its programs passes the semaphore. -/
theorem Sound.enter (sound : g.Sound cfg world clock now)
    {member : Member String PaReq PaReq.Ans Exc Processed} (listed : member ∈ g.members)
    {members : Gather String PaReq PaReq.Ans Exc Processed} (keys : members.map Member.key = g.members.map Member.key)
    (others : ∀ other ∈ members, other ∈ g.members ∨ other = member.enter) :
    ({ g with members := members }.note [.entered member.key]).Sound cfg world clock now := by
  have noted (symbol : String) : (g.insight world clock symbol).Keeps
      ((g.note [.entered member.key]).insight world clock symbol) := insight_note _
  have keeps (other : Member String PaReq PaReq.Ans Exc Processed) (old : other ∈ g.members) :=
    (sound.knows other old).mono fun _ holds => holds.trans (noted other.key)
  refine ⟨sound.target, keys.trans sound.keys, ?_, ?_, ?_⟩
  · intro other found has_entered
    rcases others other found with old | rfl
    · exact List.mem_cons_of_mem _ (sound.entered other old has_entered)
    · exact List.mem_cons_self
  · intro other found
    rcases others other found with old | rfl
    · exact sound.tracks other old
    · exact (sound.tracks member listed).enter
  · intro other found
    rcases others other found with old | rfl
    · exact keeps other old
    · exact (keeps member listed).enter

/-- A gather begins with programs that know only the reading of their pass. -/
theorem Sound.start (cfg : WorkerConfig) (world : PaWorld) {s : WorkerState} {tf : Timeframe} (past : now ≤ clock)
    (begins : gatheringOf cfg s now tf = some g) :
    g.Sound cfg world clock now ∧ s.lastProcessed g.timeframe.name ≠ some g.target := by
  unfold gatheringOf at begins
  simp only at begins
  split at begins
  · cases begins
  rename_i unmarked
  split at begins
  · cases begins
  cases begins
  refine ⟨⟨rfl, Gather.keys_start _, ?_, ?_, ?_⟩, unmarked⟩
  · intro member listed inside
    obtain ⟨symbol, _, rfl⟩ := Gather.mem_start listed
    cases inside
  · intro member listed
    obtain ⟨symbol, _, rfl⟩ := Gather.mem_start listed
    exact Member.OnTrack.spawn symbol
  · intro member listed
    obtain ⟨symbol, _, rfl⟩ := Gather.mem_start listed
    refine ⟨⟨now, False, False, fun _ => False⟩, ?_, Aim.process_safe cfg.toPaConfig (le_refl _)⟩
    exact ⟨past, False.elim, False.elim, fun _ => False.elim⟩

end Gathering

end Rasat
