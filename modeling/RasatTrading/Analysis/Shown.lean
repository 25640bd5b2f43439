import RasatTrading.Analysis.Services
import RasatTrading.Coop.Recorded

/-! Triggers are asked for alerts that the task has read, with their own cooldown. -/

namespace Rasat

open Coop Prog

/-- The record of a task of the price-action layer. -/
abbrev PaRecord := Record PaReq PaReq.Ans Exc PaCall

/-- The alert rows that an answer shows. -/
def PaReq.shown : (request : PaReq) → Except Exc request.Ans → List AlertRow
  | .alertsBySymbol _, .ok rows => rows
  | .compositeAlerts, .ok rows => rows
  | _, _ => []

/-- An alert row that some answer has shown. -/
def Shown (hist : Hist PaReq PaReq.Ans Exc) (row : AlertRow) : Prop :=
  ∃ event ∈ hist, row ∈ event.request.shown event.answer

/-- A trigger is asked for an alert that was read, with the cooldown of its definition. -/
def triggerRule (record : PaRecord) : PaReq → Prop
  | .maybeTrigger args => ∃ row, Shown record.hist row ∧ row.alertId = args.alertId ∧
      row.definition.cooldownSeconds = args.cooldownSeconds
  | _ => True

/-- A program that keeps to the rule whatever its task has read. -/
def Tame {α : Type} (program : PaTask α) : Prop :=
  ∀ record : PaRecord, Safe (recording triggerRule) program record fun _ _ => True

/-- The requests that trigger nothing. -/
def Untriggering : PaReq → Prop
  | .maybeTrigger _ => False
  | _ => True

variable {α β σ : Type} {record : PaRecord} {row : AlertRow}

/-- What was shown stays shown. -/
theorem Shown.later {hist later : Hist PaReq PaReq.Ans Exc} (shown : Shown hist row)
    (grown : hist <:+ later) : Shown later row := by
  obtain ⟨event, member, listed⟩ := shown
  exact ⟨event, grown.subset member, listed⟩

variable {program : PaTask α}

/-- A program that triggers nothing is tame. -/
theorem tame_of_only (only : program.Only Untriggering) : Tame program := by
  intro record
  have allowed (record : PaRecord) (request : PaReq) (kind : Untriggering request) :
      triggerRule record request := by
    cases request with
    | maybeTrigger args => exact absurd kind id
    | _ => trivial
  exact only_recording allowed only

/-- A value is tame, -/
theorem tame_done (value : α) : Tame (.done value) := fun _ => .done trivial

/-- and an exception is. -/
theorem tame_fail (raised : Exc) : Tame (.fail raised : PaTask α) := fun _ => .fail trivial

/-- Whatever comes first, what was shown before it still is. -/
theorem then_shown {next : α → PaTask β} (first : Tame program)
    (rest : ∀ value (later : PaRecord), record.hist <:+ later.hist →
      Safe (recording triggerRule) (next value) later fun _ _ => True) :
    Safe (recording triggerRule) (program.bind next) record fun _ _ => True := by
  refine Safe.bind (recording_grows (first record)) (fun value later grown => ?_) fun _ _ _ => trivial
  exact rest value later grown.2

/-- A sequence of tame programs is tame. -/
theorem tame_bind {next : α → PaTask β} (first : Tame program)
    (rest : ∀ value, Tame (next value)) : Tame (program.bind next) :=
  fun _ => then_shown first fun value later _ => rest value later

/-- Waiting for a request that triggers nothing. -/
theorem tame_await {request : PaReq} {next : request.Ans → PaTask β} (kind : Untriggering request)
    (rest : ∀ value, Tame (next value)) : Tame ((await request).bind next) :=
  tame_bind (tame_of_only (only_call.mpr kind)) rest

/-- So is a tame program with a tame handler. -/
theorem tame_rescue {handler : Exc → PaTask α} (first : Tame program)
    (handled : ∀ raised, Tame (handler raised)) : Tame (program.rescue handler) := by
  intro record
  exact Safe.rescue (first record) (fun _ _ _ => trivial) fun raised later _ => handled raised later

/-- A loop whose body may count on what is shown of each item. -/
theorem shown_foldlM {body : σ → AlertRow → PaTask σ} {rows : List AlertRow} {start : σ}
    (shown : ∀ row ∈ rows, Shown record.hist row)
    (each : ∀ state row (later : PaRecord), Shown later.hist row →
      Safe (recording triggerRule) (body state row) later fun _ _ => True) :
    Safe (recording triggerRule) (rows.foldlM body start) record fun _ _ => True := by
  -- The rows still to come stay shown while the record grows.
  refine (Safe.foldlM (fun rest _ later => ∀ row ∈ rest, Shown later.hist row) (fun _ _ => True)
    shown fun row rest state later known => ?_).mono fun _ _ _ => trivial
  refine (recording_grows (each state row later (known row List.mem_cons_self))).mono ?_
  rintro outcome last ⟨-, grown⟩
  cases outcome with
  | error raised => trivial
  | ok value => exact fun other member => (known other (List.mem_cons_of_mem _ member)).later grown

/-- A loop is tame when each turn is. -/
theorem tame_foldlM {ι : Type} {body : σ → ι → PaTask σ} (each : ∀ state item, Tame (body state item))
    (items : List ι) (start : σ) : Tame (items.foldlM body start) := by
  -- By induction on the items, from every state.
  induction items generalizing start with
  | nil => exact tame_done _
  | cons item rest ih =>
    rw [List.foldlM_cons]
    exact tame_bind (each start item) ih

/-- The rows of an answer are shown from then on. -/
theorem shown_answer {request : PaReq} {rows : Except Exc request.Ans}
    (member : row ∈ request.shown rows) : Shown (record.after request rows).hist row :=
  ⟨_, List.mem_cons_self, member⟩

/-! What surrounds the triggers triggers nothing. -/

/-- The requests that the alerts have no part in. -/
def MarketOnly : PaReq → Prop
  | .candles _ _ | .warmUp _ _ | .serverNow | .futuresContext _ | .store _ _ _ _ => True
  | _ => False

/-- The candles of an analysis are market data. -/
theorem analysisWindow_market (pair : Pair) (lookback : ℕ) : (analysisWindow pair lookback).Only MarketOnly := by
  have load : (loadCandles pair lookback).Only MarketOnly := by
    refine only_asks trivial fun rows => ?_
    split
    · exact only_asks trivial fun _ => only_call.mpr trivial
    · exact only_done
  unfold analysisWindow
  split
  · exact only_fail
  refine only_bind load fun candles => ?_
  split
  · exact only_fail
  refine only_asks trivial fun now => ?_
  dsimp only
  split
  · exact only_fail
  · exact only_done

/-- An analysis reads and writes market data only, until it tells the alarm service. -/
theorem computeAnalysis_market (general8 : ℚ → String) (pair : Pair) (lookback : ℕ) :
    (computeAnalysis general8 pair lookback).Only MarketOnly := by
  refine only_bind (analysisWindow_market pair lookback) fun window => ?_
  refine only_asks trivial fun futures => ?_
  refine only_bind ?_ fun _ => only_done
  exact only_asks trivial fun _ => only_asks trivial fun _ =>
    only_call.mpr trivial

/-- The requests that read, or evaluate what was read. -/
def ReadOnly : PaReq → Prop
  | .candles _ _ | .serverNow | .hostNow | .futuresSeries _ _ _ | .current _ _ | .evaluate _ _ => True
  | _ => False

/-- A stored analysis is only read, -/
theorem readStored_readOnly (pair : Pair) : (readStored pair).Only ReadOnly :=
  only_asks trivial fun _ => only_asks trivial fun _ =>
    only_asks trivial fun _ => only_done

/-- and so are the records of futures. -/
theorem latestFutures_readOnly (symbol type : String) : (latestFutures symbol type).Only ReadOnly :=
  only_asks trivial fun _ => only_done

/-- Telling closed bars changes nothing. -/
theorem filterClosedCandles_readOnly (tf : Timeframe) (candles : List Candle) :
    (filterClosedCandles tf candles).Only ReadOnly := by
  unfold filterClosedCandles
  split
  · exact only_done
  · exact only_asks trivial fun _ => only_done

/-- The context of an analysis at hand is read. -/
theorem updatedContext_readOnly (tf : Timeframe) (result : AnalysisResult) :
    (updatedContext tf result).Only ReadOnly :=
  only_asks trivial fun _ => only_bind (filterClosedCandles_readOnly _ _) fun _ =>
    only_bind (latestFutures_readOnly _ _) fun _ => only_asks trivial fun _ => only_done

/-- Whether an alert is armed is read. -/
theorem isArmed_readOnly (row : AlertRow) : (isArmed row).Only ReadOnly :=
  only_asks trivial fun _ => only_done

/-- Clauses are decided without a change. -/
theorem evaluateClauses_readOnly (combine : Combine) (contexts : List (Clause × Context)) :
    (evaluateClauses combine contexts).Only ReadOnly := by
  -- One clause after the other, until one decides.
  induction contexts with
  | nil => exact only_done
  | cons entry rest ih =>
    refine only_asks trivial fun matched => ?_
    split
    · exact only_done
    · exact ih

/-- Programs that deal with the market alone are tame, -/
theorem tame_of_market (only : program.Only MarketOnly) : Tame program := by
  refine tame_of_only (only.mono fun request kind => ?_)
  cases request with
  | maybeTrigger args => exact absurd kind id
  | _ => trivial

/-- and those that only read are. -/
theorem tame_of_readOnly (only : program.Only ReadOnly) : Tame program := by
  refine tame_of_only (only.mono fun request kind => ?_)
  cases request with
  | maybeTrigger args => exact absurd kind id
  | _ => trivial

/-! The evaluations, over analyses that keep to the rule. -/

variable {analyze : Pair → PaTask Unit}

section Inner

variable (inner : ∀ pair, Tame (analyze pair))
include inner

/-- An analysis that may be made anew is tame when `analyze` is, -/
theorem storedAnalysis_tame (who : Evaluator) (pair : Pair) : Tame (storedAnalysis who analyze pair) := by
  refine tame_bind (tame_of_readOnly (readStored_readOnly pair)) fun stored => ?_
  split
  · -- A missing analysis is made, if the budget lasts.
    refine tame_await trivial fun granted => ?_
    split
    · refine tame_bind (inner pair) fun _ => ?_
      exact tame_bind (tame_of_readOnly (readStored_readOnly pair)) fun _ => tame_done _
    · exact tame_done _
  · exact tame_done _

/-- and so is the context of a clause, -/
theorem clauseContext_tame (pair : Pair) : Tame (clauseContext analyze pair) := by
  refine tame_await trivial fun candles => ?_
  split
  · exact tame_done _
  split
  · exact tame_fail _
  refine tame_bind (tame_of_readOnly (filterClosedCandles_readOnly _ _)) fun closed => ?_
  split
  · exact tame_done _
  refine tame_bind (storedAnalysis_tame inner _ _) fun stored => ?_
  split
  · exact tame_done _
  split
  · exact tame_done _
  refine tame_await trivial fun now => ?_
  split
  · exact tame_done _
  refine tame_bind (tame_of_readOnly (latestFutures_readOnly _ _)) fun _ => ?_
  exact tame_await trivial fun _ => tame_done _

/-- that of a scan -/
theorem buildContext_tame (pair : Pair) (node : FilterNode) : Tame (buildContext analyze pair node) := by
  refine tame_await trivial fun candles => ?_
  dsimp only
  split
  · exact tame_done _
  split
  · exact tame_fail _
  refine tame_await trivial fun now => ?_
  split
  · exact tame_done _
  split
  · refine tame_bind (storedAnalysis_tame inner _ _) fun stored => ?_
    split
    · exact tame_done _
    split
    · exact tame_done _
    refine tame_bind (tame_of_readOnly (latestFutures_readOnly _ _)) fun _ => ?_
    split
    · exact tame_await trivial fun _ => tame_done _
    · exact tame_done _
  · exact tame_done _

/-- and those of all clauses. -/
theorem clauseContexts_tame (clauses : List Clause) : Tame (clauseContexts analyze clauses) := by
  induction clauses with
  | nil => exact tame_done _
  | cons clause rest ih =>
    refine tame_bind (clauseContext_tame inner _) fun ctx => ?_
    split
    · exact tame_done _
    · exact tame_bind ih fun _ => tame_done _

omit inner in
/-- A trigger of a row that was shown. -/
theorem maybeTrigger_safe (shown : Shown record.hist row) (triggerKey : String) (payload : TriggerPayload) :
    Safe (recording triggerRule) (maybeTrigger row triggerKey payload) record fun _ _ => True := by
  refine then_shown (tame_of_only (only_call.mpr trivial)) fun now later grown => ?_
  exact recording_call.mpr ⟨⟨row, shown.later grown, rfl, rfl⟩, fun _ => trivial⟩

omit inner in
/-- A simple alert that was shown is triggered with its own cooldown only. -/
theorem evaluateSimple_safe {context : PaTask (Option Context)} (tame : Tame context) (pair : Pair)
    (triggers : List TriggeredAlert) (shown : Shown record.hist row) :
    Safe (recording triggerRule) (evaluateSimple context pair triggers row) record
      fun _ _ => True := by
  unfold evaluateSimple
  split
  · exact .done trivial
  refine then_shown (tame_of_readOnly (isArmed_readOnly row)) fun armed later grown => ?_
  -- A row that was shown stays shown, whatever is asked in between.
  replace shown := shown.later grown
  split
  · refine then_shown tame fun ctx later grown => ?_
    replace shown := shown.later grown
    split
    · exact .done trivial
    · refine then_shown (tame_of_only (only_call.mpr trivial)) fun matched later grown => ?_
      replace shown := shown.later grown
      split
      · exact Safe.bind (maybeTrigger_safe shown _ _) (fun _ _ _ => .done trivial) fun _ _ _ => trivial
      · exact .done trivial
  · exact .done trivial

/-- So is a composite alert. -/
theorem evaluateComposite_safe (shown : Shown record.hist row) :
    Safe (recording triggerRule) (evaluateComposite analyze row) record fun _ _ => True := by
  unfold evaluateComposite
  split
  · exact .done trivial
  refine then_shown (tame_of_readOnly (isArmed_readOnly row)) fun armed later grown => ?_
  replace shown := shown.later grown
  split
  · refine then_shown (clauseContexts_tame inner _) fun contexts later grown => ?_
    replace shown := shown.later grown
    split
    · exact .done trivial
    · refine then_shown (tame_of_readOnly (evaluateClauses_readOnly _ _)) fun matched later grown => ?_
      split
      · exact maybeTrigger_safe (shown.later grown) _ _
      · exact .done trivial
  · exact .done trivial

/-- The composite alerts are read before they are evaluated. -/
theorem evaluateCompositesFor_tame (pair : Pair)
    (triggers : List TriggeredAlert) : Tame (evaluateCompositesFor analyze pair triggers) := by
  intro record
  refine recording_then trivial (fun rows => ?_) fun _ => trivial
  -- Every row of the turn comes from the answer just heard.
  refine shown_foldlM (fun row member => shown_answer member) fun triggers row later shown => ?_
  split
  · exact Safe.bind (evaluateComposite_safe inner shown) (fun _ _ _ => .done trivial) fun _ _ _ => trivial
  · exact .done trivial

omit inner in
/-- Simple alerts of a pair, over a way to their context. -/
theorem evaluateSimples_tame {context : PaTask (Option Context)} (tame : Tame context)
    (inner : ∀ pair, Tame (analyze pair)) (pair : Pair) :
    Tame ((await (.alertsBySymbol pair)).bind fun alerts =>
      (alerts.foldlM (evaluateSimple context pair) []).bind fun triggers =>
        evaluateCompositesFor analyze pair triggers) := by
  intro record
  refine recording_then trivial (fun rows => ?_) fun _ => trivial
  refine Safe.bind (shown_foldlM (fun row member => shown_answer member)
    fun triggers row later shown => evaluateSimple_safe tame pair triggers shown)
      (fun triggers later _ => evaluateCompositesFor_tame inner pair triggers later) fun _ _ _ => trivial

/-- The callback is tame, -/
theorem onAnalysisUpdated_tame (result : AnalysisResult) : Tame (onAnalysisUpdated analyze result) := by
  unfold onAnalysisUpdated
  split
  · exact tame_fail _
  refine tame_await trivial fun now => ?_
  split
  · exact tame_done _
  refine tame_bind (tame_of_readOnly (updatedContext_readOnly _ _)) fun ctx => ?_
  exact evaluateSimples_tame (tame_done _) inner _

omit inner in
/-- Analyses trigger by the rule, however deep they nest. -/
theorem analyze_tame (cfg : PaConfig) (depth : ℕ) (pair : Pair) (lookback : ℕ) :
    Tame (Rasat.analyze cfg depth pair lookback) := by
  -- By induction on the depth: a callback analyses one level deeper.
  induction depth generalizing pair lookback with
  | zero => exact tame_fail _
  | succ depth ih =>
    refine tame_bind (tame_of_market (computeAnalysis_market _ _ _)) fun result => ?_
    refine tame_bind (onAnalysisUpdated_tame (fun other => ?_) result) fun _ => tame_done _
    exact tame_bind (ih other paLookback) fun _ => tame_done _

omit inner in
/-- and so is an analysis with its callbacks, however deep, -/
theorem analyzePair_tame (cfg : PaConfig) (depth : ℕ) (pair : Pair) :
    Tame (analyzePair cfg depth pair) :=
  tame_bind (analyze_tame cfg depth pair paLookback) fun _ => tame_done _

/-- the evaluation of one symbol, -/
theorem evaluateSymbol_tame (pair : Pair) : Tame (evaluateSymbol analyze pair) :=
  evaluateSimples_tame (clauseContext_tame inner pair) inner pair

/-- a pass over all alerts -/
theorem evaluationPass_tame : Tame (evaluationPass analyze) := by
  refine tame_await trivial fun _ => tame_await trivial fun pairs => ?_
  refine tame_foldlM (fun _ pair => tame_rescue ?_ fun _ => tame_done _) _ _
  exact tame_bind (evaluateSymbol_tame inner pair) fun _ => tame_done _

/-- and a scan. -/
theorem scan_tame (node : FilterNode) (timeframe : String) : Tame (scan analyze node timeframe) := by
  refine tame_await trivial fun _ => tame_await trivial fun symbols => ?_
  refine tame_foldlM (fun reported symbol => tame_bind ?_ fun _ => tame_done _) _ _
  refine tame_await trivial fun valid => ?_
  dsimp only
  split
  · exact tame_done _
  refine tame_bind (buildContext_tame inner _ _) fun ctx => ?_
  split
  · exact tame_done _
  refine tame_await trivial fun found => ?_
  obtain ⟨ok, matched⟩ := found
  dsimp only
  split
  · split
    · exact tame_fail _
    · exact tame_await trivial fun _ => tame_done _
  · exact tame_done _

end Inner

/-- Making an alert triggers nothing. -/
theorem insertAlert_untriggering (definition : AlertDefinition) :
    (insertAlert definition).Only Untriggering :=
  only_asks trivial fun _ => only_call.mpr trivial

/-- Every call triggers by the rule. -/
theorem paCall_tame (cfg : PaConfig) (call : PaCall) : Tame (call.program cfg) := by
  have discarded {α : Type} {program : PaTask α} (tame : Tame program) : Tame (discard program) :=
    tame_bind tame fun _ => tame_done _
  cases call with
  | analyze pair lookback => exact discarded (analyze_tame cfg _ pair lookback)
  | evaluationPass => exact evaluationPass_tame (analyzePair_tame cfg _)
  | scan node timeframe => exact discarded (scan_tame (analyzePair_tame cfg _) node timeframe)
  | createAlert pair condition cooldownSeconds note orderSpec =>
    refine discarded (tame_of_only ?_)
    refine only_bind only_ofExcept fun _ => only_bind only_ofExcept fun _ => ?_
    refine only_bind only_ofExcept fun _ => only_bind only_ofExcept fun _ => ?_
    exact insertAlert_untriggering _
  | createCompositeAlert combine clauses cooldownSeconds note =>
    refine discarded (tame_of_only ?_)
    unfold createCompositeAlert
    split
    · exact only_fail
    · refine only_bind only_ofExcept fun _ => only_bind only_ofExcept fun _ => ?_
      exact insertAlert_untriggering _
  | deleteAlert alertId =>
    refine discarded (tame_of_only (only_bind only_ofExcept fun _ => ?_))
    refine only_asks trivial fun removed => ?_
    split
    · exact only_fail
    · exact only_done
  | feed change => exact tame_of_only (only_call.mpr trivial)
  | settle orderId status entry => exact tame_of_only (only_call.mpr trivial)

end Rasat
