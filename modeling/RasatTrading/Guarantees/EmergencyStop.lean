import Mathlib.Data.List.Dedup
import RasatTrading.Coop.Outcome
import RasatTrading.Document.Canonical
import RasatTrading.Emergency.Stop
import RasatTrading.Guarantees.Runs

/-! What a good report of the emergency stop stands for: every order cancelled, every asset sold. -/

namespace Rasat

open Coop Document Reaches

seal Prog.Only

variable {svc : StopService} {accountId : String}

/-- What one run of the emergency stop asked and heard, newest first. -/
abbrev StopHist := Hist StopReq StopReq.Ans Exc

/-- The open orders of the symbol were cancelled in this run. -/
def CancelledNow (hist : StopHist) (accountId symbol : String) : Prop :=
  ∃ count, (⟨.cancelAll accountId symbol, .ok count⟩ : Event StopReq StopReq.Ans Exc) ∈ hist

/-- The log had an emergency cancellation under this key. -/
def LoggedKey (hist : StopHist) (key : String) : Prop :=
  ∃ rows, (⟨.entries, .ok rows⟩ : Event StopReq StopReq.Ans Exc) ∈ hist ∧
    isActionDone cancelLogAction key rows = .ok true

/-- A SELL of this quantity was submitted in this run and reported FILLED. -/
def SoldFilled (hist : StopHist) (accountId symbol : String) (quantity : ℚ) : Prop :=
  ∃ cid result, (⟨.sell accountId symbol quantity cid, .ok result⟩ : Event StopReq StopReq.Ans Exc) ∈ hist ∧
    result.status = .filled

/-- The symbol was cancelled in this run, or each of its orders had been logged as cancelled. -/
def Cleared (accountId : String) (group : String × List ExchangeOrder) (hist : StopHist) : Prop :=
  CancelledNow hist accountId group.1 ∨
    ∀ order ∈ group.2, LoggedKey hist (cancelKey accountId group.1 order)

/-- The asset, when there is any of it to sell, is in the plan with its rounded balance. -/
def InPlan (svc : StopService) (entry : String × ℚ) (planned : Planned) (hist : StopHist) : Prop :=
  entry.1 ≠ svc.quoteAsset → 0 < entry.2 → ∃ filters item,
    (⟨.filters (entry.1 ++ svc.quoteAsset), .ok (some filters)⟩ : Event StopReq StopReq.Ans Exc) ∈ hist ∧
      item ∈ planned.plan ∧ item.symbol = entry.1 ++ svc.quoteAsset ∧
        item.quantity = roundDownToStep entry.2 filters.stepSize

/-- A later history knows what an earlier one did. -/
theorem Cleared.mono {group : String × List ExchangeOrder} {hist seen : StopHist}
    (grown : hist <:+ seen) (cleared : Cleared accountId group hist) : Cleared accountId group seen := by
  rcases cleared with ⟨count, member⟩ | logged
  · exact .inl ⟨count, grown.subset member⟩
  · refine .inr fun order listed => ?_
    obtain ⟨rows, member, done⟩ := logged order listed
    exact ⟨rows, grown.subset member, done⟩

/-- Keys that all count as logged were found in the log. -/
theorem allLogged_true {keys : List String} {hist seen : StopHist}
    (reached : Reaches (allLogged keys) hist (.done true) seen) : ∀ key ∈ keys, LoggedKey seen key := by
  induction keys generalizing hist with
  | nil => exact fun _ member => absurd member List.not_mem_nil
  | cons key rest ih =>
    simp only [allLogged, stopAsk, Prog.bind_eq, Prog.pure_eq] at reached
    obtain ⟨rows, middle, asked, later⟩ := of_bind reached
    obtain ⟨done, after, looked, last⟩ := of_bind later
    obtain ⟨found, rfl⟩ := of_ofExcept looked
    have read := of_call asked
    cases done with
    | false => cases (of_done last).1
    | true =>
      rw [if_pos rfl] at last
      intro other member
      rcases List.mem_cons.mp member with rfl | listed
      · exact ⟨rows, last.suffix.subset (read ▸ List.mem_cons_self), found⟩
      · exact ih last other listed

variable {before later : StopHist}

/-- A symbol that leaves no error is cleared. -/
theorem cancelSymbol_turn {state after : Cancels} {group : String × List ExchangeOrder}
    (reached : Reaches (cancelSymbol accountId false state group) before (.done after) later)
    (fine : after.errors = []) :
    state.errors = [] ∧ Cleared accountId group later ∧
      ∀ other, Cleared accountId other before → Cleared accountId other later := by
  refine ⟨?_, ?_, fun other cleared => cleared.mono reached.suffix⟩ <;>
    simp only [cancelSymbol, stopAsk, Prog.bind_eq, Prog.pure_eq, Bool.false_eq_true, if_false] at reached <;>
    obtain ⟨logged, middle, looked, rest⟩ := of_bind reached
  · cases logged with
    | true =>
      rw [if_pos rfl] at rest
      obtain ⟨same, -⟩ := of_done rest
      cases same
      exact fine
    | false =>
      rw [if_neg Bool.false_ne_true] at rest
      obtain ⟨outcome, asked, cancelled, last⟩ := of_bind rest
      cases outcome with
      | ok count =>
        obtain ⟨done, logs, -, end_⟩ := of_bind last
        obtain ⟨same, -⟩ := of_done end_
        cases same
        exact fine
      -- An error of the daemon is noted, and the turn would not be fine.
      | error raised =>
        cases raised with
        | rasat error =>
          obtain ⟨same, -⟩ := of_done last
          cases same
          simp at fine
        | _ => exact fail_done last
  · cases logged with
    | true =>
      rw [if_pos rfl] at rest
      obtain ⟨-, rfl⟩ := of_done rest
      refine .inr fun order listed => ?_
      exact allLogged_true looked _ (List.mem_map_of_mem listed)
    | false =>
      rw [if_neg Bool.false_ne_true] at rest
      obtain ⟨outcome, asked, cancelled, last⟩ := of_bind rest
      cases outcome with
      | ok count =>
        refine .inl ⟨count, last.suffix.subset ?_⟩
        rw [of_attempt_call cancelled]
        exact List.mem_cons_self
      | error raised =>
        cases raised with
        | rasat error =>
          obtain ⟨same, -⟩ := of_done last
          cases same
          simp at fine
        | _ => exact fail_done last

/-- An asset that leaves no error is in the plan, or nothing of it is to be sold. -/
theorem planAsset_turn {planned after : Planned} {entry : String × ℚ}
    (reached : Reaches (planAsset svc planned entry) before (.done after) later)
    (fine : after.priceErrors = [] ∧ after.filterErrors = []) :
    (planned.priceErrors = [] ∧ planned.filterErrors = []) ∧ InPlan svc entry after later ∧
      ∀ other, InPlan svc other planned before → InPlan svc other after later := by
  have grown := reached.suffix
  -- A longer plan and a longer history know no less.
  have keeps {longer : Planned} (more : planned.plan ⊆ longer.plan) :
      ∀ other, InPlan svc other planned before → InPlan svc other longer later := by
    intro other listed apart positive
    obtain ⟨filters, item, read, member, facts⟩ := listed apart positive
    exact ⟨filters, item, grown.subset read, more member, facts⟩
  unfold planAsset at reached
  by_cases skip : entry.1 = svc.quoteAsset ∨ entry.2 ≤ 0
  · rw [if_pos skip] at reached
    obtain ⟨same, -⟩ := of_done reached
    cases same
    refine ⟨fine, fun apart positive => ?_, keeps (List.Subset.refl _)⟩
    rcases skip with same | none
    · exact absurd same apart
    · exact absurd positive (not_lt.mpr none)
  rw [if_neg skip] at reached
  simp only [stopAsk, Prog.bind_eq, Prog.pure_eq] at reached
  obtain ⟨answer, middle, asked, rest⟩ := of_bind reached
  cases answer with
  | none =>
    obtain ⟨same, -⟩ := of_done rest
    cases same
    simp [Planned.reject] at fine
  | some filters =>
    have read := of_call asked
    dsimp only at rest
    split at rest
    · obtain ⟨same, -⟩ := of_done rest
      cases same
      simp [Planned.reject] at fine
    · obtain ⟨outcome, priced, -, last⟩ := of_bind rest
      cases outcome with
      | error raised =>
        cases raised with
        | rasat error =>
          obtain ⟨same, -⟩ := of_done last
          cases same
          simp at fine
        | _ => exact fail_done last
      | ok price =>
        dsimp only at last
        split at last
        · obtain ⟨same, -⟩ := of_done last
          cases same
          simp [Planned.reject] at fine
        · obtain ⟨same, -⟩ := of_done last
          cases same
          refine ⟨fine, fun _ _ => ⟨filters, _, ?_, List.mem_append_right _ List.mem_cons_self, rfl, rfl⟩,
            keeps (List.subset_append_left _ _)⟩
          exact rest.suffix.subset (read ▸ List.mem_cons_self)

variable {runNonce : String} {item : PlanItem}

/-- A new sale that is reported FILLED was submitted and filled. -/
theorem sellNew_filled {sale : StopSale}
    (reached : Reaches (sellNew svc accountId runNonce item) before (.done sale) later)
    (filled : sale.status.isDone) : SoldFilled later accountId item.symbol item.quantity := by
  simp only [sellNew, Prog.bind_eq, Prog.pure_eq] at reached
  obtain ⟨outcome, middle, attempted, last⟩ := of_bind reached
  cases outcome with
  | error raised =>
    cases raised with
    | rasat error =>
      obtain ⟨same, -⟩ := of_done last
      cases same
      cases filled
    | _ => exact fail_done last
  | ok found =>
    obtain ⟨same, rfl⟩ := of_done last
    cases same
    have ran := of_attempt attempted
    simp only [sellAndLog, stopAsk, Prog.bind_eq, Prog.pure_eq] at ran
    obtain ⟨result, sent, submitted, rest⟩ := of_bind ran
    obtain ⟨done, logged, -, end_⟩ := of_bind rest
    obtain ⟨same, rfl⟩ := of_done end_
    cases same
    refine ⟨_, result, rest.suffix.subset (of_call submitted ▸ List.mem_cons_self), ?_⟩
    simpa [markSell, SaleStatus.isDone] using filled

/-- The report of one planned sale is one of a new sale, or that of an unconfirmed earlier one. -/
theorem sellPlanned_cases {sold after : List StopSale}
    (reached : Reaches (sellPlanned svc accountId false runNonce sold item) before (.done after) later) :
    ∃ sale, after = sold ++ [sale] ∧
      (sale.status.isPending ∨ ∃ middle, Reaches (sellNew svc accountId runNonce item) middle (.done sale) later) := by
  -- Every path that does not look up an earlier sale, or does not find it open, sells anew.
  have anew {middle : StopHist}
      (rest : Reaches ((sellNew svc accountId runNonce item).bind fun sale => .done (sold ++ [sale])) middle
        (.done after) later) : ∃ sale, after = sold ++ [sale] ∧
      (sale.status.isPending ∨ ∃ middle, Reaches (sellNew svc accountId runNonce item) middle (.done sale) later) := by
    obtain ⟨sale, done, ran, end_⟩ := of_bind rest
    obtain ⟨same, rfl⟩ := of_done end_
    cases same
    exact ⟨sale, rfl, .inr ⟨middle, ran⟩⟩
  simp only [sellPlanned, stopAsk, Prog.bind_eq, Prog.pure_eq, Bool.false_eq_true, if_false] at reached
  obtain ⟨rows, read, -, rest⟩ := of_bind reached
  obtain ⟨prior, looked, -, rest⟩ := of_bind rest
  split at rest
  · split at rest
    · obtain ⟨cid, named, -, rest⟩ := of_bind rest
      obtain ⟨found, queried, -, rest⟩ := of_bind rest
      cases found with
      | none => exact anew rest
      | some result =>
        dsimp only at rest
        by_cases live : result.status.isOpen
        · rw [if_pos live] at rest
          obtain ⟨same, rfl⟩ := of_done rest
          cases same
          exact ⟨_, rfl, .inl live⟩
        · rw [if_neg live] at rest
          exact anew rest
    · exact anew rest
  · exact anew rest

/-- A pending sale is not done. -/
theorem pending_undone {status : SaleStatus} (pending : status.isPending) : status.isDone = false := by
  cases status with
  | dryRun => cases pending
  | failed => cases pending
  | exchange inner => cases inner <;> first | rfl | cases pending

/-- When all sales are done, this one was submitted and filled. -/
theorem sellPlanned_turn {sold after : List StopSale}
    (reached : Reaches (sellPlanned svc accountId false runNonce sold item) before (.done after) later)
    (fine : after.all fun sale => sale.status.isDone) :
    (sold.all fun sale => sale.status.isDone) ∧ SoldFilled later accountId item.symbol item.quantity ∧
      ∀ other : PlanItem, SoldFilled before accountId other.symbol other.quantity →
        SoldFilled later accountId other.symbol other.quantity := by
  obtain ⟨sale, rfl, own⟩ := sellPlanned_cases reached
  simp only [List.all_append, List.all_cons, List.all_nil, Bool.and_true, Bool.and_eq_true] at fine
  refine ⟨fine.1, ?_, ?_⟩
  · rcases own with pending | ⟨middle, ran⟩
    · rw [pending_undone pending] at fine
      exact absurd fine.2 Bool.false_ne_true
    · exact sellNew_filled ran fine.2
  · rintro other ⟨cid, result, member, filled⟩
    exact ⟨cid, result, reached.suffix.subset member, filled⟩

/-- The requests that cancel orders, plan the sales and have them confirmed. -/
def StopReq.isPreparing : StopReq → Prop
  | .cancelAll _ _ | .filters _ | .price _ | .confirm _ _ | .nonce | .entries => True
  | .append action details => action = cancelLogAction ∧ ∃ accountId symbol key count,
      details = cancelDetails accountId symbol key count
  | _ => False

/-- A request that reads neither the open orders nor the balances. -/
def StopReq.isQuiet : StopReq → Prop
  | .openOrders _ | .balances _ => False
  | _ => True

theorem quiet_of_preparing (request : StopReq) (prepares : request.isPreparing) : request.isQuiet := by
  cases request with
  | openOrders _ | balances _ => exact prepares.elim
  | _ => trivial

theorem allLogged_prepares (keys : List String) : (allLogged keys).Only StopReq.isPreparing := by
  induction keys with
  | nil => exact Prog.only_done
  | cons key rest ih =>
    refine Prog.only_bind (Prog.only_call.mpr trivial) fun rows => ?_
    refine Prog.only_bind Prog.only_ofExcept fun done => ?_
    cases done with
    | true => exact ih
    | false => exact Prog.only_done

theorem logCancels_prepares (symbol : String) (count : ℤ) (keys : List String) :
    (logCancels accountId symbol count keys).Only StopReq.isPreparing := by
  induction keys with
  | nil => exact Prog.only_done
  | cons key rest ih => exact Prog.only_bind (Prog.only_call.mpr ⟨rfl, accountId, symbol, key, count, rfl⟩) fun _ => ih

theorem cancelSymbol_prepares (dryRun : Bool) (state : Cancels) (group : String × List ExchangeOrder) :
    (cancelSymbol accountId dryRun state group).Only StopReq.isPreparing := by
  unfold cancelSymbol
  split
  · exact Prog.only_done
  refine Prog.only_bind (allLogged_prepares _) fun logged => ?_
  split
  · exact Prog.only_done
  refine Prog.only_bind (Prog.only_attempt (Prog.only_call.mpr trivial)) fun outcome => ?_
  split
  · exact Prog.only_done
  · exact Prog.only_fail
  · exact Prog.only_bind (logCancels_prepares _ _ _) fun _ => Prog.only_done

theorem planAsset_prepares (planned : Planned) (entry : String × ℚ) :
    (planAsset svc planned entry).Only StopReq.isPreparing := by
  unfold planAsset
  split
  · exact Prog.only_done
  refine Prog.only_bind (Prog.only_call.mpr trivial) fun answer => ?_
  split
  · exact Prog.only_done
  dsimp only
  split
  · exact Prog.only_done
  refine Prog.only_bind (Prog.only_attempt ?_) fun outcome => ?_
  · refine Prog.only_bind (Prog.only_call.mpr trivial) fun price => ?_
    split
    · exact Prog.only_fail
    · exact Prog.only_done
  split
  · exact Prog.only_done
  · exact Prog.only_fail
  · split <;> exact Prog.only_done

theorem confirmPlan_prepares (yes dryRun : Bool) (plan : List PlanItem) :
    (confirmPlan svc accountId yes dryRun plan).Only StopReq.isPreparing := by
  unfold confirmPlan
  split
  · exact Prog.only_done
  refine Prog.only_bind (Prog.only_call.mpr trivial) fun answer => ?_
  split
  · exact Prog.only_done
  · split <;> exact Prog.only_done

theorem sellNew_quiet (runNonce : String) (item : PlanItem) :
    (sellNew svc accountId runNonce item).Only StopReq.isQuiet := by
  refine Prog.only_bind (Prog.only_attempt ?_) fun outcome => ?_
  · refine Prog.only_bind (Prog.only_call.mpr trivial) fun result => ?_
    exact Prog.only_bind (Prog.only_call.mpr trivial) fun _ => Prog.only_done
  · split
    · exact Prog.only_done
    · exact Prog.only_done
    · exact Prog.only_fail

theorem sellPlanned_quiet (dryRun : Bool) (runNonce : String) (sold : List StopSale) (item : PlanItem) :
    (sellPlanned svc accountId dryRun runNonce sold item).Only StopReq.isQuiet := by
  have anew : ((sellNew svc accountId runNonce item).bind fun sale =>
      .done (sold ++ [sale])).Only StopReq.isQuiet :=
    Prog.only_bind (sellNew_quiet runNonce item) fun _ => Prog.only_done
  unfold sellPlanned
  split
  · exact Prog.only_done
  refine Prog.only_bind (Prog.only_call.mpr trivial) fun rows => ?_
  refine Prog.only_bind Prog.only_ofExcept fun prior => ?_
  split
  · split
    · refine Prog.only_bind Prog.only_ofExcept fun cid => ?_
      refine Prog.only_bind (Prog.only_bind (Prog.only_attempt (Prog.only_call.mpr trivial)) fun _ => ?_)
        fun found => ?_
      · split
        · exact Prog.only_done
        · exact Prog.only_done
        · exact Prog.only_fail
      · split
        · split
          · exact Prog.only_done
          · exact anew
        · exact anew
    · exact anew
  · exact anew

theorem sellPlan_quiet (yes dryRun : Bool) (cancels : Cancels) (planned : Planned) :
    (sellPlan svc accountId yes dryRun cancels planned).Only StopReq.isQuiet := by
  refine Prog.only_bind ((confirmPlan_prepares yes dryRun _).mono quiet_of_preparing) fun ended => ?_
  split
  · exact Prog.only_done
  refine Prog.only_bind (Prog.only_call.mpr trivial) fun runNonce => ?_
  exact Prog.only_bind (Prog.only_foldlM (sellPlanned_quiet dryRun runNonce) _ _) fun _ => Prog.only_done

/-- What a quiet part adds to a history reads neither the open orders nor the balances. -/
theorem quiet_adds {α : Type} {program : StopTask α} {value : α}
    (reached : Reaches program before (.done value) later) (quiet : program.Only StopReq.isQuiet) :
    ∃ events, later = events ++ before ∧
      ∀ event ∈ events, StopReq.isQuiet event.request := by
  obtain ⟨events, same, kinds, -⟩ := reached.only quiet
  exact ⟨events, same, kinds⟩

/-- The order of an open order's symbol is among the groups, with all orders of the symbol. -/
theorem mem_bySymbol {orders : List ExchangeOrder} {order : ExchangeOrder} (listed : order ∈ orders) :
    (order.symbol, orders.filter fun other => other.symbol = order.symbol) ∈ bySymbol orders := by
  refine List.mem_map.mpr ⟨order.symbol, ?_, rfl⟩
  rw [List.mem_insertionSort, List.mem_dedup]
  exact List.mem_map_of_mem listed

/-- A good report of the sales needs good cancellations and a good plan, and sold everything planned. -/
theorem sellPlan_ok {yes : Bool} {cancels : Cancels} {planned : Planned} {result : StopResult}
    (reached : Reaches (sellPlan svc accountId yes false cancels planned) before (.done result) later)
    (fine : result.ok) :
    cancels.errors = [] ∧ (planned.priceErrors = [] ∧ planned.filterErrors = []) ∧
      ∀ item ∈ planned.plan, SoldFilled later accountId item.symbol item.quantity := by
  simp only [sellPlan, stopAsk, Prog.bind_eq, Prog.pure_eq] at reached
  obtain ⟨ended, middle, confirmed, rest⟩ := of_bind reached
  cases ended with
  | some early =>
    -- An early end is never a good report.
    obtain ⟨same, rfl⟩ := of_done rest
    cases same
    unfold confirmPlan at confirmed
    split at confirmed
    · cases (of_done confirmed).1
    simp only [stopAsk, Prog.bind_eq, Prog.pure_eq] at confirmed
    obtain ⟨answer, asked, -, last⟩ := of_bind confirmed
    cases answer with
    | none =>
      obtain ⟨same, -⟩ := of_done last
      cases same
      cases fine
    | some text =>
      dsimp only at last
      split at last
      · cases (of_done last).1
      · obtain ⟨same, -⟩ := of_done last
        cases same
        cases fine
  | none =>
    obtain ⟨runNonce, named, -, rest⟩ := of_bind rest
    obtain ⟨sold, done, looped, end_⟩ := of_bind rest
    obtain ⟨same, rfl⟩ := of_done end_
    cases same
    simp only [stopReport, Bool.and_eq_true, List.isEmpty_iff] at fine
    obtain ⟨⟨⟨prices, filters⟩, cancels⟩, sales⟩ := fine
    have facts := (of_foldlM (fun sold : List StopSale => sold.all fun sale => sale.status.isDone)
      (fun (item : PlanItem) _ hist => SoldFilled hist accountId item.symbol item.quantity)
      (fun state item after before later turn fine => sellPlanned_turn turn fine) looped sales).2.1
    exact ⟨cancels, ⟨prices, filters⟩, facts⟩

/-- For every answer of the exchange, the log and the operator: when a stop that is no dry run reports ok,
every symbol of the open orders it read was cancelled in this run, or each of its orders had been logged as
cancelled, and every asset it read but the quote asset was sold in this run, rounded, and filled. -/
theorem stop_ok_sound (svc : StopService) (accountId : String) (yes : Bool) (result : StopResult)
    (hist : StopHist) (reached : Reaches (stopOne svc accountId yes false) [] (.done result) hist)
    (fine : result.ok) :
    (∀ orders, (⟨.openOrders accountId, .ok orders⟩ : Event StopReq StopReq.Ans Exc) ∈ hist →
      ∀ order ∈ orders, CancelledNow hist accountId order.symbol ∨
        ∀ other ∈ orders, other.symbol = order.symbol →
          LoggedKey hist (cancelKey accountId order.symbol other)) ∧
    ∀ balances, (⟨.balances accountId, .ok balances⟩ : Event StopReq StopReq.Ans Exc) ∈ hist →
      ∀ entry ∈ balances, entry.1 ≠ svc.quoteAsset → 0 < entry.2 → ∃ filters,
        (⟨.filters (entry.1 ++ svc.quoteAsset), .ok (some filters)⟩ :
            Event StopReq StopReq.Ans Exc) ∈ hist ∧
          SoldFilled hist accountId (entry.1 ++ svc.quoteAsset)
            (roundDownToStep entry.2 filters.stepSize) := by
  simp only [stopOne, stopAsk, Prog.bind_eq, Prog.pure_eq] at reached
  obtain ⟨outcome, checked, known, rest⟩ := of_bind reached
  have first := of_attempt_call known
  cases outcome with
  | error raised =>
    cases raised with
    | rasat error =>
      dsimp only at rest
      split at rest
      · obtain ⟨same, -⟩ := of_done rest
        cases same
        cases fine
      · exact fail_done rest
    | _ => exact fail_done rest
  | ok done =>
    simp only [stopAccount, stopAsk, Prog.bind_eq] at rest
    obtain ⟨orders, listed, asked, rest⟩ := of_bind rest
    obtain ⟨cancels, cleared, cancelling, rest⟩ := of_bind rest
    obtain ⟨balances, held, weighed, rest⟩ := of_bind rest
    obtain ⟨planned, laid, planning, selling⟩ := of_bind rest
    obtain ⟨noErrors, good, sales⟩ := sellPlan_ok selling fine
    have symbols := (of_foldlM (fun state : Cancels => state.errors = [])
      (fun group _ hist => Cleared accountId group hist)
      (fun state item after before later turn fine => cancelSymbol_turn turn fine) cancelling noErrors).2.1
    have assets := (of_foldlM
      (fun state : Planned => state.priceErrors = [] ∧ state.filterErrors = [])
      (InPlan svc)
      (fun state item after before later turn fine => planAsset_turn turn fine) planning good).2.1
    -- The open orders and the balances are read once each.
    obtain ⟨cancelEvents, cancelled, cancelQuiet⟩ :=
      quiet_adds cancelling ((Prog.only_foldlM (cancelSymbol_prepares false) _ _).mono quiet_of_preparing)
    obtain ⟨planEvents, planned', planQuiet⟩ := quiet_adds planning
      ((Prog.only_foldlM planAsset_prepares _ _).mono quiet_of_preparing)
    obtain ⟨sellEvents, sold, sellQuiet⟩ := quiet_adds selling (sellPlan_quiet _ _ _ _)
    have whole : hist = sellEvents ++ (planEvents ++ (⟨.balances accountId, .ok balances⟩ ::
        (cancelEvents ++ (⟨.openOrders accountId, .ok orders⟩ ::
          [⟨.credentials accountId, .ok done⟩])))) := by
      rw [sold, planned', of_call weighed, cancelled, of_call asked, first]
    constructor
    · intro read member order present
      have same : read = orders := by
        rw [whole] at member
        simp only [List.mem_append, List.mem_cons, List.not_mem_nil, or_false] at member
        rcases member with event | event | event | event | event | event
        · exact (sellQuiet _ event).elim
        · exact (planQuiet _ event).elim
        · cases event
        · exact (cancelQuiet _ event).elim
        · cases event
          rfl
        · cases event
      subst same
      have grown : cleared <:+ hist := weighed.suffix.trans (planning.suffix.trans selling.suffix)
      rcases (symbols _ (mem_bySymbol present)).mono grown with now | logged
      · exact .inl now
      · exact .inr fun other listed same => logged other (List.mem_filter.mpr ⟨listed, by simpa using same⟩)
    · intro read member entry present apart positive
      have same : read = balances := by
        rw [whole] at member
        simp only [List.mem_append, List.mem_cons, List.not_mem_nil, or_false] at member
        rcases member with event | event | event | event | event | event
        · exact (sellQuiet _ event).elim
        · exact (planQuiet _ event).elim
        · cases event
          rfl
        · exact (cancelQuiet _ event).elim
        · cases event
        · cases event
      subst same
      obtain ⟨filters, item, asked, planned, symbol, quantity⟩ := assets entry present apart positive
      refine ⟨filters, selling.suffix.subset asked, ?_⟩
      rw [← symbol, ← quantity]
      exact sales item planned

/-- Renderings for examples. -/
def plainStop : StopService where
  text := plainText
  general6 := plainText.float
  general4 := plainText.float

/-- An order that stays on the exchange. -/
def stuckOrder : ExchangeOrder where
  symbol := "BTCUSDT"
  orderId := some "7"
  clientOrderId := some "c1"

/-- The row of its earlier cancellation. -/
def stuckRow : Document := .object [(.text "action", .text cancelLogAction),
  (.text "details", json (.dict (cancelDetails "main" "BTCUSDT" "main:BTCUSDT:c1" 1)))]

/-- An exchange that still lists the order, which the log has as cancelled; nothing is held. -/
def stuckAnswers : (request : StopReq) → Except Exc request.Ans
  | .credentials _ => .ok ()
  | .openOrders _ => .ok [stuckOrder]
  | .balances _ => .ok []
  | .nonce => .ok "00000000"
  | .entries => .ok [stuckRow]
  | _ => .error (.other "not asked")

/-- What the stop of the account comes to. -/
def stuckRun : List (Event StopReq StopReq.Ans Exc) × Except Exc StopResult :=
  (stopOne plainStop "main" true false).replay stuckAnswers

/-- The run that is reported ok, with everything it asked. -/
theorem stuckRun_reached : ∃ result, result.ok = true ∧
    Reaches (stopOne plainStop "main" true false) [] (.done result) stuckRun.1.reverse := by
  have reached := Prog.replay_reaches stuckAnswers (stopOne plainStop "main" true false) []
  rw [List.append_nil] at reached
  exact ⟨_, by decide +kernel, reached⟩

/-- The rule applied to that run: its order had been logged as cancelled. -/
theorem stuck_order_logged :
    ∃ result, result.ok = true ∧
      Reaches (stopOne plainStop "main" true false) [] (.done result) stuckRun.1.reverse ∧
        ∀ orders, (⟨.openOrders "main", .ok orders⟩ : Event StopReq StopReq.Ans Exc) ∈ stuckRun.1.reverse →
          ∀ order ∈ orders, CancelledNow stuckRun.1.reverse "main" order.symbol ∨
            ∀ other ∈ orders, other.symbol = order.symbol →
              LoggedKey stuckRun.1.reverse (cancelKey "main" order.symbol other) := by
  obtain ⟨result, fine, reached⟩ := stuckRun_reached
  exact ⟨result, fine, reached, (stop_ok_sound plainStop "main" true result _ reached fine).1⟩

/-- An ok report does not mean that the open orders were cancelled in the run. -/
theorem stuck_order_kept :
    ¬∀ (svc : StopService) (accountId : String) (yes : Bool) (result : StopResult) (hist : StopHist),
      Reaches (stopOne svc accountId yes false) [] (.done result) hist → result.ok →
        (∀ orders, (⟨.openOrders accountId, .ok orders⟩ : Event StopReq StopReq.Ans Exc) ∈ hist →
          ∀ order ∈ orders, CancelledNow hist accountId order.symbol) ∧
        ∀ balances, (⟨.balances accountId, .ok balances⟩ : Event StopReq StopReq.Ans Exc) ∈ hist →
          ∀ entry ∈ balances, entry.1 ≠ svc.quoteAsset → 0 < entry.2 → ∃ filters,
            (⟨.filters (entry.1 ++ svc.quoteAsset), .ok (some filters)⟩ :
                Event StopReq StopReq.Ans Exc) ∈ hist ∧
              SoldFilled hist accountId (entry.1 ++ svc.quoteAsset)
                (roundDownToStep entry.2 filters.stepSize) := by
  intro claimed
  obtain ⟨result, fine, reached⟩ := stuckRun_reached
  have listed : stuckRun.1.any fun event => match event.request with
      | .openOrders accountId => accountId = "main"
      | _ => false := by decide +kernel
  have kept : stuckRun.1.all fun event => match event.request with
      | .cancelAll _ _ => false
      | _ => true := by decide +kernel
  obtain ⟨event, member, asked⟩ := List.any_eq_true.mp listed
  have answered := Prog.replay_answers member
  obtain ⟨request, answer⟩ := event
  cases request with
  | openOrders accountId =>
    obtain rfl : accountId = "main" := by simpa using asked
    obtain ⟨count, cancelled⟩ := (claimed plainStop "main" true result _ reached fine).1 [stuckOrder]
      (List.mem_reverse.mpr (answered ▸ member)) stuckOrder List.mem_cons_self
    exact absurd (List.all_eq_true.mp kept _ (List.mem_reverse.mp cancelled)) Bool.false_ne_true
  | _ => cases asked

end Rasat
