import RasatTrading.Guarantees.Rows

/-! When the kill switch may sell a symbol again: every earlier close SELL of it is accounted for. -/

namespace Rasat

open Coop

variable {svc : Service} {db : Database} {s : State}

/-- While the kill switch submits a SELL, the broker has told in this very call that every other close SELL of
the account and symbol that is stored open has ended without a fill or does not exist. -/
def SoldOnce (s : State) : Prop :=
  ∀ task accountId actor order next, s.calls task = some (.closeAllPositions accountId actor) →
    s.tasks task = some (.ask (.broker (.placeOrder order)) next) →
      ∃ own, JustStored (s.hist task) own ∧ ∀ other ∈ s.world.db.orders,
        isOpenClose order.accountId order.symbol other → other.orderId ≠ own.orderId →
          Excused (s.hist task) other

/-- In every run in which no lookup of an earlier close SELL raises a canonical error, and none rules its order
out while another one is stored open, the kill switch sells a symbol once. -/
theorem sold_once (formed : db.WellFormed) (reached : ReachedCalmly svc db s) : SoldOnce s := by
  intro task accountId actor order next called selling
  have everywhere : Reached svc db s := Machine.Steps.mono (fun _ _ _ => trivial) reached
  obtain ⟨known, truth, sure, holds, -, own, armed, accounted⟩ :=
    asking_permitted (reached.represented formed) selling
  obtain ⟨draft, audit, rest, newest, owner, -⟩ := armed
  have stored : JustStored (s.hist task) own := ⟨draft, audit, rest, truth.hist ▸ newest⟩
  refine ⟨own, stored, fun other member open_ differ => ?_⟩
  -- The row was inserted under the account's lock, so the task has all of the account's rows in view.
  have mine : own.accountId = order.accountId := by
    obtain ⟨shape, -⟩ := everywhere.insertedStored formed _ _ _ _ _
      (mem_trace_of_hist (truth.hist ▸ newest ▸ List.mem_cons_self))
    rw [shape]
    exact owner
  have locked : s.world.locks order.accountId = some task :=
    mine ▸ everywhere.storedUnderLock formed task _ next own selling stored
  have view := holds.under_lock locked
  have listed : other ∈ ofAccount order.accountId s.world.db.orders := by
    simp only [isOpenClose, decide_eq_true_eq] at open_
    simpa [ofAccount] using And.intro member open_.1
  have closes : ∃ call, known.call = some call ∧ call.isClose :=
    ⟨_, truth.call.trans called, rfl⟩
  rcases accounted closes _ other view listed open_ differ with doubt | excused
  · exact absurd doubt (sure trivial)
  · exact truth.hist ▸ excused

/-- A move that settles nothing wrongly: an earlier close SELL is found by its lookup or is the only open one. -/
def settlesCheck (s : State) : Move Choice Call → Bool
  | .resume task choice =>
    match s.tasks task with
    | some (.ask (.broker (.queryOrder accountId symbol _)) _) =>
      match s.hist task with
      | ⟨.read (.openClose _ _), .ok (some row)⟩ :: _ =>
        choice.fault.isNone && s.world.db.orders.all fun other =>
          !isOpenClose accountId symbol other || other.orderId = row.orderId
      | _ => true
    | _ => true
  | _ => true

theorem settlesCheck_spec {s : State} {move : Move Choice Call} (checked : settlesCheck s move) :
    ¬Unsettling s move := by
  cases move with
  | resume task choice =>
    rintro ⟨request, next, answer, world, running, performed, doubt⟩
    -- Only the lookup right after the read of the earlier close SELL can be in doubt.
    cases request with
    | broker call =>
      cases call with
      | queryOrder accountId symbol clientOrderId =>
        obtain ⟨row, rest, newest, -, doubtful⟩ := doubt
        simp only [settlesCheck, running, newest, Bool.and_eq_true, Option.isNone_iff_eq_none,
          List.all_eq_true, Bool.or_eq_true, Bool.not_eq_true', decide_eq_true_eq] at checked
        obtain ⟨calm, only⟩ := checked
        cases performed
        simp only [Choice.broker, calm, orFault, Option.elim_none] at doubtful
        obtain ⟨-, other, member, open_, differ⟩ := doubtful
        rcases only other member with closed | same
        · rw [open_] at closed
          cases closed
        · exact differ same
      | _ => exact doubt
    | _ => exact doubt
  | _ => exact id

/-- The digests of the keys of two close SELLs. -/
def closeText : Text := { plainText with
  sha1Hex := fun key =>
    if key = "close-main-BTCUSDT-1.0-000000000000" then "592966e048282bea549468cfdff4a8efd47a0de6"
    else "68cb03b8f057b04ce8f814682e839235114ff3b5" }

/-- The service of these digests. -/
def closeDemo : Service := { text := closeText }

/-- The account holds one coin. -/
def oneCoin : Choice := { calmDay with balances := [("BTC", 1)] }

/-- The same with a fresh id. -/
def oneCoinLater : Choice := { oneCoin with uuid := 2 ^ 80 }

/-- The broker does not answer in time. -/
def unanswered : Choice := { oneCoin with fault := some (.rasat ⟨.timeout, "request timed out"⟩) }

/-- The kill switch sells the coin, and neither the sale nor its lookup is answered. -/
def unansweredSale : List (Move Choice Call) :=
  booted ++ .open (.closeAllPositions (.text "main") "mcp-agent") ::
    answers 1 (List.replicate 12 oneCoin ++ [unanswered, unanswered, oneCoin, oneCoin])

/-- The kill switch again, up to the lookup of that sale and the next one. -/
def secondSale (lookup : Choice) : List (Move Choice Call) :=
  unansweredSale ++ .open (.closeAllPositions (.text "main") "mcp-agent") ::
    answers 2 (List.replicate 11 oneCoinLater ++ [lookup, oneCoinLater])

/-- A task submits an order of this account and symbol. -/
def sells (s : State) (task : Nat) (accountId symbol : String) : Bool :=
  match s.tasks task with
  | some (.ask (.broker (.placeOrder order)) _) => order.accountId = accountId ∧ order.symbol = symbol
  | _ => false

/-- The sale that was not answered is looked up and unknown to the broker, so the coin is sold again. -/
theorem unknown_sale_resold :
    ∃ s, ReachedCalmly closeDemo shop s ∧ sells s 2 "main" "BTCUSDT" ∧ SoldOnce s := by
  have passes : ((machine closeDemo).checkedRun settlesCheck (started closeDemo shop)
      (secondSale oneCoinLater)).any fun s => sells s 2 "main" "BTCUSDT" := by decide +kernel
  obtain ⟨s, ran, sold⟩ := run_end passes
  have calm : ReachedCalmly closeDemo shop s :=
    Machine.Steps.mono (fun _ _ => settlesCheck_spec) (Machine.checkedRun_steps ran)
  exact ⟨s, calm, sold, sold_once shop_wellFormed calm⟩

/-- The broker answered a lookup. -/
def answersQuery (event : Event Req Req.Ans Exc) : Bool := isQuery event && event.answer.isOk

/-- Only the answer to a lookup excuses a sale. -/
theorem Excused.answered {hist : History} {row : Order} (excused : Excused hist row) :
    ∃ event ∈ hist, answersQuery event := by
  obtain ⟨⟨request, answer⟩, member, query, told⟩ := excused
  refine ⟨_, member, ?_⟩
  have good : ∃ result, brokerReport row.accountId row.clientOrderId ⟨request, answer⟩ = some (.ok result) := by
    rcases told with missing | ⟨report, ended, -⟩
    · exact ⟨_, missing⟩
    · exact ⟨_, ended⟩
  obtain ⟨result, reported⟩ := good
  cases answer with
  | ok found => simp [answersQuery, query, Except.isOk, Except.toBool]
  | error raised =>
    -- An exception is never an answer.
    exfalso
    cases request with
    | broker call =>
      cases call <;> simp only [brokerReport] at reported <;>
        first | (split at reported <;> cases reported) | cases reported
    | _ => cases query

/-- A lookup that is not answered counts as an order that does not exist, and the coin is sold twice. -/
theorem unanswered_sale_repeated :
    ¬∀ (svc : Service) (db : Database) (s : State), db.WellFormed → Reached svc db s → SoldOnce s := by
  intro claimed
  have passes : ((machine closeDemo).run (started closeDemo shop) (secondSale unanswered)).any fun s =>
      sells s 2 "main" "BTCUSDT" && s.calls 2 = some (.closeAllPositions (.text "main") "mcp-agent") &&
        (s.hist 2).all (fun event => !answersQuery event) &&
        s.world.db.orders.any fun first => s.world.db.orders.any fun second =>
          first.orderId ≠ second.orderId && isOpenClose "main" "BTCUSDT" first &&
            isOpenClose "main" "BTCUSDT" second := by
    decide +kernel
  obtain ⟨s, ran, checked⟩ := run_end passes
  simp only [Bool.and_eq_true, List.all_eq_true, List.any_eq_true, decide_eq_true_eq,
    Bool.not_eq_true'] at checked
  obtain ⟨⟨⟨sold, called⟩, silent⟩, first, stored, second, stored', ⟨differ, open_⟩, open_'⟩ := checked
  have quiet : ∀ row, ¬Excused (s.hist 2) row := by
    intro row excused
    obtain ⟨event, member, answered⟩ := excused.answered
    rw [silent event member] at answered
    cases answered
  unfold sells at sold
  split at sold
  case h_2 => cases sold
  case h_1 order next running =>
  obtain ⟨owner, named⟩ := of_decide_eq_true sold
  obtain ⟨own, -, excuses⟩ :=
    claimed closeDemo shop s shop_wellFormed (reached_of_run ran) 2 _ _ order next called running
  rw [owner, named] at excuses
  -- One of the two open close SELLs is not the one that is being submitted.
  by_cases same : first.orderId = own.orderId
  · exact quiet second (excuses second stored' open_' fun equal => differ (same.trans equal.symm))
  · exact quiet first (excuses first stored open_ same)

end Rasat
