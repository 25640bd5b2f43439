import Mathlib.Algebra.BigOperators.Group.List.Basic
import RasatTrading.Data.Rest
import RasatTrading.Guarantees.Runs

/-! What is sent within one window of the weight budget. -/

namespace Rasat

open Coop

/-- What a record comes to: the weights sent in this window and in those before it, and the reservations of this
window, each of a task and a weight, for which nothing was sent yet. -/
structure WindowAccount where
  sent : ℕ := 0
  before : List ℕ := []
  pending : List (ℕ × ℕ) := []

namespace WindowAccount

/-- One more entry of the record. -/
def note (account : WindowAccount) : Traffic → WindowAccount
  -- A reservation of the old window counts for nothing in the new one.
  | .reset => ⟨0, account.sent :: account.before, []⟩
  | .reserved task weight => { account with pending := (task, weight) :: account.pending }
  | .sent task weight =>
    { account with
      sent := account.sent + weight
      pending := account.pending.erase (task, weight) }

/-- The account of a record, newest entry first. -/
def ofTraffic : List Traffic → WindowAccount
  | [] => {}
  | entry :: rest => (ofTraffic rest).note entry

/-- The weight that is reserved and not sent yet. -/
def reserved (account : WindowAccount) : ℕ := (account.pending.map Prod.snd).sum

/-- No window has more weight than allowed. -/
def Within (account : WindowAccount) (maxWeight : ℕ) : Prop :=
  ∀ total ∈ account.sent :: account.before, total ≤ maxWeight

end WindowAccount

/-- The account of the requests of a budget. -/
def RateWorld.account (world : RateWorld) : WindowAccount := .ofTraffic world.traffic

/-- What is sent and what is reserved in this window is counted and allowed, and no window before it had too much. -/
structure Metered (maxWeight : ℕ) (world : RateWorld) : Prop where
  limit : world.budget.maxWeight = maxWeight
  counted : world.account.sent + world.account.reserved ≤ world.budget.used
  allowed : world.account.sent + world.account.reserved ≤ maxWeight
  earlier : ∀ total ∈ world.account.before, total ≤ maxWeight

theorem Metered.within {maxWeight : ℕ} {world : RateWorld} (metered : Metered maxWeight world) :
    world.account.Within maxWeight := by
  unfold WindowAccount.Within
  rw [List.forall_mem_cons]
  exact ⟨le_trans (Nat.le_add_right _ _) metered.allowed, metered.earlier⟩

section Steps

variable {maxWeight task weight : ℕ} {world : RateWorld} {now : ℚ}

theorem Metered.reset (metered : Metered maxWeight world) :
    Metered maxWeight { world with
      budget := { world.budget with used := 0, windowStart := now }
      traffic := .reset :: world.traffic } where
  limit := metered.limit
  counted := Nat.zero_le _
  allowed := Nat.zero_le _
  earlier := metered.within

/-- The world after the window was checked. -/
def RateWorld.refreshed (world : RateWorld) (now : ℚ) : RateWorld :=
  { world with
    budget := world.budget.refreshed now
    traffic := if world.budget.isOver now then .reset :: world.traffic else world.traffic }

theorem Metered.refreshed (metered : Metered maxWeight world) (now : ℚ) :
    Metered maxWeight (world.refreshed now) := by
  unfold RateWorld.refreshed RateLimitBudget.refreshed
  cases world.budget.isOver now with
  | true => exact metered.reset
  | false => exact metered

/-- A round of `acquire` reserves the weight where it fits into the window, and changes no count elsewhere. -/
theorem reserve_cases (world : RateWorld) (task weight : ℕ) (now : ℚ) :
    let current := world.refreshed now
    (current.budget.used + weight ≤ current.budget.maxWeight ∧
      (world.reserve task weight now).2 =
        { current with
          budget := { current.budget with used := current.budget.used + weight }
          traffic := .reserved task weight :: current.traffic }) ∨
      (world.reserve task weight now).2 =
        { current with budget := { current.budget with totalWaits := current.budget.totalWaits + 1 } } := by
  intro current
  -- The weight fits into the window that is open now, or the task goes to sleep.
  by_cases fits : current.budget.used + weight ≤ current.budget.maxWeight
  · left
    refine ⟨fits, ?_⟩
    have round : world.budget.acquireRound weight now =
        (none, { current.budget with used := current.budget.used + weight }) := if_pos fits
    unfold RateWorld.reserve
    rw [round]
    rfl
  · right
    have round : (world.budget.acquireRound weight now) =
        (some (min (current.budget.windowStart + current.budget.windowSeconds - now) 5),
          { current.budget with totalWaits := current.budget.totalWaits + 1 }) := if_neg fits
    unfold RateWorld.reserve
    rw [round]
    rfl

theorem Metered.reserve (metered : Metered maxWeight world) :
    Metered maxWeight (world.reserve task weight now).2 := by
  obtain ⟨limit, counted, allowed, earlier⟩ := metered.refreshed now
  rcases reserve_cases world task weight now with ⟨fits, reserved⟩ | waiting
  · have more : ((task, weight) :: (world.refreshed now).account.pending |>.map Prod.snd).sum =
        weight + (world.refreshed now).account.reserved := List.sum_cons ..
    -- What is sent and reserved is at most what is counted, and the count has room for the weight.
    rw [limit] at fits
    rw [reserved]
    refine ⟨limit, ?_, ?_, earlier⟩
    · show (world.refreshed now).account.sent +
        ((task, weight) :: (world.refreshed now).account.pending |>.map Prod.snd).sum ≤
          (world.refreshed now).budget.used + weight
      omega
    · show (world.refreshed now).account.sent +
        ((task, weight) :: (world.refreshed now).account.pending |>.map Prod.snd).sum ≤ maxWeight
      omega
  · rw [waiting]
    exact ⟨limit, counted, allowed, earlier⟩

/-- A request that was reserved is sent. -/
theorem Metered.send (metered : Metered maxWeight world) (covered : (task, weight) ∈ world.account.pending) :
    Metered maxWeight { world with traffic := .sent task weight :: world.traffic } := by
  obtain ⟨limit, counted, allowed, earlier⟩ := metered
  have spent : weight + ((world.account.pending.erase (task, weight)).map Prod.snd).sum = world.account.reserved :=
    ((List.perm_cons_erase covered).map Prod.snd).sum_eq.symm
  -- The weight moves from what is reserved to what is sent.
  have same : world.account.sent + weight + ((world.account.pending.erase (task, weight)).map Prod.snd).sum =
      world.account.sent + world.account.reserved := by omega
  refine ⟨limit, ?_, ?_, earlier⟩
  · show world.account.sent + weight + ((world.account.pending.erase (task, weight)).map Prod.snd).sum ≤ _
    rw [same]
    exact counted
  · show world.account.sent + weight + ((world.account.pending.erase (task, weight)).map Prod.snd).sum ≤ _
    rw [same]
    exact allowed

/-- What the server reports makes the count higher, if anything. -/
theorem Metered.noteUsed (metered : Metered maxWeight world) (used : ℕ) :
    Metered maxWeight { world with budget := world.budget.noteUsed used } := by
  obtain ⟨limit, counted, allowed, earlier⟩ := metered
  unfold RateLimitBudget.noteUsed
  split_ifs with higher
  · exact ⟨limit, le_trans counted (le_of_lt higher), allowed, earlier⟩
  · exact ⟨limit, counted, allowed, earlier⟩

end Steps

/-- Whether a request that is about to be sent was reserved by its task in this window, and nothing was sent for the
reservation yet. -/
def Reserved (world : RateWorld) (task : ℕ) : RateReq → Prop
  | .send _ weight => (task, weight) ∈ world.account.pending
  | _ => True

/-- One step of a task. -/
theorem ratePerform_metered {maxWeight task : ℕ} {world after : RateWorld} {request : RateReq} {choice : RateChoice}
    {answer : Except Exc request.Ans} (metered : Metered maxWeight world) (covered : Reserved world task request)
    (performed : ratePerform world task request choice = some (answer, after)) : Metered maxWeight after := by
  -- Only a reservation, a sending and a report of the server change the account or the count.
  cases request with
  | lock =>
    simp only [ratePerform] at performed
    split at performed
    · cases performed
      exact metered
    · split_ifs at performed
      cases performed
      exact ⟨metered.limit, metered.counted, metered.allowed, metered.earlier⟩
  | unlock =>
    cases performed
    exact ⟨metered.limit, metered.counted, metered.allowed, metered.earlier⟩
  | reserve weight =>
    cases performed
    exact metered.reserve
  | sleep seconds =>
    cases performed
    exact metered
  | credentials accountId =>
    cases performed
    exact metered
  | send path weight =>
    cases performed
    exact metered.send covered
  | noteUsed used =>
    cases performed
    exact metered.noteUsed used
  | never => cases performed

/-- Whether what a move sends is covered. -/
def ReservedMove (s : RateState) : Move RateChoice RateCall → Prop
  | .resume task _ => ∀ request next, s.tasks task = some (.ask request next) → Reserved s.world task request
  | .open _ | .crash => True

/-- In every run of the clients of a budget in which each request is sent in the window in which its task reserved its
weight, and once for each reservation, no window has more weight than the budget allows. -/
theorem rate_budget_kept (text : Text) (budget : RateLimitBudget) {s : RateState}
    (steps : (rateMachine text).Steps ReservedMove ((rateMachine text).start { budget := budget }) s) :
    s.world.account.Within budget.maxWeight := by
  -- By induction on the run; the condition is needed where a request is sent.
  suffices metered : Metered budget.maxWeight s.world from metered.within
  induction steps with
  | refl => exact ⟨rfl, Nat.zero_le _, Nat.zero_le _, List.forall_mem_nil _⟩
  | tail _ last ih =>
    obtain ⟨move, covered, stepped⟩ := last
    obtain ⟨call, value, -, -, rfl⟩ | ⟨task, choice, request, next, answer, world, rfl, running, performed, rfl⟩ |
      ⟨-, rfl⟩ := Machine.step_cases stepped
    · exact ih
    · exact ratePerform_metered ih (covered request next running) performed
    · -- A new process has a new budget.
      exact ⟨ih.limit, Nat.zero_le _, Nat.zero_le _, ih.within⟩

/-- A budget of ten. -/
def tenBudget : RateLimitBudget := { maxWeight := 10 }

/-- A reply to a request of klines, the first with 429. -/
def tooMany : HttpOutcome := .replied ⟨none, "", 429, "", .lost "", .json (.text "")⟩

/-- One call of weight ten, which is answered with 429 and sends its request again. -/
def triedAgain : List (Move RateChoice RateCall) :=
  [.open (.get 4 "/api/v3/klines" 10 1), .resume 1 {}, .resume 1 {}, .resume 1 {}, .resume 1 { outcome := tooMany },
    .resume 1 {}, .resume 1 { now := 1 }]

/-- A retry is sent without a reservation: within one window twice the allowed weight is sent. -/
theorem retry_exceeds :
    ∃ s, (rateMachine plainText).run ((rateMachine plainText).start { budget := tenBudget }) triedAgain = some s ∧
      s.world.account.before = [] ∧ s.world.account.sent = 20 ∧ ¬s.world.account.Within tenBudget.maxWeight := by
  have ran : ((rateMachine plainText).run ((rateMachine plainText).start { budget := tenBudget }) triedAgain).map
      (fun s => (s.world.account.before, s.world.account.sent)) = some ([], 20) := by decide +kernel
  obtain ⟨s, went, same⟩ := Option.map_eq_some_iff.mp ran
  obtain ⟨one_window, sent⟩ := Prod.mk.inj same
  refine ⟨s, went, one_window, sent, ?_⟩
  -- The window has twenty, but ten are allowed.
  intro within
  have total := within _ List.mem_cons_self
  rw [sent] at total
  exact absurd total (by decide)

/-- One call that is answered at once. -/
def answeredOnce : List (Move RateChoice RateCall) :=
  [.open (.signed "/api/v3/account" "main" 1), .resume 1 {}, .resume 1 {}, .resume 1 {}, .resume 1 {},
    .resume 1 { outcome := .replied ⟨some "5", "", 200, "", .json (.object []), .json (.text "")⟩ }]

/-- Whether what a move sends is covered, as it is decided. -/
def checkReserved (s : RateState) : Move RateChoice RateCall → Bool
  | .resume task _ =>
    match s.tasks task with
    | some (.ask (.send _ weight) _) => (task, weight) ∈ s.world.account.pending
    | _ => true
  | .open _ | .crash => true

theorem reservedMove_of_check {s : RateState} {move : Move RateChoice RateCall}
    (checked : checkReserved s move = true) :
    ReservedMove s move := by
  cases move with
  | resume task choice =>
    intro request next running
    simp only [checkReserved, running] at checked
    cases request with
    | send path weight =>
      have reserved : (task, weight) ∈ s.world.account.pending := of_decide_eq_true checked
      exact reserved
    | _ => trivial
  | «open» call => trivial
  | crash => trivial

theorem answered_once_within :
    ∃ s, (rateMachine plainText).Steps ReservedMove ((rateMachine plainText).start { budget := tenBudget }) s ∧
      s.world.account.sent = 5 ∧ s.world.account.Within tenBudget.maxWeight := by
  have ran : ((rateMachine plainText).checkedRun checkReserved ((rateMachine plainText).start { budget := tenBudget })
      answeredOnce).map (fun s => s.world.account.sent) = some 5 := by decide +kernel
  obtain ⟨s, went, sent⟩ := Option.map_eq_some_iff.mp ran
  have steps : (rateMachine plainText).Steps ReservedMove ((rateMachine plainText).start { budget := tenBudget }) s :=
    (Machine.checkedRun_steps went).mono fun _ _ checked => reservedMove_of_check checked
  exact ⟨s, steps, sent, rate_budget_kept plainText tenBudget steps⟩

end Rasat
