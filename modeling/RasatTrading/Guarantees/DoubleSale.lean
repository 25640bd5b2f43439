import RasatTrading.Guarantees.SaleRows

/-! When the emergency stop never sells an unresolved position again: what its log remembers of the sales. -/

namespace Rasat

open Coop Document

variable {svc : StopService} {lib : LogLibrary}

/-- A request that ended in a timeout. -/
def Exc.isTimeout : Exc → Bool
  | .timeout => true
  | .rasat error => error.code = .timeout
  | _ => false

/-- The exchange reported a terminal state, or that the order does not exist. -/
def settles : Option OrderResult → Bool
  | none => true
  | some result => ¬result.status.isOpen

/-- The client order id of the last SELL of the account and symbol whose outcome is unresolved: it timed out or
was reported open, and no query of it was answered with a terminal state or that it does not exist. -/
def unresolved (accountId symbol : String) : StopTrace → Option String
  | [] => none
  | .answered _ ⟨.sell account sold _ cid, .ok result⟩ :: older =>
    if account = accountId ∧ sold = symbol ∧ result.status.isOpen then some cid
    else unresolved accountId symbol older
  | .answered _ ⟨.sell account sold _ cid, .error raised⟩ :: older =>
    if account = accountId ∧ sold = symbol ∧ raised.isTimeout then some cid
    else unresolved accountId symbol older
  | .answered _ ⟨.query account sold cid, .ok found⟩ :: older =>
    if account = accountId ∧ sold = symbol ∧ settles found ∧
        unresolved accountId symbol older = some cid then none
    else unresolved accountId symbol older
  | _ :: older => unresolved accountId symbol older

/-- No SELL was submitted while one of the same account and symbol was unresolved. -/
def NeverTwice (trace : StopTrace) : Prop :=
  ∀ newer task accountId symbol quantity cid answer older,
    trace = newer ++ .answered task ⟨.sell accountId symbol quantity cid, answer⟩ :: older →
      unresolved accountId symbol older = none

/-- The log's last sale of the account and symbol is not confirmed, and would be looked up under this id. -/
def AsksFor (svc : StopService) (rows : List Document) (accountId symbol cid : String) : Prop :=
  ∃ details, latestSellDetails svc.text accountId symbol rows = .ok (some (.object details)) ∧
    isPendingText (memberOf "status" details) ∧ priorCid svc accountId symbol details = .ok cid

/-- The log's last sale of the account and symbol, when there is one, is confirmed. -/
def Confirmed (svc : StopService) (rows : List Document) (accountId symbol : String) : Prop :=
  ∃ found, latestSellDetails svc.text accountId symbol rows = .ok found ∧
    ∀ details, found = some (.object details) → isPendingText (memberOf "status" details) = false

/-- How far a run is with a sale. -/
inductive Stage
  | idle
  /-- The log was just read. -/
  | read (rows : List Document)
  /-- The earlier sale of this account and symbol was just found settled. -/
  | settled (accountId symbol : String)
  /-- A sale was just submitted; it is not logged yet. -/
  | sold (accountId symbol cid : String) (result : OrderResult)

/-- Every sale is logged. -/
def Stage.atRest : Stage → Prop
  | .sold _ _ _ _ => False
  | _ => True

/-- What a run may ask at each stage. -/
def stageRule (svc : StopService) : Stage → StopReq → Prop
  | .sold accountId symbol cid result, request => ∃ nonce item, item.symbol = symbol ∧
      request = .append sellLogAction (sellDetails svc accountId nonce cid item result)
  | .read rows, .sell accountId symbol _ cid => Confirmed svc rows accountId symbol ∧ cid ≠ ""
  | .settled account sold, .sell accountId symbol _ cid => (account = accountId ∧ sold = symbol) ∧ cid ≠ ""
  | .idle, .sell _ _ _ _ => False
  | .read rows, .query accountId symbol cid => AsksFor svc rows accountId symbol cid
  | _, .query _ _ _ => False
  | _, .append action _ => action = cancelLogAction
  | _, _ => True

/-- The stage after an answer; a query that fails with a canonical error, a sale that times out and a sale that
cannot be logged are ruled out. -/
def stageLearns (request : StopReq) (answer : Except Exc request.Ans) (learned : Stage) : Prop :=
  match request, answer with
  | .entries, .ok rows => learned = .read rows
  | .query accountId symbol _, .ok found =>
    learned = if settles found then .settled accountId symbol else .idle
  | .query _ _ _, .error raised => (∀ error, raised ≠ .rasat error) ∧ learned = .idle
  | .sell accountId symbol _ cid, .ok result => learned = .sold accountId symbol cid result
  | .append action _, .error _ => action ≠ sellLogAction ∧ learned = .idle
  | _, _ => learned = .idle

/-- The discipline of the sales. -/
def selling (svc : StopService) : Discipline StopReq StopReq.Ans Exc Stage where
  rule := stageRule svc
  learn _ := stageLearns

variable {stage : Stage} {accountId runNonce : String} {dryRun : Bool} {sold : List StopSale} {request : StopReq}
  {symbol : String} {task : ℕ} {answer : Except Exc request.Ans} {cid : String} {log : ByteArray} {hist : StopHist}
  {s : StopState} {before : StopHist}

/-- Preparing needs and leaves nothing unlogged. -/
theorem preparing_safe {α : Type} {program : StopTask α} (rests : stage.atRest)
    (only : program.Only StopReq.isPreparing) :
    Safe (selling svc) program stage fun _ later => later.atRest := by
  refine Safe.of_only StopReq.isPreparing Stage.atRest ?_ ?_ only rests
  · intro stage request rests prepares
    cases stage with
    | sold accountId symbol cid result => exact rests.elim
    | _ =>
      cases request with
      | append action details => exact prepares.1
      | _ => trivial
  · intro stage request answer learned rests prepares learns
    cases request with
    | sell _ _ _ _ => exact prepares.elim
    | query _ _ _ => exact prepares.elim
    | entries => cases answer <;> (cases learns; trivial)
    | append action details =>
      cases answer with
      | ok value => cases learns; trivial
      | error raised => obtain ⟨-, rfl⟩ := learns; trivial
    | _ => cases answer <;> (cases learns; trivial)

/-- The client order id of a sale is not empty. -/
theorem stopCid_filled (accountId runNonce symbol : String) : stopCid accountId runNonce symbol ≠ "" := by
  intro empty
  have chars := congrArg String.toList empty
  simp [stopCid, String.toList_append] at chars

variable {item : PlanItem}

/-- A new sale is logged whenever it was submitted. -/
theorem sellNew_safe
    (may : ∀ quantity cid, cid ≠ "" → stageRule svc stage (.sell accountId item.symbol quantity cid)) :
    Safe (selling svc) (sellNew svc accountId runNonce item) stage fun _ later => later.atRest := by
  unfold sellNew
  simp only [Prog.bind_eq, Prog.pure_eq]
  rw [Safe.bind_iff, Safe.attempt_iff]
  unfold sellAndLog stopAsk
  simp only [Prog.bind_eq, Prog.pure_eq]
  rw [Safe.bind_iff, Safe.call_iff]
  refine ⟨may _ _ (stopCid_filled _ _ _), fun answer learned learns => ?_⟩
  cases answer with
  | error raised =>
    cases learns
    cases raised <;> first | exact Safe.done trivial | exact Safe.fail trivial
  | ok result =>
    cases learns
    rw [Outcome_ok, Safe.bind_iff, Safe.call_iff]
    refine ⟨⟨runNonce, item, rfl, rfl⟩, fun logged after learns => ?_⟩
    cases logged with
    | ok done =>
      cases learns
      exact Safe.done (Safe.done trivial)
    | error raised => exact absurd rfl learns.1

/-- One planned sale asks for the unconfirmed earlier one first. -/
theorem sellPlanned_safe (rests : stage.atRest) :
    Safe (selling svc) (sellPlanned svc accountId dryRun runNonce sold item) stage
      fun _ later => later.atRest := by
  have anew {stage : Stage}
      (may : ∀ quantity cid, cid ≠ "" → stageRule svc stage (.sell accountId item.symbol quantity cid)) :
      Safe (selling svc) ((sellNew svc accountId runNonce item).bind fun sale =>
        .done (sold ++ [sale])) stage fun _ later => later.atRest := by
    rw [Safe.bind_iff]
    refine (sellNew_safe may).mono fun outcome later rests => ?_
    cases outcome with
    | ok sale => exact Safe.done rests
    | error raised => exact rests
  unfold sellPlanned
  split
  · exact Safe.done rests
  simp only [stopAsk, Prog.bind_eq, Prog.pure_eq]
  rw [Safe.bind_iff, Safe.call_iff]
  refine ⟨by cases stage <;> trivial, fun answer learned learns => ?_⟩
  cases answer with
  | error raised => cases learns; trivial
  | ok rows =>
    cases learns
    -- What the log tells of the latest sale decides whether it is asked for first.
    rw [Outcome_ok, Safe.bind_iff, Safe.ofExcept_iff]
    cases looked : latestSellDetails svc.text accountId item.symbol rows with
    | error raised => trivial
    | ok prior =>
      rw [Outcome_ok]
      split
      · rename_i details
        by_cases pending : isPendingText (memberOf "status" details)
        · rw [if_pos pending, Safe.bind_iff, Safe.ofExcept_iff]
          cases named : priorCid svc accountId item.symbol details with
          | error raised => trivial
          | ok cid =>
            rw [Outcome_ok, Safe.bind_iff]
            unfold queryPrior
            simp only [stopAsk, Prog.bind_eq, Prog.pure_eq]
            rw [Safe.bind_iff, Safe.attempt_iff, Safe.call_iff]
            refine ⟨⟨details, looked, pending, named⟩, fun reply after learns => ?_⟩
            cases reply with
            | error raised =>
              obtain ⟨strange, rfl⟩ := learns
              cases raised with
              | rasat error => exact absurd rfl (strange error)
              | _ => exact Safe.fail trivial
            | ok found =>
              cases learns
              refine Safe.done ?_
              -- A sale goes out anew only when the earlier one is unknown or ended.
              cases found with
              | none => exact anew fun _ _ filled => ⟨⟨rfl, rfl⟩, filled⟩
              | some result =>
                simp only [Outcome_ok]
                by_cases live : result.status.isOpen
                · rw [if_pos live]
                  exact Safe.done (by simp [settles, live, Stage.atRest])
                · rw [if_neg live]
                  refine anew fun _ _ filled => ?_
                  simp [settles, live, stageRule, filled]
        · rw [if_neg pending]
          refine anew fun _ _ filled => ⟨⟨_, looked, fun other same => ?_⟩, filled⟩
          cases same
          simpa using pending
      · rename_i other
        refine anew fun _ _ filled => ⟨⟨_, looked, fun details same => ?_⟩, filled⟩
        exact absurd same (other details)

/-- A sequence of parts at rest is at rest. -/
theorem rest_bind {α β : Type} {program : StopTask α} {next : α → StopTask β}
    (first : Safe (selling svc) program stage fun _ later => later.atRest)
    (rest : ∀ value later, later.atRest →
      Safe (selling svc) (next value) later fun _ last => last.atRest) :
    Safe (selling svc) (program.bind next) stage fun _ later => later.atRest := by
  rw [Safe.bind_iff]
  refine first.mono fun outcome later rests => ?_
  cases outcome with
  | ok value => exact rest value later rests
  | error raised => exact rests

/-- A loop of bodies at rest is at rest. -/
theorem rest_foldlM {α σ : Type} {items : List α} {body : σ → α → StopTask σ} {start : σ} (rests : stage.atRest)
    (each : ∀ state item later, later.atRest →
      Safe (selling svc) (body state item) later fun _ last => last.atRest) :
    Safe (selling svc) (items.foldlM body start) stage fun _ later => later.atRest := by
  induction items generalizing start stage with
  | nil => exact Safe.done rests
  | cons item rest ih =>
    rw [List.foldlM_cons, Prog.bind_eq]
    exact rest_bind (each start item stage rests) fun value later rests => ih rests

/-- A request that is neither a sale, a query nor an append leaves a run at rest. -/
theorem rest_ask (rests : stage.atRest)
    (plain : request.isPreparing ∨ request = .accounts ∨ (∃ accountId, request = .credentials accountId) ∨
      (∃ accountId, request = .openOrders accountId) ∨ ∃ accountId, request = .balances accountId) :
    Safe (selling svc) (Prog.call request : StopTask request.Ans) stage fun _ later => later.atRest := by
  rcases plain with prepares | rfl | ⟨accountId, rfl⟩ | ⟨accountId, rfl⟩ | ⟨accountId, rfl⟩
  · exact preparing_safe rests (Prog.only_call.mpr prepares)
  all_goals
    refine Safe.call_iff.mpr ⟨by cases stage <;> trivial, ?_⟩
    rintro (raised | value) learned rfl <;> trivial

variable {yes : Bool}

/-- The stop of one account logs every sale. -/
theorem stopOne_safe (rests : stage.atRest) :
    Safe (selling svc) (stopOne svc accountId yes dryRun) stage fun _ later => later.atRest := by
  unfold stopOne
  simp only [stopAsk, Prog.bind_eq, Prog.pure_eq]
  rw [Safe.bind_iff, Safe.attempt_iff]
  refine (rest_ask rests (.inr (.inr (.inl ⟨accountId, rfl⟩)))).mono fun outcome later rests => ?_
  cases outcome with
  | error raised =>
    cases raised with
    | rasat error =>
      show Safe (selling svc) (if error.code = .accountNoCredentials then .done _
        else .fail (.rasat error)) later fun _ last => last.atRest
      split
      · exact Safe.done rests
      · exact Safe.fail rests
    | _ => exact Safe.fail rests
  | ok done =>
    rw [Outcome_ok]
    unfold stopAccount
    simp only [stopAsk, Prog.bind_eq]
    refine rest_bind (rest_ask rests (.inr (.inr (.inr (.inl ⟨accountId, rfl⟩))))) fun orders later rests => ?_
    refine rest_bind (preparing_safe rests (Prog.only_foldlM (cancelSymbol_prepares dryRun) _ _))
      fun cancels later rests => ?_
    refine rest_bind (rest_ask rests (.inr (.inr (.inr (.inr ⟨accountId, rfl⟩))))) fun balances later rests => ?_
    refine rest_bind (preparing_safe rests (Prog.only_foldlM planAsset_prepares _ _))
      fun planned later rests => ?_
    unfold sellPlan
    simp only [stopAsk, Prog.bind_eq, Prog.pure_eq]
    refine rest_bind (preparing_safe rests (confirmPlan_prepares yes dryRun _)) fun ended later rests => ?_
    cases ended with
    | some result => exact Safe.done rests
    | none =>
      refine rest_bind (rest_ask rests (.inl trivial)) fun runNonce later rests => ?_
      refine rest_bind (rest_foldlM rests fun sold item later rests => sellPlanned_safe rests)
        fun sold later rests => ?_
      exact Safe.done rests

/-- So does a whole run. -/
theorem emergencyStop_safe {wanted : List String} (rests : stage.atRest) :
    Safe (selling svc) (emergencyStop svc wanted yes dryRun) stage fun _ later => later.atRest := by
  unfold emergencyStop resolveAccounts
  simp only [stopAsk, Prog.bind_eq, Prog.pure_eq]
  refine rest_bind (rest_bind (rest_ask rests (.inr (.inl rfl))) fun listed later rests => ?_)
    fun accounts later rests => ?_
  · split
    · exact Safe.done rests
    · split
      · exact Safe.fail rests
      · exact Safe.done rests
  · refine rest_foldlM rests fun results accountId later rests => ?_
    have stopped : Safe (selling svc) ((stopOne svc accountId yes dryRun).rescue fun raised =>
        .done (failedStop accountId raised)) later fun _ last => last.atRest :=
      Safe.rescue (stopOne_safe rests) (fun _ _ rests => rests) fun raised last rests => Safe.done rests
    exact rest_bind stopped fun result last rests => Safe.done rests

/-- A SELL of the account and symbol under this id is unresolved as far as its own answer goes. -/
def UnresolvedSale (hist : StopHist) (accountId symbol cid : String) : Prop :=
  ∃ quantity answer,
    (⟨.sell accountId symbol quantity cid, answer⟩ : Event StopReq StopReq.Ans Exc) ∈ hist ∧
    match answer with
    | .ok result => result.status.isOpen
    | .error raised => raised.isTimeout

/-- The outside settles a request without what makes the log forget a sale: a sale that times out, a lookup of
an earlier sale that fails, a write that is cut off; and, once a sale of the account is unresolved, without an
exception that ends the account. -/
def CalmAnswer (hist : StopHist) (log : ByteArray) (request : StopReq) (choice : StopChoice) : Prop :=
  match request with
  | .append _ details => choice.cut = none ∧ (Raw.dict details).isJson ∧ shortInt choice.now ∧ Numbered log
  | .sell accountId symbol quantity cid => Plain accountId ∧ Plain symbol ∧
      ∀ raised, choice.answer (.sell accountId symbol quantity cid) = .error raised →
        raised.isTimeout = false ∧
          ((∃ error, raised = .rasat error) ∨ ∀ sold cid, ¬UnresolvedSale hist accountId sold cid)
  | .query accountId symbol cid =>
      ∀ raised, choice.answer (.query accountId symbol cid) = .error raised →
        (∀ error, raised ≠ .rasat error) ∧ ∀ sold cid, ¬UnresolvedSale hist accountId sold cid
  | _ => True

/-- A move of calm runs: they follow each other, no answer lets the log forget a sale, and no crash comes between
an unresolved sale and its row. -/
def CalmMove (svc : StopService) (s : StopState) : Move StopChoice StopCall → Prop
  | .open _ => ∀ task request next, s.tasks task ≠ some (.ask request next)
  | .crash => ∀ task accountId nonce cid item result next,
      s.tasks task = some (.ask (.append sellLogAction (sellDetails svc accountId nonce cid item result)) next) →
        ¬result.status.isOpen
  | .resume task choice => ∀ request next, s.tasks task = some (.ask request next) →
      CalmAnswer (s.hist task) s.world request choice

/-- A run is about to log an unresolved sale. -/
def Logging (svc : StopService) (s : StopState) (accountId symbol cid : String) : Prop :=
  ∃ task nonce item result next, s.tasks task =
      some (.ask (.append sellLogAction (sellDetails svc accountId nonce cid item result)) next) ∧
    item.symbol = symbol ∧ result.status.isOpen ∧ cid ≠ ""

/-- The log has an unresolved sale as the last of its account and symbol. -/
def Logged (svc : StopService) (log : ByteArray) (accountId symbol cid : String) : Prop :=
  ∃ rows, entries log = .ok rows ∧ AsksFor svc rows accountId symbol cid

/-- What holds between any two moves of calm runs. -/
structure Remembers (svc : StopService) (s : StopState) : Prop where
  alone : ∀ task other request next request' next', s.tasks task = some (.ask request next) →
    s.tasks other = some (.ask request' next') → task = other
  intact : IntactLog svc.text s.world
  never : NeverTwice s.trace
  recalls : ∀ accountId symbol cid, unresolved accountId symbol s.trace = some cid →
    (Plain accountId ∧ Plain symbol) ∧
      (Logged svc s.world accountId symbol cid ∨ Logging svc s accountId symbol cid)

/-- What a run at this stage knows of the log and of the sales. -/
def Stage.facts (s : StopState) : Stage → Prop
  | .idle => True
  | .read rows => entries s.world = .ok rows
  | .settled accountId symbol => unresolved accountId symbol s.trace = none
  | .sold accountId symbol cid result => Plain accountId ∧ Plain symbol ∧ cid ≠ "" ∧
      unresolved accountId symbol s.trace = if result.status.isOpen then some cid else none

/-- The stages of the runs, which are true as long as the runs go on. -/
def stages (svc : StopService) :
    Simulation StopReq StopReq.Ans Exc ByteArray StopCall (List StopResult) Stage where
  discipline := selling svc
  inv := Remembers svc
  rep s task stage := ∀ request next, s.tasks task = some (.ask request next) → stage.facts s
  rest := Stage.atRest

/-- Only sales and their lookups change what is unresolved. -/
theorem unresolved_same {trace : StopTrace} (sales : ∀ a s q c, request ≠ .sell a s q c)
    (queries : ∀ a s c, request ≠ .query a s c) :
    unresolved accountId symbol (.answered task ⟨request, answer⟩ :: trace) =
      unresolved accountId symbol trace := by
  cases request with
  | sell a s q c => exact absurd rfl (sales a s q c)
  | query a s c => exact absurd rfl (queries a s c)
  | _ => cases answer <;> rfl

/-- A lookup resolves a sale or leaves it as it was. -/
theorem unresolved_query {account sold found : String} {trace : StopTrace}
    {answer : Except Exc (Option OrderResult)}
    (open_ : unresolved accountId symbol (.answered task ⟨.query account sold cid, answer⟩ :: trace) = some found) :
    unresolved accountId symbol trace = some found := by
  cases answer with
  | error raised => exact open_
  | ok state =>
    simp only [unresolved] at open_
    split at open_
    · cases open_
    · exact open_

section

variable {s : StopState} {task : ℕ} {request : StopReq}
  {next : Except Exc request.Ans → StopTask (List StopResult)} {answer : Except Exc request.Ans}
  {log : ByteArray}

/-- After an answer the same run is the only one that asks. -/
theorem alone_answered (alone : Remembers svc s) (running : s.tasks task = some (.ask request next)) :
    ∀ first second r n r' n', (s.answered task request next answer log).tasks first = some (.ask r n) →
      (s.answered task request next answer log).tasks second = some (.ask r' n') → first = second := by
  have only : ∀ other r n, (s.answered task request next answer log).tasks other = some (.ask r n) →
      other = task := by
    intro other r n asks
    by_contra differ
    simp only [Sys.answered, Function.update_of_ne differ] at asks
    exact differ (alone.alone other task _ _ _ _ asks running)
  intro first second r n r' n' one two
  rw [only first r n one, only second r' n' two]

/-- A sale is only submitted when none of the same account and symbol is unresolved. -/
theorem sale_alone {stage : Stage} {accountId symbol cid : String} {quantity : ℚ}
    {next : Except Exc OrderResult → StopTask (List StopResult)} (known : Remembers svc s)
    (running : s.tasks task = some (.ask (.sell accountId symbol quantity cid) next))
    (facts : stage.facts s) (may : stageRule svc stage (.sell accountId symbol quantity cid)) :
    unresolved accountId symbol s.trace = none ∧ cid ≠ "" := by
  cases stage with
  | idle => exact may.elim
  | sold account sold cid' result =>
    obtain ⟨nonce, item, -, same⟩ := may
    cases same
  | settled account sold =>
    obtain ⟨⟨rfl, rfl⟩, filled⟩ := may
    exact ⟨facts, filled⟩
  | read rows =>
    obtain ⟨⟨found, looked, confirmed⟩, filled⟩ := may
    refine ⟨?_, filled⟩
    cases open_ : unresolved accountId symbol s.trace with
    | none => rfl
    | some earlier =>
      -- The log would have asked for a lookup first.
      rcases (known.recalls accountId symbol earlier open_).2 with
        ⟨others, read, details, latest, pending, -⟩ | ⟨other, nonce, item, result, next', asks, -⟩
      · obtain rfl : rows = others := Except.ok.inj (facts.symm.trans read)
        rw [looked] at latest
        cases latest
        rw [confirmed details rfl] at pending
        cases pending
      · obtain rfl := known.alone _ _ _ _ _ _ running asks
        rw [running] at asks
        cases asks

/-- The record stays free of double sales. -/
theorem never_answered (known : Remembers svc s)
    (free : ∀ a q c sold, request = .sell a sold q c → unresolved a sold s.trace = none) :
    NeverTwice (s.answered task request next answer log).trace := by
  intro newer other accountId symbol quantity cid reply older split
  cases newer with
  | nil =>
    obtain ⟨same, rfl⟩ := List.cons.inj split
    cases same
    exact free _ _ _ _ rfl
  | cons first newer => exact known.never newer other _ _ _ _ _ older (List.cons.inj split).2

/-- What the log and the waiting run recall stays when neither the sales nor the log change. -/
theorem recalls_kept (known : Remembers svc s) (running : s.tasks task = some (.ask request next))
    (quiet : ∀ action details, request ≠ .append action details) {accountId symbol cid : String}
    (open_ : unresolved accountId symbol s.trace = some cid) :
    (Plain accountId ∧ Plain symbol) ∧ Logged svc s.world accountId symbol cid := by
  obtain ⟨plain, logged | ⟨other, nonce, item, result, next', asks, -⟩⟩ := known.recalls accountId symbol cid open_
  · exact ⟨plain, logged⟩
  · obtain rfl := known.alone _ _ _ _ _ _ running asks
    rw [running] at asks
    cases asks
    exact absurd rfl (quiet _ _)

end

/-- An intact file has an unresolved sale when its last sale is one. -/
theorem logged_iff {rows : List Document} (holds : LogHolds log rows) (whole : IntactRows svc.text rows) :
    Logged svc log accountId symbol cid ↔ ∃ details, lastSale svc.text accountId symbol rows = some details ∧
      isPendingText (memberOf "status" details) ∧ priorCid svc accountId symbol details = .ok cid := by
  have looked := @latestSellDetails_returns _ svc.text whole.lookable accountId symbol
  constructor
  · rintro ⟨others, read, details, found, pending, named⟩
    obtain rfl : rows = others := Except.ok.inj (holds.entries.symm.trans read)
    rw [looked] at found
    obtain ⟨last, listed, same⟩ := Option.map_eq_some_iff.mp (Except.ok.inj found)
    cases same
    exact ⟨details, listed, pending, named⟩
  · rintro ⟨details, last, pending, named⟩
    refine ⟨rows, holds.entries, details, ?_, pending, named⟩
    rw [looked, last]
    rfl

variable {details : List (Key × Raw)} {action : String}

/-- An appended sale is what its account and symbol are asked for next; other sales stay. -/
theorem logged_append {after : ByteArray} {now : ℤ}
    (intact : IntactLog svc.text log) (numbered : Numbered log) (own : LoggedDetails svc action details)
    (known : (Raw.dict details).isJson = true) (timed : shortInt now = true)
    (appended : append lib log "emergency_stop" action details now = .ok after)
    (plain : Plain accountId) (plainSymbol : Plain symbol) :
    (action = cancelLogAction → Logged svc log accountId symbol cid → Logged svc after accountId symbol cid) ∧
    ∀ account nonce own item result, action = sellLogAction →
      details = sellDetails svc account nonce own item result → Plain account → Plain item.symbol →
        (account = accountId → item.symbol = symbol → own = cid ∧ cid ≠ "" ∧ result.status.isOpen) →
        (¬(account = accountId ∧ item.symbol = symbol) → Logged svc log accountId symbol cid) →
          Logged svc after accountId symbol cid := by
  obtain ⟨rows, after', prevHash, seq, hash, holds, whole, written, grown, longer⟩ :=
    @intact_append _ lib _ intact numbered _ _ _ own known timed
  obtain rfl : after = after' := Except.ok.inj (appended.symm.trans written)
  rw [logged_iff holds whole, logged_iff grown longer, lastSale_append]
  -- A cancellation adds no sale to the log; a sale is the latest of its own symbol only.
  constructor
  · rintro rfl
    rw [saleUnder_other (by decide)]
    exact id
  · rintro account nonce own item result rfl rfl clear clearSold same other
    rw [saleUnder_sale plain plainSymbol clear clearSold]
    by_cases mine : account = accountId ∧ item.symbol = symbol
    · obtain ⟨rfl, filled, live⟩ := same mine.1 mine.2
      rw [if_pos ⟨mine.1.symm, mine.2.symm⟩]
      exact ⟨_, rfl, saleMembers_pending.trans live, saleMembers_cid filled⟩
    · rw [if_neg fun both => mine ⟨both.1.symm, both.2.symm⟩]
      exact other mine

/-- What the outside answers to a request other than those of the log. -/
theorem stopPerform_other {later : ByteArray} {choice : StopChoice}
    (performed : stopPerform lib log task request choice = some (answer, later))
    (reads : request ≠ .entries) (writes : ∀ action details, request ≠ .append action details) :
    answer = choice.answer request ∧ later = log := by
  cases request with
  | entries => exact absurd rfl reads
  | append action details => exact absurd rfl (writes action details)
  | _ => cases performed; exact ⟨rfl, rfl⟩

/-- An append that is not cut off is recovered from an intact log. -/
theorem stopPerform_append {later : ByteArray} {choice : StopChoice} {answer : Except Exc Unit}
    (performed : stopPerform lib log task (.append action details) choice = some (answer, later))
    (intact : IntactLog svc.text log) (own : LoggedDetails svc action details)
    (calm : CalmAnswer hist log (.append action details) choice) :
    answer = .ok () ∧ append lib log "emergency_stop" action details choice.now = .ok later ∧
      IntactLog svc.text later := by
  obtain ⟨whole, known, timed, numbered⟩ := calm
  obtain ⟨rows, after, prevHash, seq, hash, -, -, written, grown, longer⟩ :=
    @intact_append _ lib _ intact numbered _ _ _ own known timed
  simp only [stopPerform, written, whole] at performed
  cases performed
  exact ⟨rfl, written, _, grown, longer⟩

/-- A run appends what the emergency stop logs. -/
theorem stageRule_logged
    (may : stageRule svc stage (.append action details)) : LoggedDetails svc action details := by
  cases stage with
  | sold account sold own result =>
    obtain ⟨nonce, item, -, same⟩ := may
    cases same
    exact .sale ..
  | _ =>
    obtain rfl : action = cancelLogAction := may
    exact .cancel details

/-- A request that neither sells, asks for a sale nor logs leaves everything recalled. -/
theorem remembers_quiet
    {next : Except Exc request.Ans → StopTask (List StopResult)}
    (known : Remembers svc s) (running : s.tasks task = some (.ask request next))
    (sales : ∀ a m q c, request ≠ .sell a m q c) (queries : ∀ a m c, request ≠ .query a m c)
    (writes : ∀ action details, request ≠ .append action details) :
    Remembers svc (s.answered task request next answer s.world) where
  alone := alone_answered known running
  intact := known.intact
  never := never_answered known fun _ _ _ _ same => absurd same (sales _ _ _ _)
  recalls := by
    intro accountId symbol cid open_
    simp only [Sys.answered] at open_
    rw [unresolved_same sales queries] at open_
    obtain ⟨plain, logged⟩ := recalls_kept known running writes open_
    exact ⟨plain, .inl logged⟩

/-- A submitted sale is logged next. -/
theorem sold_logs {program : StopTask (List StopResult)} {result : OrderResult}
    (safe : Safe (selling svc) program (.sold accountId symbol cid result) fun _ later => later.atRest) :
    ∃ nonce item next, item.symbol = symbol ∧
      program = .ask (.append sellLogAction (sellDetails svc accountId nonce cid item result)) next := by
  cases program with
  | done value => exact (Safe.done_iff.mp safe).elim
  | fail raised => exact (Safe.fail_iff.mp safe).elim
  | ask request next =>
    obtain ⟨⟨nonce, item, named, rfl⟩, -⟩ := Safe.ask_iff.mp safe
    exact ⟨nonce, item, next, named, rfl⟩

/-- An answer keeps what the log recalls true, and leaves its run at a stage that is true. -/
structure Taught (svc : StopService) (s : StopState) (task : ℕ) (request : StopReq)
    (next : Except Exc request.Ans → StopTask (List StopResult)) (answer : Except Exc request.Ans) (log : ByteArray)
    (stage : Stage) : Prop where
  remembers : Remembers svc (s.answered task request next answer log)
  learned : ∃ learned, (selling svc).learn stage request answer learned ∧
    (stages svc).rep (s.answered task request next answer log) task learned

section

variable {s : StopState} {task : ℕ} {stage : Stage} {choice : StopChoice}

/-- The answer to a sale. -/
theorem taught_sell {accountId symbol cid : String} {quantity : ℚ}
    {next : Except Exc OrderResult → StopTask (List StopResult)} {answer : Except Exc OrderResult}
    (inv : Remembers svc s) (running : s.tasks task = some (.ask (.sell accountId symbol quantity cid) next))
    (facts : stage.facts s) (keeps : (stages svc).Keeps (.ask (.sell accountId symbol quantity cid) next) stage)
    (calmly : CalmAnswer (s.hist task) s.world (.sell accountId symbol quantity cid) choice)
    (reply : answer = choice.answer (.sell accountId symbol quantity cid)) :
    Taught svc s task (.sell accountId symbol quantity cid) next answer s.world stage := by
  obtain ⟨may, goes⟩ := Safe.ask_iff.mp keeps
  obtain ⟨settled, filled⟩ := sale_alone inv running facts may
  have alone := @alone_answered svc s task (.sell accountId symbol quantity cid) next answer s.world inv running
  have never := @never_answered svc s task (.sell accountId symbol quantity cid) next answer s.world inv
    fun a q c sold same => by cases same; exact settled
  obtain ⟨plain, plainSymbol, prompt⟩ := calmly
  cases answer with
  -- An open answer leaves the sale unresolved, and the next request of the task logs it.
  | ok result =>
    have logs := goes (.ok result) _ rfl
    refine ⟨⟨alone, inv.intact, never, fun a sold c open_ => ?_⟩, _, rfl, fun _ _ _ => ?_⟩
    · simp only [Sys.answered, unresolved] at open_
      split at open_
      · rename_i own
        obtain ⟨rfl, rfl, live⟩ := own
        cases open_
        obtain ⟨nonce, item, next', named, program⟩ := sold_logs logs
        refine ⟨⟨plain, plainSymbol⟩, .inr ⟨task, nonce, item, result, next', ?_, named, live, filled⟩⟩
        rw [← program]
        exact Function.update_self ..
      · obtain ⟨plain, logged⟩ := recalls_kept inv running (fun _ _ same => by cases same) open_
        exact ⟨plain, .inl logged⟩
    · refine ⟨plain, plainSymbol, filled, ?_⟩
      simp only [Sys.answered, unresolved, true_and]
      by_cases live : result.status.isOpen
      · rw [if_pos live, if_pos live]
      · rw [if_neg live, if_neg live, settled]
  | error raised =>
    -- A sale that fails without a timeout leaves nothing unresolved.
    have early := (prompt raised reply.symm).1
    refine ⟨⟨alone, inv.intact, never, fun a sold c open_ => ?_⟩, .idle, rfl, fun _ _ _ => trivial⟩
    simp only [Sys.answered, unresolved, early, Bool.false_eq_true, and_false, if_false] at open_
    obtain ⟨plain, logged⟩ := recalls_kept inv running (fun _ _ same => by cases same) open_
    exact ⟨plain, .inl logged⟩

/-- A lookup that settles a sale settles the last one of its account and symbol. -/
theorem query_settles {accountId symbol cid : String}
    {next : Except Exc (Option OrderResult) → StopTask (List StopResult)} {found : Option OrderResult}
    (inv : Remembers svc s) (running : s.tasks task = some (.ask (.query accountId symbol cid) next))
    (facts : stage.facts s) (may : stageRule svc stage (.query accountId symbol cid))
    (settled : settles found = true) :
    unresolved accountId symbol (.answered task ⟨.query accountId symbol cid, .ok found⟩ :: s.trace) = none := by
  simp only [unresolved, true_and, settled]
  cases open_ : unresolved accountId symbol s.trace with
  | none => simp
  | some earlier =>
    -- The log named this very sale.
    obtain ⟨-, others, read, details, latest, -, named⟩ :=
      recalls_kept inv running (fun _ _ same => by cases same) open_
    cases stage with
    | read rows =>
      obtain ⟨own, looked, -, asked⟩ := may
      obtain rfl : rows = others := Except.ok.inj (facts.symm.trans read)
      rw [looked] at latest
      cases latest
      rw [asked] at named
      cases named
      simp
    | sold account sold' own result =>
      obtain ⟨nonce, item, -, same⟩ := may
      cases same
    | _ => exact may.elim

/-- The answer to the lookup of a sale. -/
theorem taught_query {accountId symbol cid : String}
    {next : Except Exc (Option OrderResult) → StopTask (List StopResult)} {answer : Except Exc (Option OrderResult)}
    (inv : Remembers svc s) (running : s.tasks task = some (.ask (.query accountId symbol cid) next))
    (facts : stage.facts s) (may : stageRule svc stage (.query accountId symbol cid))
    (calmly : CalmAnswer (s.hist task) s.world (.query accountId symbol cid) choice)
    (reply : answer = choice.answer (.query accountId symbol cid)) :
    Taught svc s task (.query accountId symbol cid) next answer s.world stage := by
  have remembers : Remembers svc (s.answered task (.query accountId symbol cid) next answer s.world) := by
    have never := @never_answered svc s task (.query accountId symbol cid) next answer s.world inv
      fun _ _ _ _ same => by cases same
    refine ⟨alone_answered inv running, inv.intact, never, ?_⟩
    intro a sold c open_
    obtain ⟨plain, logged⟩ :=
      recalls_kept inv running (fun _ _ same => by cases same) (unresolved_query open_)
    exact ⟨plain, .inl logged⟩
  cases answer with
  | ok found =>
    refine ⟨remembers, _, rfl, fun _ _ _ => ?_⟩
    by_cases settled : settles found
    · rw [if_pos settled]
      exact query_settles inv running facts may settled
    · rw [if_neg settled]
      trivial
  | error raised => exact ⟨remembers, .idle, ⟨(calmly raised reply.symm).1, rfl⟩, fun _ _ _ => trivial⟩

/-- What the log recalls is not lost behind the row that a run appends. -/
theorem logged_behind {log : ByteArray}
    {accountId symbol cid : String} (inv : Remembers svc s) (facts : stage.facts s)
    (may : stageRule svc stage (.append action details))
    (calmly : CalmAnswer (s.hist task) s.world (.append action details) choice)
    (written : append lib s.world "emergency_stop" action details choice.now = .ok log) (plain : Plain accountId)
    (plainSymbol : Plain symbol) (before : unresolved accountId symbol s.trace = some cid)
    (logged : Logged svc s.world accountId symbol cid) : Logged svc log accountId symbol cid := by
  obtain ⟨-, known, timed, numbered⟩ := calmly
  have both := @logged_append svc lib accountId symbol cid _ _ _ _ _ inv.intact numbered (stageRule_logged may) known timed
    written plain plainSymbol
  cases stage with
  | sold account sold own result =>
    obtain ⟨nonce, item, rfl, same⟩ := may
    cases same
    obtain ⟨clear, clearSold, filled, own⟩ := facts
    refine both.2 account nonce _ item result rfl rfl clear clearSold ?_ fun _ => logged
    rintro rfl rfl
    rw [before] at own
    by_cases live : result.status.isOpen
    · rw [if_pos live] at own
      cases own
      exact ⟨rfl, filled, live⟩
    · rw [if_neg live] at own
      cases own
  | _ => exact both.1 may logged

/-- An appended row keeps what the log recalls. -/
theorem taught_append {next : Except Exc Unit → StopTask (List StopResult)} {log : ByteArray}
    (inv : Remembers svc s) (running : s.tasks task = some (.ask (.append action details) next))
    (facts : stage.facts s) (may : stageRule svc stage (.append action details))
    (calmly : CalmAnswer (s.hist task) s.world (.append action details) choice)
    (written : append lib s.world "emergency_stop" action details choice.now = .ok log)
    (intact : IntactLog svc.text log) : Taught svc s task (.append action details) next (.ok ()) log stage := by
  have alone := @alone_answered svc s task (.append action details) next (.ok ()) log inv running
  have never := @never_answered svc s task (.append action details) next (.ok ()) log inv
    fun _ _ _ _ same => by cases same
  refine ⟨⟨alone, intact, never, fun a symbol c open_ => ?_⟩, .idle, rfl, fun _ _ _ => trivial⟩
  have before : unresolved a symbol s.trace = some c := open_
  obtain ⟨⟨plain, plainSymbol⟩, logged | ⟨other, nonce, item, result, next', asks, named, live, filled⟩⟩ :=
    inv.recalls a symbol c before
  · exact ⟨⟨plain, plainSymbol⟩,
      .inl (logged_behind inv facts may calmly written plain plainSymbol before logged)⟩
  · -- The sale that waits for its row is the one that is written.
    obtain rfl := inv.alone _ _ _ _ _ _ running asks
    rw [running] at asks
    cases asks
    refine ⟨⟨plain, plainSymbol⟩, .inl ?_⟩
    obtain ⟨-, known, timed, numbered⟩ := calmly
    exact (logged_append inv.intact numbered (stageRule_logged may) known timed written plain plainSymbol).2
      a nonce c item result rfl rfl plain (named ▸ plainSymbol) (fun _ _ => ⟨rfl, filled, live⟩)
      fun other => absurd ⟨rfl, named⟩ other

/-- A call that is opened while no other run goes on. -/
theorem remembers_opened {call : StopCall} (inv : Remembers svc s)
    (calm : ∀ task request next, s.tasks task ≠ some (.ask request next)) :
    Remembers svc ((stopMachine svc lib).opened s call) := by
  refine ⟨?_, inv.intact, ?_, fun a symbol c open_ => ?_⟩
  · -- Only the new run asks.
    have only : ∀ task request next, ((stopMachine svc lib).opened s call).tasks task =
        some (.ask request next) → task = s.fresh := by
      intro task request next asks
      by_contra differ
      simp only [Machine.opened, Function.update_of_ne differ] at asks
      exact calm task request next asks
    intro task other request next request' next' one two
    rw [only task _ _ one, only other _ _ two]
  · intro newer task a symbol quantity cid answer older split
    cases newer with
    | nil => cases split
    | cons first newer => exact inv.never newer task _ _ _ _ _ older (List.cons.inj split).2
  · obtain ⟨plain, logged | ⟨task, nonce, item, result, next, asks, -⟩⟩ := inv.recalls a symbol c open_
    · exact ⟨plain, .inl logged⟩
    · exact absurd asks (calm task _ _)

/-- A crash that comes between no unresolved sale and its row. -/
theorem remembers_crashed (inv : Remembers svc s)
    (calm : ∀ task accountId nonce cid item result next,
      s.tasks task = some (.ask (.append sellLogAction (sellDetails svc accountId nonce cid item result)) next) →
        ¬result.status.isOpen) :
    Remembers svc ((stopMachine svc lib).crashed s) := by
  have idle : ∀ task request next, ((stopMachine svc lib).crashed s).tasks task ≠
      some (.ask request next) := by
    intro task request next asks
    simp only [Machine.crashed] at asks
    split at asks <;> cases asks
  refine ⟨fun task _ _ _ _ _ asks => absurd asks (idle task _ _), inv.intact, ?_, fun a symbol c open_ => ?_⟩
  · intro newer task a symbol quantity cid answer older split
    cases newer with
    | nil => cases split
    | cons first newer => exact inv.never newer task _ _ _ _ _ older (List.cons.inj split).2
  · obtain ⟨plain, logged | ⟨task, nonce, item, result, next, asks, -, live, -⟩⟩ := inv.recalls a symbol c open_
    · exact ⟨plain, .inl logged⟩
    · exact absurd live (calm task a nonce c item result next asks)

end

/-- Calm runs keep the log's memory of the sales true. -/
theorem stages_sound :
    (stages svc).Sound (stopMachine svc lib) (CalmMove svc) where
  resume := by
    intro s task choice request next answer log stage represented calm running known keeps performed
    have served : stopPerform lib s.world task request choice = some (answer, log) := performed
    have inv : Remembers svc s := represented.inv
    have calmly := calm request next running
    have facts : stage.facts s := known request next running
    have may : stageRule svc stage request := (Safe.ask_iff.mp keeps).1
    have frames : (stages svc).Frames task s (s.answered task request next answer log) := by
      -- No other run goes on.
      intro other program ghost differ old _ _ request' next' asks
      simp only [Sys.answered, Function.update_of_ne differ] at asks
      exact absurd (inv.alone _ _ _ _ _ _ asks running) differ
    cases request with
    | sell accountId symbol quantity cid =>
      obtain ⟨reply, rfl⟩ := stopPerform_other served (fun same => by cases same) fun _ _ same => by cases same
      have taught := taught_sell inv running facts keeps calmly reply
      exact ⟨taught.remembers, taught.learned, frames⟩
    | query accountId symbol cid =>
      obtain ⟨reply, rfl⟩ := stopPerform_other served (fun same => by cases same) fun _ _ same => by cases same
      have taught := taught_query inv running facts may calmly reply
      exact ⟨taught.remembers, taught.learned, frames⟩
    | append action details =>
      obtain ⟨rfl, written, intact⟩ := stopPerform_append served inv.intact (stageRule_logged may) calmly
      have taught := taught_append inv running facts may calmly written intact
      exact ⟨taught.remembers, taught.learned, frames⟩
    | entries =>
      cases served
      refine ⟨remembers_quiet inv running (fun _ _ _ _ same => by cases same) (fun _ _ _ same => by cases same)
        (fun _ _ same => by cases same), ?_, frames⟩
      cases read : entries s.world with
      | ok rows => exact ⟨.read rows, rfl, fun _ _ _ => read⟩
      | error raised => exact ⟨.idle, rfl, fun _ _ _ => trivial⟩
    | _ =>
      cases served
      exact ⟨remembers_quiet inv running (fun _ _ _ _ same => by cases same) (fun _ _ _ same => by cases same)
        (fun _ _ same => by cases same), ⟨.idle, rfl, fun _ _ _ => trivial⟩, frames⟩
  «open» := by
    intro s call value represented calm booted
    refine ⟨remembers_opened represented.inv calm, ⟨.idle, fun _ _ _ => trivial, emergencyStop_safe trivial⟩, ?_⟩
    intro other program ghost differ old _ _ request next asks
    simp only [Machine.opened, Function.update_of_ne differ] at asks
    exact absurd asks (calm other _ _)
  crash := by
    intro s represented calm
    exact ⟨remembers_crashed represented.inv calm, .idle, fun _ _ _ => trivial, Safe.done trivial⟩

/-- The process starts with nothing sold. -/
theorem stages_started (intact : IntactLog svc.text log) :
    (stages svc).Represented ((stopMachine svc lib).start log) where
  orderly := Machine.start_orderly log
  inv := by
    have idle : ∀ task request next, ((stopMachine svc lib).start log).tasks task ≠
        some (.ask request next) := by
      intro task request next asks
      simp only [Machine.start] at asks
      split at asks <;> cases asks
    refine ⟨fun task _ _ _ _ _ asks => absurd asks (idle task _ _), intact, ?_, fun _ _ _ open_ => by cases open_⟩
    intro newer task a symbol quantity cid answer older split
    cases newer <;> cases split
  task := by
    intro task program running
    simp only [Machine.start] at running
    split at running
    · cases running
      exact ⟨.idle, fun _ _ _ => trivial, Safe.done trivial⟩
    · cases running

/-- The log answers, and the exchange does not fail while a sale of the account is unresolved. -/
def CalmReply (svc : StopService) (hist : StopHist) (request : StopReq) (answer : Except Exc request.Ans) : Prop :=
  match request, answer with
  | .entries, .ok rows => IntactRows svc.text rows
  | .entries, .error _ => False
  | .append _ _, .error _ => False
  | .sell accountId _ _ _, .error raised => raised.isTimeout = false ∧
      ((∃ error, raised = .rasat error) ∨ ∀ sold cid, ¬UnresolvedSale hist accountId sold cid)
  | .query accountId _ _, .error raised =>
      (∀ error, raised ≠ .rasat error) ∧ ∀ sold cid, ¬UnresolvedSale hist accountId sold cid
  | _, _ => True

/-- A run that gets calm replies and knows all of them. -/
def reporting (svc : StopService) : Discipline StopReq StopReq.Ans Exc StopHist where
  rule _ _ := True
  learn hist request answer learned := learned = ⟨request, answer⟩ :: hist ∧ CalmReply svc hist request answer

/-- The sale is among these reports, as pending. -/
def ReportedIn (sold : List StopSale) (symbol cid : String) : Prop :=
  ∃ sale ∈ sold, sale.symbol = symbol ∧ sale.cid = some cid ∧ sale.pending ∧ sale.reconcileRequired

/-- The sale is reported as pending by the result of its account, which asks for a reconciliation. -/
def Reported (results : List StopResult) (accountId symbol cid : String) : Prop :=
  ∃ result ∈ results, result.accountId = accountId ∧ result.reconcileRequired ∧
    ReportedIn result.pending symbol cid

/-- Everything unresolved was so before. -/
def NoMore (before hist : StopHist) : Prop :=
  ∀ accountId symbol cid, UnresolvedSale hist accountId symbol cid → UnresolvedSale before accountId symbol cid

/-- Everything unresolved was so before, or is one of these sales of the account. -/
def ReportedSince (before : StopHist) (accountId : String) (sold : List StopSale) (hist : StopHist) : Prop :=
  ∀ account symbol cid, UnresolvedSale hist account symbol cid →
    UnresolvedSale before account symbol cid ∨ account = accountId ∧ ReportedIn sold symbol cid

/-- Only an unresolved sale is a new one. -/
theorem unresolvedSale_cons
    (open_ : UnresolvedSale (⟨request, answer⟩ :: hist) accountId symbol cid) :
    UnresolvedSale hist accountId symbol cid ∨
      ∃ quantity reply, (⟨request, answer⟩ : Event StopReq StopReq.Ans Exc) =
        ⟨.sell accountId symbol quantity cid, reply⟩ ∧
          match reply with
          | .ok result => result.status.isOpen
          | .error raised => raised.isTimeout := by
  obtain ⟨quantity, reply, member, live⟩ := open_
  rcases List.mem_cons.mp member with same | older
  · exact .inr ⟨quantity, reply, same.symm, live⟩
  · exact .inl ⟨quantity, reply, older, live⟩

/-- What does not sell leaves nothing more unresolved. -/
theorem unsold_reports {α : Type} {program : StopTask α} {kind : StopReq → Prop}
    (unsold : ∀ a m q c, ¬kind (.sell a m q c)) (only : program.Only kind) :
    Safe (reporting svc) program hist fun _ later => NoMore hist later := by
  refine Safe.of_only kind (NoMore hist) (fun _ _ _ _ => trivial) ?_ only fun _ _ _ same => same
  rintro later request answer learned holds asked ⟨rfl, -⟩ account symbol cid open_
  rcases unresolvedSale_cons open_ with older | ⟨quantity, reply, same, -⟩
  · exact holds account symbol cid older
  · cases same
    exact (unsold _ _ _ _ asked).elim

/-- A new sale that stays unresolved is reported, and nothing of the account is unresolved when it ends the
account. -/
theorem sellNew_reports : Safe (reporting svc) (sellNew svc accountId runNonce item) hist (Outcome
      (fun sale later => ReportedSince hist accountId [sale] later)
      fun _ later => NoMore hist later ∧ ∀ sold cid, ¬UnresolvedSale later accountId sold cid) := by
  unfold sellNew
  simp only [Prog.bind_eq, Prog.pure_eq]
  rw [Safe.bind_iff, Safe.attempt_iff]
  unfold sellAndLog stopAsk
  simp only [Prog.bind_eq, Prog.pure_eq]
  rw [Safe.bind_iff, Safe.call_iff]
  refine ⟨trivial, ?_⟩
  rintro answer learned ⟨rfl, calm⟩
  cases answer with
  | error raised =>
    obtain ⟨prompt, clean⟩ := calm
    have less : NoMore hist (⟨.sell accountId item.symbol item.quantity
        (stopCid accountId runNonce item.symbol), .error raised⟩ :: hist) := by
      intro account symbol cid open_
      rcases unresolvedSale_cons open_ with older | ⟨quantity, reply, same, late⟩
      · exact older
      · cases same
        rw [show raised.isTimeout = true from late] at prompt
        cases prompt
    cases raised with
    | rasat error => exact Safe.done fun account symbol cid open_ => .inl (less account symbol cid open_)
    | _ =>
      refine Safe.fail ⟨less, fun sold cid open_ => ?_⟩
      rcases clean with ⟨error, same⟩ | none
      · cases same
      · exact none sold cid (less _ _ _ open_)
  | ok result =>
    rw [Outcome_ok, Safe.bind_iff, Safe.call_iff]
    refine ⟨trivial, ?_⟩
    rintro logged after ⟨rfl, calm⟩
    cases logged with
    | error raised => exact calm.elim
    | ok done =>
      refine Safe.done (Safe.done fun account symbol cid open_ => ?_)
      rcases unresolvedSale_cons open_ with older | ⟨_, _, same, -⟩
      · rcases unresolvedSale_cons older with older | ⟨quantity, reply, same, live⟩
        · exact .inl older
        · -- This sale itself is unresolved.
          cases same
          have open_ : result.status.isOpen = true := live
          refine .inr ⟨rfl, _, List.mem_cons_self, rfl, rfl, ?_, ?_⟩
          · exact open_
          · exact open_
      · cases same

/-- More reports report no less. -/
theorem ReportedSince.append {middle later : StopHist}
    {sale : StopSale} (known : ReportedSince before accountId sold middle)
    (more : ReportedSince middle accountId [sale] later) :
    ReportedSince before accountId (sold ++ [sale]) later := by
  intro account symbol cid open_
  rcases more account symbol cid open_ with older | ⟨rfl, other, member, facts⟩
  · rcases known account symbol cid older with older | ⟨rfl, other, member, facts⟩
    · exact .inl older
    · exact .inr ⟨rfl, other, List.mem_append_left _ member, facts⟩
  · exact .inr ⟨rfl, other, List.mem_append_right _ member, facts⟩

/-- What was reported stays reported when nothing more is unresolved. -/
theorem ReportedSince.keep {middle later : StopHist}
    (known : ReportedSince before accountId sold middle) (less : NoMore middle later) :
    ReportedSince before accountId sold later :=
  fun account symbol cid open_ => known account symbol cid (less account symbol cid open_)

/-- An answer that is no sale's leaves nothing more unresolved. -/
theorem noMore_cons
    (unsold : ∀ a m q c, request ≠ .sell a m q c) : NoMore hist (⟨request, answer⟩ :: hist) := by
  intro account symbol cid open_
  rcases unresolvedSale_cons open_ with older | ⟨quantity, reply, same, -⟩
  · exact older
  · cases same
    exact absurd rfl (unsold _ _ _ _)

/-- Every planned sale that stays unresolved is reported. -/
theorem sellPlanned_reports (known : ReportedSince before accountId sold hist) :
    Safe (reporting svc) (sellPlanned svc accountId dryRun runNonce sold item) hist (Outcome
      (fun sold later => ReportedSince before accountId sold later) fun _ later => NoMore before later) := by
  have wider {other : StopSale} {later : StopHist} (less : NoMore hist later) :
      ReportedSince before accountId (sold ++ [other]) later :=
    known.append fun account symbol cid open_ => .inl (less account symbol cid open_)
  have anew {middle : StopHist} (less : NoMore hist middle) :
      Safe (reporting svc) ((sellNew svc accountId runNonce item).bind fun sale => .done (sold ++ [sale])) middle
        (Outcome (fun sold later => ReportedSince before accountId sold later)
          fun _ later => NoMore before later) := by
    rw [Safe.bind_iff]
    refine sellNew_reports.mono fun outcome later facts => ?_
    cases outcome with
    | ok sale => exact Safe.done ((known.keep less).append facts)
    | error raised =>
      intro account symbol cid open_
      rcases known.keep less account symbol cid (facts.1 account symbol cid open_) with older | ⟨rfl, -⟩
      · exact older
      · exact absurd open_ (facts.2 symbol cid)
  unfold sellPlanned
  split
  · exact Safe.done (wider fun _ _ _ same => same)
  simp only [stopAsk, Prog.bind_eq, Prog.pure_eq]
  rw [Safe.bind_iff, Safe.call_iff]
  refine ⟨trivial, ?_⟩
  rintro answer learned ⟨rfl, calm⟩
  cases answer with
  | error raised => exact calm.elim
  | ok rows =>
    have read : NoMore hist (⟨.entries, .ok rows⟩ :: hist) := noMore_cons fun _ _ _ _ same => by cases same
    have whole : IntactRows svc.text rows := calm
    rw [Outcome_ok, Safe.bind_iff, Safe.ofExcept_iff, latestSellDetails_returns whole.lookable, Outcome_ok]
    -- What the log tells of the latest sale decides whether it is asked for first.
    cases last : lastSale svc.text accountId item.symbol rows with
    | none => exact anew read
    | some details =>
      rw [Option.map_some]
      dsimp only
      by_cases pending : isPendingText (memberOf "status" details)
      · -- The id of a sale of intact rows can be sent, so that the lookup is asked.
        obtain ⟨cid, named⟩ := (@priorCid_iff svc accountId item.symbol _).mpr
          (whole.resumable accountId item.symbol details last pending)
        rw [if_pos pending, Safe.bind_iff, Safe.ofExcept_iff, named, Outcome_ok, Safe.bind_iff]
        unfold queryPrior
        simp only [stopAsk, Prog.bind_eq, Prog.pure_eq]
        rw [Safe.bind_iff, Safe.attempt_iff, Safe.call_iff]
        refine ⟨trivial, ?_⟩
        rintro reply after ⟨rfl, calm⟩
        cases reply with
        | error raised =>
          obtain ⟨strange, clean⟩ := calm
          have asked := @noMore_cons (.query accountId item.symbol cid) (.error raised)
            (⟨.entries, .ok rows⟩ :: hist) fun _ _ _ _ same => by cases same
          -- A query whose error is not one of the daemon raises out of the loop, so that nothing is reported.
          cases raised with
          | rasat error => exact absurd rfl (strange error)
          | _ =>
            refine Safe.fail fun account symbol cid open_ => ?_
            have old := asked account symbol cid open_
            rcases known.keep read account symbol cid old with older | ⟨rfl, -⟩
            · exact older
            · exact absurd old (clean symbol cid)
        | ok found =>
          have asked := @noMore_cons (.query accountId item.symbol cid) (.ok found)
            (⟨.entries, .ok rows⟩ :: hist) fun _ _ _ _ same => by cases same
          have both : NoMore hist _ := fun account symbol cid open_ =>
            read account symbol cid (asked account symbol cid open_)
          refine Safe.done ?_
          -- An unknown or ended sale is followed by a new one; an open one is reported as it is.
          cases found with
          | none => exact anew both
          | some result =>
            simp only [Outcome_ok]
            by_cases live : result.status.isOpen
            · rw [if_pos live]
              exact Safe.done (wider both)
            · rw [if_neg live]
              exact anew both
      · rw [if_neg pending]
        exact anew read

/-- The result of an account reports what its run left unresolved. -/
def ResultReports (before : StopHist) (accountId : String) (result : StopResult) (hist : StopHist) : Prop :=
  ∀ account symbol cid, UnresolvedSale hist account symbol cid →
    UnresolvedSale before account symbol cid ∨
      account = accountId ∧ result.accountId = accountId ∧ result.reconcileRequired ∧
        ReportedIn result.pending symbol cid

/-- The loop over the plan reports every sale that stays unresolved. -/
theorem sellLoop_reports {plan : List PlanItem} (less : NoMore before hist) :
    Safe (reporting svc) (plan.foldlM (sellPlanned svc accountId dryRun runNonce) []) hist (Outcome
      (fun sold later => ReportedSince before accountId sold later) fun _ later => NoMore before later) :=
  Safe.foldlM (fun _ sold later => ReportedSince before accountId sold later)
    (fun _ later => NoMore before later)
    (fun account symbol cid open_ => .inl (less account symbol cid open_))
    fun _ _ _ _ known => sellPlanned_reports known

/-- A pending sale is among the pending ones of the report. -/
theorem stopReport_pending {cancels : Cancels} {planned : Planned} (reported : ReportedIn sold symbol cid) :
    (stopReport accountId dryRun cancels planned sold).reconcileRequired ∧
      ReportedIn (stopReport accountId dryRun cancels planned sold).pending symbol cid := by
  obtain ⟨sale, member, named, own, pending, reconcile⟩ := reported
  have kept : sale ∈ sold.filter fun sale => sale.pending := List.mem_filter.mpr ⟨member, pending⟩
  refine ⟨?_, sale, kept, named, own, pending, reconcile⟩
  simp only [stopReport, decide_eq_true_eq, List.isEmpty_iff]
  exact List.ne_nil_of_mem kept

/-- One stop that sells nothing more leaves nothing more unresolved. -/
theorem less_result {result : StopResult}
    (less : NoMore before hist) : ResultReports before accountId result hist :=
  fun account symbol cid open_ => .inl (less account symbol cid open_)

/-- A part that sells nothing comes before the rest of the stop. -/
theorem unsold_then {α β : Type} {program : StopTask α} {next : α → StopTask β}
    {kind : StopReq → Prop} {post : β → StopHist → Prop} (unsold : ∀ a m q c, ¬kind (.sell a m q c))
    (only : program.Only kind) (less : NoMore before hist)
    (rest : ∀ value later, NoMore before later →
      Safe (reporting svc) (next value) later (Outcome post fun _ last => NoMore before last)) :
    Safe (reporting svc) (program.bind next) hist (Outcome post fun _ last => NoMore before last) := by
  rw [Safe.bind_iff]
  refine (unsold_reports unsold only).mono fun outcome later more => ?_
  have fewer : NoMore before later := fun account symbol cid open_ =>
    less account symbol cid (more account symbol cid open_)
  cases outcome with
  | ok value => exact rest value later fewer
  | error raised => exact fewer

/-- The stop of one account reports what it leaves unresolved, and leaves nothing when it raises. -/
theorem stopOne_reports : Safe (reporting svc) (stopOne svc accountId yes dryRun) hist (Outcome
      (fun result later => ResultReports hist accountId result later) fun _ later => NoMore hist later) := by
  have unsold : ∀ a m q c, ¬StopReq.isPreparing (.sell a m q c) := fun _ _ _ _ => id
  unfold stopOne
  simp only [stopAsk, Prog.bind_eq, Prog.pure_eq]
  refine @unsold_then svc hist hist _ _ _ _ (fun request => request = .credentials accountId) _
    (fun _ _ _ _ same => by cases same) (Prog.only_attempt (Prog.only_call.mpr rfl)) (fun _ _ _ same => same)
    fun checked later less => ?_
  cases checked with
  | error raised =>
    cases raised with
    | rasat error =>
      dsimp only
      split
      · exact Safe.done (less_result less)
      · exact Safe.fail less
    | _ => exact Safe.fail less
  | ok done =>
    -- Everything up to the sales sells nothing, so that it leaves no sale unresolved.
    unfold stopAccount
    simp only [stopAsk, Prog.bind_eq]
    refine @unsold_then svc later hist _ _ _ _ (fun request => request = .openOrders accountId) _
      (fun _ _ _ _ same => by cases same) (Prog.only_call.mpr rfl) less fun orders later less => ?_
    refine unsold_then unsold (Prog.only_foldlM (cancelSymbol_prepares dryRun) _ _) less
      fun cancels later less => ?_
    refine @unsold_then svc later hist _ _ _ _ (fun request => request = .balances accountId) _
      (fun _ _ _ _ same => by cases same) (Prog.only_call.mpr rfl) less fun balances later less => ?_
    refine unsold_then unsold (Prog.only_foldlM planAsset_prepares _ _) less fun planned later less => ?_
    unfold sellPlan
    simp only [stopAsk, Prog.bind_eq, Prog.pure_eq]
    refine unsold_then unsold (confirmPlan_prepares yes dryRun _) less fun ended later less => ?_
    cases ended with
    | some result => exact Safe.done (less_result less)
    | none =>
      refine unsold_then unsold (Prog.only_call.mpr trivial) less fun runNonce later less => ?_
      rw [Safe.bind_iff]
      refine (sellLoop_reports less).mono fun outcome last facts => ?_
      cases outcome with
      | error raised => exact facts
      | ok sold =>
        refine Safe.done fun account symbol cid open_ => ?_
        rcases facts account symbol cid open_ with older | ⟨rfl, reported⟩
        · exact .inl older
        · exact .inr ⟨rfl, rfl, stopReport_pending reported⟩

/-- A whole run reports what it leaves unresolved, and leaves nothing when it raises. -/
theorem emergencyStop_reports {wanted : List String} :
    Safe (reporting svc) (emergencyStop svc wanted yes dryRun) [] (Outcome
      (fun results later => ∀ accountId symbol cid, UnresolvedSale later accountId symbol cid →
        Reported results accountId symbol cid)
      fun _ later => NoMore [] later) := by
  have accounts : (resolveAccounts wanted).Only fun request => request = .accounts := by
    refine Prog.only_bind (Prog.only_call.mpr rfl) fun listed => ?_
    split
    · exact Prog.only_done
    · split
      · exact Prog.only_fail
      · exact Prog.only_done
  unfold emergencyStop
  simp only [Prog.bind_eq, Prog.pure_eq]
  refine unsold_then (fun _ _ _ _ same => nomatch same) accounts (fun _ _ _ same => same)
    fun listed later less => ?_
  refine Safe.foldlM (fun _ results later => ∀ accountId symbol cid,
    UnresolvedSale later accountId symbol cid → Reported results accountId symbol cid) _ ?_ ?_
  · intro accountId symbol cid open_
    obtain ⟨quantity, reply, member, -⟩ := less accountId symbol cid open_
    cases member
  · -- What earlier accounts have left is reported already; each turn adds the result of its own account.
    intro accountId rest results middle known
    rw [Safe.bind_iff]
    refine Safe.rescue stopOne_reports (fun result last facts => ?_) fun raised last facts => ?_
    · refine Safe.done fun account symbol cid open_ => ?_
      rcases facts account symbol cid open_ with older | ⟨rfl, own, reconcile, reported⟩
      · obtain ⟨other, member, facts⟩ := known account symbol cid older
        exact ⟨other, List.mem_append_left _ member, facts⟩
      · exact ⟨result, List.mem_append_right _ List.mem_cons_self, own, reconcile, reported⟩
    · refine Safe.done (Safe.done fun account symbol cid open_ => ?_)
      obtain ⟨other, member, facts⟩ := known account symbol cid (facts account symbol cid open_)
      exact ⟨other, List.mem_append_left _ member, facts⟩

/-- Every run is where its history has brought it, by calm replies. -/
structure Told (svc : StopService) (s : StopState) : Prop where
  follows : ∀ task call program, s.calls task = some call → s.tasks task = some program →
    Reaches (emergencyStop svc call.accountIds call.yes call.dryRun) [] program (s.hist task)
  idle : ∀ task, s.calls task = none → s.hist task = [] ∧
    ∀ program, s.tasks task = some program → program = .done []
  calm : ∀ task newer event older, s.hist task = newer ++ event :: older →
    CalmReply svc older event.request event.answer

/-- A calm move gives a calm reply. -/
theorem reply_calm {choice : StopChoice} (intact : IntactLog svc.text s.world)
    (may : stageRule svc stage request) (calm : CalmAnswer (s.hist task) s.world request choice)
    (served : stopPerform lib s.world task request choice = some (answer, log)) :
    CalmReply svc (s.hist task) request answer := by
  cases request with
  | entries =>
    cases served
    obtain ⟨rows, holds, whole⟩ := intact
    rw [holds.entries]
    exact whole
  | append action details =>
    obtain ⟨rfl, -⟩ := stopPerform_append served intact (stageRule_logged may) calm
    trivial
  | sell accountId symbol quantity cid =>
    obtain ⟨reply, -⟩ := stopPerform_other served (fun same => by cases same) fun _ _ same => by cases same
    cases answer with
    | ok result => trivial
    | error raised => exact calm.2.2 raised reply.symm
  | query accountId symbol cid =>
    obtain ⟨reply, -⟩ := stopPerform_other served (fun same => by cases same) fun _ _ same => by cases same
    cases answer with
    | ok found => trivial
    | error raised => exact calm raised reply.symm
  | _ => cases answer <;> trivial

variable {move : Move StopChoice StopCall}

/-- Calm moves keep every run where its history has brought it. -/
theorem told_step {after : StopState} (represented : (stages svc).Represented s) (calm : CalmMove svc s move)
    (stepped : (stopMachine svc lib).step s move = some after) (told : Told svc s) : Told svc after := by
  have unused := represented.orderly.unused s.fresh (Nat.le_refl _)
  obtain ⟨call, value, rfl, -, rfl⟩ |
    ⟨task, choice, request, next, answer, log, rfl, running, performed, rfl⟩ | ⟨rfl, rfl⟩ :=
    Machine.step_cases stepped
  · refine ⟨fun task call' program called found => ?_, fun task none => ?_, told.calm⟩
    · by_cases new : task = s.fresh
      · subst new
        have same : call = call' := by simpa [Machine.opened] using called
        have started : (stopMachine svc lib).program call = program := by
          simpa [Machine.opened] using found
        subst same
        subst started
        rw [Machine.hist_opened, unused.2.2]
        exact .here
      · simp only [Machine.opened, Function.update_of_ne new] at called found
        exact told.follows task call' program called found
    · by_cases new : task = s.fresh
      · subst new
        simp [Machine.opened] at none
      · simp only [Machine.opened, Function.update_of_ne new] at none ⊢
        exact told.idle task none
  · have served : stopPerform lib s.world task request choice = some (answer, log) := performed
    refine ⟨fun other call program called found => ?_, fun other none => ?_, fun other newer event older split => ?_⟩
    · by_cases own : other = task
      · subst own
        simp only [Sys.answered, Function.update_self, Option.some.injEq] at found
        subst found
        rw [Sys.hist_answered_self]
        exact .answer (told.follows other call _ called running) answer
      · rw [Sys.hist_answered_other own]
        exact told.follows other call program called
          (by simpa only [Sys.answered, Function.update_of_ne own] using found)
    · by_cases own : other = task
      · subst own
        cases (told.idle other none).2 _ running
      · rw [Sys.hist_answered_other own]
        simpa only [Sys.answered, Function.update_of_ne own] using told.idle other none
    · by_cases own : other = task
      · subst own
        rw [Sys.hist_answered_self] at split
        cases newer with
        | nil =>
          obtain ⟨rfl, rfl⟩ := List.cons.inj split
          obtain ⟨stage, -, keeps⟩ := represented.task other _ running
          exact reply_calm represented.inv.intact (Safe.ask_iff.mp keeps).1 (calm request next running) served
        | cons first newer => exact told.calm other newer event older (List.cons.inj split).2
      · rw [Sys.hist_answered_other own] at split
        exact told.calm other newer event older split
  · refine ⟨fun task call program called found => ?_, fun task none => ?_, told.calm⟩
    · -- Only the boot task is there, which serves no call.
      have boot : task = s.fresh := by
        by_contra other
        simp [Machine.crashed, other] at found
      rw [boot, show ((stopMachine svc lib).crashed s).calls s.fresh = _ from unused.2.1] at called
      cases called
    · refine ⟨(told.idle task none).1, fun program found => ?_⟩
      simp only [Machine.crashed] at found
      split at found <;> cases found
      rfl

/-- Over every sequence of emergency stops from an intact log whose moves are all calm: no SELL is submitted
while one of its account and symbol is unresolved, and a run that returns reports every sale that it left
unresolved as pending, with a reconciliation required; one that raises left none. -/
theorem never_sold_twice (svc : StopService) (lib : LogLibrary) (log : ByteArray)
    (intact : IntactLog svc.text log) (s : StopState)
    (steps : (stopMachine svc lib).Steps (CalmMove svc) ((stopMachine svc lib).start log) s) :
    NeverTwice s.trace ∧
      (∀ task results, s.tasks task = some (.done results) → ∀ accountId symbol cid,
        UnresolvedSale (s.hist task) accountId symbol cid → Reported results accountId symbol cid) ∧
      ∀ task raised, s.tasks task = some (.fail raised) → ∀ accountId symbol cid,
        ¬UnresolvedSale (s.hist task) accountId symbol cid := by
  have represented := (@stages_sound _ lib).represented (stages_started intact) steps
  have told : Told svc s := by
    refine (@stages_sound _ lib).invariant (Told svc)
      (fun s move after represented calm stepped told => told_step represented calm stepped told)
      (stages_started intact) ⟨(fun _ _ _ called => nomatch called), fun task _ => ⟨rfl, ?_⟩, ?_⟩ steps
    · intro program found
      simp only [Machine.start] at found
      split at found <;> cases found
      rfl
    · intro task newer event older split
      cases newer <;> cases split
  -- What a run has come to is what its calm history proves of it.
  have ended : ∀ task call program, s.calls task = some call → s.tasks task = some program →
      Safe (reporting svc) program (s.hist task) (Outcome
        (fun results later => ∀ accountId symbol cid, UnresolvedSale later accountId symbol cid →
          Reported results accountId symbol cid)
        fun _ later => NoMore [] later) := fun task call program called found =>
    Safe.along emergencyStop_reports (told.follows task call program called found)
      fun newer event older split => ⟨rfl, told.calm task newer event older split⟩
  refine ⟨represented.inv.never, fun task results finished a symbol cid open_ => ?_,
    fun task raised failed a symbol cid open_ => ?_⟩
  · cases called : s.calls task with
    | none =>
      rw [(told.idle task called).1] at open_
      obtain ⟨quantity, reply, member, -⟩ := open_
      cases member
    | some call => exact Safe.done_iff.mp (ended task call _ called finished) a symbol cid open_
  · cases called : s.calls task with
    | none => cases (told.idle task called).2 _ failed
    | some call =>
      obtain ⟨quantity, reply, member, -⟩ :=
        Safe.fail_iff.mp (ended task call _ called failed) a symbol cid open_
      cases member

/-- Runs that follow each other; everything else is free. -/
def InTurn (s : StopState) : Move StopChoice StopCall → Prop
  | .open _ => ∀ task request next, s.tasks task ≠ some (.ask request next)
  | _ => True

/-- Whether no run goes on. -/
def allEnded (s : StopState) : Bool :=
  (List.range s.fresh).all fun task => match s.tasks task with
    | some (.ask _ _) => false
    | _ => true

theorem allEnded_spec (orderly : s.Orderly) (ended : allEnded s) :
    ∀ task request next, s.tasks task ≠ some (.ask request next) := by
  intro task request next asks
  by_cases known : task < s.fresh
  · have quiet := List.all_eq_true.mp ended task (List.mem_range.mpr known)
    rw [asks] at quiet
    cases quiet
  · rw [(orderly.unused task (not_lt.mp known)).1] at asks
    cases asks

/-- A check of moves in turn. -/
def turnCheck (s : StopState) : Move StopChoice StopCall → Bool
  | .open _ => allEnded s
  | _ => true

/-- A check that the log does not run out of numbers. -/
def numberedCheck (log : ByteArray) : Bool :=
  match (entries log).bind tailOf with
  | .ok (prevSeq, _) =>
    match succDocument prevSeq with
    | .ok seq => countable (json seq.raw)
    | .error _ => true
  | .error _ => true

/-- A check of calm moves. -/
def calmCheck (s : StopState) : Move StopChoice StopCall → Bool
  | .open _ => allEnded s
  | .crash => false
  | .resume task choice => match s.tasks task with
    | some (.ask (.append _ details) _) =>
      choice.cut = none ∧ (Raw.dict details).isJson ∧ shortInt choice.now ∧ numberedCheck s.world
    | some (.ask (.sell accountId symbol quantity cid) _) =>
      ':' ∉ accountId.toList ∧ ':' ∉ symbol.toList ∧
        (choice.answer (.sell accountId symbol quantity cid)).isOk
    | some (.ask (.query accountId symbol cid) _) => (choice.answer (.query accountId symbol cid)).isOk
    | _ => true

theorem turnCheck_spec (orderly : s.Orderly) (checked : turnCheck s move) : InTurn s move := by
  cases move with
  | «open» call => exact allEnded_spec orderly checked
  | _ => trivial

theorem numberedCheck_spec (checked : numberedCheck log) : Numbered log := by
  rintro rows prevHash seq read ⟨prevSeq, tail, next, -⟩
  have found : (entries log).bind tailOf = .ok (prevSeq, prevHash) := by
    rw [read]
    exact tail
  simpa only [numberedCheck, found, next] using checked

theorem calmCheck_spec (orderly : s.Orderly) (checked : calmCheck s move) : CalmMove svc s move := by
  cases move with
  | «open» call => exact allEnded_spec orderly checked
  | crash => cases checked
  | resume task choice =>
    intro request next asks
    simp only [calmCheck, asks] at checked
    cases request with
    | append action details =>
      obtain ⟨whole, known, timed, numbered⟩ := of_decide_eq_true checked
      exact ⟨whole, known, timed, numberedCheck_spec numbered⟩
    | sell accountId symbol quantity cid =>
      obtain ⟨plain, plainSymbol, good⟩ := of_decide_eq_true checked
      refine ⟨plain, plainSymbol, fun raised failed => ?_⟩
      rw [failed] at good
      cases good
    | query accountId symbol cid =>
      have good : (choice.answer (.query accountId symbol cid)).isOk = true := checked
      intro raised failed
      rw [failed] at good
      cases good
    | _ => trivial

/-- Checked moves from the start of the process. -/
theorem checked_steps {check : StopState → Move StopChoice StopCall → Bool}
    {allowed : StopState → Move StopChoice StopCall → Prop} {moves : List (Move StopChoice StopCall)}
    (allows : ∀ s move, s.Orderly → check s move → allowed s move)
    (ran : (stopMachine svc lib).checkedRun check ((stopMachine svc lib).start log) moves = some s) :
    (stopMachine svc lib).Steps allowed ((stopMachine svc lib).start log) s := by
  have both : s.Orderly ∧ (stopMachine svc lib).Steps allowed ((stopMachine svc lib).start log) s := by
    have steps := Machine.checkedRun_steps ran
    clear ran
    induction steps with
    | refl => exact ⟨Machine.start_orderly log, .refl⟩
    | tail _ last ih =>
      obtain ⟨move, checked, stepped⟩ := last
      exact ⟨Machine.step_orderly ih.1 stepped, .tail ih.2 ⟨move, allows _ move ih.1 checked, stepped⟩⟩
  exact both.2

/-- An empty log is intact. -/
theorem empty_intact : IntactLog svc.text .empty := by
  refine ⟨[], holds_empty, fun last listed => ?_, List.forall_mem_nil _, fun accountId symbol details last => ?_⟩
  · cases listed
  · cases last

/-- An account with one coin; every sale is answered like this. -/
def coinAnswers (sale : Except Exc OrderResult) : (request : StopReq) → Except Exc request.Ans
  | .accounts => .ok ["main"]
  | .credentials _ => .ok ()
  | .openOrders _ => .ok []
  | .cancelAll _ _ => .ok 0
  | .balances _ => .ok [("BTC", 1)]
  | .filters _ => .ok (some wholeCoins)
  | .price _ => .ok (some 10)
  | .confirm _ _ => .ok none
  | .nonce => .ok "00000000"
  | .query _ _ _ => .ok none
  | .sell _ _ _ _ => sale
  | .entries => .ok []
  | .append _ _ => .ok ()

/-- A run of the emergency stop, up to the answer to its sale. -/
def coinRun (task : ℕ) (sale : Except Exc OrderResult) : List (Move StopChoice StopCall) :=
  .open { accountIds := [], yes := true, dryRun := false } ::
    List.replicate 9 (.resume task { answer := coinAnswers sale })

/-- The row of the sale is written. -/
def coinLogged (task : ℕ) : Move StopChoice StopCall := .resume task { answer := coinAnswers (.ok { status := .new }) }

/-- Whether an event is the open answer to a sale under this id. -/
def isOpenSale (accountId symbol cid : String) : Event StopReq StopReq.Ans Exc → Bool
  | ⟨.sell account sold _ own, .ok result⟩ =>
    account = accountId ∧ sold = symbol ∧ own = cid ∧ result.status.isOpen
  | _ => false

theorem isOpenSale_spec
    (open_ : hist.any (isOpenSale accountId symbol cid)) : UnresolvedSale hist accountId symbol cid := by
  obtain ⟨event, member, own⟩ := List.any_eq_true.mp open_
  unfold isOpenSale at own
  split at own
  · obtain ⟨rfl, rfl, rfl, live⟩ := of_decide_eq_true own
    exact ⟨_, _, member, live⟩
  · cases own

/-- Whether a run has returned. -/
def hasReturned (s : StopState) (task : ℕ) : Bool :=
  match s.tasks task with
  | some (.done _) => true
  | _ => false

theorem hasReturned_spec (returned : hasReturned s task) : ∃ results, s.tasks task = some (.done results) := by
  unfold hasReturned at returned
  split at returned
  · rename_i results done
    exact ⟨results, done⟩
  · cases returned

/-- The id of the sale of that run. -/
def coinCid : String := "e-main-00000000-BTCUSDT"

/-- The rule applied to a run whose sale is reported NEW: it is logged, stays unresolved, and is reported pending. -/
theorem open_sale_remembered : ∃ s results,
    (stopMachine plainStop bareLibrary).checkedRun calmCheck ((stopMachine plainStop bareLibrary).start .empty)
      (coinRun 1 (.ok { status := .new }) ++ [coinLogged 1]) = some s ∧
    (stopMachine plainStop bareLibrary).Steps (CalmMove plainStop) ((stopMachine plainStop bareLibrary).start .empty) s ∧
    s.tasks 1 = some (.done results) ∧ UnresolvedSale (s.hist 1) "main" "BTCUSDT" coinCid ∧
    unresolved "main" "BTCUSDT" s.trace = some coinCid ∧ NeverTwice s.trace ∧
    Reported results "main" "BTCUSDT" coinCid := by
  have passes : ((stopMachine plainStop bareLibrary).checkedRun calmCheck
      ((stopMachine plainStop bareLibrary).start .empty)
        (coinRun 1 (.ok { status := .new }) ++ [coinLogged 1])).any fun s =>
          unresolved "main" "BTCUSDT" s.trace = some coinCid ∧ hasReturned s 1 ∧
            (s.hist 1).any (isOpenSale "main" "BTCUSDT" coinCid) := by decide +kernel
  obtain ⟨s, ran, facts⟩ := (Option.any_eq_true _ _).mp passes
  obtain ⟨remembered, returned, sold⟩ := of_decide_eq_true facts
  obtain ⟨results, done⟩ := hasReturned_spec returned
  have open_ := isOpenSale_spec sold
  have steps := checked_steps (fun _ _ => @calmCheck_spec plainStop _ _) ran
  obtain ⟨never, reported, -⟩ := never_sold_twice plainStop bareLibrary .empty empty_intact s steps
  exact ⟨s, results, ran, steps, done, open_, remembered, never,
    reported 1 results done "main" "BTCUSDT" coinCid open_⟩

/-- The youngest event is the sale of a position that was unresolved before it. -/
def soldAgain (s : StopState) : Bool :=
  match s.trace with
  | .answered _ ⟨.sell accountId symbol _ _, _⟩ :: older => (unresolved accountId symbol older).isSome
  | _ => false

/-- A sale that timed out is submitted again by the next run. -/
theorem timed_out_sale_repeated :
    ¬∀ (svc : StopService) (lib : LogLibrary) (log : ByteArray), IntactLog svc.text log →
      ∀ s : StopState, (stopMachine svc lib).Steps InTurn ((stopMachine svc lib).start log) s →
        NeverTwice s.trace ∧
          (∀ task results, s.tasks task = some (.done results) → ∀ accountId symbol cid,
            UnresolvedSale (s.hist task) accountId symbol cid → Reported results accountId symbol cid) ∧
          ∀ task raised, s.tasks task = some (.fail raised) → ∀ accountId symbol cid,
            ¬UnresolvedSale (s.hist task) accountId symbol cid := by
  intro claimed
  have passes : ((stopMachine plainStop bareLibrary).checkedRun turnCheck
      ((stopMachine plainStop bareLibrary).start .empty)
      (coinRun 1 (.error (.rasat ⟨.timeout, "timed out"⟩)) ++ coinRun 2 (.ok { status := .new }))).any
        soldAgain := by decide +kernel
  obtain ⟨s, ran, again⟩ := (Option.any_eq_true _ _).mp passes
  have never := (claimed plainStop bareLibrary .empty empty_intact s (checked_steps (fun _ _ => turnCheck_spec) ran)).1
  unfold soldAgain at again
  split at again
  · rename_i task accountId symbol quantity cid answer older split
    rw [never [] task accountId symbol quantity cid answer older split] at again
    cases again
  · cases again

end Rasat
