import RasatTrading.Custody.Calls

/-! The order that a task owes for an override it consumed, and how it may pay that debt. -/

namespace Rasat

open Coop Prog

variable {svc : Service} {record : TaskRecord} {locked id key : String}

/-- The account and key of the order that a task still owes for its newest consumption; an error
after it writes the debt off. -/
def owed : History → Option (String × String)
  | [] => none
  | event :: older =>
    match event with
    | ⟨.write (.consumeOverride accountId _ key _ _), .ok (some _)⟩ => some (accountId, key)
    | ⟨.write (.insertOrder _ _ _), _⟩ => none
    | ⟨_, .error _⟩ => none
    | _ => owed older

/-- The account whose lock a task took last and did not give back. -/
def lockOf : History → Option String
  | [] => none
  | event :: older =>
    match event with
    | ⟨.lock accountId, .ok _⟩ => some accountId
    | ⟨.unlock _, _⟩ => none
    | _ => lockOf older

/-- The id of the account that a task works with under a lock, as it read it. -/
def Subject (hist : History) (locked id : String) : Prop :=
  (∃ row, ⟨.read (.account locked), .ok (some row)⟩ ∈ hist ∧ row.accountId = id) ∨
    ∃ rows, ⟨.read .accounts, .ok rows⟩ ∈ hist ∧ ∃ row ∈ rows, row.accountId = id ∧ id = locked

/-- The requests of a task that owes an order: prices, until it inserts the order. -/
def Settles (locked id key : String) : Req → Prop
  | .market _ => True
  | .write (.insertOrder draft _ _) =>
    (draft.accountId = locked ∨ draft.accountId = id) ∧ draft.idempotencyKey = key
  | _ => False

/-- What a task may ask: an override is only consumed for an account under its lock, and then
nothing but the order it is for comes next. -/
def consumptionRule (record : TaskRecord) (request : Req) : Prop :=
  match owed record.hist with
  | none => ∀ accountId version key now audit,
      request = .write (.consumeOverride accountId version key now audit) →
        ∃ locked id, lockOf record.hist = some locked ∧ Subject record.hist locked id ∧
          strip id = accountId
  | some (accountId, key) => ∃ locked id, lockOf record.hist = some locked ∧
      Subject record.hist locked id ∧ strip id = accountId ∧ Settles locked id key request

/-- A finished task owes nothing. -/
def Paid (record : TaskRecord) : Prop := owed record.hist = none

/-- The requests that consume nothing. -/
def Spares : Req → Prop
  | .write (.consumeOverride _ _ _ _ _) => False
  | _ => True

variable {request : Req}

/-- Without a consumption no debt arises. -/
theorem owed_spares {hist : History} {answer : Except Exc request.Ans}
    (free : owed hist = none) (spares : Spares request) : owed (⟨request, answer⟩ :: hist) = none := by
  unfold owed
  split
  · rename_i same
    cases same
    exact False.elim spares
  · rfl
  · rfl
  · exact free

/-- What consumes nothing is allowed when nothing is owed. -/
theorem rule_spares (free : Paid record) (spares : Spares request) : consumptionRule record request := by
  unfold consumptionRule
  rw [show owed record.hist = none from free]
  rintro accountId version key now audit rfl
  exact False.elim spares

/-- A program that consumes nothing goes on as it likes when nothing is owed. -/
theorem spares_safe {α : Type} {program : Task α} (only : program.Only Spares) (free : Paid record) :
    Safe (recording consumptionRule) program record fun _ g => Paid g := by
  refine Safe.of_only Spares Paid ?_ ?_ only free
  · exact fun record request paid spares => rule_spares paid spares
  · rintro record request answer learned paid spares rfl
    exact owed_spares paid spares

/-- A task at work under a lock, with no debt. -/
structure Working (locked id : String) (record : TaskRecord) : Prop where
  paid : owed record.hist = none
  held : lockOf record.hist = some locked
  subject : Subject record.hist locked id

/-- A task that owes the order of the account and key. -/
structure Owing (locked id key : String) (record : TaskRecord) : Prop where
  debt : owed record.hist = some (strip id, key)
  held : lockOf record.hist = some locked
  subject : Subject record.hist locked id

/-- The requests that keep the lock, consume nothing and are no order either. -/
def Errand (request : Req) : Prop := Quiet request ∨ ∃ accountId, request = .read (.policy accountId)

theorem Subject.mono {hist longer : History} (subject : Subject hist locked id)
    (suffix : hist <:+ longer) : Subject longer locked id :=
  subject.imp (fun ⟨row, member, named⟩ => ⟨row, suffix.subset member, named⟩)
    fun ⟨rows, member, found⟩ => ⟨rows, suffix.subset member, found⟩

/-- Only locks change the lock that a task holds. -/
theorem lockOf_errand {hist : History} {answer : Except Exc request.Ans}
    (errand : Errand request) : lockOf (⟨request, answer⟩ :: hist) = lockOf hist := by
  rcases errand with quiet | ⟨accountId, rfl⟩
  · cases request with
    | lock accountId => exact False.elim quiet
    | unlock accountId => exact False.elim quiet
    | _ => rfl
  · rfl

theorem Errand.spares (errand : Errand request) : Spares request := by
  rcases errand with quiet | ⟨accountId, rfl⟩
  · cases request with
    | write tx => exact False.elim quiet
    | _ => trivial
  · trivial

theorem Working.after (working : Working locked id record) (errand : Errand request)
    (answer : Except Exc request.Ans) : Working locked id (record.after request answer) where
  paid := owed_spares working.paid errand.spares
  held := (lockOf_errand errand).trans working.held
  subject := working.subject.mono (List.suffix_cons _ _)

/-- Errands keep a task at work. -/
theorem errands_safe {α : Type} {program : Task α} (only : program.Only Errand)
    (working : Working locked id record) :
    Safe (recording consumptionRule) program record fun _ g => Working locked id g := by
  refine Safe.of_only Errand (Working locked id) ?_ ?_ only working
  · exact fun record request working errand => rule_spares working.paid errand.spares
  · rintro record request answer learned working errand rfl
    exact working.after errand answer

theorem quiet_errands {α : Type} {program : Task α} (only : program.Only Quiet) :
    program.Only Errand := only.mono fun _ quiet => .inl quiet

end Rasat

/-! Every order program inserts the order that it consumed an override for, unless an error stops it. -/

namespace Rasat

open Coop Prog

-- Programs are taken apart by the rules of footprints alone.
seal Prog.Only

variable {svc : Service} {record : TaskRecord} {locked id key : String}

/-- A task under a lock that owes at most the order of this key. -/
def Engaged (locked id key : String) (record : TaskRecord) : Prop :=
  Working locked id record ∨ Owing locked id key record

/-- A read of the policy is an errand, like what it takes to find out about the order. -/
theorem getPolicy_errands (accountId : String) : (getPolicy accountId).Only Errand := by
  unfold getPolicy
  split
  · exact only_fail
  · refine only_bind (only_call.mpr (.inr ⟨_, rfl⟩)) fun found => ?_
    cases found <;> first | exact only_done | exact only_fail

/-- Consuming an override leaves the order of its key to be inserted. -/
theorem consumeOverride_owes {version : Nat} (working : Working locked id record) :
    Safe (recording consumptionRule) (consumeOverride svc id version key) record
      (Outcome
        (fun consumed g => if consumed.isSome then Owing locked id key g else Working locked id g)
        fun _ g => Working locked id g) := by
  unfold consumeOverride
  by_cases blank : strip id = ""
  · rw [if_pos blank]
    exact .fail working
  rw [if_neg blank]
  by_cases unnamed : strip key = ""
  · rw [if_pos unnamed]
    exact .fail working
  rw [if_neg unnamed]
  simp only [clock, dbWrite, bind_eq]
  have ticked (answer : Except Exc Int) : Working locked id (record.after .clock answer) :=
    working.after (.inl (show Quiet .clock from trivial)) answer
  refine recording_then (rule_spares working.paid trivial) (fun now => ?_) fun raised => ticked (.error raised)
  have working := ticked (.ok now)
  refine recording_call.mpr ⟨?_, fun answer => ?_⟩
  · unfold consumptionRule
    rw [working.paid]
    rintro accountId version' key' now' audit ⟨⟩
    exact ⟨locked, id, working.held, working.subject, rfl⟩
  · cases answer with
    | error raised => exact ⟨rfl, working.held, working.subject.mono (List.suffix_cons _ _)⟩
    | ok consumed =>
      cases consumed with
      | none => exact ⟨working.paid, working.held, working.subject.mono (List.suffix_cons _ _)⟩
      | some override => exact ⟨rfl, working.held, working.subject.mono (List.suffix_cons _ _)⟩

variable {account : Account}

/-- The caps let an order through, with or without an override. -/
theorem enforceCapsOrOverride_owes {policy : RiskPolicy} {symbol : String}
    {notional exposure : ℚ} (working : Working locked account.accountId record) :
    Safe (recording consumptionRule)
      (enforceCapsOrOverride svc account policy symbol notional exposure key) record
      (Outcome (fun _ g => Engaged locked account.accountId key g) fun _ g => Paid g) := by
  unfold enforceCapsOrOverride
  split
  · exact .done (.inl working)
  · split
    · refine Safe.bind (consumeOverride_owes working) (fun consumed g settling => ?_)
        fun _ _ working => working.paid
      cases consumed with
      | some override => exact .done (.inr settling)
      | none => exact .fail settling.paid
    · exact .fail working.paid

variable {β : Type}

/-- A price leaves the debt as it is, and an error writes it off. -/
theorem price_then {symbol : String} {next : Option ℚ → Task β}
    {post : Except Exc β → TaskRecord → Prop} (engaged : Engaged locked id key record)
    (value : ∀ price g, Engaged locked id key g → Safe (recording consumptionRule) (next price) g post)
    (error : ∀ raised g, Paid g → post (.error raised) g) :
    Safe (recording consumptionRule) ((Prog.call (Req.market (.price symbol))).bind next) record post := by
  rcases engaged with working | owing
  · refine recording_then (rule_spares working.paid trivial) (fun price => ?_) fun raised => ?_
    · exact value price _ (.inl (working.after (.inl (show Quiet (.market (.price symbol)) from trivial)) _))
    · exact error raised _ rfl
  · refine recording_then ?_ (fun price => ?_) fun raised => ?_
    · unfold consumptionRule
      rw [owing.debt]
      exact ⟨locked, id, owing.held, owing.subject, rfl, trivial⟩
    · exact value price _ (.inr ⟨owing.debt, owing.held, owing.subject.mono (List.suffix_cons _ _)⟩)
    · exact error raised _ rfl

/-- The equity snapshot asks for prices only. -/
theorem equityFromBalances_owes {balances : Balances} {quote : String}
    (engaged : Engaged locked id key record) :
    Safe (recording consumptionRule) (equityFromBalances balances quote) record
      (Outcome (fun _ g => Engaged locked id key g) fun _ g => Paid g) := by
  unfold equityFromBalances
  refine Safe.foldlM (fun _ _ g => Engaged locked id key g) (fun _ g => Paid g) engaged ?_
  rintro ⟨asset, amount⟩ rest equity g engaged
  dsimp only
  by_cases cash : asset = quote
  · rw [if_pos cash]
    exact .done engaged
  · rw [if_neg cash]
    refine price_then engaged (fun price g engaged => ?_) fun _ _ paid => paid
    cases price <;> exact .done engaged

/-- Inserting the order pays the debt, and an error writes it off. -/
theorem insert_then {draft : OrderDraft} {simulated : Bool} {audit : Option AuditEntry}
    {next : Order → Task β} (engaged : Engaged locked id key record)
    (owner : draft.accountId = locked ∨ draft.accountId = id) (named : draft.idempotencyKey = key)
    (rest : ∀ row g, Paid g → Safe (recording consumptionRule) (next row) g fun _ g => Paid g) :
    Safe (recording consumptionRule)
      ((Prog.call (Req.write (.insertOrder draft simulated audit))).bind next) record
      fun _ g => Paid g := by
  refine recording_then ?_ (fun row => rest row _ rfl) fun raised => rfl
  rcases engaged with working | owing
  · exact rule_spares working.paid trivial
  · unfold consumptionRule
    rw [owing.debt]
    exact ⟨locked, id, owing.held, owing.subject, rfl, owner, named⟩

variable {α : Type} {program : Task α}

theorem spares_of_work (only : program.Only OrderWork) : program.Only Spares := by
  refine only.mono fun request work => ?_
  cases request with
  | write tx => cases tx <;> first | exact False.elim work | trivial
  | _ => trivial

/-- A placement whose checks pass inserts its order. -/
theorem placeAndRecord_pays {p : Placement} (engaged : Engaged locked id key record)
    (owner : p.account.accountId = id) (named : p.idempotencyKey = key)
    (passes : ∃ again, validateExecutionOrder svc.text {
      side := p.side.name
      orderType := .text p.orderType.name
      quantity := p.quantity
      price := p.price
      stopPrice := p.stopPrice
      marketPrice := some p.referencePrice } = .ok again) :
    Safe (recording consumptionRule) (placeAndRecord svc p) record fun _ g => Paid g := by
  obtain ⟨again, passes⟩ := passes
  unfold placeAndRecord
  simp only [sync, passes, dbWrite, bind_eq, pure_eq, Prog.ofExcept, done_bind]
  by_cases paper : ¬p.isReal
  · rw [if_pos paper]
    exact insert_then engaged (.inr owner) named fun order g paid => .done paid
  rw [if_neg paper]
  -- Once the order is stored, only orders and the audit log are written.
  refine insert_then engaged (.inr owner) named fun order g paid => spares_safe (spares_of_work ?_) paid
  refine only_bind (only_attempt (only_call.mpr trivial)) fun submitted => ?_
  cases submitted with
  | error raised => exact submissionFailed_work _ _ _ _ _
  | ok result => exact only_asks trivial fun _ => only_done

/-- The end of an OCO inserts its order. -/
theorem recordOco_pays {real : Bool} {o : OcoOrder} {notional reference equity : ℚ}
    (engaged : Engaged locked id key record) (owner : o.accountId = locked) (named : o.idempotencyKey = key) :
    Safe (recording consumptionRule) (recordOco svc account real o notional reference equity) record
      fun _ g => Paid g := by
  unfold recordOco
  simp only [dbWrite, bind_eq, pure_eq]
  by_cases paper : ¬real
  · rw [if_pos paper]
    exact insert_then engaged (.inl owner) named fun order g paid => .done paid
  rw [if_neg paper]
  refine insert_then engaged (.inl owner) named fun order g paid => spares_safe (spares_of_work ?_) paid
  refine only_bind (only_attempt (only_call.mpr trivial)) fun submitted => ?_
  cases submitted with
  | error raised => exact submissionFailed_work _ _ _ _ _
  | ok result => exact only_asks trivial fun _ => only_done

variable {next : α → Task β}

/-- An errand in a sequence. -/
theorem errand_then (only : program.Only Errand) (working : Working locked id record)
    (rest : ∀ value g, Working locked id g →
      Safe (recording consumptionRule) (next value) g fun _ g => Paid g) :
    Safe (recording consumptionRule) (program.bind next) record fun _ g => Paid g :=
  Safe.bind (errands_safe only working) rest fun _ _ working => working.paid

/-- A quiet program in a sequence is an errand. -/
theorem quietly_then (only : program.Only Quiet) (working : Working locked id record)
    (rest : ∀ value g, Working locked id g →
      Safe (recording consumptionRule) (next value) g fun _ g => Paid g) :
    Safe (recording consumptionRule) (program.bind next) record fun _ g => Paid g :=
  errand_then (quiet_errands only) working rest

section Paid

variable (paid : Paid record)
include paid

/-- A check in a sequence asks nothing. -/
theorem check_then {result : Except Exc α} (rest : ∀ value, result = .ok value →
      Safe (recording consumptionRule) (next value) record fun _ g => Paid g) :
    Safe (recording consumptionRule) ((sync result).bind next) record fun _ g => Paid g :=
  Safe.ofExcept_then rest fun _ _ => paid

/-- The account that is read under its lock is the one to work with. -/
theorem getAccount_then {next : Account → Task β} (held : lockOf record.hist = some locked)
    (rest : ∀ account g, Working locked account.accountId g →
      Safe (recording consumptionRule) (next account) g fun _ g => Paid g) :
    Safe (recording consumptionRule) ((getAccount locked).bind next) record fun _ g => Paid g := by
  unfold getAccount
  simp only [dbRead, bind_eq, pure_eq, raise, bind_assoc]
  refine recording_then (rule_spares paid trivial) (fun found => ?_) fun raised => rfl
  cases found with
  | none => exact .fail paid
  | some account => exact rest account _ ⟨paid, held, .inl ⟨account, List.mem_cons_self, rfl⟩⟩

/-- An order that exists already is only reported. -/
theorem handleExisting_pays {existing : Order} :
    Safe (recording consumptionRule) (handleExisting svc account existing) record fun _ g => Paid g :=
  spares_safe (spares_of_work (handleExisting_work existing)) paid

/-- An entry inserts the order of any override that it consumes when its placement does. -/
theorem enterDirect_pays {accountId symbol key : String} {input : SymbolFilters → Option ℚ → OrderInput}
    {quantity : Validated → ℚ} {place : Account → Bool → Validated → ℚ → ℚ → ℚ → Task AccountResult}
    (held : lockOf record.hist = some accountId)
    (placed : ∀ account real filters validated notional reference equity g,
      Engaged accountId account.accountId key g →
      validateExecutionOrder svc.text (input filters (some reference)) = .ok validated →
      Safe (recording consumptionRule) (place account real validated notional reference equity) g fun _ g => Paid g) :
    Safe (recording consumptionRule) (enterDirect svc accountId symbol key input quantity place) record
      fun _ g => Paid g := by
  unfold enterDirect
  refine getAccount_then paid held fun account g working => ?_
  refine quietly_then (only_call.mpr trivial) working fun found g working => ?_
  cases found with
  | some existing => exact handleExisting_pays working.paid
  | none =>
    refine quietly_then (isReal_only _) working fun real g working => ?_
    refine quietly_then (requireSymbol_only _) working fun _ g working => ?_
    refine quietly_then (only_call.mpr trivial) working fun marketPrice g working => ?_
    refine check_then working.paid fun reference fresh => ?_
    refine quietly_then (requireFilters_only _) working fun filters g working => ?_
    refine check_then working.paid fun validated passed => ?_
    refine check_then working.paid fun notional _ => ?_
    refine quietly_then (only_call.mpr trivial) working fun balances g working => ?_
    refine check_then working.paid fun _ _ => ?_
    refine errand_then (getPolicy_errands _) working fun policy g working => ?_
    refine quietly_then (currentExposure_only _) working fun exposure g working => ?_
    refine Safe.bind (enforceCapsOrOverride_owes working) (fun _ g engaged => ?_) fun _ _ paid => paid
    refine Safe.bind (equityFromBalances_owes engaged) (fun equity g engaged => ?_) fun _ _ paid => paid
    rw [checkPriceFresh_ok fresh] at passed
    exact placed account real filters validated notional reference equity g engaged passed

/-- `_execute_one_direct` inserts the order of any override that it consumes. -/
theorem executeOneDirect_pays {o : DirectOrder} (held : lockOf record.hist = some o.accountId) :
    Safe (recording consumptionRule) (executeOneDirect svc o) record fun _ g => Paid g := by
  refine enterDirect_pays paid held fun account real filters validated notional reference equity g engaged passed => ?_
  refine placeAndRecord_pays engaged rfl rfl ?_
  -- The order passed the same checks before, with the price that is its reference now.
  obtain ⟨quantity, price, stop, -, positive, -⟩ := validateExecutionOrder_ok passed
  simp only [quantity, price, stop]
  have again := validateExecutionOrder_again passed rfl positive id
  exact again

/-- `_execute_oco_direct` inserts the order of any override that it consumes. -/
theorem executeOcoDirect_pays {o : OcoOrder} (held : lockOf record.hist = some o.accountId) :
    Safe (recording consumptionRule) (executeOcoDirect svc o) record fun _ g => Paid g := by
  exact enterDirect_pays paid held fun _ _ _ _ _ _ _ _ engaged _ => recordOco_pays engaged rfl rfl

omit paid in
/-- The sized order is checked again with its entry as the price, which is positive. -/
theorem sized_passes {text : Text} {o : SizedOrder} {price : Option ℚ} {filters : SymbolFilters}
    {quantity notional : ℚ} {validated : Validated} (entry : 0 < o.entry)
    (priced : timesPrice quantity price = .ok notional)
    (passed : validateExecutionOrder text {
      side := o.side
      orderType := .text o.orderType.name
      quantity := quantity
      price := limitPrice o.orderType o.entry
      stopPrice := triggerPrice o.orderType o.stopLoss
      filters := some filters
      marketPrice := price } = .ok validated) :
    ∃ again, validateExecutionOrder text {
      side := validated.side.name
      orderType := .text validated.orderType.name
      quantity := quantity
      price := some o.entry
      stopPrice := triggerPrice o.orderType o.stopLoss
      marketPrice := some (price.getD 0) } = .ok again := by
  cases price with
  | none => cases priced
  | some value =>
    have positive : ∀ number ∈ some o.entry, 0 < number := by
      rintro number ⟨⟩
      exact entry
    have again := validateExecutionOrder_again passed rfl positive fun _ => by simp
    exact again

omit paid in
/-- `_execute_one_sized` inserts the order of any override that it consumes. -/
theorem executeOneSized_pays {o : SizedOrder} (working : Working locked account.accountId record) :
    Safe (recording consumptionRule) (executeOneSized svc account o) record fun _ g => Paid g := by
  unfold executeOneSized
  refine quietly_then (only_call.mpr trivial) working fun found g working => ?_
  cases found with
  | some existing => exact handleExisting_pays working.paid
  | none =>
    refine quietly_then (isReal_only _) working fun real g working => ?_
    refine quietly_then (accuracyPreflight_only _ _ _ _) working fun _ g working => ?_
    refine quietly_then (only_call.mpr trivial) working fun price g working => ?_
    refine quietly_then (only_call.mpr trivial) working fun balances g working => ?_
    refine quietly_then (equityFromBalances_only _ _) working fun equity g working => ?_
    refine quietly_then (requireFilters_only _) working fun filters g working => ?_
    refine check_then working.paid fun sizing _ => ?_
    refine check_then working.paid fun sized sizes => ?_
    refine check_then working.paid fun notional priced => ?_
    refine check_then working.paid fun validated passed => ?_
    refine check_then working.paid fun _ _ => ?_
    refine errand_then (getPolicy_errands _) working fun policy g working => ?_
    refine quietly_then (currentExposure_only _) working fun exposure g working => ?_
    refine Safe.bind (enforceCapsOrOverride_owes working) (fun _ g engaged => ?_) fun _ _ paid => paid
    exact placeAndRecord_pays engaged rfl rfl
      (sized_passes (calculatePositionSize_entry sizes) priced passed)

/-- A program under a lock ends without a debt when its body does. -/
theorem withLock_pays {body : Task α}
    (kept : ∀ g, Paid g → lockOf g.hist = some locked → record.hist <:+ g.hist →
      Safe (recording consumptionRule) body g fun _ g => Paid g) :
    Safe (recording consumptionRule) (withLock locked body) record fun _ g => Paid g := by
  unfold withLock
  refine recording_then (rule_spares paid trivial) (fun _ => ?_) fun raised => rfl
  refine Safe.ensuring (kept _ paid rfl (List.suffix_cons _ _)) fun outcome g paid => ?_
  refine recording_call.mpr ⟨rule_spares paid trivial, fun answer => ?_⟩
  cases answer <;> exact owed_spares paid (show Spares (.unlock locked) from trivial)

/-- `place_order` ends without a debt. -/
theorem placeOrder_pays {args : PlaceOrderArgs} :
    Safe (recording consumptionRule) (placeOrder svc args) record fun _ g => Paid g :=
  check_then paid fun _ _ => withLock_pays paid fun _ paid held _ => executeOneDirect_pays paid held

/-- `place_oco_order` ends without a debt. -/
theorem placeOcoOrder_pays {args : PlaceOcoArgs} :
    Safe (recording consumptionRule) (placeOcoOrder svc args) record fun _ g => Paid g :=
  check_then paid fun _ _ => withLock_pays paid fun _ paid held _ => executeOcoDirect_pays paid held

/-- The accounts of a sized order are among those that it read. -/
theorem resolveTargets_pays {accountIds tags : List String} :
    Safe (recording consumptionRule) (resolveTargets accountIds tags) record
      (Outcome
        (fun targets g => Paid g ∧ ∃ rows, ⟨.read .accounts, .ok rows⟩ ∈ g.hist ∧ ∀ row ∈ targets, row ∈ rows)
        fun _ g => Paid g) := by
  unfold resolveTargets
  by_cases nobody : accountIds = [] ∧ tags = []
  · rw [if_pos nobody]
    exact .fail paid
  rw [if_neg nobody]
  simp only [dbRead, bind_eq, pure_eq, raise]
  refine recording_then (rule_spares paid trivial) (fun rows => ?_) fun raised => rfl
  split
  · exact .fail paid
  · refine .done ⟨paid, rows, List.mem_cons_self, fun row member => ?_⟩
    exact (List.mem_filter.mp member).1

/-- `execute_on_accounts` ends without a debt, account after account. -/
theorem executeOnAccounts_pays {args : ExecuteArgs} :
    Safe (recording consumptionRule) (executeOnAccounts svc args) record fun _ g => Paid g := by
  unfold executeOnAccounts
  refine check_then paid fun order _ => ?_
  refine Safe.bind (resolveTargets_pays paid) ?_ fun _ _ paid => paid
  rintro targets g ⟨paid, rows, read, listed⟩
  have loop : Safe (recording consumptionRule)
      (targets.foldlM (fun results account => do
        let result ← executeFor svc order account
        return results ++ [result]) ([] : List AccountResult)) g
      (Outcome (fun _ g => Paid g) fun _ g => Paid g) := by
    -- The accounts that are left were all read before the loop.
    refine Safe.foldlM (fun rest _ g' => (∀ row ∈ rest, row ∈ rows) ∧ Paid g' ∧ g.hist <:+ g'.hist)
      (fun _ g => Paid g) ⟨listed, paid, List.suffix_refl _⟩ (fun account rest results g' facts => ?_) |>.mono ?_
    · obtain ⟨listed, paid, suffix⟩ := facts
      have body : Safe (recording consumptionRule) (executeFor svc order account) g' fun _ g => Paid g := by
        refine withLock_pays paid fun inside paid held grown => ?_
        have seen : ⟨.read .accounts, .ok rows⟩ ∈ inside.hist := (suffix.trans grown).subset read
        have working : Working account.accountId account.accountId inside :=
          ⟨paid, held, .inr ⟨rows, seen, account, listed account List.mem_cons_self, rfl, rfl⟩⟩
        exact Safe.rescue (executeOneSized_pays working) (fun _ _ paid => paid) fun _ _ paid => .done paid
      refine Safe.bind (recording_grows body) (fun result last facts => ?_) fun _ _ facts => facts.1
      exact .done ⟨fun row member => listed row (List.mem_cons_of_mem _ member), facts.1,
        suffix.trans facts.2⟩
    · intro outcome g' facts
      cases outcome with
      | ok results => exact facts.2.1
      | error raised => exact facts
  refine Safe.bind loop (fun results g' paid => .done paid) fun _ _ paid => paid

end Paid

theorem spares_of_neutral (only : program.Only Neutral) : program.Only Spares := by
  refine only.mono fun request neutral => ?_
  cases request with
  | write tx => cases tx <;> first | exact False.elim neutral | trivial
  | _ => trivial

theorem spares_of_pending (only : program.Only PendingWork) :
    program.Only Spares := spares_of_neutral (neutral_of_pending only)

theorem spares_of_admin (only : program.Only Admin) :
    program.Only Spares := spares_of_neutral (neutral_of_admin only)

/-- A program that consumes nothing in a sequence. -/
theorem spares_then (only : program.Only Spares) (paid : Paid record)
    (rest : ∀ value g, Paid g → Safe (recording consumptionRule) (next value) g fun _ g => Paid g) :
    Safe (recording consumptionRule) (program.bind next) record fun _ g => Paid g :=
  Safe.bind (spares_safe only paid) rest fun _ _ paid => paid

/-- The approval handler ends without a debt, whatever its execution came to. -/
theorem approvePendingOrderHandler_pays {orderId actor : String} (paid : Paid record) :
    Safe (recording consumptionRule) (approvePendingOrderHandler (executeOnAccounts svc) orderId actor)
      record fun _ g => Paid g := by
  unfold approvePendingOrderHandler
  refine spares_then (spares_of_pending (pendingOrder_settles _)) paid fun row g paid => ?_
  by_cases waiting : row.status ≠ .awaitingApproval
  · rw [if_pos waiting]
    exact .fail paid
  rw [if_neg waiting]
  refine spares_then (spares_of_pending (pendingEntry_settles _ _)) paid fun entry g paid => ?_
  refine check_then paid fun _ _ => ?_
  by_cases unprotected : row.stopLoss = none
  · rw [if_pos unprotected]
    exact .fail paid
  rw [if_neg unprotected]
  refine spares_then (only_call.mpr trivial) paid fun now g paid => ?_
  refine spares_then (only_call.mpr trivial) paid fun _ g paid => ?_
  refine Safe.attempt_bind (executeOnAccounts_pays paid) fun executed g paid => ?_
  exact spares_safe (spares_of_pending (settlePending_settles _ _)) paid

/-- Every call of the daemon ends without a debt. -/
theorem call_pays (call : Call) (paid : Paid record) :
    Safe (recording consumptionRule) (call.program svc (executeOnAccounts svc)) record
      fun _ g => Paid g := by
  -- A call without orders consumes nothing.
  have admin {program : Task Unit} {reply : Reply} (only : program.Only Admin) :
      Safe (recording consumptionRule) (program.bind fun _ => .done reply) record fun _ g => Paid g :=
    spares_then (spares_of_admin only) paid fun _ _ paid => .done paid
  have write {tx : Tx} {next : tx.Ans → Reply} (spares : Spares (.write tx)) :
      Safe (recording consumptionRule) ((dbWrite tx).bind fun answer => .done (next answer)) record
        fun _ g => Paid g :=
    spares_then (only_call.mpr spares) paid fun _ _ paid => .done paid
  cases call with
  | placeOrder args => exact Safe.bind (placeOrder_pays paid) (fun _ _ paid => .done paid) fun _ _ paid => paid
  | placeOcoOrder args =>
    exact Safe.bind (placeOcoOrder_pays paid) (fun _ _ paid => .done paid) fun _ _ paid => paid
  | executeOnAccounts args =>
    exact Safe.bind (executeOnAccounts_pays paid) (fun _ _ paid => .done paid) fun _ _ paid => paid
  | approvePendingOrder orderId actor =>
    exact Safe.bind (approvePendingOrderHandler_pays paid) (fun _ _ paid => .done paid) fun _ _ paid => paid
  | closeAllPositions named actor =>
    exact spares_then (spares_of_work (closeAllPositions_work named)) paid fun _ _ paid => .done paid
  | approvePending orderId => exact write trivial
  | rejectPending orderId => exact write trivial
  | triggerAlert spec => exact write trivial
  | enableRealTrading named actor => exact admin (enableRealTrading_admin _ _)
  | disableRealTrading named actor => exact admin (disableRealTradingHandler_admin _ _)
  | addAccount tags stored actor =>
    exact spares_then (spares_of_admin (addAccount_admin _ _ _)) paid fun _ _ paid => .done paid
  | removeAccount named actor => exact admin (removeAccount_admin _ _)
  | setRiskPolicy args =>
    exact spares_then (spares_of_admin (setRiskPolicy_admin _)) paid fun _ _ paid => .done paid
  | createOverride args =>
    exact spares_then (spares_of_admin (createOverride_admin _)) paid fun _ _ paid => .done paid

/-- The startup consumes nothing. -/
theorem startup_pays (paid : Paid record) :
    Safe (recording consumptionRule) (startup svc) record fun _ g => Paid g := by
  unfold startup
  refine spares_then (spares_of_admin reconcileOverrides_admin) paid fun _ g paid => ?_
  have orders := spares_of_work (reconcileOpenOrders_work : (reconcileOpenOrders svc).Only OrderWork)
  refine Safe.attempt_bind (spares_safe orders paid) fun _ g paid => ?_
  exact Safe.attempt_bind (spares_safe (spares_of_pending (reconcilePendingExecutions_settles _)) paid)
    fun _ g paid => .done paid

end Rasat
