import RasatTrading.Custody.Calls
import RasatTrading.Custody.Targets

/-! The kill switch keeps custody: it cancels its targets one by one and then sells what is held. -/

namespace Rasat

open Coop Prog

variable {svc : Service} {accountId actor : String} {known origin : Knowledge} {rows : List Order}

/-- What a target's handling may do to the rows: nothing, or an update of that target's row. -/
def Touched (order : Option Order) (rows after : List Order) : Prop :=
  after = rows ∨ ∃ row change, order = some row ∧ after = updateRows row.orderId change rows

/-- The local row of a target is open and in custody. -/
def Local (accountId : String) (target : Target) (rows : List Order) : Prop :=
  ∀ row, target.order = some row →
    row ∈ rows ∧ row.status.isOpen ∧ row.accountId = accountId ∧
      row.clientOrderId = target.clientOrderId

/-- After a target's handling the session goes on, with at most that target's row changed. -/
def Handled (accountId : String) (target : Target) (rows : List Order) (known learned : Knowledge) :
    Prop :=
  Session accountId known learned ∧ ∃ after, Held accountId learned after ∧
    Touched target.order rows after

/-- What the handling of a target comes to, from any earlier point of its session. -/
def HandledFrom {α : Type} (accountId : String) (target : Target) (rows : List Order)
    (known : Knowledge) : Except Exc α → Knowledge → Prop :=
  Outcome (fun _ learned => Handled accountId target rows known learned)
    fun _ learned => Session accountId known learned

variable {account : Account} {state : CancelState} {target : Target} {symbol : String}

/-- The row of a target is written and the run goes on with a new state. -/
theorem write_then {action : String} {change : OrderUpdate} {details : Order → List (String × Detail)}
    (session : Session accountId origin known) (held : Held accountId known rows)
    (stored : Local accountId target rows)
    (cancel : change.status = .canceled → ∀ row, target.order = some row → Cancelable known row) :
    Safe (custody svc.text)
      ((writeRow svc account actor action target.order change details).bind fun _ => .done state)
      known (HandledFrom accountId target rows origin) := by
  unfold writeRow
  cases located : target.order with
  | none => exact .done ⟨session, rows, held, .inl rfl⟩
  | some row =>
    obtain ⟨member, isOpen, -, -⟩ := stored row located
    refine Safe.bind (update_safe held member isOpen fun canceled => cancel canceled row located) ?_ ?_
    · rintro done learned ⟨step, -, written⟩
      exact .done ⟨session.trans step, _, written done rfl, .inr ⟨row, change, located, rfl⟩⟩
    · exact fun raised learned facts => session.trans facts.1

/-- An uncertain cancellation makes the row UNKNOWN, never CANCELED. -/
theorem uncertain_safe {error : RasatError} (session : Session accountId origin known)
    (held : Held accountId known rows) (stored : Local accountId target rows) :
    Safe (custody svc.text) (uncertain svc account actor state target error) known
      (HandledFrom accountId target rows origin) := by
  unfold uncertain writeUnknown
  exact write_then session held stored fun impossible => nomatch impossible

/-- A broker call about an order keeps the rows and is the newest event. -/
theorem brokerCall_safe {call : BrokerCall} (held : Held accountId known rows)
    (permitted : Permits svc.text known (.broker call)) :
    Safe (custody svc.text) (broker call) known fun outcome learned =>
      Held accountId learned rows ∧ Session accountId known learned ∧
        learned.hist = ⟨.broker call, outcome⟩ :: known.hist := by
  unfold broker
  refine Safe.call_iff.mpr ⟨permitted, fun answer learned learns => ?_⟩
  have same : learned.view = known.view := learns.view
  have now : Held accountId learned rows := ⟨same.trans held.1, held.2⟩
  exact ⟨now, ⟨learns.call, ⟨rows, now⟩, by rw [learns.hist]; exact List.suffix_cons _ _⟩, learns.hist⟩

variable {rest : History}

/-- A broker's answer that an order is CANCELED lets the target's row become CANCELED. -/
theorem cancelable_of_canceled {event : Event Req Req.Ans Exc}
    {result : OrderResult} (stored : Local accountId target rows) (newest : known.hist = event :: rest)
    (report : brokerReport accountId target.clientOrderId event = some (.ok (some result)))
    (canceled : result.status = .canceled) :
    ∀ row, target.order = some row → Cancelable known row := by
  intro row located
  obtain ⟨-, -, owner, named⟩ := stored row located
  exact .reported event rest newest (.inl ⟨result, by rw [owner, named]; exact report, canceled⟩)

/-- After a cancellation that found nothing, a lookup that found nothing or failed lets the target's row become
CANCELED. -/
theorem cancelable_of_missing {event missed : Event Req Req.Ans Exc}
    (stored : Local accountId target rows) (newest : known.hist = event :: missed :: rest)
    (missing : brokerReport accountId target.clientOrderId missed = some (.ok none)) (query : isQuery event)
    (report : brokerReport accountId target.clientOrderId event = some (.ok none) ∨
      ∃ error, brokerReport accountId target.clientOrderId event = some (.error (.rasat error))) :
    ∀ row, target.order = some row → Cancelable known row := by
  intro row located
  obtain ⟨-, -, owner, named⟩ := stored row located
  rcases report with unknown | ⟨error, failed⟩
  · exact .reported event _ newest (.inr ⟨query, by rw [owner, named]; exact unknown⟩)
  · exact .unverified event missed rest newest ⟨query, error, by rw [owner, named]; exact failed⟩
      (by rw [owner, named]; exact missing)

/-- `_query_safe` keeps the rows; what it returns is what the broker answered last. -/
theorem querySafe_safe {isOco : Bool} (held : Held accountId known rows) :
    Safe (custody svc.text) (querySafe accountId target isOco) known
      (Outcome (fun answer learned => Held accountId learned rows ∧ Session accountId known learned ∧
          ∃ event, learned.hist = event :: known.hist ∧ isQuery event ∧
            (answer = .ok none →
              brokerReport accountId target.clientOrderId event = some (.ok none) ∨
              ∃ error, brokerReport accountId target.clientOrderId event =
                some (.error (.rasat error))) ∧
            ∀ found, answer = .ok (some found) →
              brokerReport accountId target.clientOrderId event = some (.ok (some found)))
        fun _ learned => Session accountId known learned) := by
  -- Both lookups report on the target's own id.
  have asked : Safe (custody svc.text)
      (if isOco then broker (.queryOco accountId target.clientOrderId)
        else broker (.queryOrder accountId target.symbol target.clientOrderId) :
          Task (Option OrderResult)) known fun outcome learned =>
      Held accountId learned rows ∧ Session accountId known learned ∧
        ∃ event, learned.hist = event :: known.hist ∧ isQuery event ∧
          brokerReport accountId target.clientOrderId event = some outcome := by
    have permitted : ∀ call : BrokerCall, call.mutates = none →
        Permits svc.text known (.broker call) :=
      fun call quiet => Neutral.permits (show Neutral (.broker call) from quiet) known
    split
    · refine (brokerCall_safe held (permitted _ rfl)).mono fun outcome learned facts => ?_
      exact ⟨facts.1, facts.2.1, _, facts.2.2, rfl, by simp [brokerReport]⟩
    · refine (brokerCall_safe held (permitted _ rfl)).mono fun outcome learned facts => ?_
      exact ⟨facts.1, facts.2.1, _, facts.2.2, rfl, by simp [brokerReport]⟩
  unfold querySafe
  refine Safe.attempt_bind asked fun outcome learned facts => ?_
  obtain ⟨now, session, event, newest, query, report⟩ := facts
  cases outcome with
  | ok found =>
    refine .done ⟨now, session, event, newest, query, fun same => ?_, fun other same => ?_⟩
    · cases same
      exact .inl report
    · cases same
      exact report
  | error raised =>
    cases raised with
    | rasat error =>
      exact .done ⟨now, session, event, newest, query, fun _ => .inr ⟨error, report⟩,
        fun _ impossible => by cases impossible⟩
    | timeout =>
      exact .done ⟨now, session, event, newest, query, (fun impossible => by cases impossible),
        fun _ impossible => by cases impossible⟩
    | integrity _ => exact .fail session
    | other _ => exact .fail session

/-- `_cancel_one` touches the target's row only, and marks it CANCELED only for a reason. -/
theorem cancelOne_safe (named : account.accountId = accountId) (saw : SawReal known.hist accountId)
    (held : Held accountId known rows) (stored : Local accountId target rows) :
    Safe (custody svc.text) (cancelOne svc account actor state target) known
      (HandledFrom accountId target rows known) := by
  -- The cancellation changes something at the broker, which a real account permits.
  have permitted : ∀ call : BrokerCall, call.mutates = some accountId →
      (∀ order, call ≠ .placeOrder order) → (∀ order, call ≠ .placeOco order) →
        Permits svc.text known (.broker call) := by
    intro call changes noOrder noOco
    refine ⟨fun owner same => ?_, ?_⟩
    · rw [changes] at same
      cases same
      exact saw
    · cases call with
      | placeOrder order => exact absurd rfl (noOrder order)
      | placeOco order => exact absurd rfl (noOco order)
      | _ => trivial
  have asked : Safe (custody svc.text)
      (if target.order.any fun row => row.orderType = .oco then
        broker (.cancelOco account.accountId target.symbol target.clientOrderId)
      else broker (.cancelOrder account.accountId target.symbol target.clientOrderId) :
        Task (Option OrderResult)) known fun outcome learned =>
      Held accountId learned rows ∧ Session accountId known learned ∧
        ∃ event, learned.hist = event :: known.hist ∧
          brokerReport accountId target.clientOrderId event = some outcome := by
    rw [named]
    split
    · have allowed := permitted (.cancelOco accountId target.symbol target.clientOrderId) rfl
        (by simp) (by simp)
      refine (brokerCall_safe held allowed).mono fun outcome learned facts => ?_
      exact ⟨facts.1, facts.2.1, _, facts.2.2, by simp [brokerReport]⟩
    · have allowed := permitted (.cancelOrder accountId target.symbol target.clientOrderId) rfl
        (by simp) (by simp)
      refine (brokerCall_safe held allowed).mono fun outcome learned facts => ?_
      exact ⟨facts.1, facts.2.1, _, facts.2.2, by simp [brokerReport]⟩
  unfold cancelOne
  refine Safe.attempt_bind asked fun outcome learned facts => ?_
  obtain ⟨now, session, event, newest, report⟩ := facts
  cases outcome with
  | error raised =>
    dsimp only
    split
    · exact .fail session
    · exact uncertain_safe session now stored
  | ok answer =>
    cases answer with
    | some result =>
      dsimp only
      by_cases canceled : result.status = .canceled
      · rw [if_pos canceled]
        exact write_then session now stored fun _ =>
          cancelable_of_canceled stored newest report canceled
      rw [if_neg canceled]
      by_cases isOpen : result.status.isOpen
      · rw [if_pos isOpen]
        exact uncertain_safe session now stored
      · rw [if_neg isOpen]
        exact write_then session now stored fun impossible => absurd impossible canceled
    | none =>
      -- The exchange does not know the order, so its state is looked up.
      rw [named]
      refine Safe.bind (querySafe_safe now) ?_ fun _ _ later => session.trans later
      rintro found looked ⟨now, step, lookup, later, query, unknown, reported⟩
      rw [newest] at later
      have session := session.trans step
      cases found with
      | error error => exact uncertain_safe session now stored
      | ok found =>
        cases found with
        | none =>
          exact write_then session now stored fun _ =>
            cancelable_of_missing stored later report query (unknown rfl)
        | some result =>
          dsimp only
          by_cases isOpen : result.status.isOpen
          · rw [if_pos isOpen]
            exact uncertain_safe session now stored
          · rw [if_neg isOpen]
            exact write_then session now stored fun canceled =>
              cancelable_of_canceled stored later (reported _ rfl) canceled

/-- Handling one target leaves the rows of the others as they are. -/
theorem Local.frame {other : Target} {after : List Order} (stored : Local accountId other rows)
    (own : Local accountId target rows) (ids : (rows.map Order.orderId).Nodup)
    (differ : other.clientOrderId ≠ target.clientOrderId) (touched : Touched target.order rows after) :
    Local accountId other after := by
  intro row located
  obtain ⟨member, facts⟩ := stored row located
  refine ⟨?_, facts⟩
  rcases touched with rfl | ⟨changed, change, placed, rfl⟩
  · exact member
  · -- Rows with one id are one row, and then both targets would have its client order id.
    obtain ⟨member', -, -, named⟩ := own changed placed
    refine mem_updateRows_other member fun same => differ ?_
    have equal := eq_of_orderId ids member member' same
    rw [← facts.2.2, ← named, equal]

/-- What the kill switch relies on while targets are still to come. -/
structure Remaining (accountId : String) (known : Knowledge) (rest : List Target)
    (learned : Knowledge) : Prop where
  session : Session accountId known learned
  distinct : (rest.map Target.clientOrderId).Nodup
  stored : ∃ rows, Held accountId learned rows ∧ ∀ target ∈ rest, Local accountId target rows

/-- A handled target is done with, the others remain. -/
theorem Remaining.next {rest : List Target} {learned : Knowledge}
    (remaining : Remaining accountId origin (target :: rest) known) (held : Held accountId known rows)
    (stored : ∀ other ∈ target :: rest, Local accountId other rows)
    (handled : Handled accountId target rows known learned) :
    Remaining accountId origin rest learned := by
  obtain ⟨session, after, now, touched⟩ := handled
  have distinct := remaining.distinct
  rw [List.map_cons, List.nodup_cons] at distinct
  refine ⟨remaining.session.trans session, distinct.2, after, now, fun other member => ?_⟩
  refine (stored other (List.mem_cons_of_mem _ member)).frame (stored target List.mem_cons_self)
    held.2.ids ?_ touched
  intro same
  exact distinct.1 (List.mem_map.mpr ⟨other, member, same⟩)

theorem recordBulk_only (action : String) (details : List (String × Detail)) :
    (recordBulk svc actor action details).Only Neutral := by
  unfold recordBulk
  split
  · exact only_done
  · exact only_call.mpr trivial

/-- A bulk cancellation keeps the rows. -/
theorem cancelUnnamed_safe {order : ExchangeOrder}
    (named : account.accountId = accountId) (saw : SawReal known.hist accountId)
    (held : Held accountId known rows) :
    Safe (custody svc.text) (cancelUnnamed svc account actor state order) known fun _ learned =>
      Held accountId learned rows ∧ Session accountId known learned := by
  unfold cancelUnnamed
  split
  · exact .done ⟨held, Session.refl held⟩
  have permitted : Permits svc.text known
      (.broker (.cancelAllOpenOrders account.accountId order.symbol)) := by
    refine ⟨fun owner same => ?_, trivial⟩
    cases same
    exact named ▸ saw
  -- The bulk cancellation and its audit entry are one attempt.
  have attempted : ∀ details, Safe (custody svc.text)
      ((broker (.cancelAllOpenOrders account.accountId order.symbol)).bind fun _ =>
        recordBulk svc actor "order_canceled" details) known fun _ learned =>
      Held accountId learned rows ∧ Session accountId known learned := by
    intro details
    refine Safe.bind (brokerCall_safe held permitted) ?_ fun _ _ facts => ⟨facts.1, facts.2.1⟩
    rintro _ learned ⟨now, session, -⟩
    exact (neutral_held (recordBulk_only _ _) now).mono fun _ _ facts =>
      ⟨facts.1, session.trans facts.2⟩
  refine Safe.attempt_bind (attempted _) ?_
  · rintro outcome learned ⟨now, session⟩
    cases outcome with
    | ok _ => exact .done ⟨now, session⟩
    | error raised =>
      dsimp only
      split
      · exact .fail ⟨now, session⟩
      · refine Safe.bind (neutral_held (recordBulk_only _ _) now) ?_ ?_
        · exact fun _ _ facts => .done ⟨facts.1, session.trans facts.2⟩
        · exact fun _ _ facts => ⟨facts.1, session.trans facts.2⟩

/-- The task serves the kill switch. -/
def Closes (known : Knowledge) : Prop := ∃ call, known.call = some call ∧ call.isClose

/-- What was listed of a paper account stays in the history. -/
theorem ListedPaper.mono {hist longer : History} {row : Order} (listed : ListedPaper hist row)
    (suffix : hist <:+ longer) : ListedPaper longer row := by
  obtain ⟨newer, active, older, rfl, rest⟩ := listed
  obtain ⟨more, rfl⟩ := suffix
  exact ⟨more ++ newer, active, older, by simp, rest⟩

/-- One target: at the exchange for a real account, locally for a paper account. -/
theorem cancelTarget_safe {real : Bool} (named : account.accountId = accountId) (closes : Closes known)
    (saw : real = true → SawReal known.hist accountId)
    (paper : real = false → ∀ row, target.order = some row → ListedPaper known.hist row)
    (held : Held accountId known rows) (stored : Local accountId target rows) :
    Safe (custody svc.text) (cancelTarget svc account real actor state target) known
      (HandledFrom accountId target rows known) := by
  have untouched : Handled accountId target rows known known :=
    ⟨Session.refl held, rows, held, .inl rfl⟩
  unfold cancelTarget
  split
  · exact .done untouched
  cases real with
  | true => exact cancelOne_safe named (saw rfl) held stored
  | false =>
    rw [if_neg Bool.false_ne_true]
    split
    · exact .done untouched
    · -- A paper account's order is only known here.
      obtain ⟨call, serving, closing⟩ := closes
      exact write_then (Session.refl held) held stored fun _ row located =>
        .simulated call serving closing (paper rfl row located)

/-- Every open close SELL of the symbol is accounted for. -/
def Settled (accountId symbol : String) (known : Knowledge) (rows : List Order) : Prop :=
  ∀ row ∈ rows, isOpenClose accountId symbol row → known.suspect ∨ Excused known.hist row

/-- A close SELL is sent once every earlier one is accounted for. -/
theorem sellNow_safe {nonce : String} {quantity price : ℚ}
    (named : account.accountId = accountId) (closes : Closes known)
    (saw : SawReal known.hist accountId) (held : Held accountId known rows)
    (settled : Settled accountId symbol known rows) :
    Safe (custody svc.text) (sellNow svc account actor symbol nonce quantity price) known
      fun _ learned => Session accountId known learned := by
  subst named
  unfold sellNow
  refine Safe.bind (placeAndRecord_safe {
    held := held
    judged := .inl closes
    saw := fun _ => saw
    keyed := fun key serves => absurd closes (Serves.notClosing serves)
    accounted := fun _ => settled }) ?_ fun _ _ session => session
  exact fun _ _ session => .done session

/-- What the lookup of an earlier close SELL leaves behind. -/
structure LookedUp (accountId symbol clientOrderId : String) (rows : List Order) (known : Knowledge)
    (answer : Except Exc (Option OrderResult)) (learned : Knowledge) : Prop where
  held : Held accountId learned rows
  session : Session accountId known learned
  hist : learned.hist = ⟨.broker (.queryOrder accountId symbol clientOrderId), answer⟩ :: known.hist
  suspect : learned.suspect ↔
    known.suspect ∨ Doubtful known (.broker (.queryOrder accountId symbol clientOrderId)) answer

theorem lookup_safe {clientOrderId : String} (held : Held accountId known rows) :
    Safe (custody svc.text) (broker (.queryOrder accountId symbol clientOrderId)) known
      (LookedUp accountId symbol clientOrderId rows known) := by
  unfold broker
  refine neutral_call rfl fun answer learned learns view => ?_
  exact ⟨⟨view.trans held.1, held.2⟩, learns.session rfl held, learns.hist, learns.suspect⟩

/-- After a lookup that found nothing or failed, each open close SELL is settled or doubtful. -/
theorem settled_of_missing {row : Order} {learned : Knowledge}
    {answer : Except Exc (Option OrderResult)} (held : Held accountId known rows)
    (newest : known.hist = ⟨.read (.openClose accountId symbol), .ok (some row)⟩ :: rest) (member : row ∈ rows)
    (looked : LookedUp accountId symbol row.clientOrderId rows known answer learned)
    (missing : answer = .ok none ∨ ∃ error, answer = .error (.rasat error)) :
    Settled accountId symbol learned rows := by
  intro other listed candidate
  have owner : other.accountId = accountId := by
    simp only [isOpenClose, decide_eq_true_eq] at candidate
    exact candidate.1
  rcases missing with rfl | ⟨error, rfl⟩
  · by_cases same : other.orderId = row.orderId
    · -- The broker does not know this very order.
      obtain rfl := eq_of_orderId held.2.ids listed member same
      refine .inr ⟨_, by rw [looked.hist]; exact List.mem_cons_self, rfl, .inl ?_⟩
      simp [brokerReport, owner]
    · -- Another order of the symbol is open, and nobody asked about it.
      refine .inl (looked.suspect.mpr (.inr ⟨row, rest, newest, rfl, ?_⟩))
      exact ⟨(fun _ impossible => by cases impossible), other, by rw [held.1]; exact listed, candidate, same⟩
  · exact .inl (looked.suspect.mpr (.inr ⟨row, rest, newest, rfl, trivial⟩))

/-- So it is after a report that the earlier order ended without a fill. -/
theorem settled_of_ended {row : Order}
    {learned written : Knowledge} {found : OrderResult} (held : Held accountId known rows)
    (newest : known.hist = ⟨.read (.openClose accountId symbol), .ok (some row)⟩ :: rest)
    (looked : LookedUp accountId symbol row.clientOrderId rows known (.ok (some found)) learned)
    (doubts : written.suspect ↔ learned.suspect) (ended : ¬blocksSale found.status) :
    Settled accountId symbol written (updateRows row.orderId found.toUpdate rows) := by
  intro other listed candidate
  obtain ⟨old, before, rfl⟩ := mem_updateRows.mp listed
  by_cases same : old.orderId = row.orderId
  · -- The row that was asked about is closed now, so it is no candidate.
    rw [if_pos same] at candidate
    simp only [isOpenClose, decide_eq_true_eq] at candidate
    have isOpen : found.status.isOpen = true := candidate.2.2.2.2
    exact absurd (by simp [blocksSale, isOpen]) ended
  · rw [if_neg same] at candidate
    refine .inl (doubts.mpr (looked.suspect.mpr (.inr ⟨row, rest, newest, rfl, ?_⟩)))
    refine ⟨fun report reported => ?_, old, by rw [held.1]; exact before, candidate, same⟩
    cases reported
    exact ended

section Named

variable (named : account.accountId = accountId)
include named

/-- A new close SELL follows the lookup of the newest open one. -/
theorem sellAfter_safe {nonce : String} {quantity price : ℚ}
    {earlier : Option Order} {pick : Nat} (closes : Closes known)
    (saw : SawReal known.hist accountId) (held : Held accountId known rows)
    (newest : known.hist = ⟨.read (.openClose accountId symbol), .ok earlier⟩ :: rest)
    (located : earlier = loadOpenClose rows accountId symbol pick) :
    Safe (custody svc.text) (sellAfter svc account actor symbol nonce quantity price earlier) known
      fun _ learned => Session accountId known learned := by
  unfold sellAfter
  cases earlier with
  | none =>
    -- No close SELL is open at all.
    refine sellNow_safe named closes saw held fun row member candidate => ?_
    exact absurd candidate (loadOpenClose_none located.symm row member)
  | some row =>
    obtain ⟨member, candidate⟩ := loadOpenClose_some located.symm
    simp only [isOpenClose, decide_eq_true_eq] at candidate
    obtain ⟨owner, -, -, -, isOpen⟩ := candidate
    rw [named]
    refine Safe.bind (orNone_safe (lookup_safe held)) ?_ fun _ _ looked => looked.session
    intro found learned answered
    cases found with
    | none =>
      -- Nothing was found, or the error of the lookup counts as nothing.
      have looked : ∃ answer, LookedUp accountId symbol row.clientOrderId rows known answer learned ∧
          (answer = .ok none ∨ ∃ error, answer = .error (.rasat error)) := by
        rcases answered with looked | ⟨-, error, looked⟩
        · exact ⟨_, looked, .inl rfl⟩
        · exact ⟨_, looked, .inr ⟨error, rfl⟩⟩
      obtain ⟨answer, looked, missing⟩ := looked
      have settled := settled_of_missing held newest member looked missing
      have closes' : Closes learned := by rw [Closes, looked.session.call]; exact closes
      exact (sellNow_safe named closes' (saw.mono looked.session.hist) looked.held settled).mono
        fun _ _ session => looked.session.trans session
    | some result =>
      have looked : LookedUp accountId symbol row.clientOrderId rows known (.ok (some result)) learned := by
        rcases answered with looked | ⟨impossible, -⟩
        · exact looked
        · cases impossible
      have report : brokerReport row.accountId row.clientOrderId
          ⟨.broker (.queryOrder accountId symbol row.clientOrderId), .ok (some result)⟩ =
            some (.ok (some result)) := by
        simp [brokerReport, owner]
      refine Safe.bind (update_safe looked.held member isOpen ?_) ?_
        fun _ _ written => looked.session.trans written.1
      · exact fun canceled => cancelable_of_report looked.hist report canceled
      rintro done written ⟨session, doubts, updated⟩
      have session := looked.session.trans session
      split
      · exact .done session
      · rename_i ended
        have settled := settled_of_ended held newest looked doubts ended
        have closes' : Closes written := by rw [Closes, session.call]; exact closes
        exact (sellNow_safe named closes' (saw.mono session.hist) (updated done rfl) settled).mono
          fun _ _ later => session.trans later

omit named in
/-- Under the lock, the open close SELL that is looked up is one of the rows in custody. -/
theorem openClose_safe (held : Held accountId known rows) :
    Safe (custody svc.text) (dbRead (.openClose accountId symbol)) known fun outcome learned =>
      Steady known learned ∧
        learned.hist = ⟨.read (.openClose accountId symbol), outcome⟩ :: known.hist ∧
        ∀ earlier, outcome = .ok earlier → ∃ pick, earlier = loadOpenClose rows accountId symbol pick := by
  unfold dbRead
  refine neutral_call trivial fun answer learned learns _ => ⟨learns.readSteady, learns.hist, ?_⟩
  rintro earlier rfl
  exact learns.view.2.2 _ held.1 fun owner same => (Option.some.inj same).symm

/-- One held asset of the sell loop keeps custody. -/
theorem sellAsset_safe {nonce asset : String} {amount : ℚ} {sold : List Sale} (closes : Closes known)
    (saw : SawReal known.hist accountId) (held : Held accountId known rows) :
    Safe (custody svc.text) (sellAsset svc account actor nonce sold asset amount) known
      fun _ learned => Session accountId known learned := by
  unfold sellAsset
  split
  · exact .done (Session.refl held)
  refine quiet_then (only_call.mpr trivial) held (Steady.refl known) fun valid _ steady _ => ?_
  cases valid with
  | false => exact .done (steady.session held)
  | true =>
    refine quiet_then (only_call.mpr trivial) held steady fun price _ steady _ => ?_
    cases price with
    | none => exact .done (steady.session held)
    | some price =>
      refine quiet_then (only_call.mpr trivial) held steady fun filters g steady _ => ?_
      cases filters with
      | none => exact .done (steady.session held)
      | some filters =>
        dsimp only
        split
        · exact .done (steady.session held)
        -- The newest open close SELL is looked up right before a new one may be sent.
        refine Safe.bind (openClose_safe (steady.held (named ▸ held))) ?_
          fun _ _ facts => (steady.trans facts.1).session held
        rintro earlier looked ⟨steady', newest, located⟩
        obtain ⟨pick, located⟩ := located earlier rfl
        have steady := steady.trans steady'
        have closes' : Closes looked := by rw [Closes, steady.call]; exact closes
        rw [named] at newest located
        refine Safe.bind (sellAfter_safe named closes' (saw.mono steady.suffix) (steady.held held)
          newest located) ?_ fun _ _ session => (steady.session held).trans session
        exact fun _ _ session => .done ((steady.session held).trans session)

omit named in
/-- Under the lock, the active orders are among the rows in custody. -/
theorem activeOrders_safe (held : Held accountId known rows) :
    Safe (custody svc.text) (dbRead (.activeOrders accountId)) known fun outcome learned =>
      Steady known learned ∧
        learned.hist = ⟨.read (.activeOrders accountId), outcome⟩ :: known.hist ∧
        ∀ active, outcome = .ok active → active = activeOrders rows accountId := by
  unfold dbRead
  refine neutral_call trivial fun answer learned learns _ => ⟨learns.readSteady, learns.hist, ?_⟩
  rintro active rfl
  exact learns.view.2.2 _ held.1 fun owner same => (Option.some.inj same).symm

omit named in
/-- The targets of a run start out as open rows in custody, each with its own id. -/
theorem remaining_start {exchange : List ExchangeOrder} (held : Held accountId known rows)
    (session : Session accountId origin known) :
    Remaining accountId origin (cancelTargets (activeOrders rows accountId) exchange) known := by
  refine ⟨session, cancelTargets_distinct, rows, held, fun target member row located => ?_⟩
  obtain ⟨active, named, -⟩ := cancelTargets_row member located
  -- An active row is an open row of the account.
  simp only [activeOrders, ofAccount, List.mem_filter, decide_eq_true_eq] at active
  obtain ⟨⟨stored, owner⟩, busy⟩ := active
  exact ⟨stored, OrderStatus.isOpen_of_isActive busy, owner, named⟩

/-- The loop over the targets keeps custody of the account. -/
theorem cancelTargets_safe {real : Bool} {targets : List Target} (closes : Closes known)
    (saw : real = true → SawReal known.hist accountId)
    (paper : real = false → ∀ target ∈ targets, ∀ row, target.order = some row → ListedPaper known.hist row)
    (remaining : Remaining accountId known targets known) :
    Safe (custody svc.text) (targets.foldlM (cancelTarget svc account real actor) state) known
      fun _ learned => Session accountId known learned := by
  -- The invariant: the targets still to come have their rows as the run found them.
  refine (Safe.foldlM (fun rest _ g => Remaining accountId known rest g ∧ rest <:+ targets)
    (fun _ g => Session accountId known g) ⟨remaining, List.suffix_refl _⟩ ?_).mono ?_
  · rintro target rest state g ⟨remaining, within⟩
    obtain ⟨rows, held, stored⟩ := remaining.stored
    have before := remaining.session
    have closes' : Closes g := by rw [Closes, before.call]; exact closes
    have listed : real = false → ∀ row, target.order = some row → ListedPaper g.hist row :=
      fun same row located =>
        (paper same target (within.subset List.mem_cons_self) row located).mono before.hist
    refine (cancelTarget_safe named closes' (fun same => (saw same).mono before.hist) listed held
      (stored target List.mem_cons_self)).mono ?_
    intro outcome after handled
    cases outcome with
    | ok _ => exact ⟨remaining.next held stored handled, (List.suffix_cons _ _).trans within⟩
    | error _ => exact before.trans handled
  · intro outcome after facts
    cases outcome with
    | ok _ => exact facts.1.session
    | error _ => exact facts

/-- The loop over the exchange's unnamed orders keeps the rows. -/
theorem cancelUnnamed_loop {exchange : List ExchangeOrder} (saw : SawReal known.hist accountId)
    (held : Held accountId known rows) :
    Safe (custody svc.text) (exchange.foldlM (cancelUnnamed svc account actor) state) known
      fun _ learned => Held accountId learned rows ∧ Session accountId known learned := by
  refine (Safe.foldlM (fun _ _ g => Held accountId g rows ∧ Session accountId known g)
    (fun _ g => Held accountId g rows ∧ Session accountId known g) ⟨held, Session.refl held⟩ ?_).mono ?_
  · rintro order rest state g ⟨now, before⟩
    refine (cancelUnnamed_safe named (saw.mono before.hist) now).mono fun outcome after facts => ?_
    cases outcome <;> exact ⟨facts.1, before.trans facts.2⟩
  · intro outcome after facts
    cases outcome <;> exact facts

/-- The sell loop keeps custody of the account. -/
theorem sellAssets_safe {nonce : String} {balances : Balances} (closes : Closes known)
    (saw : SawReal known.hist accountId) (held : Held accountId known rows) :
    Safe (custody svc.text)
      (balances.foldlM (fun sold (asset, amount) =>
        sellAsset svc account actor nonce sold asset amount) []) known
      fun _ learned => Session accountId known learned := by
  refine (Safe.foldlM (fun _ _ g => Session accountId known g)
    (fun _ g => Session accountId known g) (Session.refl held) ?_).mono ?_
  · rintro ⟨asset, amount⟩ rest sold g before
    obtain ⟨rows, now⟩ := before.held
    have closes' : Closes g := by rw [Closes, before.call]; exact closes
    refine (sellAsset_safe named closes' (saw.mono before.hist) now).mono fun outcome after step => ?_
    cases outcome <;> exact before.trans step
  · intro outcome after facts
    cases outcome <;> exact facts

/-- `_close_one` keeps custody of the account. -/
theorem closeOne_safe
    (closes : Closes known) (snapshot : Snapshot known.hist account) (held : Held accountId known rows) :
    Safe (custody svc.text) (closeOne svc account actor) known
      fun _ learned => Session accountId known learned := by
  unfold closeOne
  refine Safe.bind isReal_safe ?_ fun _ _ facts => facts.1.session held
  rintro real gated ⟨kept, locked⟩
  have locked := locked real rfl
  -- The active rows are read under the lock, so they are open rows in custody.
  refine Safe.bind (activeOrders_safe (named ▸ kept.held held)) ?_
    fun _ _ facts => (kept.steady.trans facts.1).session held
  rintro active read ⟨steady, asked, listed⟩
  have listed := listed active rfl
  have before := snapshot.mono kept.suffix
  have steady := kept.steady.trans steady
  have snapshot := snapshot.mono steady.suffix
  have closes' : Closes read := by rw [Closes, steady.call]; exact closes
  have held := steady.held held
  rw [named] at listed
  refine Safe.mono ?_ fun _ _ session => (Session.trans ⟨steady.call, ⟨rows, held⟩, steady.suffix⟩ session :
    Session accountId known _)
  cases real with
  | false =>
    have paper : SawPaper gated.hist accountId := named ▸ before.sawPaper locked
    have simulated : ∀ target ∈ cancelTargets active [], ∀ row, target.order = some row →
        ListedPaper read.hist row := by
      intro target member row located
      obtain ⟨found, -, -⟩ := cancelTargets_row member located
      have owner : row.accountId = accountId := by
        rw [listed] at found
        simp only [activeOrders, ofAccount, List.mem_filter, decide_eq_true_eq] at found
        exact found.1.2
      exact ⟨[], active, gated.hist, by rw [asked, owner, named]; rfl, found, owner ▸ paper⟩
    -- A paper account asks the exchange for nothing.
    rw [if_neg Bool.false_ne_true, bind_eq, pure_eq, done_bind]
    beta_reduce
    rw [List.foldlM_nil, bind_eq, pure_eq, done_bind]
    refine Safe.bind (cancelTargets_safe named closes' (fun same => by cases same) (fun _ => simulated)
      (listed ▸ remaining_start held (Session.refl held))) ?_ fun _ _ session => session
    exact fun _ _ session => .done session
  | true =>
    have saw : SawReal read.hist accountId := named ▸ snapshot.sawReal locked
    refine quiet_then (only_call.mpr trivial) held (Steady.refl read) fun exchange g steady _ => ?_
    have session := steady.session held
    refine Safe.bind (cancelUnnamed_loop named (saw.mono steady.suffix) (steady.held held)) ?_
      fun _ _ facts => session.trans facts.2
    rintro bulk swept ⟨held, step⟩
    have session := session.trans step
    have closes' : Closes swept := by rw [Closes, session.call]; exact closes'
    have saw := saw.mono session.hist
    refine Safe.bind (cancelTargets_safe named closes' (fun _ => saw) (fun same => by cases same)
      (listed ▸ remaining_start held (Session.refl held))) ?_ fun _ _ step => session.trans step
    intro state canceled step
    have session := session.trans step
    obtain ⟨rows, held⟩ := session.held
    have closes' : Closes canceled := by rw [Closes, step.call]; exact closes'
    have saw := saw.mono step.hist
    refine Safe.mono ?_ fun _ _ later => session.trans later
    refine quiet_then (only_call.mpr trivial) held (Steady.refl canceled) fun id _ steady _ => ?_
    refine quiet_then (only_call.mpr trivial) held steady fun balances last steady _ => ?_
    have closes' : Closes last := by rw [Closes, steady.call]; exact closes'
    have session := steady.session held
    refine Safe.bind (sellAssets_safe named closes' (saw.mono steady.suffix) (steady.held held)) ?_
      fun _ _ step => session.trans step
    exact fun _ _ step => .done (session.trans step)

end Named

/-- One account of the kill switch leaves without a lock. -/
theorem closeFor_safe (free : known.view = none) (closes : Closes known)
    (snapshot : Snapshot known.hist account) :
    Safe (custody svc.text) (closeFor svc actor account) known fun _ g => Idle known g := by
  unfold closeFor
  refine withLock_safe free fun entered rows call hist held => ?_
  have closes' : Closes entered := by rw [Closes, call]; exact closes
  exact Safe.rescue (closeOne_safe rfl closes' (snapshot.mono hist) held)
    (fun _ _ session => session) fun _ _ session => .done session

/-- The kill switch closes accounts that it read. -/
theorem closeTargets_safe {named : String} (free : known.view = none) :
    Safe (custody svc.text) (closeTargets named) known
      (Outcome (fun accounts learned => Idle known learned ∧
          ∀ account ∈ accounts, Snapshot learned.hist account)
        fun _ learned => Idle known learned) := by
  unfold closeTargets
  split
  · exact accounts_safe free
  · refine Safe.bind getAccount_safe ?_ fun _ _ steady => steady.idle free
    rintro account learned ⟨steady, -, snapshot⟩
    refine .done ⟨steady.idle free, fun other member => ?_⟩
    rw [List.mem_singleton.mp member]
    exact snapshot

/-- `close_all_positions` leaves without a lock. -/
theorem closeAllPositions_safe {named : Arg} (free : known.view = none) (closes : Closes known) :
    Safe (custody svc.text) (closeAllPositions svc named actor) known fun _ g => Idle known g := by
  unfold closeAllPositions
  refine Safe.bind sync_safe ?_ ?_
  swap
  · rintro _ _ ⟨rfl, _⟩
    exact Idle.refl free
  rintro id _ ⟨rfl, _⟩
  refine Safe.bind (closeTargets_safe free) ?_ fun _ _ idle => idle
  rintro accounts read ⟨idle, snapshots⟩
  refine (loop_safe (Idle.refl idle.view) ?_).mono fun _ _ after => idle.trans after
  intro account member results g before
  have closes' : Closes g := by rw [Closes, before.call, idle.call]; exact closes
  have snapshot := (snapshots account member).mono before.hist
  exact Safe.bind (closeFor_safe before.view closes' snapshot) (fun _ _ after => .done after)
    fun _ _ after => after

end Rasat
