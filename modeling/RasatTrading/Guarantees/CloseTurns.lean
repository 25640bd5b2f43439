import RasatTrading.Coop.Outcome
import RasatTrading.Custody.Targets
import RasatTrading.Footprints

/-! What the turns of the kill switch do: the cancellation of one order, and the sale of one asset. -/

namespace Rasat

open Coop Prog Reaches

seal Prog.Only

variable {svc : Service} {account : Account} {actor : String}

/-- The exchange gave this answer to a lookup of the order, alone or as a list. -/
def LookedUpAs (run : History) (accountId symbol clientOrderId : String)
    (answer : Except Exc (Option OrderResult)) : Prop :=
  (⟨.broker (.queryOrder accountId symbol clientOrderId), answer⟩ : Event Req Req.Ans Exc) ∈ run ∨
    (⟨.broker (.queryOco accountId clientOrderId), answer⟩ : Event Req Req.Ans Exc) ∈ run

/-- The exchange gave this answer to a cancellation of the order, alone or as a list. -/
def CancelledAs (run : History) (accountId symbol clientOrderId : String)
    (answer : Except Exc (Option OrderResult)) : Prop :=
  (⟨.broker (.cancelOrder accountId symbol clientOrderId), answer⟩ : Event Req Req.Ans Exc) ∈ run ∨
    (⟨.broker (.cancelOco accountId symbol clientOrderId), answer⟩ : Event Req Req.Ans Exc) ∈ run

/-- The exchange did not find the order, or reported a terminal state of it. -/
def isEnded (found : Option OrderResult) : Prop := ∀ result ∈ found, result.status.isOpen = false

/-- The run heard a terminal status of the order, or a lookup that definitely did not find it. -/
def OrderEnded (run : History) (accountId symbol clientOrderId : String) : Prop :=
  (∃ found, isEnded found ∧ LookedUpAs run accountId symbol clientOrderId (.ok found)) ∨
    ∃ result : OrderResult, result.status.isOpen = false ∧
      CancelledAs run accountId symbol clientOrderId (.ok (some result))

/-- A lookup of the order raised a canonical error. -/
def LookupRaised (run : History) (accountId symbol clientOrderId : String) : Prop :=
  ∃ error, LookedUpAs run accountId symbol clientOrderId (.error (.rasat error))

/-- All open orders of the symbol were cancelled in this run. -/
def BulkCancelled (run : History) (accountId symbol : String) : Prop :=
  ∃ count, (⟨.broker (.cancelAllOpenOrders accountId symbol), .ok count⟩ :
    Event Req Req.Ans Exc) ∈ run

/-- The order was submitted in this run and reported FILLED, at once or by the lookup after a timeout. -/
def SubmittedFilled (run : History) (order : PlaceOrder) : Prop :=
  ∃ answer, (⟨.broker (.placeOrder order), answer⟩ : Event Req Req.Ans Exc) ∈ run ∧
    ((∃ result, answer = .ok result ∧ result.status = .filled) ∨
      (∃ raised, answer = .error raised) ∧ ∃ draft row result,
        (⟨.write (.insertOrder draft false none), .ok row⟩ : Event Req Req.Ans Exc) ∈ run ∧
          draft.clientOrderId = order.clientOrderId ∧
          LookedUpAs run order.accountId row.symbol row.clientOrderId (.ok (some result)) ∧
          result.status = .filled)

section Growth

variable {run longer : History} {accountId symbol clientOrderId : String}

variable {answer : Except Exc (Option OrderResult)}

/-- What was heard of an order stays heard. -/
theorem LookedUpAs.mono (grown : run ⊆ longer) (heard : LookedUpAs run accountId symbol clientOrderId answer) :
    LookedUpAs longer accountId symbol clientOrderId answer :=
  heard.imp (fun member => grown member) fun member => grown member

/-- So does the answer to its cancellation. -/
theorem CancelledAs.mono (grown : run ⊆ longer)
    (heard : CancelledAs run accountId symbol clientOrderId answer) :
    CancelledAs longer accountId symbol clientOrderId answer :=
  heard.imp (fun member => grown member) fun member => grown member

/-- An order that has ended stays ended. -/
theorem OrderEnded.mono (grown : run ⊆ longer) (ended : OrderEnded run accountId symbol clientOrderId) :
    OrderEnded longer accountId symbol clientOrderId := by
  rcases ended with ⟨found, gone, heard⟩ | ⟨result, terminal, heard⟩
  · exact .inl ⟨found, gone, heard.mono grown⟩
  · exact .inr ⟨result, terminal, heard.mono grown⟩

/-- A sale that was filled stays filled. -/
theorem SubmittedFilled.mono {order : PlaceOrder} (grown : run ⊆ longer)
    (filled : SubmittedFilled run order) : SubmittedFilled longer order := by
  obtain ⟨answer, member, outcome⟩ := filled
  refine ⟨answer, grown member, ?_⟩
  rcases outcome with atOnce | ⟨failed, draft, row, result, inserted, same, found, status⟩
  · exact .inl atOnce
  · exact .inr ⟨failed, draft, row, result, grown inserted, same, found.mono grown, status⟩

/-- Events that only write to the database. -/
def Writes (events : History) : Prop := ∀ event ∈ events, ∃ tx, event.request = .write tx

/-- Nothing is heard of an order behind writes but what was heard before them. -/
theorem LookedUpAs.of_writes {writes : History} (quiet : Writes writes)
    (heard : LookedUpAs (writes ++ run) accountId symbol clientOrderId answer) :
    LookedUpAs run accountId symbol clientOrderId answer := by
  refine heard.imp (fun member => ?_) fun member => ?_
  all_goals
    rcases List.mem_append.mp member with written | old
    · obtain ⟨tx, same⟩ := quiet _ written
      cases same
    · exact old

/-- Nor of its cancellation. -/
theorem CancelledAs.of_writes {writes : History} (quiet : Writes writes)
    (heard : CancelledAs (writes ++ run) accountId symbol clientOrderId answer) :
    CancelledAs run accountId symbol clientOrderId answer := by
  refine heard.imp (fun member => ?_) fun member => ?_
  all_goals
    rcases List.mem_append.mp member with written | old
    · obtain ⟨tx, same⟩ := quiet _ written
      cases same
    · exact old

end Growth

variable {before later events : History}

section Cancelling


variable {state : CancelState} {target : Target}

/-- A reported failure is an error. -/
theorem fail_errors {symbol clientOrderId : String} {order : Option Order}
    {error : RasatError} : (state.fail symbol order clientOrderId error).errors ≠ [] := by
  simp [CancelState.fail]

/-- Noting a cancelled symbol adds no error. -/
@[simp] theorem cancel_errors {symbol : String} : (state.cancel symbol).errors = state.errors := by
  unfold CancelState.cancel
  split <;> rfl

variable {after : CancelState}

/-- An uncertain cancellation always leaves an error. -/
theorem uncertain_errs {error : RasatError}
    (reached : Reaches (uncertain svc account actor state target error) before (.done after) later) :
    after.errors ≠ [] := by
  obtain ⟨_, middle, written, rest⟩ := of_bind reached
  obtain ⟨same, -⟩ := of_done rest
  cases same
  exact fail_errors

/-- The answer to the cancellation of a target. -/
def cancelEvent (accountId : String) (target : Target) (isOco : Bool) (answer : Except Exc (Option OrderResult)) :
    Event Req Req.Ans Exc :=
  if isOco then ⟨.broker (.cancelOco accountId target.symbol target.clientOrderId), answer⟩
  else ⟨.broker (.cancelOrder accountId target.symbol target.clientOrderId), answer⟩

/-- The answer to the lookup of a target. -/
def lookupEvent (accountId : String) (target : Target) (isOco : Bool) (answer : Except Exc (Option OrderResult)) :
    Event Req Req.Ans Exc :=
  if isOco then ⟨.broker (.queryOco accountId target.clientOrderId), answer⟩
  else ⟨.broker (.queryOrder accountId target.symbol target.clientOrderId), answer⟩

section Heard

variable {accountId : String} {target : Target} {isOco : Bool} {given other : Except Exc (Option OrderResult)}
  {run : History}

/-- A lookup is heard as such. -/
@[simp] theorem lookedUp_lookup :
    LookedUpAs (lookupEvent accountId target isOco given :: run) accountId target.symbol target.clientOrderId other ↔
      other = given ∨ LookedUpAs run accountId target.symbol target.clientOrderId other := by
  unfold LookedUpAs lookupEvent
  cases isOco <;> simp [or_assoc, or_left_comm]

/-- A cancellation is no lookup. -/
@[simp] theorem lookedUp_cancel :
    LookedUpAs (cancelEvent accountId target isOco given :: run) accountId target.symbol target.clientOrderId other ↔
      LookedUpAs run accountId target.symbol target.clientOrderId other := by
  unfold LookedUpAs cancelEvent
  cases isOco <;> simp

/-- A lookup is no cancellation. -/
@[simp] theorem cancelled_lookup :
    CancelledAs (lookupEvent accountId target isOco given :: run) accountId target.symbol target.clientOrderId other ↔
      CancelledAs run accountId target.symbol target.clientOrderId other := by
  unfold CancelledAs lookupEvent
  cases isOco <;> simp

/-- A cancellation is heard as such. -/
@[simp] theorem cancelled_cancel :
    CancelledAs (cancelEvent accountId target isOco given :: run) accountId target.symbol target.clientOrderId other ↔
      other = given ∨ CancelledAs run accountId target.symbol target.clientOrderId other := by
  unfold CancelledAs cancelEvent
  cases isOco <;> simp [or_assoc, or_left_comm]

/-- Nothing was heard before a run. -/
@[simp] theorem lookedUp_nil {symbol id : String} : ¬LookedUpAs [] accountId symbol id other := by simp [LookedUpAs]

@[simp] theorem cancelled_nil {symbol id : String} : ¬CancelledAs [] accountId symbol id other := by simp [CancelledAs]

end Heard

/-- The cancellation of a target asks for it once. -/
theorem cancel_asked {isOco : Bool} {outcome : Except Exc (Option OrderResult)}
    (reached : Reaches (if isOco then broker (.cancelOco account.accountId target.symbol target.clientOrderId)
      else broker (.cancelOrder account.accountId target.symbol target.clientOrderId) :
        Task (Option OrderResult)).attempt before (.done outcome) later) :
    later = cancelEvent account.accountId target isOco outcome :: before := by
  cases isOco with
  | true => exact of_attempt_call reached
  | false => exact of_attempt_call reached

/-- The lookup of a target that comes to an answer asks for it once: the answer is the exchange's own, or none
after a canonical error. -/
theorem querySafe_asked {isOco : Bool} {found : Option OrderResult}
    (reached : Reaches (querySafe account.accountId target isOco) before (.done (.ok found)) later) :
    ∃ answer, later = lookupEvent account.accountId target isOco answer :: before ∧
      (answer = .ok found ∨ found = none ∧ ∃ error, answer = .error (.rasat error)) := by
  simp only [querySafe, Prog.bind_eq, Prog.pure_eq] at reached
  obtain ⟨outcome, middle, asked, rest⟩ := of_bind reached
  have heard : middle = lookupEvent account.accountId target isOco outcome :: before := by
    cases isOco with
    | true => exact of_attempt_call asked
    | false => exact of_attempt_call asked
  refine ⟨outcome, ?_⟩
  cases outcome with
  | ok answer =>
    obtain ⟨same, rfl⟩ := of_done rest
    cases same
    exact ⟨heard, .inl rfl⟩
  | error raised =>
    cases raised with
    | rasat error =>
      obtain ⟨same, rfl⟩ := of_done rest
      cases same
      exact ⟨heard, .inr ⟨rfl, error, rfl⟩⟩
    | timeout => cases (of_done rest).1
    | integrity _ => exact fail_done rest
    | other _ => exact fail_done rest

/-- Writing a row asks for writes only. -/
theorem writeRow_writes {action : String} {order : Option Order} {update : OrderUpdate}
    {details : Order → List (String × Detail)}
    (reached : Reaches (writeRow svc account actor action order update details) before (.done ()) later) :
    ∃ events, later = events ++ before ∧ Writes events := by
  have only : (writeRow svc account actor action order update details).Only fun request => ∃ tx, request = .write tx :=
    writeRow_only (fun _ _ _ => ⟨_, rfl⟩) ..
  obtain ⟨events, same, kinds, -⟩ := reached.only only
  exact ⟨events, same, kinds⟩

/-- How a turn of the cancellations comes out. -/
def TurnOutcome (account : Account) (target : Target) (events : History) : Prop :=
  OrderEnded events account.accountId target.symbol target.clientOrderId ∧
      ¬LookupRaised events account.accountId target.symbol target.clientOrderId ∨
    LookupRaised events account.accountId target.symbol target.clientOrderId ∧
      ¬OrderEnded events account.accountId target.symbol target.clientOrderId

/-- What is written behind a turn does not change how it came out. -/
theorem TurnOutcome.written {writes events : History} (quiet : Writes writes)
    (outcome : TurnOutcome account target events) : TurnOutcome account target (writes ++ events) := by
  have grown : events ⊆ writes ++ events := List.subset_append_right _ _
  rcases outcome with ⟨ended, heard⟩ | ⟨⟨error, raised⟩, open_⟩
  · exact .inl ⟨ended.mono grown, fun ⟨error, raised⟩ => heard ⟨error, raised.of_writes quiet⟩⟩
  · refine .inr ⟨⟨error, raised.mono grown⟩, fun ended => open_ ?_⟩
    rcases ended with ⟨found, gone, known⟩ | ⟨result, terminal, known⟩
    · exact .inl ⟨found, gone, known.of_writes quiet⟩
    · exact .inr ⟨result, terminal, known.of_writes quiet⟩

/-- A cancellation that reports a terminal state ends the order. -/
theorem outcome_cancelled {isOco : Bool} {result : OrderResult} (terminal : result.status.isOpen = false) :
    TurnOutcome account target [cancelEvent account.accountId target isOco (.ok (some result))] :=
  .inl ⟨.inr ⟨result, terminal, cancelled_cancel.mpr (.inl rfl)⟩, fun ⟨_, raised⟩ =>
    lookedUp_nil (lookedUp_cancel.mp raised)⟩

/-- A lookup after a cancellation that found nothing ends the order, or loses it. -/
theorem outcome_lookedUp {isOco : Bool} {answer : Except Exc (Option OrderResult)}
    {found : Option OrderResult} (gone : isEnded found)
    (given : answer = .ok found ∨ ∃ error, answer = .error (.rasat error)) :
    TurnOutcome account target [lookupEvent account.accountId target isOco answer,
      cancelEvent account.accountId target isOco (.ok none)] := by
  rcases given with rfl | ⟨error, rfl⟩
  · refine .inl ⟨.inl ⟨found, gone, lookedUp_lookup.mpr (.inl rfl)⟩, fun ⟨error, raised⟩ => ?_⟩
    rcases lookedUp_lookup.mp raised with same | old
    · cases same
    · exact lookedUp_nil (lookedUp_cancel.mp old)
  · refine .inr ⟨⟨error, lookedUp_lookup.mpr (.inl rfl)⟩, fun ended => ?_⟩
    rcases ended with ⟨found, -, known⟩ | ⟨result, -, known⟩
    · rcases lookedUp_lookup.mp known with same | old
      · cases same
      · exact lookedUp_nil (lookedUp_cancel.mp old)
    · rcases cancelled_cancel.mp (cancelled_lookup.mp known) with same | old
      · cases same
      · exact cancelled_nil old

/-- A cancellation that leaves no error ended its order, or lost it. -/
theorem cancelOne_turn (reached : Reaches (cancelOne svc account actor state target) [] (.done after) events)
    (fine : after.errors = []) : state.errors = [] ∧ TurnOutcome account target events := by
  simp only [cancelOne, Prog.bind_eq, Prog.pure_eq] at reached
  obtain ⟨outcome, middle, asked, rest⟩ := of_bind reached
  obtain rfl := cancel_asked asked
  cases outcome with
  | error raised =>
    -- A canonical error is reported, any other exception ends the account.
    dsimp only at rest
    split at rest
    · exact fail_done rest
    · exact absurd fine (uncertain_errs rest)
  | ok answer =>
    cases answer with
    | none =>
      -- The exchange does not know the order, so its lookup decides.
      obtain ⟨found, looked, query, rest⟩ := of_bind rest
      cases found with
      | error error => exact absurd fine (uncertain_errs rest)
      | ok found =>
        obtain ⟨given, rfl, answered⟩ := querySafe_asked query
        cases found with
        | none =>
          obtain ⟨_, wrote, written, rest⟩ := of_bind rest
          obtain ⟨same, rfl⟩ := of_done rest
          cases same
          obtain ⟨writes, rfl, quiet⟩ := writeRow_writes written
          rw [cancel_errors] at fine
          have gone : isEnded none := fun _ impossible => nomatch impossible
          exact ⟨fine, (outcome_lookedUp gone (answered.imp id And.right)).written quiet⟩
        | some result =>
          dsimp only at rest
          by_cases live : result.status.isOpen
          · rw [if_pos live] at rest
            exact absurd fine (uncertain_errs rest)
          · rw [if_neg live] at rest
            obtain ⟨_, wrote, written, last⟩ := of_bind rest
            obtain ⟨same, rfl⟩ := of_done last
            cases same
            obtain ⟨writes, rfl, quiet⟩ := writeRow_writes written
            have clean : state.errors = [] := by
              revert fine
              split
              · rw [cancel_errors]
                exact id
              · exact id
            have gone : isEnded (some result) := by
              rintro other ⟨⟩
              exact Bool.eq_false_iff.mpr live
            exact ⟨clean, (outcome_lookedUp gone (answered.imp id And.right)).written quiet⟩
    | some result =>
      dsimp only at rest
      by_cases gone : result.status = .canceled
      · rw [if_pos gone] at rest
        obtain ⟨_, wrote, written, last⟩ := of_bind rest
        obtain ⟨same, rfl⟩ := of_done last
        cases same
        obtain ⟨writes, rfl, quiet⟩ := writeRow_writes written
        rw [cancel_errors] at fine
        exact ⟨fine, (outcome_cancelled (by rw [gone]; rfl)).written quiet⟩
      · rw [if_neg gone] at rest
        by_cases live : result.status.isOpen
        · rw [if_pos live] at rest
          exact absurd fine (uncertain_errs rest)
        · rw [if_neg live] at rest
          obtain ⟨_, wrote, written, last⟩ := of_bind rest
          obtain ⟨same, rfl⟩ := of_done last
          cases same
          obtain ⟨writes, rfl, quiet⟩ := writeRow_writes written
          exact ⟨fine, (outcome_cancelled (Bool.eq_false_iff.mpr live)).written quiet⟩

/-- A turn of the cancellations that leaves no error. A target without a symbol is passed over; for any other one
the turn hears that it has ended, or loses it by a lookup that raised a canonical error. -/
structure CancelTurn (account : Account) (target : Target) (events : History) : Prop where
  asks : ∀ event ∈ events, target.symbol ≠ "" ∧ CancelsOne account.accountId target event.request
  outcome : target.symbol = "" ∨ TurnOutcome account target events

/-- Every turn of a real account that leaves no error is one. -/
theorem cancelTarget_turn
    (reached : Reaches (cancelTarget svc account true actor state target) [] (.done after) events)
    (fine : after.errors = []) : state.errors = [] ∧ CancelTurn account target events := by
  unfold cancelTarget at reached
  by_cases nameless : target.symbol = ""
  · rw [if_pos nameless] at reached
    obtain ⟨same, rfl⟩ := of_done reached
    cases same
    exact ⟨fine, fun _ impossible => absurd impossible List.not_mem_nil, .inl nameless⟩
  · rw [if_neg nameless, if_pos rfl] at reached
    obtain ⟨clean, outcome⟩ := cancelOne_turn reached fine
    obtain ⟨own, alone, kinds, -⟩ := reached.only (cancelOne_asks state target)
    obtain rfl : events = own := by rw [alone, List.append_nil]
    exact ⟨clean, fun event member => ⟨nameless, kinds event member⟩, .inr outcome⟩

/-- A turn of the bulk cancellations: an order without a client id has its whole symbol cancelled, unless it has no
symbol either. -/
structure BulkTurn (account : Account) (order : ExchangeOrder) (events : History) : Prop where
  asks : ∀ event ∈ events, (order.namedId = none ∧ order.symbol ≠ "") ∧
    (event.request = .broker (.cancelAllOpenOrders account.accountId order.symbol) ∨ ∃ tx, event.request = .write tx)
  outcome : order.namedId ≠ none ∨ order.symbol = "" ∨ BulkCancelled events account.accountId order.symbol

/-- A bulk cancellation asks for its symbol only. -/
theorem cancelUnnamed_asks (state : CancelState) (order : ExchangeOrder) :
    (cancelUnnamed svc account actor state order).Only fun request =>
      request = .broker (.cancelAllOpenOrders account.accountId order.symbol) ∨ ∃ tx, request = .write tx := by
  have recorded (action : String) (details : List (String × Detail)) :
      (recordBulk svc actor action details).Only fun request =>
        request = .broker (.cancelAllOpenOrders account.accountId order.symbol) ∨ ∃ tx, request = .write tx := by
    unfold recordBulk
    split
    · exact only_done
    · exact only_call.mpr (.inr ⟨_, rfl⟩)
  unfold cancelUnnamed
  split
  · exact only_done
  · refine only_bind (only_attempt (only_bind (only_call.mpr (.inl rfl)) fun _ => recorded _ _)) fun attempted => ?_
    split
    · exact only_done
    · split
      · exact only_fail
      · exact only_bind (recorded _ _) fun _ => only_done

/-- Every turn of the bulk cancellations that leaves no error is one. -/
theorem cancelUnnamed_turn {order : ExchangeOrder}
    (reached : Reaches (cancelUnnamed svc account actor state order) [] (.done after) events)
    (fine : after.errors = []) : state.errors = [] ∧ BulkTurn account order events := by
  obtain ⟨own, alone, kinds, -⟩ := reached.only (cancelUnnamed_asks state order)
  obtain rfl : events = own := by rw [alone, List.append_nil]
  unfold cancelUnnamed at reached
  -- The loop of named orders cares for the first, and no request can name the second.
  by_cases skip : order.namedId ≠ none ∨ order.symbol = ""
  · rw [if_pos skip] at reached
    obtain ⟨same, rfl⟩ := of_done reached
    cases same
    exact ⟨fine, fun _ impossible => absurd impossible List.not_mem_nil, skip.imp id .inl⟩
  · rw [if_neg skip] at reached
    obtain ⟨unnamed, filled⟩ := not_or.mp skip
    simp only [Prog.bind_eq, Prog.pure_eq] at reached
    obtain ⟨outcome, middle, attempted, rest⟩ := of_bind reached
    cases outcome with
    | ok value =>
      obtain ⟨same, rfl⟩ := of_done rest
      cases same
      obtain ⟨count, sent, cancelled, recorded⟩ := of_bind (of_attempt attempted)
      rw [cancel_errors] at fine
      refine ⟨fine, fun event member => ⟨⟨not_not.mp unnamed, filled⟩, kinds event member⟩,
        .inr (.inr ⟨count, recorded.suffix.subset ?_⟩)⟩
      rw [of_call cancelled]
      exact List.mem_cons_self
    | error raised =>
      dsimp only at rest
      split at rest
      · exact fail_done rest
      · obtain ⟨_, wrote, recorded, last⟩ := of_bind rest
        obtain ⟨same, -⟩ := of_done last
        cases same
        simp at fine

end Cancelling

section Selling

variable {result : AccountResult}

/-- A reconciled order that is reported FILLED was found so. -/
theorem reconciled_filled {order : Order} {symbol : String}
    (reached : Reaches (reconcileAfterTimeout svc account order symbol actor) before (.done result) later)
    (filled : result.status = .exchange .filled) :
    ∃ found, LookedUpAs later account.accountId order.symbol order.clientOrderId (.ok (some found)) ∧
      found.status = .filled := by
  simp only [reconcileAfterTimeout, orNone, queryState, Prog.rescue, Prog.bind_eq, Prog.pure_eq]
    at reached
  obtain ⟨found, middle, asked, rest⟩ := of_bind reached
  cases found with
  | none =>
    obtain ⟨_, wrote, written, last⟩ := of_bind rest
    obtain ⟨same, -⟩ := of_done last
    cases same
    cases filled
  | some answer =>
    obtain ⟨_, wrote, written, last⟩ := of_bind rest
    obtain ⟨same, rfl⟩ := of_done last
    cases same
    obtain ⟨outcome, heard, attempted, handled⟩ := of_bind asked
    have status : answer.status = .filled := by
      simpa [orderToResult, Order.apply, OrderResult.toUpdate] using filled
    cases outcome with
    | error raised =>
      cases raised with
      | rasat error => cases (of_done handled).1
      | _ => exact fail_done handled
    | ok value =>
      obtain ⟨same, rfl⟩ := of_done handled
      cases same
      refine ⟨answer, ?_, status⟩
      by_cases list : order.orderType = .oco
      · rw [if_pos list] at attempted
        exact .inr (written.suffix.subset (of_attempt_call attempted ▸ List.mem_cons_self))
      · rw [if_neg list] at attempted
        exact .inl (written.suffix.subset (of_attempt_call attempted ▸ List.mem_cons_self))

/-- A failed submission that is reported FILLED was found so by the lookup of its row. -/
theorem submissionFailed_filled {order : Order} {symbol timeoutText action : String} {raised : Exc}
    (reached : Reaches (submissionFailed svc account order symbol actor timeoutText action raised) before
      (.done result) later) (filled : result.status = .exchange .filled) :
    ∃ found, LookedUpAs later account.accountId order.symbol order.clientOrderId (.ok (some found)) ∧
      found.status = .filled := by
  unfold submissionFailed at reached
  split at reached
  · exact fail_done reached
  · split at reached
    · exact reconciled_filled reached filled
    · simp only [Prog.bind_eq, Prog.pure_eq] at reached
      obtain ⟨_, wrote, written, last⟩ := of_bind reached
      obtain ⟨same, -⟩ := of_done last
      cases same
      -- A failure is recorded as REJECTED or UNKNOWN.
      simp only [orderToResult, Order.apply, failedUpdate] at filled
      split at filled <;> cases filled

/-- A real placement that is reported FILLED was submitted and filled. -/
theorem placed_filled {p : Placement} (real : p.isReal)
    (reached : Reaches (placeAndRecord svc p) before (.done result) later)
    (filled : result.status = .exchange .filled) : SubmittedFilled later (p.order svc.text) := by
  simp only [placeAndRecord, sync, Prog.bind_eq, Prog.pure_eq] at reached
  obtain ⟨_, checked, validated, rest⟩ := of_bind reached
  rw [if_neg (not_not_intro real)] at rest
  obtain ⟨row, inserted, insertion, rest⟩ := of_bind rest
  obtain ⟨outcome, sent, submitted, rest⟩ := of_bind rest
  have stored : (⟨.write (.insertOrder (p.draft svc.text) false none), .ok row⟩ :
      Event Req Req.Ans Exc) ∈ later :=
    (submitted.suffix.trans rest.suffix).subset (of_call insertion ▸ List.mem_cons_self)
  have placed : (⟨.broker (.placeOrder (p.order svc.text)), outcome⟩ : Event Req Req.Ans Exc) ∈ later :=
    rest.suffix.subset (of_attempt_call submitted ▸ List.mem_cons_self)
  refine ⟨outcome, placed, ?_⟩
  cases outcome with
  | error raised =>
    obtain ⟨found, looked, status⟩ := submissionFailed_filled rest filled
    exact .inr ⟨⟨raised, rfl⟩, p.draft svc.text, row, found, stored, rfl, looked, status⟩
  | ok answer =>
    obtain ⟨_, wrote, written, last⟩ := of_bind rest
    obtain ⟨same, -⟩ := of_done last
    cases same
    refine .inl ⟨answer, rfl, ?_⟩
    simpa [orderToResult, Order.apply, OrderResult.toUpdate] using filled

/-- A new close SELL that is reported FILLED was submitted with its quantity and filled. -/
theorem sellNow_filled {symbol nonce : String} {quantity price : ℚ} {sale : Sale}
    (reached : Reaches (sellNow svc account actor symbol nonce quantity price) before (.done sale) later)
    (filled : sale.isFilled) :
    ∃ order : PlaceOrder, order.accountId = account.accountId ∧ order.symbol = symbol ∧
      order.side = .sell ∧ order.quantity = quantity ∧ SubmittedFilled later order := by
  simp only [sellNow, Prog.bind_eq, Prog.pure_eq] at reached
  obtain ⟨result, placed, placing, last⟩ := of_bind reached
  obtain ⟨same, rfl⟩ := of_done last
  cases same
  have status : result.status = .exchange .filled := by simpa [Sale.isFilled] using filled
  exact ⟨_, rfl, rfl, rfl, rfl, placed_filled rfl placing status⟩

/-- The answers that come before the sale of an asset: its symbol is known, and has a price and filters. -/
def quoted (symbol : String) (price : ℚ) (filters : SymbolFilters) : History :=
  [⟨.market (.filters symbol), .ok (some filters)⟩, ⟨.market (.price symbol), .ok (some price)⟩,
    ⟨.market (.symbolValid symbol), .ok true⟩]

/-- The earlier close order of a symbol was not found FILLED by the lookup right after it was read. -/
def NotFilledBefore (account : Account) (symbol : String) (earlier : Option Order) (sale : History) : Prop :=
  ∀ row, earlier = some row → ∃ front answer,
    sale = front ++ [⟨.broker (.queryOrder account.accountId symbol row.clientOrderId), answer⟩] ∧
      ∀ found, answer = .ok (some found) → found.status ≠ .filled

/-- A turn of the sales in which everything so far is filled: there is nothing to sell, the symbol is unknown, an
earlier close order was found FILLED, or the balance was sold. -/
inductive SellTurn (account : Account) (entry : String × ℚ) : History → Prop
  | nothing (none : entry.1 = quoteAsset ∨ entry.2 ≤ 0) : SellTurn account entry []
  | unknown : SellTurn account entry [⟨.market (.symbolValid (entry.1 ++ quoteAsset)), .ok false⟩]
  | earlier (price : ℚ) (filters : SymbolFilters) (row : Order) (found : OrderResult) (writes : History)
      (filled : found.status = .filled) (quiet : Writes writes) :
    SellTurn account entry (writes ++
      (⟨.broker (.queryOrder account.accountId (entry.1 ++ quoteAsset) row.clientOrderId), .ok (some found)⟩ ::
        ⟨.read (.openClose account.accountId (entry.1 ++ quoteAsset)), .ok (some row)⟩ ::
          quoted (entry.1 ++ quoteAsset) price filters))
  | sold (price : ℚ) (filters : SymbolFilters) (earlier : Option Order) (sale : History) (order : PlaceOrder)
      (sells : ∀ event ∈ sale, SellsOne (entry.1 ++ quoteAsset) event.request)
      (anew : NotFilledBefore account (entry.1 ++ quoteAsset) earlier sale)
      (whose : order.accountId = account.accountId) (what : order.symbol = entry.1 ++ quoteAsset)
      (side : order.side = .sell) (quantity : order.quantity = roundDownToStep entry.2 filters.stepSize)
      (filled : SubmittedFilled sale order) :
    SellTurn account entry (sale ++
      (⟨.read (.openClose account.accountId (entry.1 ++ quoteAsset)), .ok earlier⟩ ::
        quoted (entry.1 ++ quoteAsset) price filters))

/-- What the sale behind the reading of the earlier close order comes to, when it is reported FILLED. -/
theorem sellAfter_filled {symbol nonce : String} {quantity price : ℚ} {earlier : Option Order} {sale : Sale}
    (reached : Reaches (sellAfter svc account actor symbol nonce quantity price earlier) [] (.done sale) events)
    (filled : sale.isFilled) :
    (∃ row found writes, earlier = some row ∧ found.status = .filled ∧ Writes writes ∧
      events = writes ++ [⟨.broker (.queryOrder account.accountId symbol row.clientOrderId), .ok (some found)⟩]) ∨
    (∀ event ∈ events, SellsOne symbol event.request) ∧ NotFilledBefore account symbol earlier events ∧
      ∃ order : PlaceOrder, order.accountId = account.accountId ∧ order.symbol = symbol ∧
        order.side = .sell ∧ order.quantity = quantity ∧ SubmittedFilled events order := by
  obtain ⟨own, alone, kinds, -⟩ := reached.only (sellAfter_sells symbol nonce quantity price earlier)
  obtain rfl : events = own := by rw [alone, List.append_nil]
  cases earlier with
  | none => exact .inr ⟨kinds, (fun _ impossible => nomatch impossible), sellNow_filled reached filled⟩
  | some row =>
    simp only [sellAfter, orNone, Prog.rescue, Prog.bind_eq, Prog.pure_eq] at reached
    obtain ⟨found, looked, asked, rest⟩ := of_bind reached
    obtain ⟨outcome, heard, attempted, handled⟩ := of_bind asked
    obtain rfl := of_attempt_call attempted
    have answered : looked = [⟨.broker (.queryOrder account.accountId symbol row.clientOrderId), outcome⟩] ∧
        ∀ report, outcome = .ok (some report) ↔ found = some report := by
      cases outcome with
      | ok value =>
        obtain ⟨same, rfl⟩ := of_done handled
        cases same
        exact ⟨rfl, fun report => ⟨fun known => Except.ok.inj known, fun known => congrArg Except.ok known⟩⟩
      | error raised =>
        cases raised with
        | rasat error =>
          obtain ⟨same, rfl⟩ := of_done handled
          cases same
          exact ⟨rfl, fun _ => iff_of_false (fun impossible => nomatch impossible) fun impossible => nomatch impossible⟩
        | _ => exact fail_done handled
    obtain ⟨rfl, reported⟩ := answered
    -- A new sale stands behind the lookup.
    have anew {middle : History} (unfilled : ∀ report, found = some report → report.status ≠ .filled)
        (behind : ∃ front, middle = front ++ [⟨.broker (.queryOrder account.accountId symbol row.clientOrderId), outcome⟩])
        (selling : Reaches (sellNow svc account actor symbol nonce quantity price) middle (.done sale) events) :
        NotFilledBefore account symbol (some row) events ∧ ∃ order : PlaceOrder, order.accountId = account.accountId ∧
          order.symbol = symbol ∧ order.side = .sell ∧ order.quantity = quantity ∧ SubmittedFilled events order := by
      obtain ⟨front, rfl⟩ := behind
      obtain ⟨later, rfl, own⟩ := selling.fresh
      refine ⟨fun other same => ?_, ?_⟩
      · cases same
        exact ⟨later ++ front, outcome, (List.append_assoc ..).symm, fun report known =>
          unfilled report ((reported report).mp known)⟩
      · obtain ⟨order, whose, what, side, amount, filled⟩ := sellNow_filled own filled
        exact ⟨order, whose, what, side, amount, filled.mono (List.subset_append_left _ _)⟩
    cases found with
    | none => exact .inr ⟨kinds, anew (fun _ impossible => nomatch impossible) ⟨[], rfl⟩ rest⟩
    | some result =>
      obtain ⟨_, wrote, written, rest⟩ := of_bind rest
      obtain rfl := of_call written
      -- An earlier sale that may still fill blocks a new one; reported as filled, it was found so.
      by_cases blocked : blocksSale result.status
      · rw [if_pos blocked] at rest
        obtain ⟨same, rfl⟩ := of_done rest
        cases same
        have status : result.status = .filled := by simpa [Sale.isFilled] using filled
        obtain rfl := (reported result).mpr rfl
        refine .inl ⟨row, result, [_], rfl, status, fun event member => ?_, rfl⟩
        obtain rfl := List.mem_singleton.mp member
        exact ⟨_, rfl⟩
      · rw [if_neg blocked] at rest
        refine .inr ⟨kinds, anew (fun report same status => blocked ?_) ⟨[_], rfl⟩ rest⟩
        cases same
        simp [blocksSale, status]

/-- Every turn of the sales that leaves them all filled is one. -/
theorem sellAsset_turn {nonce : String} {sold after : List Sale} {entry : String × ℚ}
    (reached : Reaches (sellAsset svc account actor nonce sold entry.1 entry.2) [] (.done after) events)
    (fine : after.all Sale.isFilled) : sold.all Sale.isFilled ∧ SellTurn account entry events := by
  -- A skipped asset is never filled.
  have skips {symbol reason : String} (noted : (sold ++ [Sale.skipped symbol reason]).all Sale.isFilled) :
      False := by simp [Sale.isFilled] at noted
  unfold sellAsset at reached
  by_cases skip : entry.1 = quoteAsset ∨ entry.2 ≤ 0
  · rw [if_pos skip] at reached
    obtain ⟨same, rfl⟩ := of_done reached
    cases same
    exact ⟨fine, .nothing skip⟩
  rw [if_neg skip] at reached
  simp only [Prog.bind_eq, Prog.pure_eq] at reached
  obtain ⟨valid, known, checked, rest⟩ := of_bind reached
  obtain rfl := of_call checked
  cases valid with
  | false =>
    obtain ⟨same, rfl⟩ := of_done rest
    cases same
    exact ⟨fine, .unknown⟩
  | true =>
    rw [if_neg (not_not_intro rfl)] at rest
    obtain ⟨price, priced, valued, rest⟩ := of_bind rest
    obtain rfl := of_call valued
    cases price with
    | none =>
      obtain ⟨same, -⟩ := of_done rest
      cases same
      exact (skips fine).elim
    | some price =>
      obtain ⟨filters, filtered, asked, rest⟩ := of_bind rest
      obtain rfl := of_call asked
      cases filters with
      | none =>
        obtain ⟨same, -⟩ := of_done rest
        cases same
        exact (skips fine).elim
      | some filters =>
        dsimp only at rest
        split at rest
        · obtain ⟨same, -⟩ := of_done rest
          cases same
          exact (skips fine).elim
        · obtain ⟨earlier, looked, read, selling⟩ := of_bind rest
          obtain rfl := of_call read
          obtain ⟨sale, done, ran, last⟩ := of_bind selling
          obtain ⟨same, rfl⟩ := of_done last
          cases same
          simp only [List.all_append, List.all_cons, List.all_nil, Bool.and_true, Bool.and_eq_true] at fine
          obtain ⟨events, rfl, own⟩ := ran.fresh
          refine ⟨fine.1, ?_⟩
          rcases sellAfter_filled own fine.2 with
            ⟨row, found, writes, rfl, filled, quiet, rfl⟩ | ⟨sells, anew, order, whose, what, side, quantity, filled⟩
          · rw [List.append_assoc]
            exact .earlier price filters row found writes filled quiet
          · exact .sold price filters earlier events order sells anew whose what side quantity filled

end Selling

end Rasat
