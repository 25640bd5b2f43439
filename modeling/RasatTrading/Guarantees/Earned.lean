import RasatTrading.Broker.Submission
import RasatTrading.Guarantees.Runs

/-! When the final statuses of an order are earned: a refusal by the exchange, a fill that it reports. -/

namespace Rasat

open Coop

variable {svc : Service} {text : Text} {order : Order} {activity : Activity}

/-- The exchange reports this order status. -/
def HttpAnswer.reports (text : Text) (answer : HttpAnswer) (name : String) : Prop :=
  ∃ fields, answer.fields = some fields ∧ statusText text fields = name

/-- A request may have reached the exchange, and nothing definite is known of what came of it. -/
def HttpAnswer.ambiguous (text : Text) : HttpAnswer → Prop
  | .unsent _ => False
  | .failed _ => True
  | .reply status body => 500 ≤ status ∨ status < 400 ∧
      ∀ fields, body = .json (.object fields) → ExchangeStatus.ofName (statusText text fields) = .unknown

/-- The request ends in the canonical timeout. -/
def HttpAnswer.timedOut (answer : HttpAnswer) : Prop :=
  answer.unheard ∨ ∃ raised, answer = .unsent raised ∧
    (canonical "" raised).any fun error => error.code = .timeout

/-- The activity sends the order to the exchange. -/
def Activity.sends (text : Text) : Activity → Prop
  | .submit p => orderParams (p.order text) = .ok ()
  | .submitList _ _ => True
  | .retry _ | .startup _ | .cancel _ _ _ | .lookupClose _ _ => False

/-- The activity asks the exchange to cancel the order. -/
def Activity.cancels : Activity → Prop
  | .cancel _ _ _ => True
  | _ => False

/-- The activity looks the order up: after a timeout of its submission, after a cancellation that found nothing, or
to reconcile it. -/
def Activity.looksUp (x : Exchange text) : Activity → Prop
  | .submit p => orderParams (p.order text) = .ok () ∧ x.submission.timedOut
  | .submitList _ _ => x.submission.timedOut
  | .retry account => account.tradingLock = .real
  | .startup _ | .lookupClose _ _ => True
  | .cancel _ _ _ => x.cancellation.saysCode (-2011)

/-- Whether the activity asks for a list: an earlier SELL of the kill switch is asked for as a single order. -/
def Activity.asksList (order : Order) : Activity → Bool
  | .lookupClose _ _ => false
  | _ => order.isList

/-- The answer tells the state of the order, or of the list. -/
def HttpAnswer.tells (text : Text) (list : Bool) (answer : HttpAnswer) : Prop :=
  ∃ fields, answer.fields = some fields ∧
    if list then listStatusText text fields = "EXECUTING" ∨ listStatusText text fields = "ALL_DONE"
    else ExchangeStatus.ofName (statusText text fields) ≠ .unknown

/-- The lookup is refused because there is no such order; a server error is no such refusal. -/
def HttpAnswer.absent (answer : HttpAnswer) : Prop :=
  answer.saysCode (-2013) ∧ ∀ status body, answer = .reply status body → status < 500

/-- The exchange did not accept the order: it was never sent, refused or reported as rejected. -/
def NotAccepted (x : Exchange text) (order : Order) (activity : Activity) : Prop :=
  (activity.sends text ∧ ((∃ raised, x.submission = .unsent raised) ∨
    (∃ status body, x.submission = .reply status body ∧ 400 ≤ status ∧ status < 500) ∨
      x.submission.reports text "REJECTED")) ∨
  (activity.cancels ∧ activity.asksList order = false ∧ x.cancellation.reports text "REJECTED") ∨
  (activity.looksUp x ∧ activity.asksList order = false ∧ x.lookup.reports text "REJECTED")

/-- The exchange reported the order, or a leg of its list, as filled. -/
def ReportedFilled (x : Exchange text) (order : Order) (activity : Activity) : Prop :=
  (activity.sends text ∧ x.submission.reports text "FILLED") ∨
  (activity.cancels ∧ activity.asksList order = false ∧ x.cancellation.reports text "FILLED") ∨
  (activity.looksUp x ∧
    if activity.asksList order then ExchangeStatus.filled ∈ x.legs else x.lookup.reports text "FILLED")

/-- Nothing definite is known of what came of the activity: its submission is ambiguous, and no answer to its
cancellation or its lookup tells the state. A cancellation that found nothing and a lookup that finds nothing either
are definite together. -/
structure Ambiguous (x : Exchange text) (order : Order) (activity : Activity) : Prop where
  sent : activity.sends text → x.submission.ambiguous text
  cancelled : activity.cancels → ¬x.cancellation.tells text (activity.asksList order)
  lookedUp : activity.looksUp x →
    ¬x.lookup.tells text (activity.asksList order) ∧ (activity.cancels → ¬x.lookup.absent)

/-- What the row of an order may become. -/
structure Earned (svc : Service) (x : Exchange svc.text) (order : Order) (activity : Activity) : Prop where
  rejected : (activity.row svc x order).status = .exchange .rejected → NotAccepted x order activity
  filled : (activity.row svc x order).status = .exchange .filled → ReportedFilled x order activity
  ambiguous : Ambiguous x order activity → (activity.row svc x order).status.isOpen

/-- The submission got a server error, whose body does not stop the client. -/
def ServerError (x : Exchange text) (activity : Activity) : Prop :=
  activity.sends text ∧ ∃ status body, x.submission = .reply status body ∧ 500 ≤ status ∧
    ∀ value, body = .json value → ∃ fields, value = .object fields

/-- The list that is looked up is done without a filled leg. -/
def EmptyList (x : Exchange text) (order : Order) (activity : Activity) : Prop :=
  activity.looksUp x ∧ activity.asksList order ∧ ExchangeStatus.filled ∉ x.legs ∧
    ∃ fields, x.lookup.fields = some fields ∧ listStatusText text fields = "ALL_DONE"

/-- The lookup after a cancellation that found nothing ends in a canonical error, other than the refusal that there
is no such order. -/
def LookupDropped (x : Exchange text) (activity : Activity) : Prop :=
  activity.cancels ∧ activity.looksUp x ∧ x.lookup.failsCanonically ∧ ¬x.lookup.absent

/-- A known status is read from its own name only. -/
theorem ofName_eq {name : String} {status : ExchangeStatus} (read : ExchangeStatus.ofName name = status)
    (known : status ≠ .unknown) : name = status.name := by
  unfold ExchangeStatus.ofName at read
  split at read
  · rename_i found named
    subst read
    exact (by simpa using List.find?_some named : found.name = name).symm
  · exact absurd read.symm known

/-- The answer to a lookup is read from it. -/
theorem state_looked (x : Exchange text) (list : Bool) :
    LookedAs (-2013) (fun fields =>
      if list then listStatus (listStatusText text fields) else .ofName (statusText text fields)) x.lookup
        (x.state list) := by
  cases list with
  | true => exact queryOco_looked text x.lookup
  | false => exact queryOrder_looked text x.lookup

/-- So is the answer to a cancellation. -/
theorem cancelled_looked (x : Exchange text) (list : Bool) :
    LookedAs (-2011) (fun fields =>
      if list then cancelledListStatus (listStatusText text fields) else .ofName (statusText text fields))
        x.cancellation (x.cancelled list) := by
  cases list with
  | true => exact cancelOco_looked text x.cancellation
  | false => exact cancelOrder_looked text x.cancellation

variable {result : OrderResult}

/-- A lookup that finds the order reads its state from the answer. -/
theorem state_some {x : Exchange text} {list : Bool} (found : x.state list = .ok (some result)) :
    ∃ fields, x.lookup.fields = some fields ∧ result.status =
      if list then listStatus (listStatusText text fields) else .ofName (statusText text fields) := by
  have looked := state_looked x list
  rw [found] at looked
  cases looked with
  | heard fields result held told => exact ⟨fields, held, told⟩

/-- What an answer to a submission says about it. -/
structure Reads (text : Text) (answer : HttpAnswer) (sent : Except Exc OrderResult) : Prop where
  ok : ∀ result, sent = .ok result → result.status = .new ∨
    ∃ fields, answer.fields = some fields ∧ result.status = .ofName (statusText text fields)
  late : ∀ raised, sent = .error raised →
    (((canonical "" raised).any fun error => error.code = .timeout) ↔ answer.timedOut)
  refused : ∀ error, sent = .error (.rasat error) → error.code = .orderRejected →
    (∃ raised, answer = .unsent raised) ∨ ∃ status body, answer = .reply status body ∧ 400 ≤ status ∧
      ∀ value, body = .json value → ∃ fields, value = .object fields
  server : ∀ status body, answer = .reply status body → 500 ≤ status →
    (∀ value, body = .json value → ∃ fields, value = .object fields) →
      ∃ error, sent = .error (.rasat error) ∧ error.code = .orderRejected
  waits : answer.timedOut → ∃ raised, sent = .error raised

variable {answer : HttpAnswer} {fields : List (String × Json)} {x : Exchange svc.text}

/-- A request that was answered did not time out. -/
theorem HttpAnswer.arrived.prompt (arrived : answer.arrived) : ¬answer.timedOut := by
  rintro (lost | ⟨raised, same, -⟩)
  · exact arrived.1 lost
  · exact arrived.2 raised same

/-- A successful answer that is read as an object has no server error. -/
theorem fields_status {status : Nat} {body : Body}
    (read : (HttpAnswer.reply status body).fields = some fields) : status < 400 := by
  unfold HttpAnswer.fields at read
  split at read
  · rename_i same
    cases same
    by_contra bad
    rw [if_neg bad] at read
    cases read
  · cases read

/-- Both submissions read their answers in the same way; `accept` is what they do with a good one. -/
theorem reads_submission {path : String} {accept : Json → Except Exc OrderResult}
    (accepts : ∀ fields, ∃ result, accept (.object fields) = .ok result ∧
      (result.status = .new ∨ result.status = .ofName (statusText text fields)))
    (refuses : ∀ value, (∀ fields, value ≠ .object fields) → accept value = .error noAttribute) :
    Reads text answer (match request text path answer with
      | .error raised => .error raised.exc
      | .ok data => accept data) := by
  have outcome := request_cases text path answer
  generalize request text path answer = came at outcome
  cases outcome with
  | unsent raised named =>
    subst named
    refine ⟨(fun _ same => by cases same), fun other same => ?_, fun error same code => .inl ⟨raised, rfl⟩,
      (fun _ _ same => by cases same), fun _ => ⟨_, rfl⟩⟩
    cases same
    refine ⟨fun late => .inr ⟨_, rfl, late⟩, ?_⟩
    rintro (impossible | ⟨other, same, late⟩)
    · exact impossible.elim
    · cases same
      exact late
  | unheard reason lost =>
    refine ⟨(fun _ same => by cases same), fun other same => ?_, fun error same code => ?_,
      fun status body same high read => ?_, fun _ => ⟨_, rfl⟩⟩
    · cases same
      exact ⟨fun _ => .inl lost, fun _ => rfl⟩
    · cases same
      cases code
    · -- A lost body belongs to a good status.
      subst same
      cases body with
      | lost reason => exact absurd (show status < 400 from lost) (by omega)
      | json value => exact lost.elim
      | garbled reason => exact lost.elim
  | unauthorized status body message named arrived code =>
    refine ⟨(fun _ same => by cases same), fun other same => ?_, fun error same code => ?_,
      fun status' body' same high read => ?_, fun late => absurd late arrived.prompt⟩
    · cases same
      exact iff_of_false (by simp [canonical]) arrived.prompt
    · cases same
      cases code
    · rw [named] at same
      cases same
      omega
  | refused status body message code named arrived bad read =>
    refine ⟨(fun _ same => by cases same), fun other same => ?_, fun error same code => ?_,
      fun status' body' same high read => ⟨_, rfl, rfl⟩, fun late => absurd late arrived.prompt⟩
    · cases same
      exact iff_of_false (by simp [canonical]) arrived.prompt
    · exact .inr ⟨status, body, named, bad, read⟩
  | crashed reason arrived silent odd =>
    refine ⟨(fun _ same => by cases same), fun other same => ?_, (fun error same code => by cases same),
      fun status body same high read => ?_, fun late => absurd late arrived.prompt⟩
    · cases same
      exact iff_of_false (by simp [canonical]) arrived.prompt
    · obtain ⟨value, parsed, strange⟩ := odd status body same (by omega)
      obtain ⟨fields, same⟩ := read value parsed
      exact absurd same (strange fields)
  | heard fields arrived read =>
    obtain ⟨result, accepted, status⟩ := accepts fields
    dsimp only
    rw [accepted]
    refine ⟨fun other same => ?_, (fun _ same => by cases same), (fun _ same => by cases same),
      fun code body same high _ => ?_, fun late => absurd late arrived.prompt⟩
    · cases same
      exact status.imp_right fun told => ⟨fields, read, told⟩
    · subst same
      have fine := fields_status read
      omega
  | strange value arrived silent odd fine =>
    dsimp only
    rw [refuses value odd]
    refine ⟨(fun _ same => by cases same), fun other same => ?_, (fun _ same => by cases same),
      fun status body same high _ => ?_, fun late => absurd late arrived.prompt⟩
    · cases same
      exact iff_of_false (by simp [canonical, noAttribute]) arrived.prompt
    · have good := fine status body same
      omega

/-- What the state of a single order is read as. -/
structure ReadsRight (text : Text) (answer : HttpAnswer) (status : ExchangeStatus) : Prop where
  rejected : status = .rejected → answer.reports text "REJECTED"
  filled : status = .filled → answer.reports text "FILLED"
  untold : ¬answer.tells text false → status = .unknown

/-- The state of a single order is read right. -/
theorem readsRight {status : ExchangeStatus}
    (held : answer.fields = some fields) (told : status = .ofName (statusText text fields)) :
    ReadsRight text answer status := by
  refine ⟨fun same => ?_, fun same => ?_, fun untold => ?_⟩
  · exact ⟨fields, held, ofName_eq (told.symm.trans same) (by decide)⟩
  · exact ⟨fields, held, ofName_eq (told.symm.trans same) (by decide)⟩
  · by_contra known
    exact untold ⟨fields, held, fun unknown => known (told.trans unknown)⟩

/-- What a lookup is read as, when it is right. -/
structure LooksRight (x : Exchange svc.text) (list : Bool) (status : OrderStatus) : Prop where
  rejected : status = .exchange .rejected → list = false ∧ x.lookup.reports svc.text "REJECTED"
  filled : status = .exchange .filled →
    if list then ExchangeStatus.filled ∈ x.legs else x.lookup.reports svc.text "FILLED"
  untold : ¬x.lookup.tells svc.text list → status.isOpen

/-- A list that is done without a filled leg is stored as filled; any other lookup is read right. -/
theorem looksRight {list : Bool} {status : OrderStatus} (looked : FoundAs (x.state list) status)
    (full : ¬(list ∧ ExchangeStatus.filled ∉ x.legs ∧
      ∃ fields, x.lookup.fields = some fields ∧ listStatusText svc.text fields = "ALL_DONE")) :
    LooksRight x list status := by
  cases looked with
  | unreported silent live =>
    refine ⟨fun same => ?_, fun same => ?_, fun _ => live⟩ <;> (subst same; cases live)
  | reported result found stored =>
    obtain ⟨fields, held, told⟩ := state_some found
    subst stored
    cases list with
    | true =>
      rw [show result.status = listStatus (listStatusText svc.text fields) from told]
      -- The status of a list is read from its text, whatever has become of its legs.
      unfold listStatus
      by_cases live : listStatusText svc.text fields = "EXECUTING"
      · rw [if_pos live]
        exact ⟨(fun same => nomatch same), (fun same => nomatch same), fun _ => rfl⟩
      rw [if_neg live]
      by_cases finished : listStatusText svc.text fields = "ALL_DONE"
      · rw [if_pos finished]
        refine ⟨(fun same => nomatch same), fun _ => ?_, fun untold => absurd ?_ untold⟩
        · exact not_not.mp fun empty => full ⟨rfl, empty, fields, held, finished⟩
        · exact ⟨fields, held, .inr finished⟩
      · rw [if_neg finished]
        exact ⟨(fun same => nomatch same), (fun same => nomatch same), fun _ => rfl⟩
    | false =>
      have right := readsRight held told
      refine ⟨fun same => ?_, fun same => ?_, fun untold => ?_⟩
      · injection same with same
        exact ⟨rfl, right.rejected same⟩
      · injection same with same
        exact right.filled same
      · -- A status that the code does not know leaves the row open.
        rw [right.untold untold]
        rfl

/-- The list that is done without a filled leg is found as filled. -/
theorem emptyList_state
    (read : x.lookup.fields = some fields) (finished : listStatusText svc.text fields = "ALL_DONE") :
    ∃ result, x.state true = .ok (some result) ∧ result.status = .filled := by
  have looked := state_looked x true
  unfold Exchange.state at looked ⊢
  rw [if_pos rfl] at looked ⊢
  unfold binanceQueryOco at looked ⊢
  rw [request_fields svc.text read] at looked ⊢
  exact ⟨_, rfl, by simp [listStatus, finished]⟩

/-- It is stored as one. -/
theorem emptyList_filled {list : Bool} {status : OrderStatus}
    (looked : FoundAs (x.state list) status) (asked : list = true) (read : x.lookup.fields = some fields)
    (finished : listStatusText svc.text fields = "ALL_DONE") : status = .exchange .filled := by
  subst asked
  obtain ⟨filled, found, same⟩ := emptyList_state read finished
  cases looked with
  | reported result reported stored =>
    rw [found] at reported
    cases reported
    rw [stored, same]
  | unreported silent live => exact absurd found (silent _)

/-- Nothing is read from an answer that was not heard. -/
theorem unheard_fields (lost : answer.unheard) : answer.fields = none := by
  cases answer with
  | unsent raised => exact lost.elim
  | failed reason => rfl
  | reply status body =>
    cases body with
    | lost reason => rfl
    | json value => exact lost.elim
    | garbled reason => exact lost.elim

/-- An order that stays open has nothing to earn. -/
theorem earned_open (live : (activity.row svc x order).status.isOpen) : Earned svc x order activity := by
  refine ⟨fun same => ?_, fun same => ?_, fun _ => live⟩ <;> (rw [same] at live; cases live)

/-- An ambiguous answer that is read reports an unknown state. -/
theorem ambiguous_unknown (unclear : answer.ambiguous text) (read : answer.fields = some fields) :
    ExchangeStatus.ofName (statusText text fields) = .unknown := by
  cases answer with
  | unsent raised => exact unclear.elim
  | failed reason => cases read
  | reply status body =>
    have fine := fields_status read
    rcases unclear with high | ⟨-, vague⟩
    · omega
    · refine vague fields ?_
      unfold HttpAnswer.fields at read
      split at read
      · rename_i same
        rw [if_pos (by cases same; exact fine)] at read
        cases same
        cases read
        rfl
      · cases read

variable {sent : Except Exc OrderResult}

/-- A server error is stored as a rejection, which nobody has told. -/
theorem serverError_unearned
    (keeps : ¬activity.cancels) (looks : activity.looksUp x ↔ x.submission.timedOut) (reads : Reads svc.text x.submission sent)
    (submitted : SubmittedAs (x.state (activity.asksList order)) sent (activity.row svc x order).status)
    (earned : Earned svc x order activity) : ¬ServerError x activity := by
  rintro ⟨-, status, body, answered, high, read⟩
  obtain ⟨error, failed, code⟩ := reads.server status body answered high read
  have prompt : ¬x.submission.timedOut := fun late => by
    have canonicalTimeout := (reads.late _ failed).mpr late
    simp [canonical, code] at canonicalTimeout
  have stored : (activity.row svc x order).status = .exchange .rejected := by
    cases submitted with
    | reported result found stored => rw [failed] at found; cases found
    | timedOut raised same late looked => exact absurd ((reads.late _ same).mp late) prompt
    | rejected error same code stored => exact stored
    | «open» raised same prompt other live =>
      rw [failed] at same
      cases same
      exact absurd code (other _ rfl)
  rcases earned.rejected stored with
    ⟨-, ⟨raised, same⟩ | ⟨status', body', same, -, low⟩ | told⟩ | ⟨cancels, -⟩ | ⟨late, -⟩
  · rw [answered] at same
    cases same
  · rw [answered] at same
    cases same
    omega
  · obtain ⟨fields, held, -⟩ := told
    rw [answered] at held
    have fine := fields_status held
    omega
  · exact keeps cancels
  · exact prompt (looks.mp late)

/-- An empty list is stored as a fill, which nobody has told. -/
theorem emptyList_unearned
    (keeps : ¬activity.cancels) (looks : activity.looksUp x ↔ x.submission.timedOut) (reads : Reads svc.text x.submission sent)
    (submitted : SubmittedAs (x.state (activity.asksList order)) sent (activity.row svc x order).status)
    (earned : Earned svc x order activity) : ¬EmptyList x order activity := by
  rintro ⟨late, list, empty, fields, held, finished⟩
  have late := looks.mp late
  obtain ⟨raised, failed⟩ := reads.waits late
  have looked : FoundAs (x.state (activity.asksList order)) (activity.row svc x order).status := by
    have canonicalTimeout := (reads.late _ failed).mpr late
    cases submitted with
    | reported result found stored => rw [failed] at found; cases found
    | timedOut raised same late looked => exact looked
    | rejected error same code stored =>
      rw [failed] at same
      cases same
      simp [canonical, code] at canonicalTimeout
    | «open» raised same prompt other live =>
      rw [failed] at same
      cases same
      exact absurd canonicalTimeout prompt
  have stored := emptyList_filled looked list held finished
  rcases earned.filled stored with ⟨-, heard, read, -⟩ | ⟨cancels, -⟩ | ⟨-, filled⟩
  · rcases late with lost | ⟨raised, same, -⟩
    · -- No answer was heard, so none reported a fill.
      rw [unheard_fields lost] at read
      cases read
    · rw [same] at read
      cases read
  · exact keeps cancels
  · rw [if_pos list] at filled
    exact empty filled

/-- A submission earns the status of its row unless a server error or an empty list is misread. -/
theorem submission_earned
    (keeps : ¬activity.cancels) (sends : activity.sends svc.text) (looks : activity.looksUp x ↔ x.submission.timedOut)
    (reads : Reads svc.text x.submission sent)
    (submitted : SubmittedAs (x.state (activity.asksList order)) sent (activity.row svc x order).status) :
    Earned svc x order activity ↔ ¬ServerError x activity ∧ ¬EmptyList x order activity := by
  constructor
  · intro earned
    exact ⟨serverError_unearned keeps looks reads submitted earned,
      emptyList_unearned keeps looks reads submitted earned⟩
  · rintro ⟨served, full⟩
    cases submitted with
    | «open» raised failed prompt other live => exact earned_open live
    | reported result found stored =>
      rcases reads.ok result found with new | ⟨fields, read, told⟩
      · exact earned_open (by rw [stored, new]; rfl)
      refine ⟨fun same => ?_, fun same => ?_, fun unclear => ?_⟩
      · rw [stored] at same
        injection same with same
        exact .inl ⟨sends, .inr (.inr ⟨fields, read, ofName_eq (told.symm.trans same) (by decide)⟩)⟩
      · rw [stored] at same
        injection same with same
        exact .inl ⟨sends, fields, read, ofName_eq (told.symm.trans same) (by decide)⟩
      · -- The report of an ambiguous answer is an unknown state.
        rw [stored, told, ambiguous_unknown (unclear.sent sends) read]
        rfl
    | timedOut raised failed late looked =>
      have looksUp := looks.mpr ((reads.late _ failed).mp late)
      have listed := fun found => full ⟨looksUp, found⟩
      have right := looksRight looked listed
      exact ⟨fun same => .inr (.inr ⟨looksUp, right.rejected same⟩),
        fun same => .inr (.inr ⟨looksUp, right.filled same⟩),
        fun unclear => right.untold (unclear.lookedUp looksUp).1⟩
    | rejected error failed code stored =>
      refine ⟨fun _ => .inl ⟨sends, ?_⟩, fun same => ?_, fun unclear => ?_⟩
      · rcases reads.refused error failed code with unsent | ⟨status, body, answered, bad, read⟩
        · exact .inl unsent
        · refine .inr (.inl ⟨status, body, answered, bad, not_le.mp fun high => ?_⟩)
          exact served ⟨sends, status, body, answered, high, read⟩
      · rw [stored] at same
        cases same
      · have unclear := unclear.sent sends
        rcases reads.refused error failed code with ⟨raised, unsent⟩ | ⟨status, body, answered, bad, read⟩
        · rw [unsent] at unclear
          exact unclear.elim
        · rw [answered] at unclear
          rcases unclear with high | ⟨low, -⟩
          · exact absurd ⟨sends, status, body, answered, high, read⟩ served
          · omega

/-- A reconciliation by lookup earns the status of its row unless an empty list is misread. -/
theorem lookup_earned (keeps : ¬activity.cancels) (quiet : ¬activity.sends svc.text)
    (looks : activity.looksUp x) (looked : FoundAs (x.state (activity.asksList order)) (activity.row svc x order).status) :
    Earned svc x order activity ↔ ¬ServerError x activity ∧ ¬EmptyList x order activity := by
  constructor
  · intro earned
    refine ⟨fun served => quiet served.1, ?_⟩
    rintro ⟨-, list, empty, fields, held, finished⟩
    rcases earned.filled (emptyList_filled looked list held finished) with
      ⟨sends, -⟩ | ⟨cancels, -⟩ | ⟨-, filled⟩
    · exact quiet sends
    · exact keeps cancels
    · rw [if_pos list] at filled
      exact empty filled
  · rintro ⟨-, full⟩
    have right := looksRight looked fun ⟨list, empty, done⟩ => full ⟨looks, list, empty, done⟩
    exact ⟨fun same => .inr (.inr ⟨looks, right.rejected same⟩), fun same => .inr (.inr ⟨looks, right.filled same⟩),
      fun unclear => right.untold (unclear.lookedUp looks).1⟩

/-- An activity that neither sends nor looks anything up leaves the row open. -/
theorem idle_earned (quiet : ¬activity.sends svc.text)
    (blind : ¬activity.looksUp x) (live : (activity.row svc x order).status.isOpen) :
    Earned svc x order activity ↔ ¬ServerError x activity ∧ ¬EmptyList x order activity :=
  iff_of_true (earned_open live) ⟨fun served => quiet served.1, fun full => blind full.1⟩

/-- The answer to the submission of a single order is read in this way. -/
theorem reads_placeOrder {order : PlaceOrder} (sends : orderParams order = .ok ()) :
    Reads text answer (binancePlaceOrder text order answer) := by
  have accepts : ∀ fields, ∃ result, orderResult text (.object fields) = .ok result ∧
      (result.status = .new ∨ result.status = .ofName (statusText text fields)) :=
    fun fields => ⟨_, rfl, .inr rfl⟩
  have refuses : ∀ value, (∀ fields, value ≠ .object fields) →
      orderResult text value = .error noAttribute := by
    intro value odd
    cases value with
    | object fields => exact absurd rfl (odd fields)
    | _ => rfl
  unfold binancePlaceOrder
  rw [sends]
  exact reads_submission accepts refuses

/-- What `place_oco` does with a good answer. -/
def acceptList (text : Text) : Json → Except Exc OrderResult
  | .object fields => .ok { status := .new, exchangeOrderId := idText text fields "orderListId" }
  | _ => .error noAttribute

/-- The answer to the submission of a list is read in this way. -/
theorem reads_placeOco : Reads text answer (binancePlaceOco text answer) := by
  have accepts : ∀ fields, ∃ result, acceptList text (.object fields) = .ok result ∧
      (result.status = .new ∨ result.status = .ofName (statusText text fields)) :=
    fun fields => ⟨_, rfl, .inl rfl⟩
  have refuses : ∀ value, (∀ fields, value ≠ .object fields) →
      acceptList text value = .error noAttribute := by
    intro value odd
    cases value with
    | object fields => exact absurd rfl (odd fields)
    | _ => rfl
  have read : Reads text answer (match request text "/api/v3/orderList/oco" answer with
      | .error raised => .error raised.exc
      | .ok data => acceptList text data) := reads_submission accepts refuses
  convert read using 1
  unfold binancePlaceOco
  cases request text "/api/v3/orderList/oco" answer with
  | error raised => rfl
  | ok value => cases value <;> rfl

/-- The client only refuses a missing price, as an invalid request. -/
theorem orderParams_cases (order : PlaceOrder) :
    orderParams order = .ok () ∨
      ∃ message, orderParams order = .error (.rasat ⟨.invalidRequest, message⟩) := by
  unfold orderParams
  cases order.orderType with
  | limit => by_cases missing : order.price = none <;> simp [rejectIf, reject, missing]
  | stopLossLimit =>
    by_cases noStop : order.stopPrice = none
    · simp [rejectIf, reject, noStop, Bind.bind, Except.bind]
    · by_cases noPrice : order.price = none <;>
        simp [rejectIf, reject, noStop, noPrice, Bind.bind, Except.bind]
  | market => exact .inl rfl
  | oco => exact .inl rfl

/-- An order whose parameters are refused by the client stays open. -/
theorem unsent_open {p : Placement} (live : order.status.isOpen)
    (refused : orderParams (p.order svc.text) ≠ .ok ()) :
    (Activity.row svc x order (.submit p)).status.isOpen := by
  obtain passes | ⟨message, failed⟩ := orderParams_cases (p.order svc.text)
  · exact absurd passes refused
  have submitted : SubmittedAs (x.state order.isList)
      (binancePlaceOrder svc.text (p.order svc.text) x.submission)
      (Activity.row svc x order (.submit p)).status := submit_as live
  have sent : binancePlaceOrder svc.text (p.order svc.text) x.submission =
      .error (.rasat ⟨.invalidRequest, message⟩) := by
    unfold binancePlaceOrder
    rw [failed]
    rfl
  rw [sent] at submitted
  cases submitted with
  | reported result found stored => cases found
  | timedOut raised same late looked =>
    cases same
    simp [canonical] at late
  | rejected error same code stored =>
    cases same
    cases code
  | «open» raised same prompt other stays => exact stays

/-- A cancellation that found nothing tells no state. -/
theorem saysCode_silent {code : ℤ} (coded : answer.saysCode code) : answer.fields = none := by
  cases answer with
  | reply status body =>
    cases body with
    | json value =>
      cases value with
      | object fields => exact if_neg (not_lt.mpr coded.1)
      | _ => exact coded.elim
    | _ => exact coded.elim
  | _ => exact coded.elim

/-- A refusal that is read as one is a canonical error. -/
theorem saysCode_fails {code : ℤ} (coded : answer.saysCode code) : answer.failsCanonically := by
  cases answer with
  | reply status body =>
    cases body with
    | json value =>
      cases value with
      | object fields =>
        refine .inr (.inr (.inr ⟨coded.1, fun value same => ?_⟩))
        cases same
        exact ⟨fields, rfl⟩
      | _ => exact coded.elim
    | _ => exact coded.elim
  | _ => exact coded.elim

/-- A canonical error tells no state. -/
theorem fails_silent (fails : answer.failsCanonically) : answer.fields = none := by
  cases answer with
  | reply status body =>
    cases held : (HttpAnswer.reply status body).fields with
    | none => rfl
    | some fields =>
      -- A good answer with an object is neither lost nor refused.
      have fine := fields_status held
      rcases fails with key | key | ⟨-, reason, rfl⟩ | ⟨bad, -⟩
      · omega
      · omega
      · cases held
      · omega
  | _ => rfl

/-- A cancellation that is told that there is no such order finds nothing. -/
theorem cancelled_gone {list : Bool} (gone : x.cancellation.saysCode (-2011)) : x.cancelled list = .ok none := by
  have answered := cancelled_looked x list
  generalize x.cancelled list = came at answered ⊢
  cases answered with
  | gone => rfl
  | failed error canonical other => exact absurd gone other
  | crashed raised odd other => exact absurd (saysCode_fails gone) other
  | heard fields result held told =>
    rw [saysCode_silent gone] at held
    cases held

section Leaves

variable {list : Bool} {status : OrderStatus} (leaves : CancelLeaves (x.cancelled list) (x.state list) status)
  (gone : x.cancellation.saysCode (-2011))

include leaves gone

/-- Behind a cancellation that found nothing the row gets what the lookup reports. -/
theorem CancelLeaves.lookedUp (reported : x.state list = .ok (some result)) :
    status = .exchange (settledAs result.status) := by
  rw [cancelled_gone gone, reported] at leaves
  cases leaves with
  | failed raised same | reported other same | unsure _ raised same => cases same
  | found _ other same stored =>
    cases same
    exact stored
  | dropped _ silent => rcases silent with same | ⟨error, same⟩ <;> cases same

/-- It is canceled when the lookup ends in a canonical error. -/
theorem CancelLeaves.canceled (fails : x.lookup.failsCanonically) : status = .exchange .canceled := by
  have found := state_looked x list
  rw [cancelled_gone gone] at leaves
  cases leaves with
  | failed raised same | reported other same => cases same
  | dropped _ silent stored => exact stored
  | found _ result same stored =>
    rw [same] at found
    cases found with
    | heard fields result held told =>
      rw [fails_silent fails] at held
      cases held
  | unsure _ raised same odd _ =>
    rw [same] at found
    cases found with
    | failed error canonical other => exact absurd rfl (odd error)
    | crashed raised odd other => exact absurd fails other

end Leaves

/-- A row that is settled otherwise than by a refusal or a fill is earned by what is known of it. -/
theorem earned_settled {status : ExchangeStatus} (stored : (activity.row svc x order).status = .exchange status)
    (refused : status ≠ .rejected) (full : status ≠ .filled) (known : ¬Ambiguous x order activity) :
    Earned svc x order activity := by
  refine ⟨fun same => ?_, fun same => ?_, fun unclear => absurd unclear known⟩ <;> rw [stored] at same <;>
    injection same with same
  · exact absurd same refused
  · exact absurd same full

/-- The report of a cancellation earns what is stored of it. -/
theorem report_earned (cancels : activity.cancels)
    (reported : x.cancelled (activity.asksList order) = .ok (some result))
    (stored : (activity.row svc x order).status = .exchange (settledAs result.status)) :
    Earned svc x order activity := by
  have answered := cancelled_looked x (activity.asksList order)
  rw [reported] at answered
  cases answered with
  | heard fields result held told =>
    by_cases unsettled : result.status.isOpen
    · exact earned_open (by rw [stored, settledAs, if_pos unsettled]; rfl)
    rw [settledAs, if_neg unsettled] at stored
    cases list : activity.asksList order with
    | true =>
      -- A list that was cancelled is done, and is stored as canceled.
      rw [list, if_pos rfl] at told
      have canceled : listStatusText svc.text fields = "ALL_DONE" := by
        by_contra other
        rw [told, cancelledListStatus, if_neg other] at unsettled
        split at unsettled <;> exact unsettled rfl
      rw [told, cancelledListStatus, if_pos canceled] at stored
      refine earned_settled stored (by decide) (by decide) fun unclear => unclear.cancelled cancels ⟨fields, held, ?_⟩
      rw [if_pos list]
      exact .inr canceled
    | false =>
      rw [list] at told
      have right := readsRight held told
      refine ⟨fun same => ?_, fun same => ?_, fun unclear => ?_⟩
      · rw [stored] at same
        injection same with same
        exact .inr (.inl ⟨cancels, list, right.rejected same⟩)
      · rw [stored] at same
        injection same with same
        exact .inr (.inl ⟨cancels, list, right.filled same⟩)
      · have untold := unclear.cancelled cancels
        rw [list] at untold
        rw [right.untold untold] at unsettled
        exact absurd rfl unsettled

/-- What a cancellation earns. -/
theorem cancel_earned (cancels : activity.cancels) (quiet : ¬activity.sends svc.text)
    (looks : activity.looksUp x ↔ x.cancellation.saysCode (-2011))
    (leaves : CancelLeaves (x.cancelled (activity.asksList order)) (x.state (activity.asksList order))
      (activity.row svc x order).status) :
    Earned svc x order activity ↔ ¬EmptyList x order activity ∧ ¬LookupDropped x activity := by
  constructor
  · intro earned
    constructor
    · rintro ⟨late, list, empty, fields, held, finished⟩
      obtain ⟨result, reported, full⟩ := emptyList_state held finished
      rw [list] at leaves
      have stored := leaves.lookedUp (looks.mp late) reported
      rw [full] at stored
      rcases earned.filled stored with ⟨sends, -⟩ | ⟨-, single, -⟩ | ⟨-, filled⟩
      · exact quiet sends
      · rw [list] at single
        cases single
      · rw [if_pos list] at filled
        exact empty filled
    · rintro ⟨-, late, fails, present⟩
      have gone := looks.mp late
      -- Neither answer tells anything, yet the row is settled.
      have unclear : Ambiguous x order activity := by
        refine ⟨fun sends => absurd sends quiet, fun _ => ?_, fun _ => ⟨?_, fun _ => present⟩⟩
        · rintro ⟨fields, held, -⟩
          rw [saysCode_silent gone] at held
          cases held
        · rintro ⟨fields, held, -⟩
          rw [fails_silent fails] at held
          cases held
      have live := earned.ambiguous unclear
      rw [leaves.canceled gone fails] at live
      cases live
  · rintro ⟨full, kept⟩
    have late (none : x.cancelled (activity.asksList order) = .ok none) : activity.looksUp x := by
      have answered := cancelled_looked x (activity.asksList order)
      rw [none] at answered
      cases answered with
      | gone coded => exact looks.mpr coded
    cases leaves with
    | failed raised same live | unsure gone raised same odd live => exact earned_open live
    | reported result same stored => exact report_earned cancels same stored
    | found gone result same stored =>
      by_cases unsettled : result.status.isOpen
      · exact earned_open (by rw [stored, settledAs, if_pos unsettled]; rfl)
      rw [settledAs, if_neg unsettled] at stored
      have late := late gone
      have right := looksRight (.reported result same stored) fun ⟨list, empty, done⟩ => full ⟨late, list, empty, done⟩
      exact ⟨fun same => .inr (.inr ⟨late, right.rejected same⟩), fun same => .inr (.inr ⟨late, right.filled same⟩),
        fun unclear => right.untold (unclear.lookedUp late).1⟩
    | dropped gone silent stored =>
      have fails : x.lookup.failsCanonically := by
        have found := state_looked x (activity.asksList order)
        rcases silent with same | ⟨error, same⟩
        · rw [same] at found
          cases found with
          | gone coded => exact saysCode_fails coded
        · rw [same] at found
          cases found with
          | failed error canonical other => exact canonical
          | crashed raised odd other => exact absurd rfl (odd error)
      refine earned_settled stored (by decide) (by decide) fun unclear => kept ⟨cancels, late gone, fails, ?_⟩
      exact (unclear.lookedUp (late gone)).2 cancels

/-- What does not cancel drops no lookup. -/
theorem keeps_lookup {x : Exchange text} {left right : Prop} (keeps : ¬activity.cancels)
    (earned : left ↔ right ∧ ¬EmptyList x order activity) :
    left ↔ right ∧ ¬EmptyList x order activity ∧ ¬LookupDropped x activity := by
  have kept : ¬LookupDropped x activity := fun dropped => keeps dropped.1
  rw [earned]
  exact and_congr_right fun _ => (and_iff_left kept).symm

/-- For an open row, every activity of the order service and every behaviour of the exchange: the row
earns its status exactly when no server error is read as a refusal, no list that is done without a
filled leg is read as filled, and no lookup after a cancellation that found nothing is dropped. -/
theorem statuses_earned_iff (svc : Service) (x : Exchange svc.text) (order : Order)
    (live : order.status.isOpen) (activity : Activity) :
    Earned svc x order activity ↔
      ¬ServerError x activity ∧ ¬EmptyList x order activity ∧ ¬LookupDropped x activity := by
  cases activity with
  | submit p =>
    refine keeps_lookup id ?_
    by_cases sends : orderParams (p.order svc.text) = .ok ()
    · exact submission_earned id sends ⟨fun looks => looks.2, fun late => ⟨sends, late⟩⟩
        (reads_placeOrder sends) (submit_as live)
    · exact idle_earned sends (fun looks => sends looks.1) (unsent_open live sends)
  | submitList account o =>
    exact keeps_lookup id (submission_earned id trivial Iff.rfl reads_placeOco (submitList_as live))
  | retry account =>
    refine keeps_lookup id ?_
    have looked := @retry_looksUp svc account order x live
    by_cases real : account.tradingLock = .real
    · rw [if_pos real] at looked
      exact lookup_earned id id real looked
    · rw [if_neg real] at looked
      exact idle_earned id real looked
  | startup report => exact keeps_lookup id (lookup_earned id id trivial (startup_looksUp live))
  | lookupClose account symbol => exact keeps_lookup id (lookup_earned id id trivial (lookupClose_looksUp live))
  | cancel account actor state =>
    have earned : Earned svc x order (.cancel account actor state) ↔ _ :=
      cancel_earned trivial id Iff.rfl (cancel_as live)
    rw [earned]
    exact ⟨fun fine => ⟨fun served => served.1, fine⟩, And.right⟩

/-- A market purchase. -/
def purchase : Placement where
  account := { accountId := "a1", tradingLock := .real }
  isReal := true
  symbol := "BTCUSDT"
  side := .buy
  orderType := .market
  quantity := 1
  price := none
  notional := 100
  referencePrice := 100
  idempotencyKey := "k1"
  equitySnapshot := 1000
  actor := "agent"

/-- The row of the purchase. -/
def purchaseRow : Order := newOrder (purchase.draft plainText) false "o1" 0

/-- The exchange fills the purchase. -/
def fillingExchange : Exchange plainText where
  submission := .reply 200 (.json (.object [("status", .text "FILLED")]))
  lookup := .failed "not asked"
  done := fun _ impossible => nomatch impossible
  executing := fun _ impossible => nomatch impossible

/-- A server error answers the purchase. -/
def failingExchange : Exchange plainText where
  submission := .reply 503 (.json (.object []))
  lookup := .failed "not asked"
  done := fun _ impossible => nomatch impossible
  executing := fun _ impossible => nomatch impossible

/-- The purchase is filled, and has earned it. -/
theorem filled_purchase_earned :
    (Activity.row demo fillingExchange purchaseRow (.submit purchase)).status = .exchange .filled ∧
      Earned demo fillingExchange purchaseRow (.submit purchase) := by
  refine ⟨by decide +kernel, (statuses_earned_iff demo fillingExchange purchaseRow rfl (.submit purchase)).mpr
    ⟨?_, ?_, fun dropped => dropped.1⟩⟩
  · rintro ⟨-, status, body, answered, high, -⟩
    cases answered
    omega
  · rintro ⟨-, list, -⟩
    cases list

/-- After a server error the exchange may hold the order, but its row is rejected. -/
theorem server_error_unearned :
    ¬∀ (svc : Service) (x : Exchange svc.text) (order : Order) (activity : Activity),
      order.status.isOpen → Earned svc x order activity := by
  intro earned
  have stored : (Activity.row demo failingExchange purchaseRow (.submit purchase)).status =
      .exchange .rejected := by decide +kernel
  rcases (earned demo failingExchange purchaseRow (.submit purchase) rfl).rejected stored with
    ⟨-, ⟨raised, unsent⟩ | ⟨status, body, answered, -, low⟩ | ⟨fields, read, -⟩⟩ | ⟨cancels, -⟩ | ⟨⟨-, late⟩, -⟩
  · cases unsent
  · cases answered
    omega
  · cases read
  · exact cancels
  · rcases late with lost | ⟨raised, unsent, -⟩
    · exact lost
    · cases unsent

end Rasat
