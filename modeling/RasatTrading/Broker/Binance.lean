import RasatTrading.Json
import RasatTrading.Request

/-! The signed REST client: what an HTTP answer means to the order service. -/

namespace Rasat

/-- What reading the body of an HTTP answer as JSON comes to. -/
inductive Body
  | json (value : Json)
  /-- An `aiohttp.ClientError` or a timeout while reading. -/
  | lost (text : String)
  /-- Any other exception of the parser. -/
  | garbled (text : String)

/-- What becomes of a signed request. -/
inductive HttpAnswer
  /-- An exception before it was sent: the rate limit budget or the credentials. -/
  | unsent (raised : Exc)
  /-- A connection failure or a timeout. -/
  | failed (text : String)
  | reply (status : Nat) (body : Body)

/-- A raised exception with the `binance_code` among its details. -/
structure Raised where
  exc : Exc
  binanceCode : Json := .null

variable (text : Text)

/-- The exception of `get` on a value that is no dictionary. -/
def noAttribute : Exc := .other "object has no attribute 'get'"

/-- The canonical timeout of a request. -/
def requestTimeout (path reason : String) : Raised :=
  { exc := .rasat ⟨.timeout, "Binance request timed out/failed (" ++ path ++ "): " ++ reason⟩ }

/-- The refusal that an error answer is read as. -/
def refusal (path : String) (status : Nat) (body : Body) : Raised :=
  let parsed := match body with
    | .json value => value
    | .lost _ | .garbled _ => .object []
  match parsed with
  | .object fields =>
    let message := Json.get fields "msg"
    let shown := if message.truthy then message.str text else "Binance " ++ toString status
    { exc := .rasat ⟨.orderRejected, shown ++ " (" ++ path ++ ")"⟩
      binanceCode := Json.get fields "code" }
  | _ => { exc := noAttribute }

/-- `_request`. -/
def request (path : String) : HttpAnswer → Except Raised Json
  | .unsent raised => .error { exc := raised }
  | .failed reason => .error (requestTimeout path reason)
  | .reply status body =>
    if status = 401 ∨ status = 403 then
      .error { exc := .rasat ⟨.unauthorized,
        "Binance " ++ toString status ++ " — invalid API key (" ++ path ++ ")"⟩ }
    -- Every other error status counts as a refusal, those of the server included.
    else if status ≥ 400 then .error (refusal text path status body)
    else match body with
      | .json value => .ok value
      | .lost reason => .error (requestTimeout path reason)
      | .garbled reason => .error { exc := .other reason }

/-- The order status with this name, UNKNOWN for any other name. -/
def ExchangeStatus.ofName (name : String) : ExchangeStatus :=
  match [ExchangeStatus.new, .partiallyFilled, .filled, .canceled, .rejected, .expired, .unknown].find?
      fun status => status.name = name with
  | some status => status
  | none => .unknown

/-- The text of a status field, in upper case. -/
def statusText (fields : List (String × Json)) : String :=
  let status := Json.get fields "status"
  upper (if status.truthy then status.str text else "UNKNOWN")

/-- An id field as a text, when there is one. -/
def idText (fields : List (String × Json)) (key : String) : Option String :=
  match Json.get fields key with
  | .null => none
  | value => some (value.str text)

/-- `_order_result`: quantities that cannot be read count as zero. -/
def orderResult : Json → Except Exc OrderResult
  | .object fields =>
    let executed := ((fields.lookup "executedQty").getD (.int 0)).toFloat text
    let quote := ((fields.lookup "cummulativeQuoteQty").getD (.int 0)).toFloat text
    .ok {
      status := .ofName (statusText text fields)
      exchangeOrderId := idText text fields "orderId"
      executedQty := executed.getD 0
      avgPrice := match executed, quote with
        | some quantity, some amount => if quantity = 0 then 0 else amount / quantity
        | _, _ => 0 }
  | _ => .error noAttribute

/-- The prices that the parameters of an order type need. -/
def orderParams (order : PlaceOrder) : Except Exc Unit :=
  match order.orderType with
  | .limit =>
    rejectIf (order.price = none) .invalidRequest "price is required for a limit order"
  | .stopLossLimit => do
    rejectIf (order.stopPrice = none) .invalidRequest "stop_price is required for a stop order"
    rejectIf (order.price = none) .invalidRequest "price is required for a stop order"
  | .market | .oco => .ok ()

/-- `place_order`. -/
def binancePlaceOrder (order : PlaceOrder) (answer : HttpAnswer) : Except Exc OrderResult := do
  orderParams order
  match request text "/api/v3/order" answer with
  | .error raised => .error raised.exc
  | .ok data => orderResult text data

/-- `place_oco`: an accepted list counts as new. -/
def binancePlaceOco (answer : HttpAnswer) : Except Exc OrderResult :=
  match request text "/api/v3/orderList/oco" answer with
  | .error raised => .error raised.exc
  | .ok (.object fields) =>
    .ok { status := .new, exchangeOrderId := idText text fields "orderListId" }
  | .ok _ => .error noAttribute

/-- Whether an exception is a refusal with this code of Binance. -/
def Raised.hasCode (code : ℤ) (raised : Raised) : Bool :=
  match raised.exc with
  | .rasat error => error.code = .orderRejected && raised.binanceCode.isInt code
  | _ => false

/-- Whether an exception says that the order does not exist. -/
def Raised.notFound (raised : Raised) : Bool := raised.hasCode (-2013)

/-- Whether an exception says that the order is already canceled or filled. -/
def Raised.alreadyGone (raised : Raised) : Bool := raised.hasCode (-2011)

/-- `query_order`. -/
def binanceQueryOrder (answer : HttpAnswer) : Except Exc (Option OrderResult) :=
  match request text "/api/v3/order" answer with
  | .error raised => if raised.notFound then .ok none else .error raised.exc
  | .ok data => (orderResult text data).map some

/-- The list status of an answer, in upper case. -/
def listStatusText (fields : List (String × Json)) : String :=
  let status := Json.get fields "listOrderStatus"
  upper (if status.truthy then status.str text else "")

/-- The order status that a list status is read as: a list that is done counts as filled. -/
def listStatus (name : String) : ExchangeStatus :=
  if name = "EXECUTING" then .new else if name = "ALL_DONE" then .filled else .unknown

/-- `query_oco`. -/
def binanceQueryOco (answer : HttpAnswer) : Except Exc (Option OrderResult) :=
  match request text "/api/v3/orderList" answer with
  | .error raised => if raised.notFound then .ok none else .error raised.exc
  | .ok (.object fields) =>
    .ok (some {
      status := listStatus (listStatusText text fields)
      exchangeOrderId := idText text fields "orderListId" })
  | .ok _ => .error noAttribute

/-- `cancel_order`. -/
def binanceCancelOrder (answer : HttpAnswer) : Except Exc (Option OrderResult) :=
  match request text "/api/v3/order" answer with
  | .error raised => if raised.alreadyGone then .ok none else .error raised.exc
  | .ok data => (orderResult text data).map some

/-- The order status that the list status of a cancellation is read as: a list that is done counts as canceled. -/
def cancelledListStatus (name : String) : ExchangeStatus :=
  if name = "ALL_DONE" then .canceled else if name = "EXECUTING" then .new else .unknown

/-- `cancel_oco`. -/
def binanceCancelOco (answer : HttpAnswer) : Except Exc (Option OrderResult) :=
  match request text "/api/v3/orderList" answer with
  | .error raised => if raised.alreadyGone then .ok none else .error raised.exc
  | .ok (.object fields) =>
    .ok (some {
      status := cancelledListStatus (listStatusText text fields)
      exchangeOrderId := idText text fields "orderListId" })
  | .ok _ => .error noAttribute

/-- The members of the object that a successful answer holds. -/
def HttpAnswer.fields : HttpAnswer → Option (List (String × Json))
  | .reply status (.json (.object fields)) => if status < 400 then some fields else none
  | _ => none

/-- Whether no answer was heard: the request failed, or reading its successful answer did. -/
def HttpAnswer.unheard : HttpAnswer → Prop
  | .failed _ => True
  | .reply status (.lost _) => status < 400
  | _ => False

/-- The request was sent and an answer to it was heard. -/
def HttpAnswer.arrived (answer : HttpAnswer) : Prop := ¬answer.unheard ∧ ∀ raised, answer ≠ .unsent raised

/-- The answer is a refusal with this code of Binance. -/
def HttpAnswer.saysCode (code : ℤ) : HttpAnswer → Prop
  | .reply status (.json (.object fields)) =>
    400 ≤ status ∧ status ≠ 401 ∧ status ≠ 403 ∧ (Json.get fields "code").isInt code
  | _ => False

/-- The request ends in a canonical error: it was not sent for one, no answer was heard, or it was refused with a
body that does not stop the client. -/
def HttpAnswer.failsCanonically : HttpAnswer → Prop
  | .unsent raised => ∃ error, raised = .rasat error
  | .failed _ => True
  | .reply status body =>
    status = 401 ∨ status = 403 ∨ (status < 400 ∧ ∃ reason, body = .lost reason) ∨
      (400 ≤ status ∧ ∀ value, body = .json value → ∃ fields, value = .object fields)

/-- How a request can come out. -/
inductive RequestCase (answer : HttpAnswer) : Except Raised Json → Prop
  | unsent (raised : Exc) (named : answer = .unsent raised) : RequestCase answer (.error { exc := raised })
  | unheard (reason : String) (lost : answer.unheard) :
      RequestCase answer (.error { exc := .rasat ⟨.timeout, reason⟩ })
  | unauthorized (status : Nat) (body : Body) (message : String) (named : answer = .reply status body)
      (arrived : answer.arrived) (code : status = 401 ∨ status = 403) :
      RequestCase answer (.error { exc := .rasat ⟨.unauthorized, message⟩ })
  | refused (status : Nat) (body : Body) (message : String) (code : Json)
      (named : answer = .reply status body) (arrived : answer.arrived) (bad : 400 ≤ status)
      (read : ∀ value, body = .json value → ∃ fields, value = .object fields) :
      RequestCase answer (.error { exc := .rasat ⟨.orderRejected, message⟩, binanceCode := code })
  | crashed (reason : String) (arrived : answer.arrived) (silent : answer.fields = none)
      (odd : ∀ status body, answer = .reply status body → 400 ≤ status →
        ∃ value, body = .json value ∧ ∀ fields, value ≠ .object fields) :
      RequestCase answer (.error { exc := .other reason })
  | heard (fields : List (String × Json)) (arrived : answer.arrived) (read : answer.fields = some fields) :
      RequestCase answer (.ok (.object fields))
  | strange (value : Json) (arrived : answer.arrived) (silent : answer.fields = none)
      (odd : ∀ fields, value ≠ .object fields) (fine : ∀ status body, answer = .reply status body → status < 400) :
      RequestCase answer (.ok value)

/-- A reply whose body was not lost under a good status has arrived. -/
theorem reply_arrived {status : Nat} {body : Body}
    (held : ∀ reason, body = .lost reason → 400 ≤ status) : (HttpAnswer.reply status body).arrived := by
  refine ⟨fun lost => ?_, fun _ impossible => nomatch impossible⟩
  cases body with
  | lost reason =>
    have fine : status < 400 := lost
    have bad := held reason rfl
    omega
  | json value => exact lost.elim
  | garbled reason => exact lost.elim

/-- Every request comes out in one of these ways. -/
theorem request_cases (path : String) (answer : HttpAnswer) :
    RequestCase answer (request text path answer) := by
  cases answer with
  | unsent raised => exact .unsent raised rfl
  | failed reason => exact .unheard _ trivial
  | reply status body =>
    simp only [request]
    by_cases key : status = 401 ∨ status = 403
    · rw [if_pos key]
      exact .unauthorized status body _ rfl (reply_arrived fun _ _ => by omega) key
    rw [if_neg key]
    -- The error of a refused request is read from its body, which need not be an object.
    by_cases bad : status ≥ 400
    · rw [if_pos bad]
      have arrived : (HttpAnswer.reply status body).arrived := reply_arrived fun _ _ => bad
      cases body with
      | lost reason => exact .refused status _ _ _ rfl arrived bad fun _ same => nomatch same
      | garbled reason => exact .refused status _ _ _ rfl arrived bad fun _ same => nomatch same
      | json value =>
        cases value with
        | object fields =>
          refine .refused status _ _ _ rfl arrived bad fun value same => ?_
          cases same
          exact ⟨fields, rfl⟩
        | _ =>
          refine .crashed _ arrived rfl fun status' body' same _ => ?_
          cases same
          exact ⟨_, rfl, fun _ impossible => nomatch impossible⟩
    · rw [if_neg bad]
      -- A body that is no object is handed on to the callers, which stumble on it.
      have fine : status < 400 := not_le.mp bad
      cases body with
      | lost reason => exact .unheard _ fine
      | garbled reason =>
        refine .crashed _ (reply_arrived fun _ same => nomatch same) rfl fun status' body' same high => ?_
        cases same
        exact absurd high bad
      | json value =>
        have arrived : (HttpAnswer.reply status (.json value)).arrived :=
          reply_arrived fun _ same => nomatch same
        cases value with
        | object fields => exact .heard fields arrived (if_pos fine)
        | _ =>
          refine .strange _ arrived rfl (fun _ impossible => nomatch impossible) fun status' body' same => ?_
          cases same
          exact fine

variable {answer : HttpAnswer}

/-- What a request raises has a code of Binance exactly when the answer says it. -/
theorem request_hasCode {path : String} {raised : Raised} {code : ℤ}
    (failed : request text path answer = .error raised) : raised.hasCode code ↔ answer.saysCode code := by
  cases answer with
  | unsent reason =>
    cases failed
    refine iff_of_false ?_ id
    cases reason <;> simp [Raised.hasCode, Json.isInt]
  | failed reason =>
    cases failed
    exact iff_of_false (by simp [Raised.hasCode, requestTimeout]) id
  | reply status body =>
    simp only [request] at failed
    by_cases key : status = 401 ∨ status = 403
    · rw [if_pos key] at failed
      cases failed
      refine iff_of_false (by simp [Raised.hasCode]) fun coded => ?_
      cases body with
      | json value =>
        cases value with
        | object fields => exact key.elim coded.2.1 coded.2.2.1
        | _ => exact coded
      | _ => exact coded
    rw [if_neg key] at failed
    obtain ⟨other, forbidden⟩ := not_or.mp key
    by_cases bad : status ≥ 400
    · rw [if_pos bad] at failed
      cases failed
      -- Only a body that is an object can hold a code.
      cases body with
      | json value =>
        cases value with
        | object fields => simp [refusal, Raised.hasCode, HttpAnswer.saysCode, bad, other, forbidden]
        | _ => exact iff_of_false (by simp [refusal, Raised.hasCode, noAttribute]) id
      | _ => exact iff_of_false (by simp [refusal, Raised.hasCode, Json.get, Json.isInt]) id
    · rw [if_neg bad] at failed
      refine iff_of_false (fun has => ?_) fun coded => ?_
      · cases body <;> cases failed <;> simp [Raised.hasCode, requestTimeout] at has
      · cases body with
        | json value =>
          cases value with
          | object fields => exact bad coded.1
          | _ => exact coded
        | _ => exact coded

/-- A successful answer with an object is handed on. -/
theorem request_fields {path : String} {fields : List (String × Json)}
    (read : answer.fields = some fields) : request text path answer = .ok (.object fields) := by
  unfold HttpAnswer.fields at read
  split at read
  · rename_i status found
    by_cases fine : status < 400
    · rw [if_pos fine] at read
      cases read
      simp only [request]
      rw [if_neg (by omega), if_neg (by omega)]
    · rw [if_neg fine] at read
      cases read
  · cases read

/-- A request ends in a canonical error exactly when its answer says so. -/
theorem request_failsCanonically (path : String) (answer : HttpAnswer) :
    answer.failsCanonically ↔
      ∃ raised error, request text path answer = .error raised ∧ raised.exc = .rasat error := by
  cases answer with
  | unsent raised =>
    constructor
    · rintro ⟨error, rfl⟩
      exact ⟨_, error, rfl, rfl⟩
    · rintro ⟨came, error, same, canonical⟩
      cases same
      exact ⟨error, canonical⟩
  | failed reason => exact iff_of_true trivial ⟨_, _, rfl, rfl⟩
  | reply status body =>
    simp only [request, HttpAnswer.failsCanonically]
    by_cases key : status = 401 ∨ status = 403
    · rw [if_pos key]
      exact iff_of_true (key.imp_right .inl) ⟨_, _, rfl, rfl⟩
    rw [if_neg key]
    obtain ⟨other, forbidden⟩ := not_or.mp key
    by_cases bad : status ≥ 400
    · rw [if_pos bad]
      simp only [other, forbidden, not_lt.mpr bad, ge_iff_le.mp bad, false_and, true_and, false_or]
      cases body with
      | json value =>
        cases value with
        | object fields =>
          refine iff_of_true (fun value same => ?_) ⟨_, _, rfl, rfl⟩
          cases same
          exact ⟨fields, rfl⟩
        -- The client stumbles over an error body that is no object.
        | _ =>
          refine iff_of_false (fun read => ?_) ?_
          · obtain ⟨fields, same⟩ := read _ rfl
            cases same
          · rintro ⟨raised, error, same, canonical⟩
            cases same
            cases canonical
      | _ => exact iff_of_true (fun _ same => nomatch same) ⟨_, _, rfl, rfl⟩
    · rw [if_neg bad]
      have fine : status < 400 := not_le.mp bad
      have low : ¬400 ≤ status := bad
      simp only [other, forbidden, fine, low, false_and, true_and, false_or, or_false]
      cases body with
      | lost reason => exact iff_of_true ⟨reason, rfl⟩ ⟨_, _, rfl, rfl⟩
      | json value =>
        refine iff_of_false (fun lost => nomatch lost) ?_
        rintro ⟨raised, error, same, canonical⟩
        cases same
      | garbled reason =>
        refine iff_of_false (fun lost => nomatch lost) ?_
        rintro ⟨raised, error, same, canonical⟩
        cases same
        cases canonical

/-- What a lookup or a cancellation makes of its answer; `code` says that there is no such order, and `read` tells
the state from the members of a good answer. -/
inductive LookedAs (code : ℤ) (read : List (String × Json) → ExchangeStatus) (answer : HttpAnswer) :
    Except Exc (Option OrderResult) → Prop
  | gone (coded : answer.saysCode code) : LookedAs code read answer (.ok none)
  | failed (error : RasatError) (canonical : answer.failsCanonically) (other : ¬answer.saysCode code) :
      LookedAs code read answer (.error (.rasat error))
  | crashed (raised : Exc) (odd : ∀ error, raised ≠ .rasat error) (other : ¬answer.failsCanonically) :
      LookedAs code read answer (.error raised)
  | heard (fields : List (String × Json)) (result : OrderResult) (held : answer.fields = some fields)
      (told : result.status = read fields) : LookedAs code read answer (.ok (some result))

/-- Lookups and cancellations make of their answers the same; `accept` is what they do with a good one. -/
theorem lookedAs (path : String) (code : ℤ) {read : List (String × Json) → ExchangeStatus}
    {accept : Json → Except Exc OrderResult}
    (accepts : ∀ fields, ∃ result, accept (.object fields) = .ok result ∧ result.status = read fields)
    (refuses : ∀ value, (∀ fields, value ≠ .object fields) → accept value = .error noAttribute) :
    LookedAs code read answer (match request text path answer with
      | .error raised => if raised.hasCode code then .ok none else .error raised.exc
      | .ok data => (accept data).map some) := by
  have outcome := request_cases text path answer
  have canonical := request_failsCanonically text path answer
  cases came : request text path answer with
  | error raised =>
    dsimp only
    rw [came] at canonical
    by_cases coded : raised.hasCode code
    · rw [if_pos coded]
      exact .gone ((request_hasCode text came).mp coded)
    · rw [if_neg coded]
      have other := mt (request_hasCode text came).mpr coded
      cases named : raised.exc with
      | rasat error => exact .failed error (canonical.mpr ⟨raised, error, rfl, named⟩) other
      | _ =>
        refine .crashed _ (fun _ same => nomatch same) fun fails => ?_
        obtain ⟨other, error, same, rasat⟩ := canonical.mp fails
        cases same
        rw [named] at rasat
        cases rasat
  | ok data =>
    dsimp only
    rw [came] at outcome canonical
    cases outcome with
    | heard fields arrived held =>
      obtain ⟨result, accepted, told⟩ := accepts fields
      rw [accepted]
      exact .heard fields result held told
    | strange value arrived silent odd fine =>
      rw [refuses data odd]
      refine .crashed _ (fun _ same => nomatch same) fun fails => ?_
      obtain ⟨_, _, same, -⟩ := canonical.mp fails
      cases same

/-- The state of a single order is read from its own status. -/
theorem orderResult_reads :
    (∀ fields, ∃ result, orderResult text (.object fields) = .ok result ∧
      result.status = .ofName (statusText text fields)) ∧
      ∀ value, (∀ fields, value ≠ .object fields) → orderResult text value = .error noAttribute := by
  refine ⟨fun fields => ⟨_, rfl, rfl⟩, fun value odd => ?_⟩
  cases value with
  | object fields => exact absurd rfl (odd fields)
  | _ => rfl

/-- What a list answer is accepted as, given how its list status is read. -/
def acceptListAs (status : String → ExchangeStatus) : Json → Except Exc OrderResult
  | .object fields =>
    .ok { status := status (listStatusText text fields), exchangeOrderId := idText text fields "orderListId" }
  | _ => .error noAttribute

/-- The state of a list is read from its list status. -/
theorem acceptListAs_reads (status : String → ExchangeStatus) :
    (∀ fields, ∃ result, acceptListAs text status (.object fields) = .ok result ∧
      result.status = status (listStatusText text fields)) ∧
      ∀ value, (∀ fields, value ≠ .object fields) → acceptListAs text status value = .error noAttribute := by
  refine ⟨fun fields => ⟨_, rfl, rfl⟩, fun value odd => ?_⟩
  cases value with
  | object fields => exact absurd rfl (odd fields)
  | _ => rfl

/-- A lookup of a single order is read in this way. -/
theorem queryOrder_looked (answer : HttpAnswer) :
    LookedAs (-2013) (fun fields => .ofName (statusText text fields)) answer (binanceQueryOrder text answer) :=
  lookedAs text _ _ (orderResult_reads text).1 (orderResult_reads text).2

/-- So is a cancellation of one. -/
theorem cancelOrder_looked (answer : HttpAnswer) :
    LookedAs (-2011) (fun fields => .ofName (statusText text fields)) answer (binanceCancelOrder text answer) :=
  lookedAs text _ _ (orderResult_reads text).1 (orderResult_reads text).2

/-- A lookup of a list is read by its list status. -/
theorem queryOco_looked (answer : HttpAnswer) :
    LookedAs (-2013) (fun fields => listStatus (listStatusText text fields)) answer
      (binanceQueryOco text answer) := by
  have reads := acceptListAs_reads text listStatus
  convert lookedAs text "/api/v3/orderList" (-2013) reads.1 reads.2 using 1
  unfold binanceQueryOco
  cases request text "/api/v3/orderList" answer with
  | error raised => rfl
  | ok value => cases value <;> rfl

/-- So is a cancellation of a list. -/
theorem cancelOco_looked (answer : HttpAnswer) :
    LookedAs (-2011) (fun fields => cancelledListStatus (listStatusText text fields)) answer
      (binanceCancelOco text answer) := by
  have reads := acceptListAs_reads text cancelledListStatus
  convert lookedAs text "/api/v3/orderList" (-2011) reads.1 reads.2 using 1
  unfold binanceCancelOco
  cases request text "/api/v3/orderList" answer with
  | error raised => rfl
  | ok value => cases value <;> rfl

end Rasat
