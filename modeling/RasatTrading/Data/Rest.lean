import Mathlib.Data.List.Infix
import RasatTrading.Broker.Binance

/-! The REST clients that share one weight budget: every point at which they wait. -/

namespace Rasat

open Coop

/-- The weight budget of a window; the lock of `acquire` is not part of it. -/
structure RateLimitBudget where
  maxWeight : ℕ
  windowSeconds : ℚ := 60
  used : ℕ := 0
  windowStart : ℚ := 0
  totalWaits : ℕ := 0
  deriving DecidableEq, Repr

namespace RateLimitBudget

/-- Whether the window is over. -/
def isOver (budget : RateLimitBudget) (now : ℚ) : Bool := budget.windowSeconds ≤ now - budget.windowStart

/-- Open a new window when the last one is over. -/
def refreshed (budget : RateLimitBudget) (now : ℚ) : RateLimitBudget :=
  if budget.isOver now then { budget with used := 0, windowStart := now } else budget

/-- One round of `acquire`: reserve the weight, or learn how long to sleep, up to the jitter. -/
def acquireRound (budget : RateLimitBudget) (weight : ℕ) (now : ℚ) : Option ℚ × RateLimitBudget :=
  -- The window is looked at in each round, since time has passed while the task slept.
  let current := budget.refreshed now
  if current.used + weight ≤ current.maxWeight then (none, { current with used := current.used + weight })
  else
    -- No sleep is longer than five seconds, so a waiter looks again before a long window ends.
    let wait := current.windowStart + current.windowSeconds - now
    (some (min wait 5), { current with totalWaits := current.totalWaits + 1 })

/-- `note_used`. -/
def noteUsed (budget : RateLimitBudget) (usedWeight : ℕ) : RateLimitBudget :=
  -- A smaller number is passed over: it may be of the last window.
  if usedWeight > budget.used then { budget with used := usedWeight } else budget

end RateLimitBudget

/-- `backoff_delay`, up to the jitter. -/
def backoffDelay (attempt : ℕ) (base : ℚ) : ℚ := min (base * 2 ^ attempt) 60

/-- A reply with its headers and what reading its body as JSON or as a text comes to. -/
structure HttpReply where
  usedWeight : Option String := none
  contentType : String := ""
  status : ℕ
  /-- The text of the exception of `raise_for_status`. -/
  reason : String := ""
  asJson : Body
  asText : Body

/-- What becomes of a request that is sent. -/
inductive HttpOutcome
  /-- An `aiohttp.ClientError` or a timeout. -/
  | failed (text : String)
  | replied (reply : HttpReply)

/-- The weight that the server reports, where the header is a number. -/
def HttpOutcome.reported : HttpOutcome → Option ℕ
  | .failed _ => none
  -- `if used and used.isdigit()`.
  | .replied reply => reply.usedWeight.bind fun used => if used ≠ "" ∧ used.all Char.isDigit then used.toNat? else none

/-- Everything the clients wait for, and the changes of the budget. -/
inductive RateReq
  /-- The lock of the budget. -/
  | lock
  | unlock
  /-- One round of `acquire`. -/
  | reserve (weight : ℕ)
  | sleep (seconds : ℚ)
  /-- The credentials of an account. -/
  | credentials (accountId : String)
  /-- Send a request that the exchange counts with a weight. -/
  | send (path : String) (weight : ℕ)
  | noteUsed (usedWeight : ℕ)
  /-- What is never answered. -/
  | never

@[reducible] def RateReq.Ans : RateReq → Type
  | .reserve _ => Option ℚ
  | .send _ _ => HttpOutcome
  | .never => Empty
  | _ => Unit

/-- A coroutine of the clients. -/
abbrev RateTask := Prog RateReq RateReq.Ans Exc

/-- Wait for one request. -/
def rate (request : RateReq) : RateTask request.Ans := Prog.call request

/-- The loop of `acquire`; a task that has waited as often as it is given rounds goes on waiting. -/
def acquireLoop (weight : ℕ) : ℕ → RateTask Unit
  | 0 => do
    let answer ← rate .never
    nomatch answer
  | rounds + 1 => do
    match ← rate (.reserve weight) with
    | none => return ()
    -- The lock is held over the sleep, so the other callers stand in a line.
    | some wait => do
      rate (.sleep wait)
      acquireLoop weight rounds

/-- `acquire`. -/
def acquire (weight rounds : ℕ) : RateTask Unit := do
  rate .lock
  (acquireLoop weight rounds).ensuring (rate .unlock)

/-- Note the weight that a reply reports. -/
def noteReported (outcome : HttpOutcome) : RateTask Unit :=
  match outcome.reported with
  | none => return ()
  | some used => rate (.noteUsed used)

/-- What an attempt of `get` comes to. -/
inductive Attempt
  | answer (value : Json)
  /-- A 429 or 418. -/
  | limited
  /-- An error that is tried again. -/
  | failed (reason : String)
  | raised (exc : Exc)

/-- What `get` makes of a reply. -/
def judgeReply (path : String) (reply : HttpReply) : Attempt :=
  -- These two are tried again with the weight that was reserved before.
  if reply.status = 429 ∨ reply.status = 418 then .limited
  else if reply.status = 401 ∨ reply.status = 403 then
    .raised (.rasat ⟨.unauthorized,
      "Binance " ++ toString reply.status ++ " — an API key may be required (" ++ path ++ ")"⟩)
  else if reply.status = 400 ∨ reply.status = 404 then
    .raised (.rasat ⟨.invalidRequest, "Binance " ++ toString reply.status ++ " — invalid request (" ++ path ++ ")"⟩)
  -- `raise_for_status` raises a `ClientError`, which is tried again as well.
  else if 400 ≤ reply.status then .failed reply.reason
  else
    match if "json".toList <:+: reply.contentType.toList.map Char.toLower then reply.asJson else reply.asText with
    | .json value => .answer value
    -- The connection is lost while the body is read.
    | .lost reason => .failed reason
    | .garbled reason => .raised (.other reason)

/-- What `get` makes of what becomes of a request. -/
def judgeOutcome (path : String) : HttpOutcome → Attempt
  | .failed reason => .failed reason
  | .replied reply => judgeReply path reply

/-- The attempts of `get` that are left. -/
def attempts (retries : ℕ) (path : String) (weight : ℕ) : ℕ → Option RasatError → RateTask Json
  | 0, last => .fail (.rasat (last.getD ⟨.internalError, "Binance request failed: " ++ path⟩))
  | left + 1, _ => do
    -- The number of this attempt, from zero.
    let attempt := retries - (left + 1)
    let outcome ← rate (.send path weight)
    -- The header counts whatever the status of the reply is.
    noteReported outcome
    match judgeOutcome path outcome with
    | .answer value => return value
    | .raised exc => .fail exc
    | .limited => do
      rate (.sleep (backoffDelay attempt 1))
      attempts retries path weight left (some ⟨.rateLimited, "Binance rate limit (" ++ path ++ ")"⟩)
    | .failed reason => do
      -- There is no sleep behind the last attempt.
      if attempt < retries - 1 then rate (.sleep (backoffDelay attempt (1 / 2)))
      attempts retries path weight left
        (some ⟨.internalError, "Binance request failed (" ++ path ++ "): " ++ reason⟩)

/-- `BinanceREST.get`. -/
def getRequest (retries : ℕ) (path : String) (weight rounds : ℕ) : RateTask Json := do
  acquire weight rounds
  attempts retries path weight retries none

/-- What the order broker sees of what becomes of a request. -/
def HttpOutcome.seen : HttpOutcome → HttpAnswer
  | .failed text => .failed text
  | .replied reply => .reply reply.status reply.asJson

/-- The weight of a signed request. -/
def signedWeight (path : String) : ℕ := if path = "/api/v3/account" then 5 else 1

/-- `BinanceOrderBroker._request`. -/
def signedRequest (text : Text) (path accountId : String) (rounds : ℕ) : RateTask Json := do
  acquire (signedWeight path) rounds
  -- The keys are read between the reservation and the sending.
  rate (.credentials accountId)
  let outcome ← rate (.send path (signedWeight path))
  noteReported outcome
  -- A signed request is sent once; an order must not be placed twice.
  match request text path outcome.seen with
  | .ok value => return value
  | .error raised => .fail raised.exc

/-! The clients of one budget, interleaved. -/

/-- What the record of a budget shows. -/
inductive Traffic
  /-- A new window. -/
  | reset
  | reserved (task weight : ℕ)
  | sent (task weight : ℕ)
  deriving DecidableEq, Repr

/-- The budget with the task that holds its lock, and the record of what was reserved and sent, newest first. -/
structure RateWorld where
  budget : RateLimitBudget
  holder : Option ℕ := none
  traffic : List Traffic := []

/-- What the schedule leaves open about one answer. -/
structure RateChoice where
  /-- `time.monotonic()`. -/
  now : ℚ := 0
  /-- An exception that ends the waiting, a cancellation among them. -/
  fault : Option Exc := none
  outcome : HttpOutcome := .failed ""

namespace RateWorld

/-- A round of `acquire` of a task. -/
def reserve (world : RateWorld) (task weight : ℕ) (now : ℚ) : Option ℚ × RateWorld :=
  let (wait, budget) := world.budget.acquireRound weight now
  -- The record shows the reset before what is reserved in the new window.
  let opened := if world.budget.isOver now then .reset :: world.traffic else world.traffic
  (wait, { world with
    budget := budget
    traffic := if wait = none then .reserved task weight :: opened else opened })

/-- The world of a new process: its budget is unused. -/
def rebooted (world : RateWorld) : RateWorld where
  budget := { world.budget with used := 0, totalWaits := 0 }
  traffic := .reset :: world.traffic

end RateWorld

/-- The outcome of a wait that may be ended by an exception. -/
def waited {α : Type} (fault : Option Exc) (value : α) : Except Exc α := fault.elim (.ok value) .error

/-- Serve one request of a task; the lock makes a task wait. -/
def ratePerform (world : RateWorld) (task : ℕ) : (request : RateReq) → RateChoice →
    Option (Except Exc request.Ans × RateWorld)
  | .lock, choice =>
    match choice.fault with
    -- A task may be cancelled while it stands in the line for the lock.
    | some raised => some (.error raised, world)
    | none => if world.holder = none then some (.ok (), { world with holder := some task }) else none
  | .unlock, _ => some (.ok (), { world with holder := none })
  | .reserve weight, choice =>
    let (wait, after) := world.reserve task weight choice.now
    some (.ok wait, after)
  | .sleep _, choice => some (waited choice.fault (), world)
  | .credentials _, choice => some (waited choice.fault (), world)
  | .send _ weight, choice =>
    -- The exchange counts a request that is sent, whether or not its answer comes back.
    some (waited choice.fault choice.outcome, { world with traffic := .sent task weight :: world.traffic })
  | .noteUsed used, _ => some (.ok (), { world with budget := world.budget.noteUsed used })
  | .never, _ => none

/-- A call of a client, and how often it can wait for the budget. -/
inductive RateCall
  | get (retries : ℕ) (path : String) (weight rounds : ℕ)
  | signed (path accountId : String) (rounds : ℕ)

def RateCall.program (text : Text) : RateCall → RateTask Json
  | .get retries path weight rounds => getRequest retries path weight rounds
  | .signed path accountId rounds => signedRequest text path accountId rounds

/-- The clients that share one budget. -/
def rateMachine (text : Text) : Machine RateReq RateReq.Ans Exc RateWorld RateChoice RateCall Json where
  perform := ratePerform
  program := RateCall.program text
  boot := .done .null
  rebooted := RateWorld.rebooted

/-- A state of the clients. -/
abbrev RateState := Sys RateReq RateReq.Ans Exc RateWorld RateCall Json

end Rasat
