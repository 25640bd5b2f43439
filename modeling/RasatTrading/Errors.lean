import Mathlib.Data.Rat.Defs

/-! The error vocabulary of the daemon and the exceptions that its code can raise. -/

namespace Rasat

/-- The canonical error codes. -/
inductive ErrorCode
  | internalError | invalidRequest | unauthorized | notReady | toolNotFound | invalidSymbol
  | staleData | rateLimited | timeout | insufficientBalance | pipelineUnavailable
  | accountNotFound | accountExists | accountInUse | accountNoCredentials
  | credentialStoreUnavailable | credentialDecryptFailed | riskLimitExceeded
  | symbolNotAllowed | overrideNotAvailable | tradingNotEnabled | filterViolation
  | orderRejected | orderExpired | orderUnknown | orderReconcileRequired | orderNotFound
  | notImplemented | notFound
  deriving DecidableEq, Repr

def ErrorCode.name : ErrorCode → String
  | .internalError => "INTERNAL_ERROR"
  | .invalidRequest => "INVALID_REQUEST"
  | .unauthorized => "UNAUTHORIZED"
  | .notReady => "NOT_READY"
  | .toolNotFound => "TOOL_NOT_FOUND"
  | .invalidSymbol => "INVALID_SYMBOL"
  | .staleData => "STALE_DATA"
  | .rateLimited => "RATE_LIMITED"
  | .timeout => "TIMEOUT"
  | .insufficientBalance => "INSUFFICIENT_BALANCE"
  | .pipelineUnavailable => "PIPELINE_UNAVAILABLE"
  | .accountNotFound => "ACCOUNT_NOT_FOUND"
  | .accountExists => "ACCOUNT_EXISTS"
  | .accountInUse => "ACCOUNT_IN_USE"
  | .accountNoCredentials => "ACCOUNT_NO_CREDENTIALS"
  | .credentialStoreUnavailable => "CREDENTIAL_STORE_UNAVAILABLE"
  | .credentialDecryptFailed => "CREDENTIAL_DECRYPT_FAILED"
  | .riskLimitExceeded => "RISK_LIMIT_EXCEEDED"
  | .symbolNotAllowed => "SYMBOL_NOT_ALLOWED"
  | .overrideNotAvailable => "OVERRIDE_NOT_AVAILABLE"
  | .tradingNotEnabled => "TRADING_NOT_ENABLED"
  | .filterViolation => "FILTER_VIOLATION"
  | .orderRejected => "ORDER_REJECTED"
  | .orderExpired => "ORDER_EXPIRED"
  | .orderUnknown => "ORDER_UNKNOWN"
  | .orderReconcileRequired => "ORDER_RECONCILE_REQUIRED"
  | .orderNotFound => "ORDER_NOT_FOUND"
  | .notImplemented => "NOT_IMPLEMENTED"
  | .notFound => "NOT_FOUND"

/-- The canonical error raised across all modules. -/
structure RasatError where
  code : ErrorCode
  message : String
  deriving DecidableEq, Repr

/-- An exception of the daemon's code, told apart as far as its handlers do. -/
inductive Exc
  | rasat (error : RasatError)
  /-- An `asyncio.TimeoutError`. -/
  | timeout
  /-- A `sqlite3.IntegrityError`. -/
  | integrity (text : String)
  /-- Any other `Exception`. -/
  | other (text : String)
  deriving DecidableEq, Repr

/-- The text that `str(exc)` gives. -/
def Exc.text : Exc → String
  | .rasat error => error.message
  | .timeout => ""
  | .integrity text => text
  | .other text => text

/-- Raise a canonical error. -/
def reject {α : Type} (code : ErrorCode) (message : String) : Except Exc α :=
  .error (.rasat ⟨code, message⟩)

/-- Raise a canonical error when a condition is met. -/
def rejectIf (condition : Prop) [Decidable condition] (code : ErrorCode) (message : String) :
    Except Exc Unit :=
  if condition then reject code message else .ok ()

/-- A conditional rejection passes exactly when its condition fails. -/
@[simp] theorem rejectIf_ok {condition : Prop} [Decidable condition] {code : ErrorCode}
    {message : String} {result : Unit} :
    rejectIf condition code message = .ok result ↔ ¬condition := by
  unfold rejectIf reject
  split <;> simp_all

/-- A sequence of computations succeeds when its first one does and so does the rest. -/
theorem bind_ok {ε : Type*} {α β : Type} {first : Except ε α} {next : α → Except ε β} {result : β} :
    first >>= next = .ok result ↔ ∃ middle, first = .ok middle ∧ next middle = .ok result := by
  cases first with
  | error raised => simp [Bind.bind, Except.bind]
  | ok middle => simp [Bind.bind, Except.bind]

/-- Two loops whose turns agree under a map agree under it. -/
theorem foldlM_map {ε σ τ α : Type} {body : σ → α → Except ε σ} {other : τ → α → Except ε τ}
    {map : σ → τ} (agree : ∀ state item, (body state item).map map = other (map state) item)
    (items : List α) (state : σ) :
    (items.foldlM body state).map map = items.foldlM other (map state) := by
  induction items generalizing state with
  | nil => rfl
  | cons item rest ih =>
    rw [List.foldlM_cons, List.foldlM_cons, ← agree]
    cases body state item with
    | error raised => rfl
    | ok after => exact ih after

end Rasat
