import RasatTrading.Orders.Execute

/-! Account and risk-policy operations: the writers that run beside the order service. -/

namespace Rasat

open Coop

variable (svc : Service)

/-- `_validate_tags`: stripped, without repetitions and without blanks. -/
def validateTags (tags : List String) : Except Exc (List String) :=
  tags.foldlM (fun seen tag =>
    if strip tag = "" then reject .invalidRequest "tags cannot contain empty values"
    else .ok (if strip tag ∈ seen then seen else seen ++ [strip tag])) []

/-- `add_account`. -/
def addAccount (tags : List String) (credentials : Bool) (actor : String) : Task String := do
  let normalized ← sync (validateTags tags)
  (dbWrite (.addAccount normalized credentials (actorOr actor) svc.audit)).rescue fun
    | .integrity _ => raise .accountExists "could not create account; unique constraint violation"
    | raised => .fail raised

/-- `remove_account`. -/
def removeAccount (accountId : Arg) (actor : String) : Task Unit := do
  let named ← sync (requireString accountId "account_id")
  match ← dbWrite (.removeAccount named (actorOr actor) svc.audit) with
  | .missing => raise .accountNotFound ("account not found: " ++ named)
  | .refused reasons =>
    raise .accountInUse
      ("could not delete account; account is in use: " ++ String.intercalate ", " reasons)
  | .removed => return ()

/-- `enable_real_trading`. -/
def enableRealTrading (accountId : Arg) (actor : String) : Task Unit := do
  let named ← sync (requireString accountId "account_id")
  let _ ← dbWrite (.enableRealTrading named (actorOr actor) svc.audit)
  return ()

/-- `disable_real_trading`. -/
def disableRealTrading (accountId : Arg) (actor : String) : Task Unit := do
  let named ← sync (requireString accountId "account_id")
  let _ ← dbWrite (.disableRealTrading named (actorOr actor) svc.audit)
  return ()

/-- `disable_real_trading_handler`: one account, or every account for `all`. -/
def disableRealTradingHandler (accountId : Arg) (actor : String) : Task Unit :=
  if accountId = .text "all" then do
    let accounts ← dbRead .accounts
    accounts.foldlM (fun _ account => disableRealTrading svc (.text account.accountId) actor) ()
  else disableRealTrading svc accountId actor

/-- `_validate_optional_amount`. -/
def validateOptionalAmount (value : Arg) (field : String) : Except Exc (Option ℚ) :=
  match value with
  | .absent => .ok none
  | .number amount => do
    rejectIf (amount ≤ 0) .invalidRequest (field ++ " must be greater than zero")
    return some amount
  | .nonFinite => reject .invalidRequest (field ++ " must be a finite number")
  | .hugeInt => .error (.other "int too large to convert to float")
  | .bool _ | .text _ | .container => reject .invalidRequest (field ++ " must be a positive number")

/-- The arguments of `set_risk_policy`. -/
structure PolicyArgs where
  accountId : Arg
  maxNotionalPerOrder : Arg := .absent
  maxAggregateExposure : Arg := .absent
  allowedSymbols : List String := []
  clearMaxNotional : Bool := false
  clearMaxExposure : Bool := false
  clearAllowedSymbols : Bool := false
  actor : String := "mcp-agent"
  deriving DecidableEq

/-- `set_risk_policy`. -/
def setRiskPolicy (args : PolicyArgs) : Task (RiskPolicy × Bool) := do
  let named ← sync (requireString args.accountId "account_id")
  let maxNotional ← sync (validateOptionalAmount args.maxNotionalPerOrder "max_notional_per_order")
  let maxAggregate ← sync (validateOptionalAmount args.maxAggregateExposure "max_aggregate_exposure")
  sync (rejectIf (args.allowedSymbols.any fun symbol => strip symbol = "") .invalidRequest
    "allowed_symbols must contain only non-empty strings")
  dbWrite (.setRiskPolicy named {
    maxNotional := maxNotional
    maxAggregate := maxAggregate
    symbols := parseSymbols args.allowedSymbols
    clearNotional := args.clearMaxNotional
    clearAggregate := args.clearMaxExposure
    clearSymbols := args.clearAllowedSymbols } (actorOr args.actor) svc.audit)

/-- The arguments of `create_override`. -/
structure OverrideArgs where
  accountId : Arg
  reason : Arg
  scope : String := "next_order"
  idempotencyKey : Arg := .absent
  actor : String := "mcp-agent"
  expiresAt : Option Int := none
  ttlSeconds : Int := 24 * 3600
  deriving DecidableEq

/-- The key of an override, a fresh one when the caller gives none. -/
def overrideKey (key : Arg) : Task String :=
  match key with
  | .absent => uuid
  | .text s =>
    if strip s = "" then raise .invalidRequest "idempotency_key must be a valid string"
    else return strip s
  | _ => raise .invalidRequest "idempotency_key must be a valid string"

/-- `create_override`. -/
def createOverride (args : OverrideArgs) : Task RiskOverride := do
  let named ← sync (requireString args.accountId "account_id")
  let reason ← sync (requireString args.reason "reason")
  sync (rejectIf (args.scope ≠ "next_order") .invalidRequest "v1 supports only scope='next_order'")
  let key ← overrideKey args.idempotencyKey
  let now ← clock
  let expiresAt := args.expiresAt.getD (now + args.ttlSeconds)
  sync (rejectIf (expiresAt ≤ now) .invalidRequest "expires_at must be a future Unix timestamp")
  (dbWrite (.createOverride {
    accountId := named
    idempotencyKey := key
    actor := actorOr args.actor
    reason := reason
    createdAt := now
    expiresAt := expiresAt } svc.audit)).rescue fun
    | .integrity _ =>
      raise .invalidRequest "the (account_id, idempotency_key) combination already exists"
    | raised => .fail raised

/-- `reconcile_overrides`. -/
def reconcileOverrides : Task Nat := do
  let now ← clock
  dbWrite (.reconcileOverrides now svc.audit)

end Rasat
