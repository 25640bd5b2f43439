import Mathlib.Data.List.MinMax
import Mathlib.Data.List.Sort
import RasatTrading.Keyed.Table
import RasatTrading.Rows

/-! The daemon's tables, the reads it makes and the transactions of its write queue. -/

namespace Rasat

/-- The tables. Rows are in insertion order; the audit log has its newest entry first. -/
structure Database where
  accounts : List Account := []
  orders : List Order := []
  policies : List RiskPolicy := []
  overrides : List RiskOverride := []
  pending : List PendingOrder := []
  audit : List AuditEntry := []

/-- The account row with this id. -/
def Database.account (db : Database) (accountId : String) : Option Account :=
  db.accounts.find? fun row => row.accountId = accountId

/-- Whether the stored trading lock of the account is `real`. -/
def Database.isReal (db : Database) (accountId : String) : Bool :=
  (db.account accountId).any fun row => row.tradingLock = .real

/-- The pending order with this id. -/
def Database.pendingOrder (db : Database) (orderId : String) : Option PendingOrder :=
  db.pending.find? fun row => row.orderId = orderId

/-- The orders of one account. -/
def ofAccount (accountId : String) (orders : List Order) : List Order :=
  orders.filter fun row => row.accountId = accountId

/-- `_load_order`. -/
def loadOrder (orders : List Order) (accountId idempotencyKey : String) : Option Order :=
  orders.find? fun row => row.accountId = accountId ∧ row.idempotencyKey = idempotencyKey

/-- `_open_order_notional`: what the open orders of the account could still buy. -/
def openOrderNotional (orders : List Order) (accountId : String) : ℚ :=
  (((ofAccount accountId orders).filter fun row => row.status.isOpen).map fun row =>
    row.notional).sum

/-- The same by symbol, as `GROUP BY symbol` adds it up. -/
def openNotionalBySymbol (orders : List Order) (accountId : String) : Keyed.Tally String ℚ :=
  Keyed.Tally.addAll .empty <| ((ofAccount accountId orders).filter fun row => row.status.isOpen).map
    fun row => (row.symbol, row.notional)

/-- The active orders of the account, which the kill switch cancels. -/
def activeOrders (orders : List Order) (accountId : String) : List Order :=
  (ofAccount accountId orders).filter fun row => row.status.isActive

/-- `LIKE 'close-%'`, which ignores the case of ASCII letters. -/
def isCloseKey (idempotencyKey : String) : Bool :=
  (idempotencyKey.toList.take 6).map Char.toLower = "close-".toList

/-- A close SELL of the account and symbol that is still open. -/
def isOpenClose (accountId symbol : String) (row : Order) : Bool :=
  row.accountId = accountId ∧ row.symbol = symbol ∧ row.side = .sell ∧
    isCloseKey row.idempotencyKey ∧ row.status.isOpen

/-- `_load_open_close`: one of the newest open close SELLs; `pick` settles ties. -/
def loadOpenClose (orders : List Order) (accountId symbol : String) (pick : Nat) : Option Order :=
  let candidates := orders.filter (isOpenClose accountId symbol)
  let newest := candidates.filter fun row => candidates.all fun other =>
    other.createdAt ≤ row.createdAt
  newest[pick % newest.length]?

/-- The open orders of the accounts, which the startup reconciliation verifies. -/
def stuckOrders (orders : List Order) (accountIds : List String) : List Order :=
  orders.filter fun row => row.accountId ∈ accountIds ∧ row.status.isOpen

/-- `_parse_symbols`: stripped, upper case and without repetitions. -/
def parseSymbols (raw : List String) : List String :=
  raw.foldl (fun seen entry =>
    let value := upper (strip entry)
    if value ≠ "" ∧ value ∉ seen then seen ++ [value] else seen) []

/-- A symbol joins the ones that were seen, unless it is blank or among them. -/
def collectSymbol (seen : List String) (entry : String) : List String :=
  if upper (strip entry) ≠ "" ∧ upper (strip entry) ∉ seen then seen ++ [upper (strip entry)] else seen

theorem parseSymbols_eq (raw : List String) : parseSymbols raw = raw.foldl collectSymbol [] := rfl

/-- The symbols are distinct, filled, stripped and upper case. -/
def Canonical (symbols : List String) : Prop :=
  symbols.Nodup ∧ ∀ value ∈ symbols, value ≠ "" ∧ upper (strip value) = value

theorem collectSymbol_canonical {seen : List String} (canonical : Canonical seen) (entry : String) :
    Canonical (collectSymbol seen entry) := by
  unfold collectSymbol
  split
  · rename_i fresh
    refine ⟨?_, fun value member => ?_⟩
    · rw [← List.concat_eq_append]
      exact List.Nodup.concat fresh.2 canonical.1
    · rcases List.mem_append.mp member with old | new
      · exact canonical.2 value old
      · obtain rfl := List.mem_singleton.mp new
        exact ⟨fresh.1, upper_strip_canonical entry⟩
  · exact canonical

/-- Whatever is parsed, the symbols are canonical. -/
theorem parseSymbols_spec (raw : List String) : Canonical (parseSymbols raw) := by
  rw [parseSymbols_eq]
  have kept : ∀ (raw seen : List String), Canonical seen → Canonical (raw.foldl collectSymbol seen) := by
    intro raw
    induction raw with
    | nil => exact fun _ start => start
    | cons entry rest ih =>
      intro seen start
      rw [List.foldl_cons]
      exact ih (collectSymbol seen entry) (collectSymbol_canonical start entry)
  exact kept raw [] ⟨List.nodup_nil, by simp⟩

/-- Canonical symbols are all collected, in order. -/
theorem foldl_collectSymbol {symbols seen : List String} (distinct : (seen ++ symbols).Nodup)
    (canonical : ∀ value ∈ symbols, value ≠ "" ∧ upper (strip value) = value) :
    symbols.foldl collectSymbol seen = seen ++ symbols := by
  induction symbols generalizing seen with
  | nil => simp
  | cons symbol rest ih =>
    obtain ⟨filled, fixed⟩ := canonical symbol List.mem_cons_self
    have fresh : symbol ∉ seen := fun member =>
      (List.disjoint_of_nodup_append distinct) member List.mem_cons_self
    have joined : collectSymbol seen symbol = seen ++ [symbol] := by
      unfold collectSymbol
      rw [fixed, if_pos ⟨filled, fresh⟩]
    rw [List.foldl_cons, joined, ih (by simpa using distinct)
      fun value member => canonical value (List.mem_cons_of_mem _ member)]
    simp

/-- Parsing symbols again changes nothing. -/
theorem parseSymbols_canonical (raw : List String) : parseSymbols (parseSymbols raw) = parseSymbols raw := by
  obtain ⟨distinct, canonical⟩ := parseSymbols_spec raw
  rw [parseSymbols_eq (parseSymbols raw), foldl_collectSymbol (by simpa using distinct) canonical]
  rfl

/-- The policy of an account, the default one when none is configured. -/
def Database.policy (db : Database) (accountId : String) : RiskPolicy :=
  match db.policies.find? fun row => row.accountId = accountId with
  | some row => { row with allowedSymbols := parseSymbols row.allowedSymbols }
  | none => {
      accountId := accountId
      maxNotionalPerOrder := none
      maxAggregateExposure := none
      allowedSymbols := []
      policyVersion := 0 }

/-- Newest accounts first, then by id. -/
def listedBefore (left right : Account) : Prop :=
  left.createdAt > right.createdAt ∨
    (left.createdAt = right.createdAt ∧ left.accountId ≤ right.accountId)

instance : DecidableRel listedBefore := fun left right =>
  inferInstanceAs (Decidable (left.createdAt > right.createdAt ∨
    (left.createdAt = right.createdAt ∧ left.accountId ≤ right.accountId)))

/-- A read of the database. -/
inductive Query
  | account (accountId : String)
  | accounts
  | order (accountId idempotencyKey : String)
  | openNotional (accountId : String)
  | openNotionalBySymbol (accountId : String)
  | activeOrders (accountId : String)
  | openClose (accountId symbol : String)
  | stuckOrders (accountIds : List String)
  | policy (accountId : String)
  | pendingOrder (orderId : String)
  | executing
  deriving DecidableEq

/-- The answer to a read; an absent policy answer means that the account does not exist. -/
@[reducible] def Query.Ans : Query → Type
  | .account _ => Option Account
  | .accounts => List Account
  | .order _ _ => Option Order
  | .openNotional _ => ℚ
  | .openNotionalBySymbol _ => Keyed.Tally String ℚ
  | .activeOrders _ => List Order
  | .openClose _ _ => Option Order
  | .stuckOrders _ => List Order
  | .policy _ => Option RiskPolicy
  | .pendingOrder _ => Option PendingOrder
  | .executing => List PendingOrder

/-- Serve a read. -/
def Query.run (db : Database) (pick : Nat) : (query : Query) → query.Ans
  | .account accountId => db.account accountId
  | .accounts => db.accounts.insertionSort listedBefore
  | .order accountId idempotencyKey => loadOrder db.orders accountId idempotencyKey
  | .openNotional accountId => openOrderNotional db.orders accountId
  | .openNotionalBySymbol accountId => Rasat.openNotionalBySymbol db.orders accountId
  | .activeOrders accountId => Rasat.activeOrders db.orders accountId
  | .openClose accountId symbol => loadOpenClose db.orders accountId symbol pick
  | .stuckOrders accountIds => Rasat.stuckOrders db.orders accountIds
  | .policy accountId => (db.account accountId).map fun _ => db.policy accountId
  | .pendingOrder orderId => db.pendingOrder orderId
  | .executing => db.pending.filter fun row => row.status = .executing

end Rasat
