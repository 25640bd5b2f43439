import RasatTrading.Storage.Schema

/-! The numbered migrations and their runner. -/

namespace Rasat

open Coop

/-- What a migration does with the connection. -/
inductive MigrationFn
  /-- `conn.executescript` of the statements. -/
  | script (list : List Ddl)
  /-- `conn.execute` of each statement. -/
  | statements (list : List Ddl)
  /-- Each column that the table does not have is added to it. -/
  | missingColumns (table : String) (additions : List Column)

/-- One entry of `MIGRATIONS`. -/
structure Migration where
  version : Int
  name : String
  fn : MigrationFn

def IndexedColumn.asc (name : String) : IndexedColumn := ⟨name, false⟩

def IndexedColumn.desc (name : String) : IndexedColumn := ⟨name, true⟩

/-- Raw candle data. -/
def candlesTable : TableDef where
  name := "candles"
  columns :=
    [⟨"symbol", "TEXT NOT NULL"⟩, ⟨"timeframe", "TEXT NOT NULL"⟩,
      ⟨"open_time", "INTEGER NOT NULL"⟩, ⟨"open", "REAL"⟩, ⟨"high", "REAL"⟩, ⟨"low", "REAL"⟩,
      ⟨"close", "REAL"⟩, ⟨"volume", "REAL"⟩, ⟨"quote_volume", "REAL"⟩, ⟨"trades", "INTEGER"⟩,
      ⟨"source", "TEXT NOT NULL DEFAULT 'spot'"⟩, ⟨"updated_at", "INTEGER NOT NULL"⟩]
  constraints := ["PRIMARY KEY (symbol, timeframe, open_time, source)"]

/-- Futures context signals. -/
def futuresContextTable : TableDef where
  name := "futures_context"
  columns :=
    [⟨"id", "INTEGER PRIMARY KEY AUTOINCREMENT"⟩, ⟨"symbol", "TEXT NOT NULL"⟩,
      ⟨"type", "TEXT NOT NULL"⟩, ⟨"event_time", "INTEGER NOT NULL"⟩, ⟨"value", "REAL"⟩,
      ⟨"extra", "TEXT"⟩, ⟨"fetched_at", "INTEGER NOT NULL"⟩,
      ⟨"freshness", "TEXT NOT NULL DEFAULT 'fresh'"⟩]
  constraints := ["UNIQUE (symbol, type, event_time)"]

/-- Immutable calculation records: market structure, liquidity zones, order blocks. -/
def calculationTable (name : String) : TableDef where
  name := name
  columns :=
    [⟨"id", "INTEGER PRIMARY KEY AUTOINCREMENT"⟩, ⟨"symbol", "TEXT NOT NULL"⟩,
      ⟨"timeframe", "TEXT NOT NULL"⟩, ⟨"algo_version", "TEXT NOT NULL"⟩,
      ⟨"effective_from", "INTEGER NOT NULL"⟩, ⟨"effective_to", "INTEGER"⟩,
      ⟨"payload", "TEXT NOT NULL"⟩, ⟨"created_at", "INTEGER NOT NULL"⟩]

/-- Agent annotations. -/
def annotationsTable : TableDef where
  name := "annotations"
  columns :=
    [⟨"id", "INTEGER PRIMARY KEY AUTOINCREMENT"⟩, ⟨"symbol", "TEXT NOT NULL"⟩,
      ⟨"timeframe", "TEXT NOT NULL"⟩, ⟨"created_by", "TEXT"⟩, ⟨"data", "TEXT NOT NULL"⟩,
      ⟨"created_at", "INTEGER NOT NULL"⟩]

/-- Alert definitions. -/
def alertsTable : TableDef where
  name := "alerts"
  columns :=
    [⟨"id", "INTEGER PRIMARY KEY AUTOINCREMENT"⟩, ⟨"alert_id", "TEXT NOT NULL UNIQUE"⟩,
      ⟨"definition", "TEXT NOT NULL"⟩, ⟨"state", "TEXT NOT NULL"⟩,
      ⟨"created_at", "INTEGER NOT NULL"⟩, ⟨"updated_at", "INTEGER NOT NULL"⟩]

/-- Triggered alert records. -/
def triggeredAlertsTable : TableDef where
  name := "triggered_alerts"
  columns :=
    [⟨"id", "INTEGER PRIMARY KEY AUTOINCREMENT"⟩, ⟨"alert_id", "TEXT NOT NULL"⟩,
      ⟨"trigger_key", "TEXT NOT NULL"⟩, ⟨"payload", "TEXT NOT NULL"⟩,
      ⟨"triggered_at", "INTEGER NOT NULL"⟩]
  constraints := ["UNIQUE (alert_id, trigger_key)"]

/-- Accounts with their encrypted credentials. -/
def accountsTable : TableDef where
  name := "accounts"
  columns :=
    [⟨"id", "INTEGER PRIMARY KEY AUTOINCREMENT"⟩, ⟨"account_id", "TEXT NOT NULL UNIQUE"⟩,
      ⟨"label", "TEXT"⟩, ⟨"tags", "TEXT NOT NULL DEFAULT '[]'"⟩,
      ⟨"market", "TEXT NOT NULL DEFAULT 'spot'"⟩,
      ⟨"trading_lock", "TEXT NOT NULL DEFAULT 'paper'"⟩, ⟨"encrypted_api_key", "BLOB"⟩,
      ⟨"encrypted_secret", "BLOB"⟩, ⟨"created_at", "INTEGER NOT NULL"⟩,
      ⟨"updated_at", "INTEGER NOT NULL"⟩]

/-- The audit log. -/
def auditLogTable : TableDef where
  name := "audit_log"
  columns :=
    [⟨"id", "INTEGER PRIMARY KEY AUTOINCREMENT"⟩, ⟨"seq", "INTEGER NOT NULL UNIQUE"⟩,
      ⟨"actor", "TEXT NOT NULL"⟩, ⟨"action", "TEXT NOT NULL"⟩, ⟨"details", "TEXT NOT NULL"⟩,
      ⟨"prev_hash", "TEXT NOT NULL"⟩, ⟨"hash", "TEXT NOT NULL"⟩,
      ⟨"created_at", "INTEGER NOT NULL"⟩]

/-- `_m1_initial_schema`. -/
def m1InitialSchema : MigrationFn := .script
  [.createTable candlesTable,
    .createTable futuresContextTable,
    .createTable (calculationTable "market_structure"),
    .createTable (calculationTable "liquidity_zones"),
    .createTable (calculationTable "order_blocks"),
    .createTable annotationsTable,
    .createTable alertsTable,
    .createTable triggeredAlertsTable,
    .createTable accountsTable,
    .createTable auditLogTable]

/-- `_m2_indexes`. -/
def m2Indexes : MigrationFn := .script
  [.createIndex true ⟨"idx_candles_lookup", "candles",
      [.asc "symbol", .asc "timeframe", .desc "open_time"]⟩,
    .createIndex true ⟨"idx_candles_tf_time", "candles", [.asc "timeframe", .asc "open_time"]⟩,
    .createIndex true ⟨"idx_ms_lookup", "market_structure",
      [.asc "symbol", .asc "timeframe", .desc "effective_from"]⟩,
    .createIndex true ⟨"idx_lz_lookup", "liquidity_zones",
      [.asc "symbol", .asc "timeframe", .desc "effective_from"]⟩,
    .createIndex true ⟨"idx_ob_lookup", "order_blocks",
      [.asc "symbol", .asc "timeframe", .desc "effective_from"]⟩,
    .createIndex true ⟨"idx_fc_lookup", "futures_context",
      [.asc "symbol", .asc "type", .desc "event_time"]⟩,
    .createIndex true ⟨"idx_ann_lookup", "annotations",
      [.asc "symbol", .asc "timeframe", .desc "created_at"]⟩]

/-- `_m3_alert_cooldown`. -/
def m3AlertCooldown : MigrationFn := .statements
  [.addColumn "alerts" ⟨"cooldown_until", "INTEGER"⟩,
    .createIndex true ⟨"idx_alerts_state", "alerts", [.asc "state", .asc "updated_at"]⟩]

/-- Account-level risk policies. -/
def riskPolicyTable : TableDef where
  name := "risk_policy"
  columns :=
    [⟨"account_id", "TEXT PRIMARY KEY"⟩, ⟨"max_notional_per_order", "REAL"⟩,
      ⟨"max_aggregate_exposure", "REAL"⟩, ⟨"allowed_symbols", "TEXT NOT NULL DEFAULT '[]'"⟩,
      ⟨"policy_version", "INTEGER NOT NULL DEFAULT 0"⟩, ⟨"created_at", "INTEGER NOT NULL"⟩,
      ⟨"updated_at", "INTEGER NOT NULL"⟩]

/-- One-time overrides. -/
def riskOverrideTable : TableDef where
  name := "risk_override"
  columns :=
    [⟨"id", "INTEGER PRIMARY KEY AUTOINCREMENT"⟩, ⟨"override_id", "TEXT NOT NULL UNIQUE"⟩,
      ⟨"account_id", "TEXT NOT NULL"⟩, ⟨"policy_version", "INTEGER NOT NULL"⟩,
      ⟨"idempotency_key", "TEXT NOT NULL"⟩, ⟨"actor", "TEXT NOT NULL"⟩,
      ⟨"reason", "TEXT NOT NULL"⟩, ⟨"scope", "TEXT NOT NULL DEFAULT 'next_order'"⟩,
      ⟨"state", "TEXT NOT NULL DEFAULT 'reserved'"⟩, ⟨"created_at", "INTEGER NOT NULL"⟩,
      ⟨"expires_at", "INTEGER NOT NULL"⟩, ⟨"applied_at", "INTEGER"⟩,
      ⟨"consumed_by_idem", "TEXT"⟩, ⟨"reconciled_at", "INTEGER"⟩, ⟨"reconcile_reason", "TEXT"⟩]
  constraints := ["UNIQUE (account_id, idempotency_key)"]

/-- `_m4_risk_policy`. -/
def m4RiskPolicy : MigrationFn := .script
  [.createTable riskPolicyTable,
    .createTable riskOverrideTable,
    .createIndex true ⟨"idx_risk_override_account", "risk_override",
      [.asc "account_id", .asc "state", .asc "expires_at"]⟩]

/-- Order records. -/
def ordersTable : TableDef where
  name := "orders"
  columns :=
    [⟨"id", "INTEGER PRIMARY KEY AUTOINCREMENT"⟩, ⟨"order_id", "TEXT NOT NULL UNIQUE"⟩,
      ⟨"account_id", "TEXT NOT NULL"⟩, ⟨"idempotency_key", "TEXT NOT NULL"⟩,
      ⟨"symbol", "TEXT NOT NULL"⟩, ⟨"side", "TEXT NOT NULL"⟩, ⟨"order_type", "TEXT NOT NULL"⟩,
      ⟨"quantity", "REAL NOT NULL"⟩, ⟨"price", "REAL"⟩, ⟨"status", "TEXT NOT NULL"⟩,
      ⟨"exchange_order_id", "TEXT"⟩, ⟨"client_order_id", "TEXT"⟩, ⟨"executed_qty", "REAL"⟩,
      ⟨"avg_price", "REAL"⟩, ⟨"fee", "REAL"⟩, ⟨"notional", "REAL"⟩, ⟨"reference_price", "REAL"⟩,
      ⟨"error_code", "TEXT"⟩, ⟨"error_message", "TEXT"⟩, ⟨"created_at", "INTEGER NOT NULL"⟩,
      ⟨"updated_at", "INTEGER NOT NULL"⟩]
  constraints := ["UNIQUE (account_id, idempotency_key)"]

/-- `_m5_orders`. -/
def m5Orders : MigrationFn := .script
  [.createTable ordersTable,
    .createIndex true ⟨"idx_orders_account", "orders", [.asc "account_id", .asc "status"]⟩,
    .createIndex true ⟨"idx_orders_open", "orders",
      [.asc "account_id", .asc "status", .asc "created_at"]⟩]

/-- Emergency log entries that were taken over. -/
def emergencyReconciledTable : TableDef where
  name := "emergency_reconciled"
  columns :=
    [⟨"entry_hash", "TEXT PRIMARY KEY"⟩, ⟨"seq", "INTEGER NOT NULL"⟩,
      ⟨"reconciled_at", "INTEGER NOT NULL"⟩]

/-- `_m6_emergency_reconciled`. -/
def m6EmergencyReconciled : MigrationFn := .script
  [.createTable emergencyReconciledTable]

/-- `_m7_orders_equity_snapshot`. -/
def m7OrdersEquitySnapshot : MigrationFn := .statements
  [.addColumn "orders" ⟨"equity_snapshot", "REAL"⟩]

/-- Orders that await approval. -/
def pendingOrdersTable : TableDef where
  name := "pending_orders"
  columns :=
    [⟨"id", "INTEGER PRIMARY KEY AUTOINCREMENT"⟩, ⟨"order_id", "TEXT NOT NULL UNIQUE"⟩,
      ⟨"alert_id", "TEXT NOT NULL"⟩, ⟨"account_id", "TEXT NOT NULL"⟩,
      ⟨"symbol", "TEXT NOT NULL"⟩, ⟨"side", "TEXT NOT NULL"⟩,
      ⟨"order_type", "TEXT NOT NULL DEFAULT 'market'"⟩, ⟨"entry", "REAL"⟩, ⟨"stop_loss", "REAL"⟩,
      ⟨"risk_pct", "REAL"⟩, ⟨"status", "TEXT NOT NULL DEFAULT 'awaiting_approval'"⟩,
      ⟨"note", "TEXT"⟩, ⟨"created_at", "INTEGER NOT NULL"⟩, ⟨"approved_at", "INTEGER"⟩,
      ⟨"rejected_at", "INTEGER"⟩, ⟨"executed_order_id", "TEXT"⟩, ⟨"reject_reason", "TEXT"⟩]

/-- `_m8_pending_orders`. -/
def m8PendingOrders : MigrationFn := .script
  [.createTable pendingOrdersTable,
    .createIndex false ⟨"idx_pending_orders_status", "pending_orders",
      [.asc "status", .asc "created_at"]⟩,
    .createIndex false ⟨"idx_pending_orders_alert", "pending_orders", [.asc "alert_id"]⟩]

/-- `_m9_stop_price`. -/
def m9StopPrice : MigrationFn := .statements [.addColumn "orders" ⟨"stop_price", "REAL"⟩]

/-- `_m10_stop_limit_price`. -/
def m10StopLimitPrice : MigrationFn := .statements
  [.addColumn "orders" ⟨"stop_limit_price", "REAL"⟩]

/-- `_m11_pending_execution_state`. -/
def m11PendingExecutionState : MigrationFn := .missingColumns "pending_orders"
  [⟨"execution_started_at", "INTEGER"⟩, ⟨"execution_finished_at", "INTEGER"⟩,
    ⟨"execution_error_code", "TEXT"⟩, ⟨"execution_error_message", "TEXT"⟩,
    ⟨"last_attempt_at", "INTEGER"⟩]

/-- `MIGRATIONS`. -/
def migrations : List Migration :=
  [⟨1, "initial_schema", m1InitialSchema⟩, ⟨2, "indexes", m2Indexes⟩,
    ⟨3, "alert_cooldown", m3AlertCooldown⟩, ⟨4, "risk_policy_override", m4RiskPolicy⟩,
    ⟨5, "orders", m5Orders⟩, ⟨6, "emergency_reconciled", m6EmergencyReconciled⟩,
    ⟨7, "orders_equity_snapshot", m7OrdersEquitySnapshot⟩, ⟨8, "pending_orders", m8PendingOrders⟩,
    ⟨9, "orders_stop_price", m9StopPrice⟩, ⟨10, "orders_stop_limit_price", m10StopLimitPrice⟩,
    ⟨11, "pending_execution_state", m11PendingExecutionState⟩]

/-- The applied migrations. -/
def schemaMigrationsTable : TableDef where
  name := "schema_migrations"
  columns :=
    [⟨"version", "INTEGER PRIMARY KEY"⟩, ⟨"name", "TEXT NOT NULL"⟩,
      ⟨"applied_at", "INTEGER NOT NULL"⟩]

/-- `SCHEMA_BOOTSTRAP`. -/
def schemaBootstrap : Ddl := .createTable schemaMigrationsTable

/-- `conn.execute` of each statement in turn. -/
def executeEach : List Ddl → SqlProg Unit
  | [] => pure ()
  | statement :: rest => do
    sql (.ddl statement)
    executeEach rest

/-- `conn.executescript`: a pending transaction is committed first. -/
def executescript (statements : List Ddl) : SqlProg Unit := do
  sql .commit
  executeEach statements

/-- Run the body of a migration. -/
def MigrationFn.run : MigrationFn → SqlProg Unit
  | .script list => executescript list
  | .statements list => executeEach list
  | .missingColumns table additions => do
    let columns ← sql (.tableInfo table)
    let missing := additions.filter fun column => column.name ∉ columns
    executeEach (missing.map (.addColumn table))

/-- `with conn:`: commit when the body returns, roll back and raise again when it raises. -/
def inTransaction (body : SqlProg α) : SqlProg α := do
  match ← body.attempt with
  | .ok value =>
    sql .commit
    return value
  | .error error =>
    sql .rollback
    .fail error

/-- `applied_versions`. -/
def appliedVersions : SqlProg (List Int) := do
  sql (.ddl schemaBootstrap)
  sql .selectVersions

/-- `applied_names`. -/
def appliedNames : SqlProg (List String) := do
  sql (.ddl schemaBootstrap)
  sql .selectNames

/-- One migration with its row, in its own transaction. -/
def Migration.apply (migration : Migration) : SqlProg Unit := inTransaction do
  migration.fn.run
  sql (.insert ⟨migration.version, migration.name⟩)

/-- The loop over the migrations: those whose version or name is known are passed over. -/
def applyPending (existingVersions : List Int) (existingNames : List String) :
    List Migration → List Int → SqlProg (List Int)
  | [], applied => pure applied
  | migration :: rest, applied =>
    if migration.version ∈ existingVersions ∨ migration.name ∈ existingNames then
      applyPending existingVersions existingNames rest applied
    else do
      migration.apply
      applyPending existingVersions existingNames rest (applied ++ [migration.version])

/-- `run_migrations`, as the writer runs it: in an outer transaction of its own. -/
def runMigrations (list : List Migration) : SqlProg (List Int) := inTransaction do
  sql (.ddl schemaBootstrap)
  let existingVersions ← appliedVersions
  let existingNames ← appliedNames
  applyPending existingVersions existingNames list []

end Rasat
