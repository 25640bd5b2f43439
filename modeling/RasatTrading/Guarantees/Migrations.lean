import RasatTrading.Storage.MigrationRedo

/-! The migrations after a crash, and after a renumbering. -/

namespace Rasat

open Coop Redo

/-- A database file that was just created. -/
def emptyStore : Store := ⟨{}, [], List.nodup_nil⟩

/-- The database that records the first migrations and no others. -/
def recordedFirst (count : Nat) : Store :=
  (exec sqlServe (runMigrations (migrations.take count)) (opened emptyStore)).2.disk

/-- A run on this database returns, and leaves what an uninterrupted run leaves. -/
def Recovers (start disk : Store) : Prop :=
  ∃ applied, exec sqlServe (runMigrations migrations) (opened disk) =
    (.ok applied, (exec sqlServe (runMigrations migrations) (opened start)).2)

/-- The statements of the migrations that fail when they are executed a second time. -/
def unguardedStatements : List Ddl :=
  [.addColumn "alerts" ⟨"cooldown_until", "INTEGER"⟩,
    .addColumn "orders" ⟨"equity_snapshot", "REAL"⟩,
    .createIndex false
      ⟨"idx_pending_orders_status", "pending_orders", [.asc "status", .asc "created_at"]⟩,
    .createIndex false ⟨"idx_pending_orders_alert", "pending_orders", [.asc "alert_id"]⟩,
    .addColumn "orders" ⟨"stop_price", "REAL"⟩,
    .addColumn "orders" ⟨"stop_limit_price", "REAL"⟩]

/-- The empty database with the table of the migrations. -/
def bootstrapped : Store := ⟨⟨[schemaMigrationsTable], []⟩, [], List.nodup_nil⟩

/-- What an evaluation says of the migrations: they can be told apart, the table that records them is created by a
guarded statement, and behind it all of them can be applied. -/
theorem migrations_checked :
    (migrations.map Migration.name).Nodup ∧ (∀ migration ∈ migrations, migration.fn.Distinct) ∧
      (∀ migration ∈ migrations, ∀ statement ∈ migration.fn.allStatements,
        (statement ∈ migration.fn.unguarded ↔ statement ∈ unguardedStatements)) ∧
      schemaBootstrap ∉ unguardedStatements ∧ emptyStore.execute schemaBootstrap = .ok bootstrapped ∧
      (appliedAll migrations bootstrapped).isOk = true := by
  -- One evaluation: every other one would wait for the kernel by itself.
  decide +kernel

/-- The migrations have numbers and names of their own, and these are their unguarded statements. -/
theorem migrations_wellNumbered : WellNumbered migrations unguardedStatements where
  versions := by decide
  names := migrations_checked.1
  columns := migrations_checked.2.1
  guards := migrations_checked.2.2.1

/-- All migrations can be applied to a new database, one after the other. -/
theorem migrations_applicable : ∃ final, appliedAll migrations bootstrapped = .ok final := by
  obtain ⟨-, -, -, -, -, succeeds⟩ := migrations_checked
  cases outcome : appliedAll migrations bootstrapped with
  | ok final => exact ⟨final, rfl⟩
  | error error =>
    rw [outcome] at succeeds
    contradiction

/-- A database is new, or records the first migrations and no others. -/
def RecordsPrefix (start : Store) : Prop :=
  start = emptyStore ∨ ∃ count, start = recordedFirst count

/-- Creating the table of the migrations in a new database. -/
theorem emptyStore_boots : emptyStore.execute schemaBootstrap = .ok bootstrapped :=
  migrations_checked.2.2.2.2.1

/-- On a new database every migration is pending. -/
theorem bootstrapped_pending (list : List Migration) : bootstrapped.pending list = list := by
  unfold Store.pending pending
  exact List.filter_eq_self.mpr fun migration _ => by simp [bootstrapped]

/-- Recording the first migrations leaves exactly the others pending. -/
theorem recordedFirst_spec {final : Store} (whole : appliedAll migrations bootstrapped = .ok final)
    (count : Nat) :
    (recordedFirst count).execute schemaBootstrap = .ok (recordedFirst count) ∧
      (recordedFirst count).pending migrations = migrations.drop count ∧
      appliedAll (migrations.drop count) (recordedFirst count) = .ok final := by
  -- The whole run is cut into the recorded part and the pending one.
  rw [← List.take_append_drop count migrations] at whole
  obtain ⟨middle, early, late⟩ := executeAll_append_eq_ok.mp whole
  have here : recordedFirst count = middle := by
    unfold recordedFirst
    rw [exec_runMigrations_ok emptyStore_boots (by rwa [bootstrapped_pending])]
    rfl
  rw [here]
  refine ⟨bootstrap_appliedAll (bootstrap_again emptyStore_boots) early, ?_, late⟩
  refine pending_append migrations_wellNumbered ?_ (recorded_appliedAll early)
  rw [bootstrapped_pending, List.take_append_drop]

/-- Every database that records a prefix can be brought to the same end. -/
theorem RecordsPrefix.completes {start : Store} (known : RecordsPrefix start) :
    ∃ base final, start.execute schemaBootstrap = .ok base ∧
      appliedAll (base.pending migrations) base = .ok final := by
  obtain ⟨final, whole⟩ := migrations_applicable
  rcases known with rfl | ⟨count, rfl⟩
  · exact ⟨bootstrapped, final, emptyStore_boots, by rwa [bootstrapped_pending]⟩
  · obtain ⟨booted, left, completed⟩ := recordedFirst_spec whole count
    exact ⟨recordedFirst count, final, booted, by rwa [left]⟩

/-- The statement that creates the table of the migrations can be repeated. -/
theorem schemaBootstrap_guarded : schemaBootstrap ∉ unguardedStatements := migrations_checked.2.2.2.1

/-- A run of the migrations that is cut off at any point is completed by the next run if and only
if no unguarded statement was executed since the last commit. -/
theorem interrupted_migrations_recover_iff {start : Store} (known : RecordsPrefix start) (count : Nat) :
    Recovers start (cutAt sqlServe count (runMigrations migrations) (opened start)).2.disk ↔
      ∀ statement ∈
          sinceCommit (cutAt sqlServe count (runMigrations migrations) (opened start)).1,
        statement ∉ unguardedStatements := by
  obtain ⟨base, final, booted, whole⟩ := known.completes
  have cut : Cut sqlServe (runMigrations migrations) (opened start) _ _ :=
    cut_cutAt count (runMigrations migrations) (opened start)
  have uninterrupted := exec_runMigrations_ok booted whole
  have again := bootstrap_again booted
  unfold Recovers
  rw [uninterrupted]
  rcases cut_runMigrations booted whole cut with ⟨same, silent⟩ | ⟨first, between, served⟩
  · -- Before the first statement the next run is the first one.
    rw [same]
    constructor
    · rintro - statement member
      rw [silent statement member]
      exact schemaBootstrap_guarded
    · intro _
      exact ⟨_, uninterrupted⟩
  · have condition : (∀ statement ∈
          sinceCommit (cutAt sqlServe count (runMigrations migrations) (opened start)).1,
        statement ∉ unguardedStatements) ↔ ∀ statement ∈ first, statement ∉ unguardedStatements := by
      constructor
      · intro calm statement member once
        have other : statement ≠ schemaBootstrap :=
          fun same => schemaBootstrap_guarded (same ▸ once)
        exact calm statement ((served statement other).mpr member) once
      · intro calm statement member once
        have other : statement ≠ schemaBootstrap :=
          fun same => schemaBootstrap_guarded (same ▸ once)
        exact calm statement ((served statement other).mp member) once
    rw [condition]
    constructor
    · rintro ⟨applied, returned⟩ statement member once
      obtain ⟨error, conn, raised⟩ := raises_of_unguarded migrations_wellNumbered again whole
        between ⟨statement, member, once⟩
      rw [raised] at returned
      simp at returned
    · intro calm
      exact recovers_of_guarded migrations_wellNumbered again whole between calm

/-- A new database whose first run ends right behind the first added column. -/
def cooldownAdded : Store :=
  (cutAt sqlServe 29 (runMigrations migrations) (opened emptyStore)).2.disk

/-- The migrations without the one of the indexes, numbered through. -/
def mergedMigrations : List Migration :=
  (migrations.eraseIdx 1).zipIdx.map fun entry => { entry.1 with version := entry.2 + 1 }

/-- A database that an earlier numbering without the indexes has brought up. -/
def mergedStore : Store :=
  (exec sqlServe (runMigrations mergedMigrations) (opened emptyStore)).2.disk

/-- What an evaluation says of single runs: up to the first table nothing unguarded is executed, behind the first added
column the next run raises and changes nothing, and an earlier numbering has created the table of the migrations. -/
theorem runs_checked :
    (∀ statement ∈ sinceCommit (cutAt sqlServe 7 (runMigrations migrations) (opened emptyStore)).1,
        statement ∉ unguardedStatements) ∧
      (exec sqlServe (runMigrations migrations) (opened cooldownAdded)).1 =
        .error (.duplicateColumn "cooldown_until") ∧
      (exec sqlServe (runMigrations migrations) (opened cooldownAdded)).2.disk = cooldownAdded ∧
      mergedStore.execute schemaBootstrap = .ok mergedStore := by
  decide +kernel

/-- Among the recoverable points: behind the first table of a new database. -/
theorem first_table_recovers :
    RecordsPrefix emptyStore ∧ (∀ statement ∈
        sinceCommit (cutAt sqlServe 7 (runMigrations migrations) (opened emptyStore)).1,
      statement ∉ unguardedStatements) ∧
      Recovers emptyStore
        (cutAt sqlServe 7 (runMigrations migrations) (opened emptyStore)).2.disk := by
  obtain ⟨calm, -⟩ := runs_checked
  exact ⟨.inl rfl, calm, (interrupted_migrations_recover_iff (.inl rfl) 7).mpr calm⟩

/-- Behind the first added column the next run raises, and so does every later one. -/
theorem cooldown_column_not_repeated :
    (exec sqlServe (runMigrations migrations) (opened cooldownAdded)).1 =
        .error (.duplicateColumn "cooldown_until") ∧
      (exec sqlServe (runMigrations migrations) (opened cooldownAdded)).2.disk = cooldownAdded ∧
      ¬Recovers emptyStore cooldownAdded := by
  obtain ⟨-, raised, kept, -⟩ := runs_checked
  refine ⟨raised, kept, ?_⟩
  rintro ⟨applied, returned⟩
  rw [returned] at raised
  contradiction

/-- A name of the migrations is recorded after all pending ones if it was recorded before or its
number was free. -/
theorem name_recorded_iff {store : Store} {list : List Migration} {unguarded : List Ddl}
    (numbered : WellNumbered list unguarded) {migration : Migration} (listed : migration ∈ list) :
    migration.name ∈
        (store.recorded ++ (store.pending list).map Migration.row).map AppliedRow.name ↔
      migration.name ∈ store.recorded.map AppliedRow.name ∨
        migration.version ∉ store.recorded.map AppliedRow.version := by
  have rows : ((store.pending list).map Migration.row).map AppliedRow.name =
      (store.pending list).map Migration.name := by
    rw [List.map_map]
    rfl
  rw [List.map_append, rows, List.mem_append]
  constructor
  · rintro (old | new)
    · exact .inl old
    · -- The names tell the migrations apart, so it is this one that was pending.
      obtain ⟨other, member, same⟩ := List.mem_map.mp new
      have inList := (List.mem_filter.mp member).1
      obtain rfl : other = migration := List.inj_on_of_nodup_map numbered.names inList listed same
      have free := of_decide_eq_true (List.mem_filter.mp member).2
      exact .inr fun taken => free (.inl taken)
  · rintro (old | free)
    · exact .inl old
    · by_cases known : migration.name ∈ store.recorded.map AppliedRow.name
      · exact .inl known
      · right
        refine List.mem_map_of_mem (List.mem_filter.mpr ⟨listed, decide_eq_true ?_⟩)
        rintro (taken | named)
        · exact free taken
        · exact known named

/-- A run makes, behind its startup, exactly the calls of the migrations of which neither number
nor name is recorded, each once and in order, up to the first that raises; what is through is
recorded, and after a run that returns a name is missing only where its number was taken. -/
def AppliesPending (store base : Store) : Prop :=
  ∃ done rest reached ending outcome,
    store.pending migrations = done ++ rest ∧
    exec sqlServe (runMigrations migrations) (opened store) = (outcome, opened reached) ∧
    requests sqlServe (runMigrations migrations) (opened store) =
      startupRequests ++
        requests sqlServe (applyEach (store.pending migrations) []) (opened base) ++ [ending] ∧
    reached.recorded = store.recorded ++ done.map Migration.row ∧
    ((rest = [] ∧ outcome = .ok ((store.pending migrations).map Migration.version) ∧
        ∀ migration ∈ migrations,
          (migration.name ∈ reached.recorded.map AppliedRow.name ↔
            migration.name ∈ store.recorded.map AppliedRow.name ∨
              migration.version ∉ store.recorded.map AppliedRow.version)) ∨
      ∃ migration others error, rest = migration :: others ∧ outcome = .error error)

/-- Whatever rows are recorded, a run applies exactly the pending migrations. -/
theorem pending_migrations_applied {store base : Store}
    (booted : store.execute schemaBootstrap = .ok base) : AppliesPending store base := by
  have kept : base.recorded = store.recorded := (Store.execute_eq_ok.mp booted).2
  have same : base.pending migrations = store.pending migrations := by
    unfold Store.pending
    rw [kept]
  obtain ⟨done, rest, middle, reached, outcome, split, through, ran, rows, ending⟩ :=
    exec_applyEach (store.pending migrations) base []
  have body : exec sqlServe (runBody migrations) (opened store) = (outcome, opened reached) := by
    rw [exec_runBody booted, same, ran]
  have calls : requests sqlServe (runBody migrations) (opened store) = startupRequests ++
      requests sqlServe (applyEach (store.pending migrations) []) (opened base) := by
    rw [requests_runBody booted, same]
  rw [kept] at rows
  rcases ending with ⟨rfl, rfl⟩ | ⟨migration, others, error, rfl, failed, rfl⟩
  · refine ⟨done, [], reached, .commit, _, split, exec_inTransaction_ok body, ?_, rows,
      .inl ⟨rfl, by rw [List.nil_append], ?_⟩⟩
    · rw [← calls]
      exact requests_inTransaction body
    · -- Everything pending is through, so the rows are known.
      intro migration listed
      rw [List.append_nil] at split
      rw [rows, ← split]
      exact name_recorded_iff migrations_wellNumbered listed
  · refine ⟨done, migration :: others, reached, .rollback, _, split,
      exec_inTransaction_error body, ?_, rows, .inr ⟨migration, others, error, rfl, rfl⟩⟩
    rw [← calls]
    exact requests_inTransaction_error body

/-- The run on a database with an earlier numbering applies exactly the pending migrations. -/
theorem merged_pending_applied :
    mergedStore.execute schemaBootstrap = .ok mergedStore ∧
      AppliesPending mergedStore mergedStore := by
  obtain ⟨-, -, -, booted⟩ := runs_checked
  exact ⟨booted, pending_migrations_applied booted⟩

/-- The indexes are neither created nor recorded where another migration holds their number. -/
theorem merged_indexes_lost :
    "indexes" ∈ migrations.map Migration.name ∧
      "indexes" ∉ mergedStore.recorded.map AppliedRow.name ∧
      (∀ row ∈ mergedStore.recorded, row.name ∈ migrations.map Migration.name) ∧
      (exec sqlServe (runMigrations migrations) (opened mergedStore)).1 = .ok [] ∧
      "indexes" ∉ (exec sqlServe (runMigrations migrations)
        (opened mergedStore)).2.disk.recorded.map AppliedRow.name := by
  decide +kernel

end Rasat
