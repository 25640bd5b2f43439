import RasatTrading.Storage.MigrationRuns

/-! Running the migrations again after an interrupted run. -/

namespace Rasat

open Coop Redo

section Bodies

variable {fn : MigrationFn} {start state after : Store} {first rest : List Ddl}

/-- Adding columns one by one puts them behind the others. -/
theorem columnNames_addColumns {table : String} {additions : List Column}
    (executed : executeAll Store.execute (additions.map (.addColumn table)) start = .ok state) :
    state.schema.columnNames table =
      start.schema.columnNames table ++ additions.map Column.name := by
  induction additions generalizing start with
  | nil =>
    obtain rfl : start = state := by simpa using executed
    simp
  | cons column others ih =>
    obtain ⟨middle, once, behind⟩ := executeAll_cons_eq_ok.mp executed
    have added := (Store.execute_eq_ok.mp once).1
    have grown : middle.schema.columnNames table =
        start.schema.columnNames table ++ [column.name] := by
      simp only [Schema.execute] at added
      split_ifs at added with known taken
      rw [← Except.ok.inj added]
      exact Schema.columnNames_altered column known
    rw [ih behind, grown]
    simp

/-- Behind a first part of the missing columns, the others are still missing. -/
theorem statementsIn_missingColumns {table : String} {additions : List Column}
    (distinct : (additions.map Column.name).Nodup)
    (body : (MigrationFn.missingColumns table additions).statementsIn start = first ++ rest)
    (partly : executeAll Store.execute first start = .ok state) :
    (MigrationFn.missingColumns table additions).statementsIn state = rest := by
  -- Both parts of the list come from parts of the missing columns.
  obtain ⟨early, late, split, rfl, rfl⟩ := List.map_eq_append_iff.mp body
  have names := columnNames_addColumns partly
  have known : ∀ column : Column, column.name ∉ state.schema.columnNames table ↔
      column.name ∉ start.schema.columnNames table ∧ column.name ∉ early.map Column.name := by
    intro column
    rw [names, List.mem_append, not_or]
  have apart : ∀ column ∈ late, column.name ∉ early.map Column.name := by
    have unique : ((early ++ late).map Column.name).Nodup := by
      rw [← split]
      exact distinct.sublist (List.filter_sublist.map Column.name)
    rw [List.map_append] at unique
    intro column member taken
    exact (List.nodup_append.mp unique).2.2 _ taken _ (List.mem_map_of_mem member) rfl
  have still : additions.filter (fun column => column.name ∉ state.schema.columnNames table) =
      (early ++ late).filter fun column => column.name ∉ early.map Column.name := by
    rw [← split, List.filter_filter]
    congr 1
    funext column
    simp only [known column]
    rw [Bool.decide_and, Bool.and_comm]
  have gone : early.filter (fun column => column.name ∉ early.map Column.name) = [] := by
    apply List.filter_eq_nil_iff.mpr
    intro column member
    simpa using ⟨column, member, rfl⟩
  have kept : late.filter (fun column => column.name ∉ early.map Column.name) = late := by
    apply List.filter_eq_self.mpr
    intro column member
    exact decide_eq_true (apart column member)
  have remaining : additions.filter
      (fun column => column.name ∉ state.schema.columnNames table) = late := by
    rw [still, List.filter_append, gone, kept, List.nil_append]
  exact congrArg (List.map (Ddl.addColumn table)) remaining

/-- A body that is executed again comes to its end if its first part was guarded. -/
theorem redo_ok (distinct : fn.Distinct) (body : fn.statementsIn start = first ++ rest)
    (whole : executeAll Store.execute (fn.statementsIn start) start = .ok after)
    (partly : executeAll Store.execute first start = .ok state)
    (calm : ∀ statement ∈ first, statement ∉ fn.unguarded) :
    executeAll Store.execute (fn.statementsIn state) state = .ok after := by
  rw [body] at whole
  -- A list of statements is executed from its start again.
  have again : ∀ list : List Ddl, list = first ++ rest →
      (∀ statement ∈ first, statement ∉ list.filter fun other => !other.repeatable) →
      executeAll Store.execute list state = .ok after := by
    rintro list rfl guarded
    refine (Store.lasting.redo_iff partly whole).1.mpr ?_
    intro statement member
    by_contra once
    exact guarded statement member
      (List.mem_filter.mpr ⟨List.mem_append_left _ member, by simpa using once⟩)
  cases fn with
  | script list => exact again list body calm
  | statements list => exact again list body calm
  | missingColumns table additions =>
    rw [statementsIn_missingColumns distinct body partly]
    obtain ⟨middle, early, late⟩ := executeAll_append_eq_ok.mp whole
    obtain rfl : middle = state := by simpa [partly] using early.symm
    exact late

/-- A body that is executed again fails if its first part was not guarded. -/
theorem redo_error (body : fn.statementsIn start = first ++ rest)
    (whole : executeAll Store.execute (fn.statementsIn start) start = .ok after)
    (partly : executeAll Store.execute first start = .ok state)
    (once : ∃ statement ∈ first, statement ∈ fn.unguarded) :
    ∃ error, executeAll Store.execute (fn.statementsIn state) state = .error error := by
  rw [body] at whole
  have again : ∀ list : List Ddl, list = first ++ rest →
      (∃ statement ∈ first, statement ∈ list.filter fun other => !other.repeatable) →
      ∃ error, executeAll Store.execute list state = .error error := by
    rintro list rfl ⟨statement, member, filtered⟩
    refine (Store.lasting.redo_iff partly whole).2.mpr ⟨statement, member, ?_⟩
    simpa using (List.mem_filter.mp filtered).2
  cases fn with
  | script list => exact again list body once
  | statements list => exact again list body once
  | missingColumns table additions =>
    obtain ⟨statement, -, impossible⟩ := once
    simp [MigrationFn.unguarded] at impossible

end Bodies

/-- The statements that a migration may execute. -/
def MigrationFn.allStatements : MigrationFn → List Ddl
  | .script list => list
  | .statements list => list
  | .missingColumns table additions => additions.map (.addColumn table)

/-- A migration executes no other statements on any database. -/
theorem mem_allStatements {fn : MigrationFn} {store : Store} {statement : Ddl}
    (executed : statement ∈ fn.statementsIn store) : statement ∈ fn.allStatements := by
  cases fn with
  | script list => exact executed
  | statements list => exact executed
  | missingColumns table additions =>
    obtain ⟨column, member, rfl⟩ := List.mem_map.mp executed
    exact List.mem_map_of_mem (List.mem_filter.mp member).1

/-- A list of migrations that can be told apart by number, by name, and by what must not be
executed twice. -/
structure WellNumbered (list : List Migration) (unguarded : List Ddl) : Prop where
  versions : (list.map Migration.version).Nodup
  names : (list.map Migration.name).Nodup
  columns : ∀ migration ∈ list, migration.fn.Distinct
  guards : ∀ migration ∈ list, ∀ statement ∈ migration.fn.allStatements,
    (statement ∈ migration.fn.unguarded ↔ statement ∈ unguarded)

section Runs

variable {list done rest : List Migration} {unguarded : List Ddl} {store base disk after : Store}

/-- The table of the migrations stays where it is. -/
theorem bootstrap_executeAll {statements : List Ddl} (booted : base.execute schemaBootstrap = .ok base)
    (executed : executeAll Store.execute statements base = .ok disk) :
    disk.execute schemaBootstrap = .ok disk :=
  Store.lasting.again rfl (Store.lasting.lasts_all (Store.lasting.made booted) executed)

/-- Applied migrations keep the table of the migrations. -/
theorem bootstrap_appliedAll (booted : base.execute schemaBootstrap = .ok base)
    (through : appliedAll done base = .ok disk) : disk.execute schemaBootstrap = .ok disk := by
  induction done generalizing base with
  | nil =>
    obtain rfl : base = disk := by simpa using through
    exact booted
  | cons migration others ih =>
    obtain ⟨middle, first, behind⟩ := executeAll_cons_eq_ok.mp through
    obtain ⟨filled, executed, inserted⟩ := applied_eq_ok.mp first
    have kept := Store.lasting.made (bootstrap_executeAll booted executed)
    -- The insertion leaves the schema alone.
    rw [← (insert_eq_ok inserted).2] at kept
    exact ih (Store.lasting.again rfl kept) behind

/-- Applied migrations are recorded in order. -/
theorem recorded_appliedAll (through : appliedAll done base = .ok disk) :
    disk.recorded = base.recorded ++ done.map Migration.row := by
  induction done generalizing base with
  | nil =>
    obtain rfl : base = disk := by simpa using through
    simp
  | cons migration others ih =>
    obtain ⟨middle, first, behind⟩ := executeAll_cons_eq_ok.mp through
    rw [ih behind, recorded_applied first]
    simp

/-- Once the first pending migrations are recorded, the others are pending. -/
theorem pending_append (numbered : WellNumbered list unguarded) (split : base.pending list = done ++ rest)
    (rows : disk.recorded = base.recorded ++ done.map Migration.row) :
    disk.pending list = rest := by
  have versions : ((done ++ rest).map Migration.version).Nodup := by
    rw [← split]
    exact numbered.versions.sublist (List.filter_sublist.map _)
  have names : ((done ++ rest).map Migration.name).Nodup := by
    rw [← split]
    exact numbered.names.sublist (List.filter_sublist.map _)
  rw [List.map_append] at versions names
  -- What is newly known are the numbers and names of the finished ones.
  have filtered : disk.pending list = (done ++ rest).filter fun migration =>
      ¬(migration.version ∈ done.map Migration.version ∨
        migration.name ∈ done.map Migration.name) := by
    rw [← split]
    unfold Store.pending Rasat.pending
    rw [List.filter_filter, rows]
    congr 1
    funext migration
    rw [← Bool.decide_and]
    congr 1
    have versionRows : (done.map Migration.row).map AppliedRow.version =
        done.map Migration.version := by
      rw [List.map_map]
      rfl
    have nameRows : (done.map Migration.row).map AppliedRow.name = done.map Migration.name := by
      rw [List.map_map]
      rfl
    rw [List.map_append, List.map_append, versionRows, nameRows, List.mem_append, List.mem_append]
    apply propext
    tauto
  have gone : done.filter (fun migration => ¬(migration.version ∈ done.map Migration.version ∨
      migration.name ∈ done.map Migration.name)) = [] := by
    apply List.filter_eq_nil_iff.mpr
    intro migration member
    simpa using fun fresh => absurd member (fresh migration · rfl)
  have kept : rest.filter (fun migration => ¬(migration.version ∈ done.map Migration.version ∨
      migration.name ∈ done.map Migration.name)) = rest := by
    apply List.filter_eq_self.mpr
    intro migration member
    apply decide_eq_true
    rintro (taken | taken)
    · exact (List.nodup_append.mp versions).2.2 _ taken _ (List.mem_map_of_mem member) rfl
    · exact (List.nodup_append.mp names).2.2 _ taken _ (List.mem_map_of_mem member) rfl
  rw [filtered, List.filter_append, gone, kept, List.nil_append]

/-- The migration that an interrupted run was at is the first pending one of the next run. -/
theorem under_way (numbered : WellNumbered list unguarded) (booted : base.execute schemaBootstrap = .ok base)
    (whole : appliedAll (base.pending list) base = .ok after) {done rest : List Migration}
    {migration : Migration} {middle : Store} {first : List Ddl}
    (split : base.pending list = done ++ migration :: rest) (through : appliedAll done base = .ok middle)
    (partly : executeAll Store.execute first middle = .ok disk) :
    disk.execute schemaBootstrap = .ok disk ∧ disk.pending list = migration :: rest ∧
      migration ∈ list ∧ ∃ filled finished,
        executeAll Store.execute (migration.fn.statementsIn middle) middle = .ok filled ∧
          filled.insert migration.row = .ok finished ∧ appliedAll rest finished = .ok after := by
  have rows : disk.recorded = base.recorded ++ done.map Migration.row := by
    rw [recorded_executeAll partly, recorded_appliedAll through]
  have member : migration ∈ base.pending list := by simp [split]
  refine ⟨bootstrap_executeAll (bootstrap_appliedAll booted through) partly,
    pending_append numbered split rows, (List.mem_filter.mp member).1, ?_⟩
  -- The whole run went through the same state on its way.
  rw [split] at whole
  obtain ⟨reached, early, late⟩ := executeAll_append_eq_ok.mp whole
  obtain rfl : reached = middle := by simpa [through] using early.symm
  obtain ⟨finished, applied, remaining⟩ := executeAll_cons_eq_ok.mp late
  obtain ⟨filled, executed, inserted⟩ := applied_eq_ok.mp applied
  exact ⟨filled, finished, executed, inserted, remaining⟩

/-- A run that was interrupted among guarded statements is completed by the next one. -/
theorem recovers_of_guarded (numbered : WellNumbered list unguarded)
    (booted : base.execute schemaBootstrap = .ok base)
    (whole : appliedAll (base.pending list) base = .ok after) {first : List Ddl}
    (between : Between (base.pending list) base disk first)
    (calm : ∀ statement ∈ first, statement ∉ unguarded) :
    ∃ applied, exec sqlServe (runMigrations list) (opened disk) = (.ok applied, opened after) := by
  cases between with
  | settled done split through =>
    have bootedDisk := bootstrap_appliedAll booted through
    have left := pending_append numbered split (recorded_appliedAll through)
    rw [split] at whole
    obtain ⟨middle, early, late⟩ := executeAll_append_eq_ok.mp whole
    obtain rfl : middle = disk := by simpa [through] using early.symm
    exact ⟨_, exec_runMigrations_ok bootedDisk (by rwa [left])⟩
  | @inside done rest migration middle disk first others split through body partly =>
    obtain ⟨bootedDisk, left, listed, filled, finished, executed, inserted, remaining⟩ :=
      under_way numbered booted whole split through partly
    -- The migration under way is executed again from its first statement.
    have again : executeAll Store.execute (migration.fn.statementsIn disk) disk = .ok filled := by
      refine redo_ok (numbered.columns migration listed) body executed partly ?_
      intro statement member once
      have own : statement ∈ migration.fn.allStatements :=
        mem_allStatements (body ▸ List.mem_append_left _ member)
      exact calm statement member ((numbered.guards migration listed statement own).mp once)
    have completed : appliedAll (disk.pending list) disk = .ok after := by
      rw [left]
      exact executeAll_cons_eq_ok.mpr
        ⟨finished, applied_eq_ok.mpr ⟨filled, again, inserted⟩, remaining⟩
    exact ⟨_, exec_runMigrations_ok bootedDisk completed⟩

/-- A run that was interrupted behind an unguarded statement makes the next one raise. -/
theorem raises_of_unguarded (numbered : WellNumbered list unguarded)
    (booted : base.execute schemaBootstrap = .ok base)
    (whole : appliedAll (base.pending list) base = .ok after) {first : List Ddl}
    (between : Between (base.pending list) base disk first)
    (once : ∃ statement ∈ first, statement ∈ unguarded) :
    ∃ error conn, exec sqlServe (runMigrations list) (opened disk) = (.error error, conn) := by
  cases between with
  | settled done split through => simp at once
  | @inside done rest migration middle disk first others split through body partly =>
    obtain ⟨bootedDisk, left, listed, filled, finished, executed, inserted, remaining⟩ :=
      under_way numbered booted whole split through partly
    obtain ⟨statement, member, bad⟩ := once
    have own : statement ∈ migration.fn.allStatements :=
      mem_allStatements (body ▸ List.mem_append_left _ member)
    obtain ⟨error, fails⟩ := redo_error body executed partly
      ⟨statement, member, (numbered.guards migration listed statement own).mpr bad⟩
    -- The first pending migration of the next run is the one that was under way.
    have refused : migration.applied disk = .error error := by
      simp [Migration.applied, fails, bind, Except.bind]
    obtain ⟨final, raised, -⟩ := exec_apply_error refused
    have loop : exec sqlServe (runBody list) (opened disk) = (.error error, opened final) := by
      rw [exec_runBody bootedDisk, left]
      exact exec_bind_error raised
    exact ⟨error, _, exec_inTransaction_error loop⟩

end Runs

end Rasat
