import RasatTrading.Storage.Migrations
import RasatTrading.Storage.SchemaLaws

/-! Runs and interrupted runs of the migrations, in terms of the statements they execute. -/

namespace Rasat

open Coop Redo

/-- A connection without an open transaction. -/
def opened (store : Store) : SchemaConnection := ⟨store, none⟩

@[simp] theorem opened_disk (store : Store) : (opened store).disk = store := rfl

@[simp] theorem opened_view (store : Store) : (opened store).view = store := rfl

/-- The statements served since the last commit, oldest first. -/
def sinceCommit : List SqlReq → List Ddl
  | [] => []
  | request :: rest =>
    if .commit ∈ rest then sinceCommit rest
    else
      match request with
      | .ddl statement => statement :: sinceCommit rest
      | _ => sinceCommit rest

/-- The statements that a migration executes on a given database. -/
def MigrationFn.statementsIn (store : Store) : MigrationFn → List Ddl
  | .script list => list
  | .statements list => list
  | .missingColumns table additions =>
    (additions.filter fun column => column.name ∉ store.schema.columnNames table).map
      (.addColumn table)

/-- The statements of a migration that fail when they are executed a second time. -/
def MigrationFn.unguarded : MigrationFn → List Ddl
  | .script list => list.filter fun statement => !statement.repeatable
  | .statements list => list.filter fun statement => !statement.repeatable
  | .missingColumns _ _ => []

/-- The added columns of a migration have names of their own. -/
def MigrationFn.Distinct : MigrationFn → Prop
  | .missingColumns _ additions => (additions.map Column.name).Nodup
  | _ => True

instance : DecidablePred MigrationFn.Distinct := fun fn =>
  match fn with
  | .missingColumns _ additions => inferInstanceAs (Decidable (additions.map Column.name).Nodup)
  | .script _ => isTrue trivial
  | .statements _ => isTrue trivial

/-- The row under which a migration is recorded. -/
def Migration.row (migration : Migration) : AppliedRow := ⟨migration.version, migration.name⟩

/-- What a migration makes of a database: its statements, then its row. -/
def Migration.applied (migration : Migration) (store : Store) : Except SqlError Store :=
  executeAll Store.execute (migration.fn.statementsIn store) store >>= Store.insert migration.row

/-- What migrations make of a database one after the other. -/
abbrev appliedAll : List Migration → Store → Except SqlError Store := executeAll Migration.applied

section SinceCommit

variable {before after : List SqlReq} {statement : Ddl}

/-- Behind a commit nothing that came before it counts. -/
theorem sinceCommit_append_of_mem (committed : .commit ∈ after) :
    sinceCommit (before ++ after) = sinceCommit after := by
  induction before with
  | nil => rfl
  | cons request rest ih => simp [sinceCommit, committed, ih]

@[simp] theorem sinceCommit_concat_commit : sinceCommit (before ++ [.commit]) = [] := by
  rw [sinceCommit_append_of_mem (by simp)]
  rfl

/-- Without a commit in between, everything counts on. -/
theorem sinceCommit_append_of_not_mem (quiet : .commit ∉ after) :
    sinceCommit (before ++ after) = sinceCommit before ++ sinceCommit after := by
  induction before with
  | nil => rfl
  | cons request rest ih =>
    simp only [List.cons_append, sinceCommit, List.mem_append, quiet, or_false]
    split
    · exact ih
    · cases request <;> simp [ih]

/-- Behind a commit, or behind nothing, only the later requests count. -/
theorem sinceCommit_append_of_eq_nil (settled : sinceCommit before = []) :
    sinceCommit (before ++ after) = sinceCommit after := by
  by_cases committed : .commit ∈ after
  · exact sinceCommit_append_of_mem committed
  · rw [sinceCommit_append_of_not_mem committed, settled, List.nil_append]

/-- A statement since the last commit was served before the cut point or behind it. -/
theorem mem_sinceCommit_append (served : statement ∈ sinceCommit (before ++ after)) :
    statement ∈ sinceCommit before ∨ statement ∈ sinceCommit after := by
  by_cases committed : .commit ∈ after
  · rw [sinceCommit_append_of_mem committed] at served
    exact .inr served
  · rw [sinceCommit_append_of_not_mem committed] at served
    exact List.mem_append.mp served

/-- What was served behind a point still counts. -/
theorem mem_sinceCommit_append_right (served : statement ∈ sinceCommit after) :
    statement ∈ sinceCommit (before ++ after) := by
  by_cases committed : .commit ∈ after
  · rwa [sinceCommit_append_of_mem committed]
  · rw [sinceCommit_append_of_not_mem committed]
    exact List.mem_append_right _ served

@[simp] theorem sinceCommit_map_ddl (list : List Ddl) : sinceCommit (list.map .ddl) = list := by
  induction list with
  | nil => rfl
  | cons statement rest ih => simp [sinceCommit, ih]

end SinceCommit

variable {error : SqlError}

section Bodies

variable {store after : Store} {list : List Ddl} {seen : List SqlReq} {last : SchemaConnection}

/-- A statement outside a transaction changes the disk. -/
theorem sqlServe_ddl_ok {statement : Ddl} (executed : store.execute statement = .ok after) :
    sqlServe (.ddl statement) (opened store) = (.ok (), opened after) := by
  simp only [sqlServe, opened_view, executed]
  rfl

/-- A statement that fails changes nothing. -/
theorem sqlServe_ddl_error {statement : Ddl} (fails : store.execute statement = .error error) :
    sqlServe (.ddl statement) (opened store) = (.error error, opened store) := by
  simp only [sqlServe, opened_view, fails]

/-- Executing statements one by one comes to what they come to together. -/
theorem exec_executeEach_ok (executed : executeAll Store.execute list store = .ok after) :
    exec sqlServe (executeEach list) (opened store) = (.ok (), opened after) := by
  induction list generalizing store with
  | nil =>
    obtain rfl : store = after := by simpa using executed
    rfl
  | cons statement rest ih =>
    obtain ⟨middle, first, others⟩ := executeAll_cons_eq_ok.mp executed
    have once : exec sqlServe (sql (.ddl statement)) (opened store) = (.ok (), opened middle) := by
      rw [exec_call, sqlServe_ddl_ok first]
    exact (exec_bind_ok once).trans (ih others)

/-- Statements that fail together fail one by one, and touch no recorded row. -/
theorem exec_executeEach_error (fails : executeAll Store.execute list store = .error error) :
    ∃ reached, exec sqlServe (executeEach list) (opened store) = (.error error, opened reached) ∧
      reached.recorded = store.recorded := by
  induction list generalizing store with
  | nil => simp at fails
  | cons statement rest ih =>
    cases executed : store.execute statement with
    | ok middle =>
      rw [executeAll_cons_ok executed] at fails
      obtain ⟨reached, raised, kept⟩ := ih fails
      have once : exec sqlServe (sql (.ddl statement)) (opened store) =
          (.ok (), opened middle) := by
        rw [exec_call, sqlServe_ddl_ok executed]
      exact ⟨reached, (exec_bind_ok once).trans raised,
        kept.trans (Store.execute_eq_ok.mp executed).2⟩
    | error raised =>
      rw [executeAll_cons_error executed] at fails
      obtain rfl : raised = error := by simpa using fails
      have once : exec sqlServe (sql (.ddl statement)) (opened store) =
          (.error raised, opened store) := by
        rw [exec_call, sqlServe_ddl_error executed]
      exact ⟨store, exec_bind_error once, rfl⟩

/-- Statements served one by one are just these requests. -/
theorem requests_executeEach (executed : executeAll Store.execute list store = .ok after) :
    requests sqlServe (executeEach list) (opened store) = list.map .ddl := by
  induction list generalizing store with
  | nil => rfl
  | cons statement rest ih =>
    obtain ⟨middle, first, others⟩ := executeAll_cons_eq_ok.mp executed
    have once : exec sqlServe (sql (.ddl statement)) (opened store) = (.ok (), opened middle) := by
      rw [exec_call, sqlServe_ddl_ok first]
    rw [executeEach, Prog.bind_eq, requests_bind_ok once, requests_call, ih others]
    rfl

/-- Interrupted statements have executed a first part of the list. -/
theorem cut_executeEach (executed : executeAll Store.execute list store = .ok after)
    (cut : Cut sqlServe (executeEach list) (opened store) seen last) :
    ∃ first rest middle, list = first ++ rest ∧ seen = first.map .ddl ∧
      executeAll Store.execute first store = .ok middle ∧ last = opened middle := by
  induction list generalizing store seen with
  | nil =>
    obtain ⟨rfl, rfl⟩ := cut.of_done
    exact ⟨[], [], store, rfl, rfl, rfl, rfl⟩
  | cons statement others ih =>
    obtain ⟨middle, first, behind⟩ := executeAll_cons_eq_ok.mp executed
    have once : exec sqlServe (sql (.ddl statement)) (opened store) = (.ok (), opened middle) := by
      rw [exec_call, sqlServe_ddl_ok first]
    rcases Cut.of_bind cut with inFirst | ⟨value, reached, more, returned, rfl, inRest⟩
    · rcases inFirst.of_call with ⟨rfl, rfl⟩ | ⟨rfl, rfl⟩
      · exact ⟨[], statement :: others, store, rfl, rfl, rfl, rfl⟩
      · refine ⟨[statement], others, middle, rfl, rfl, ?_, ?_⟩
        · exact executeAll_cons_eq_ok.mpr ⟨middle, first, rfl⟩
        · rw [sqlServe_ddl_ok first]
    · -- The first statement is through; the cut lies in the others.
      obtain ⟨rfl, rfl⟩ : () = value ∧ opened middle = reached := by
        simpa [once] using returned
      obtain ⟨part, rest, final, rfl, rfl, partly, rfl⟩ := ih behind inRest
      refine ⟨statement :: part, rest, final, rfl, ?_, ?_, rfl⟩
      · simp [requests_call]
      · exact executeAll_cons_eq_ok.mpr ⟨middle, first, partly⟩

end Bodies

section Transactions

variable {body : SqlProg α} {conn final : SchemaConnection} {seen : List SqlReq}
  {last : SchemaConnection} {value : α}

/-- A body that returns is committed. -/
theorem exec_inTransaction_ok (returned : exec sqlServe body conn = (.ok value, final)) :
    exec sqlServe (inTransaction body) conn = (.ok value, opened final.view) := by
  have captured : exec sqlServe body.attempt conn = (.ok (.ok value), final) := by
    rw [exec_attempt, returned]
  exact exec_bind_ok captured

/-- A body that raises is rolled back. -/
theorem exec_inTransaction_error (raised : exec sqlServe body conn = (.error error, final)) :
    exec sqlServe (inTransaction body) conn = (.error error, opened final.disk) := by
  have captured : exec sqlServe body.attempt conn = (.ok (.error error), final) := by
    rw [exec_attempt, raised]
  exact exec_bind_ok captured

/-- The last request of a body that returns is the commit. -/
theorem requests_inTransaction (returned : exec sqlServe body conn = (.ok value, final)) :
    requests sqlServe (inTransaction body) conn = requests sqlServe body conn ++ [.commit] := by
  have captured : exec sqlServe body.attempt conn = (.ok (.ok value), final) := by
    rw [exec_attempt, returned]
  rw [inTransaction, Prog.bind_eq, requests_bind_ok captured, requests_attempt]
  rfl

/-- The last request of a body that raises is the rollback. -/
theorem requests_inTransaction_error (raised : exec sqlServe body conn = (.error error, final)) :
    requests sqlServe (inTransaction body) conn = requests sqlServe body conn ++ [.rollback] := by
  have captured : exec sqlServe body.attempt conn = (.ok (.error error), final) := by
    rw [exec_attempt, raised]
  rw [inTransaction, Prog.bind_eq, requests_bind_ok captured, requests_attempt]
  rfl

/-- An interrupted transaction is interrupted in its body or behind its commit. -/
theorem cut_inTransaction (returned : exec sqlServe body conn = (.ok value, final))
    (cut : Cut sqlServe (inTransaction body) conn seen last) :
    Cut sqlServe body conn seen last ∨
      (seen = requests sqlServe body conn ++ [.commit] ∧ last = opened final.view) := by
  have captured : exec sqlServe body.attempt conn = (.ok (.ok value), final) := by
    rw [exec_attempt, returned]
  rcases Cut.of_bind cut with inBody | ⟨outcome, reached, more, finished, rfl, inCommit⟩
  · exact .inl inBody.of_attempt
  · obtain ⟨rfl, rfl⟩ : Except.ok value = outcome ∧ final = reached := by
      simpa [captured] using finished
    rw [requests_attempt]
    rcases Cut.of_bind inCommit with before | ⟨answer, committed, rest, settled, rfl, behind⟩
    · rcases before.of_call with ⟨rfl, rfl⟩ | ⟨rfl, rfl⟩
      · -- The body is through but nothing is committed yet.
        left
        rw [List.append_nil]
        have through : Cut sqlServe body conn _ _ := Cut.whole body conn
        rwa [returned] at through
      · exact .inr ⟨rfl, rfl⟩
    · obtain ⟨rfl, rfl⟩ := behind.of_done
      obtain rfl : opened final.view = last := by
        rw [exec_call] at settled
        exact congrArg Prod.snd settled
      exact .inr ⟨by simp, rfl⟩

end Transactions

section Migrations

variable {store after : Store} {fn : MigrationFn} {migration : Migration} {seen : List SqlReq}
  {last : SchemaConnection}

/-- A body executes its statements, perhaps behind one call that changes nothing. -/
theorem run_cases (fn : MigrationFn) (store : Store) :
    fn.run = executeEach (fn.statementsIn store) ∨
      ∃ request value, ∃ next : SqlReq.Ans request → SqlProg Unit,
        fn.run = (sql request).bind next ∧ next value = executeEach (fn.statementsIn store) ∧
        exec sqlServe (sql request) (opened store) = (.ok value, opened store) ∧
        sinceCommit [request] = [] := by
  cases fn with
  | script list =>
    -- Without a pending transaction the commit of `executescript` does nothing.
    refine .inr ⟨.commit, (), fun _ => executeEach list, rfl, rfl, ?_, rfl⟩
    rw [exec_call]
    rfl
  | statements list => exact .inl rfl
  | missingColumns table additions =>
    refine .inr ⟨.tableInfo table, store.schema.columnNames table, _, rfl, rfl, ?_, rfl⟩
    rw [exec_call]
    rfl

section Executed

variable (executed : executeAll Store.execute (fn.statementsIn store) store = .ok after)
include executed

/-- A migration body that succeeds comes to what its statements come to. -/
theorem exec_run_ok : exec sqlServe fn.run (opened store) = (.ok (), opened after) := by
  rcases run_cases fn store with plain | ⟨request, value, next, split, behind, quiet, -⟩
  · rw [plain]
    exact exec_executeEach_ok executed
  · rw [split, exec_bind_ok quiet, behind]
    exact exec_executeEach_ok executed

omit executed in
/-- A migration body whose statements fail raises, and touches no recorded row. -/
theorem exec_run_error (fails : executeAll Store.execute (fn.statementsIn store) store = .error error) :
    ∃ reached, exec sqlServe fn.run (opened store) = (.error error, opened reached) ∧
      reached.recorded = store.recorded := by
  rcases run_cases fn store with plain | ⟨request, value, next, split, behind, quiet, -⟩
  · rw [plain]
    exact exec_executeEach_error fails
  · rw [split, exec_bind_ok quiet, behind]
    exact exec_executeEach_error fails

/-- What a migration body has served since a commit are its statements. -/
theorem sinceCommit_requests_run :
    sinceCommit (requests sqlServe fn.run (opened store)) = fn.statementsIn store := by
  rcases run_cases fn store with plain | ⟨request, value, next, split, behind, quiet, silent⟩
  · rw [plain, requests_executeEach executed, sinceCommit_map_ddl]
  · rw [split, requests_bind_ok quiet, behind, requests_call, requests_executeEach executed,
      sinceCommit_append_of_eq_nil silent, sinceCommit_map_ddl]

/-- An interrupted migration body has executed a first part of its statements. -/
theorem cut_run (cut : Cut sqlServe fn.run (opened store) seen last) :
    ∃ first rest middle, fn.statementsIn store = first ++ rest ∧ sinceCommit seen = first ∧
      executeAll Store.execute first store = .ok middle ∧ last = opened middle := by
  rcases run_cases fn store with plain | ⟨request, value, next, split, behind, quiet, silent⟩
  · rw [plain] at cut
    obtain ⟨first, rest, middle, parts, rfl, partly, final⟩ := cut_executeEach executed cut
    exact ⟨first, rest, middle, parts, sinceCommit_map_ddl first, partly, final⟩
  · rw [split] at cut
    rcases cut.of_bind with inFirst | ⟨answer, reached, more, returned, rfl, inRest⟩
    · -- Nothing is executed before the first statement.
      have unchanged : last = opened store ∧ sinceCommit seen = [] := by
        rcases inFirst.of_call with ⟨rfl, rfl⟩ | ⟨rfl, rfl⟩
        · exact ⟨rfl, rfl⟩
        · rw [exec_call] at quiet
          exact ⟨by rw [quiet], silent⟩
      exact ⟨[], fn.statementsIn store, store, rfl, unchanged.2, rfl, unchanged.1⟩
    · obtain ⟨rfl, rfl⟩ : value = answer ∧ opened store = reached := by
        simpa [quiet] using returned
      rw [behind] at inRest
      obtain ⟨first, rest, middle, parts, rfl, partly, final⟩ := cut_executeEach executed inRest
      refine ⟨first, rest, middle, parts, ?_, partly, final⟩
      rw [requests_call, sinceCommit_append_of_eq_nil silent, sinceCommit_map_ddl]

end Executed

/-- A migration that is applied has executed its statements and inserted its row. -/
theorem applied_eq_ok : migration.applied store = .ok after ↔
    ∃ filled, executeAll Store.execute (migration.fn.statementsIn store) store = .ok filled ∧
      filled.insert migration.row = .ok after := by
  unfold Migration.applied
  cases executeAll Store.execute (migration.fn.statementsIn store) store with
  | ok filled => simp [bind, Except.bind]
  | error error => simp [bind, Except.bind]

/-- The transaction of a migration up to its commit. -/
theorem exec_apply_body {filled : Store}
    (executed : executeAll Store.execute (migration.fn.statementsIn store) store = .ok filled)
    (inserted : filled.insert migration.row = .ok after) :
    exec sqlServe (migration.fn.run.bind fun _ => sql (.insert migration.row)) (opened store) =
      (.ok (), ⟨filled, some after⟩) := by
  rw [exec_bind_ok (exec_run_ok executed), exec_call]
  simp only [sqlServe, opened_view, inserted]
  rfl

/-- A migration that can be applied is applied and committed. -/
theorem exec_apply_ok (applied : migration.applied store = .ok after) :
    exec sqlServe migration.apply (opened store) = (.ok (), opened after) := by
  obtain ⟨filled, executed, inserted⟩ := applied_eq_ok.mp applied
  exact exec_inTransaction_ok (exec_apply_body executed inserted)

/-- Statements leave the recorded rows as they are. -/
theorem recorded_executeAll {list : List Ddl} (executed : executeAll Store.execute list store = .ok after) :
    after.recorded = store.recorded := by
  induction list generalizing store with
  | nil =>
    obtain rfl : store = after := by simpa using executed
    rfl
  | cons statement rest ih =>
    obtain ⟨middle, first, others⟩ := executeAll_cons_eq_ok.mp executed
    exact (ih others).trans (Store.execute_eq_ok.mp first).2

/-- An insertion appends its row and changes nothing else. -/
theorem insert_eq_ok {row : AppliedRow} (inserted : store.insert row = .ok after) :
    after.recorded = store.recorded ++ [row] ∧ after.schema = store.schema := by
  simp only [Store.insert] at inserted
  split_ifs at inserted
  cases inserted
  exact ⟨rfl, rfl⟩

/-- An applied migration has its row behind the others. -/
theorem recorded_applied (applied : migration.applied store = .ok after) :
    after.recorded = store.recorded ++ [migration.row] := by
  obtain ⟨filled, executed, inserted⟩ := applied_eq_ok.mp applied
  rw [(insert_eq_ok inserted).1, recorded_executeAll executed]

/-- A migration that cannot be applied raises and leaves the recorded rows as they are. -/
theorem exec_apply_error (fails : migration.applied store = .error error) :
    ∃ reached, exec sqlServe migration.apply (opened store) = (.error error, opened reached) ∧
      reached.recorded = store.recorded := by
  cases executed : executeAll Store.execute (migration.fn.statementsIn store) store with
  | error raised =>
    obtain rfl : raised = error := by
      simpa [Migration.applied, executed, bind, Except.bind] using fails
    obtain ⟨reached, failed, kept⟩ := exec_run_error executed
    exact ⟨reached, exec_inTransaction_error (exec_bind_error failed), kept⟩
  | ok filled =>
    -- The statements stay, only the insertion is rolled back.
    have refused : filled.insert migration.row = .error error := by
      simpa [Migration.applied, executed, bind, Except.bind] using fails
    have body : exec sqlServe (migration.fn.run.bind fun _ => sql (.insert migration.row))
        (opened store) = (.error error, ⟨filled, some filled⟩) := by
      rw [exec_bind_ok (exec_run_ok executed), exec_call]
      simp only [sqlServe, opened_view, refused]
      rfl
    exact ⟨filled, exec_inTransaction_error body, recorded_executeAll executed⟩

/-- Behind an applied migration nothing is uncommitted. -/
theorem sinceCommit_requests_apply (applied : migration.applied store = .ok after) :
    sinceCommit (requests sqlServe migration.apply (opened store)) = [] := by
  obtain ⟨filled, executed, inserted⟩ := applied_eq_ok.mp applied
  have served := requests_inTransaction (exec_apply_body executed inserted)
  exact (congrArg sinceCommit served).trans sinceCommit_concat_commit

/-- An interrupted migration has executed a first part of its statements, or is committed. -/
theorem cut_apply (applied : migration.applied store = .ok after)
    (cut : Cut sqlServe migration.apply (opened store) seen last) :
    (∃ first rest, migration.fn.statementsIn store = first ++ rest ∧ sinceCommit seen = first ∧
        executeAll Store.execute first store = .ok last.disk) ∨
      (sinceCommit seen = [] ∧ last.disk = after) := by
  obtain ⟨filled, executed, inserted⟩ := applied_eq_ok.mp applied
  have body := exec_apply_body executed inserted
  rcases cut_inTransaction body cut with inBody | ⟨rfl, rfl⟩
  · rcases inBody.of_bind with inRun | ⟨value, reached, more, returned, rfl, inInsert⟩
    · obtain ⟨first, rest, middle, split, served, partly, rfl⟩ := cut_run executed inRun
      exact .inl ⟨first, rest, split, served, partly⟩
    · -- All statements are on the disk and the row is not.
      obtain ⟨rfl, rfl⟩ : () = value ∧ opened filled = reached := by
        simpa [exec_run_ok executed] using returned
      have served := sinceCommit_requests_run executed
      refine .inl ⟨migration.fn.statementsIn store, [], (List.append_nil _).symm, ?_, ?_⟩
      · rcases inInsert.of_call with ⟨rfl, rfl⟩ | ⟨rfl, rfl⟩
        · rw [List.append_nil, served]
        · rw [sinceCommit_append_of_not_mem (by simp), served]
          simp [sinceCommit]
      · rcases inInsert.of_call with ⟨rfl, rfl⟩ | ⟨rfl, rfl⟩
        · exact executed
        · simp only [sqlServe, opened_view, inserted]
          exact executed
  · exact .inr ⟨sinceCommit_concat_commit, rfl⟩

end Migrations

/-- The migrations whose version and name are both unknown. -/
def pending (versions : List Int) (names : List String) (list : List Migration) : List Migration :=
  list.filter fun migration => ¬(migration.version ∈ versions ∨ migration.name ∈ names)

/-- The migrations of which a database records neither version nor name. -/
def Store.pending (store : Store) (list : List Migration) : List Migration :=
  Rasat.pending (store.recorded.map AppliedRow.version) (store.recorded.map AppliedRow.name) list

/-- Migrations one after the other, each in its own transaction. -/
def applyEach : List Migration → List Int → SqlProg (List Int)
  | [], applied => pure applied
  | migration :: rest, applied => do
    migration.apply
    applyEach rest (applied ++ [migration.version])

/-- A database between two statements of a run: which migrations are through, and how much of the
next one is executed. -/
inductive Between (list : List Migration) (start : Store) : Store → List Ddl → Prop
  /-- No migration is under way. -/
  | settled (done : List Migration) {rest : List Migration} {middle : Store} (split : list = done ++ rest)
      (applied : appliedAll done start = .ok middle) : Between list start middle []
  /-- A first part of the statements of one migration is executed. -/
  | inside (done : List Migration) {rest : List Migration} {migration : Migration}
      {middle disk : Store} {first others : List Ddl} (split : list = done ++ migration :: rest)
      (applied : appliedAll done start = .ok middle)
      (body : migration.fn.statementsIn middle = first ++ others)
      (executed : executeAll Store.execute first middle = .ok disk) : Between list start disk first

section Runs

variable {list : List Migration} {store base after : Store} {applied : List Int}
  {seen : List SqlReq} {last : SchemaConnection}

/-- The loop passes over the known migrations and applies the others. -/
theorem applyPending_eq (versions : List Int) (names : List String) :
    applyPending versions names list applied = applyEach (pending versions names list) applied := by
  induction list generalizing applied with
  | nil => rfl
  | cons migration rest ih =>
    by_cases known : migration.version ∈ versions ∨ migration.name ∈ names
    · have passed : pending versions names (migration :: rest) = pending versions names rest :=
        List.filter_cons_of_neg fun wrong => of_decide_eq_true wrong known
      simp only [applyPending, known, if_true, ih, passed]
    · have taken : pending versions names (migration :: rest) =
          migration :: pending versions names rest :=
        List.filter_cons_of_pos (decide_eq_true known)
      simp only [applyPending, known, if_false, ih, taken, applyEach]

/-- Migrations that can all be applied are applied. -/
theorem exec_applyEach_ok (whole : appliedAll list store = .ok after) :
    exec sqlServe (applyEach list applied) (opened store) =
      (.ok (applied ++ list.map Migration.version), opened after) := by
  induction list generalizing store applied with
  | nil =>
    obtain rfl : store = after := by simpa using whole
    simp [applyEach]
  | cons migration rest ih =>
    obtain ⟨middle, first, others⟩ := executeAll_cons_eq_ok.mp whole
    rw [applyEach, Prog.bind_eq, exec_bind_ok (exec_apply_ok first), ih others]
    simp

/-- The loop ends behind the first migration that cannot be applied. -/
theorem exec_applyEach (list : List Migration) (store : Store) (applied : List Int) :
    ∃ done rest middle reached outcome,
      list = done ++ rest ∧ appliedAll done store = .ok middle ∧
      exec sqlServe (applyEach list applied) (opened store) = (outcome, opened reached) ∧
      reached.recorded = store.recorded ++ done.map Migration.row ∧
      ((rest = [] ∧ outcome = .ok (applied ++ list.map Migration.version)) ∨
        ∃ migration others error, rest = migration :: others ∧
          migration.applied middle = .error error ∧ outcome = .error error) := by
  induction list generalizing store applied with
  | nil =>
    refine ⟨[], [], store, store, .ok applied, rfl, rfl, rfl, by simp, .inl ⟨rfl, by simp⟩⟩
  | cons migration others ih =>
    cases first : migration.applied store with
    | error error =>
      -- Nothing behind the failed migration is executed.
      obtain ⟨reached, raised, kept⟩ := exec_apply_error first
      refine ⟨[], migration :: others, store, reached, .error error, rfl, rfl, ?_, by simp [kept],
        .inr ⟨migration, others, error, rfl, first, rfl⟩⟩
      exact exec_bind_error raised
    | ok middle =>
      obtain ⟨done, rest, final, reached, outcome, split, through, ran, rows, ending⟩ :=
        ih middle (applied ++ [migration.version])
      refine ⟨migration :: done, rest, final, reached, outcome, by simp [split], ?_, ?_, ?_, ?_⟩
      · exact executeAll_cons_eq_ok.mpr ⟨middle, first, through⟩
      · rw [applyEach, Prog.bind_eq, exec_bind_ok (exec_apply_ok first), ran]
      · rw [rows, recorded_applied first]
        simp
      · rcases ending with ⟨rfl, returned⟩ | failed
        · exact .inl ⟨rfl, by simp [returned]⟩
        · exact .inr failed

/-- An interrupted loop stands between two statements of its migrations. -/
theorem cut_applyEach (whole : appliedAll list store = .ok after)
    (cut : Cut sqlServe (applyEach list applied) (opened store) seen last) :
    Between list store last.disk (sinceCommit seen) := by
  induction list generalizing store applied seen with
  | nil =>
    obtain ⟨rfl, rfl⟩ := cut.of_done
    exact .settled [] rfl rfl
  | cons migration rest ih =>
    obtain ⟨middle, first, others⟩ := executeAll_cons_eq_ok.mp whole
    rcases Cut.of_bind cut with inFirst | ⟨value, reached, more, returned, rfl, inRest⟩
    · rcases cut_apply first inFirst with ⟨part, left, split, served, partly⟩ | ⟨served, reached⟩
      · rw [served]
        exact .inside [] rfl rfl split partly
      · rw [served, reached]
        exact .settled [migration] rfl (executeAll_cons_eq_ok.mpr ⟨middle, first, rfl⟩)
    · -- The first migration is committed; the cut lies in the others.
      obtain ⟨rfl, rfl⟩ : () = value ∧ opened middle = reached := by
        simpa [exec_apply_ok first] using returned
      rw [sinceCommit_append_of_eq_nil (sinceCommit_requests_apply first)]
      have behind := ih others inRest
      generalize sinceCommit more = uncommitted at behind
      generalize last.disk = disk at behind
      cases behind with
      | settled done split through =>
        subst split
        exact .settled (migration :: done) rfl
          (executeAll_cons_eq_ok.mpr ⟨middle, first, through⟩)
      | inside done split through body executed =>
        subst split
        exact .inside (migration :: done) rfl
          (executeAll_cons_eq_ok.mpr ⟨middle, first, through⟩) body executed

/-- Everything that `run_migrations` does inside its outer transaction. -/
def runBody (list : List Migration) : SqlProg (List Int) := do
  sql (.ddl schemaBootstrap)
  let existingVersions ← appliedVersions
  let existingNames ← appliedNames
  applyPending existingVersions existingNames list []

/-- Once the table of the migrations is there, creating it again does nothing. -/
theorem bootstrap_again (booted : store.execute schemaBootstrap = .ok base) :
    base.execute schemaBootstrap = .ok base :=
  Store.lasting.again rfl (Store.lasting.made booted)

/-- After the bootstrap the recorded rows can be read. -/
theorem select_bootstrapped (booted : store.execute schemaBootstrap = .ok base)
    (column : AppliedRow → α) : base.select column = .ok (base.recorded.map column) := by
  have table : base.schema.HasTable "schema_migrations" := Store.lasting.made booted
  simp [Store.select, table]

/-- Since the last commit at most the bootstrap was served. -/
def OnlyBootstrap (seen : List SqlReq) : Prop :=
  ∀ statement ∈ sinceCommit seen, statement = schemaBootstrap

/-- Behind the bootstrap alone, the other statements are those that come later. -/
theorem OnlyBootstrap.mem_append {before later : List SqlReq} {statement : Ddl}
    (quiet : OnlyBootstrap before) (other : statement ≠ schemaBootstrap) :
    statement ∈ sinceCommit (before ++ later) ↔ statement ∈ sinceCommit later := by
  constructor
  · intro served
    rcases mem_sinceCommit_append served with early | late
    · exact absurd (quiet statement early) other
    · exact late
  · exact mem_sinceCommit_append_right

/-- Two parts that serve at most the bootstrap do so together. -/
theorem OnlyBootstrap.append {before later : List SqlReq} (first : OnlyBootstrap before)
    (second : OnlyBootstrap later) : OnlyBootstrap (before ++ later) := by
  intro statement served
  rcases mem_sinceCommit_append served with early | late
  · exact first statement early
  · exact second statement late

/-- A part of a run that leaves the database alone and serves at most the bootstrap. -/
structure QuietPart (program : SqlProg α) (base : Store) (value : α) : Prop where
  returns : exec sqlServe program (opened base) = (.ok value, opened base)
  cuts : ∀ {seen last}, Cut sqlServe program (opened base) seen last →
    last.disk = base ∧ OnlyBootstrap seen

variable {program : SqlProg α}

/-- All requests of a quiet part are quiet. -/
theorem QuietPart.requests {value : α} (quiet : QuietPart program base value) :
    OnlyBootstrap (requests sqlServe program (opened base)) :=
  (quiet.cuts (Cut.whole program (opened base))).2

/-- One call that leaves the database alone is a quiet part. -/
theorem QuietPart.call {request : SqlReq} {answer : SqlReq.Ans request}
    (answers : sqlServe request (opened base) = (.ok answer, opened base))
    (silent : OnlyBootstrap [request]) : QuietPart (sql request) base answer where
  returns := by rw [exec_call, answers]
  cuts := by
    intro seen last cut
    rcases cut.of_call with ⟨rfl, rfl⟩ | ⟨rfl, rfl⟩
    · exact ⟨rfl, by simp [OnlyBootstrap, sinceCommit]⟩
    · rw [answers]
      exact ⟨rfl, silent⟩

/-- An interruption of a sequence behind a quiet part comes in that part or in what follows. -/
theorem QuietPart.cut_bind {value : α} {next : α → SqlProg β}
    (quiet : QuietPart program base value) (cut : Cut sqlServe (program.bind next) (opened base) seen last) :
    (last.disk = base ∧ OnlyBootstrap seen) ∨
      ∃ before later, seen = before ++ later ∧ OnlyBootstrap before ∧
        Cut sqlServe (next value) (opened base) later last := by
  rcases cut.of_bind with inFirst | ⟨result, reached, more, returned, rfl, inRest⟩
  · exact .inl (quiet.cuts inFirst)
  · obtain ⟨rfl, rfl⟩ : value = result ∧ opened base = reached := by
      simpa [quiet.returns] using returned
    exact .inr ⟨_, more, rfl, quiet.requests, inRest⟩

/-- QuietPart parts behind each other are a quiet part. -/
theorem QuietPart.bind {value : α} {next : α → SqlProg β} {result : β}
    (first : QuietPart program base value) (second : QuietPart (next value) base result) :
    QuietPart (program.bind next) base result where
  returns := (exec_bind_ok first.returns).trans second.returns
  cuts := by
    intro seen last cut
    rcases first.cut_bind cut with inFirst | ⟨before, later, rfl, silent, inRest⟩
    · exact inFirst
    · obtain ⟨same, calm⟩ := second.cuts inRest
      exact ⟨same, silent.append calm⟩

section Booted

variable (booted : store.execute schemaBootstrap = .ok base)
include booted

/-- Creating the table of the migrations again is quiet. -/
theorem quiet_bootstrap : QuietPart (sql (.ddl schemaBootstrap)) base () :=
  .call (sqlServe_ddl_ok (bootstrap_again booted)) (by simp [OnlyBootstrap, sinceCommit])

/-- The known versions are those of the recorded rows. -/
theorem quiet_appliedVersions : QuietPart appliedVersions base (base.recorded.map AppliedRow.version) :=
  (quiet_bootstrap booted).bind
    (.call (congrArg (·, opened base) (select_bootstrapped booted _))
      (by simp [OnlyBootstrap, sinceCommit]))

/-- The known names are those of the recorded rows. -/
theorem quiet_appliedNames : QuietPart appliedNames base (base.recorded.map AppliedRow.name) :=
  (quiet_bootstrap booted).bind
    (.call (congrArg (·, opened base) (select_bootstrapped booted _))
      (by simp [OnlyBootstrap, sinceCommit]))

/-- A run applies the pending migrations one after the other. -/
theorem exec_runBody : exec sqlServe (runBody list) (opened store) =
      exec sqlServe (applyEach (base.pending list) []) (opened base) := by
  have boot : exec sqlServe (sql (.ddl schemaBootstrap)) (opened store) =
      (.ok (), opened base) := by
    rw [exec_call, sqlServe_ddl_ok booted]
  refine (exec_bind_ok boot).trans ?_
  refine (exec_bind_ok (quiet_appliedVersions booted).returns).trans ?_
  refine (exec_bind_ok (quiet_appliedNames booted).returns).trans ?_
  rw [applyPending_eq]
  rfl

end Booted

/-- The calls of a run before its first pending migration. -/
def startupRequests : List SqlReq :=
  [.ddl schemaBootstrap, .ddl schemaBootstrap, .selectVersions, .ddl schemaBootstrap, .selectNames]

section Booted2

variable (booted : store.execute schemaBootstrap = .ok base)
include booted

/-- Behind its startup a run makes the calls of its pending migrations and no others. -/
theorem requests_runBody : requests sqlServe (runBody list) (opened store) =
      startupRequests ++ requests sqlServe (applyEach (base.pending list) []) (opened base) := by
  have boot : exec sqlServe (sql (.ddl schemaBootstrap)) (opened store) =
      (.ok (), opened base) := by
    rw [exec_call, sqlServe_ddl_ok booted]
  have again : exec sqlServe (sql (.ddl schemaBootstrap)) (opened base) =
      (.ok (), opened base) := (quiet_bootstrap booted).returns
  have versions : requests sqlServe appliedVersions (opened base) =
      [.ddl schemaBootstrap, .selectVersions] := by
    rw [appliedVersions, Prog.bind_eq, requests_bind_ok again, requests_call, requests_call]
    rfl
  have names : requests sqlServe appliedNames (opened base) =
      [.ddl schemaBootstrap, .selectNames] := by
    rw [appliedNames, Prog.bind_eq, requests_bind_ok again, requests_call, requests_call]
    rfl
  rw [runBody, Prog.bind_eq, requests_bind_ok boot, requests_call, Prog.bind_eq,
    requests_bind_ok (quiet_appliedVersions booted).returns, versions, Prog.bind_eq,
    requests_bind_ok (quiet_appliedNames booted).returns, names, applyPending_eq]
  rfl

section Whole

variable (whole : appliedAll (base.pending list) base = .ok after)
include whole

/-- An interrupted run has not begun, or stands between two statements of pending migrations. -/
theorem cut_runBody (cut : Cut sqlServe (runBody list) (opened store) seen last) :
    (last.disk = store ∧ OnlyBootstrap seen) ∨
      ∃ first, Between (base.pending list) base last.disk first ∧
        ∀ statement ≠ schemaBootstrap, (statement ∈ sinceCommit seen ↔ statement ∈ first) := by
  have boot : sqlServe (.ddl schemaBootstrap) (opened store) = (.ok (), opened base) :=
    sqlServe_ddl_ok booted
  -- Until the first pending migration nothing but the bootstrap is served.
  have early : ∀ {disk : Store} {served : List SqlReq}, disk = base → OnlyBootstrap served →
      ∃ first, Between (base.pending list) base disk first ∧
        ∀ statement ≠ schemaBootstrap, (statement ∈ sinceCommit served ↔ statement ∈ first) := by
    rintro disk served rfl silent
    refine ⟨[], .settled [] rfl rfl, ?_⟩
    intro statement other
    exact iff_of_false (fun member => other (silent statement member)) List.not_mem_nil
  have begun : OnlyBootstrap [SqlReq.ddl schemaBootstrap] := by
    simp [OnlyBootstrap, sinceCommit]
  rcases Cut.of_bind cut with inBoot | ⟨value, reached, more, returned, rfl, behind⟩
  · rcases inBoot.of_call with ⟨rfl, rfl⟩ | ⟨rfl, rfl⟩
    · exact .inl ⟨rfl, by simp [OnlyBootstrap, sinceCommit]⟩
    · exact .inr (early (by rw [boot]; rfl) begun)
  · right
    obtain ⟨rfl, rfl⟩ : () = value ∧ opened base = reached := by
      simpa [boot] using returned
    rw [requests_call]
    rcases (quiet_appliedVersions booted).cut_bind behind with
      ⟨same, silent⟩ | ⟨first, second, rfl, silent, inRest⟩
    · exact early same (begun.append silent)
    · rcases (quiet_appliedNames booted).cut_bind inRest with
        ⟨same, calm⟩ | ⟨third, fourth, rfl, calm, inLoop⟩
      · exact early same (begun.append (silent.append calm))
      · rw [applyPending_eq] at inLoop
        refine ⟨sinceCommit fourth, cut_applyEach whole inLoop, ?_⟩
        intro statement other
        rw [begun.mem_append other, silent.mem_append other, calm.mem_append other]

/-- A run whose pending migrations can all be applied returns their versions. -/
theorem exec_runMigrations_ok : exec sqlServe (runMigrations list) (opened store) =
      (.ok ((base.pending list).map Migration.version), opened after) := by
  have body : exec sqlServe (runBody list) (opened store) =
      (.ok ((base.pending list).map Migration.version), opened after) := by
    rw [exec_runBody booted, exec_applyEach_ok whole, List.nil_append]
  exact exec_inTransaction_ok body

/-- The outer transaction moves no cut but the last one. -/
theorem cut_runMigrations (cut : Cut sqlServe (runMigrations list) (opened store) seen last) :
    (last.disk = store ∧ OnlyBootstrap seen) ∨
      ∃ first, Between (base.pending list) base last.disk first ∧
        ∀ statement ≠ schemaBootstrap, (statement ∈ sinceCommit seen ↔ statement ∈ first) := by
  have body : exec sqlServe (runBody list) (opened store) =
      (.ok ((base.pending list).map Migration.version), opened after) := by
    rw [exec_runBody booted, exec_applyEach_ok whole, List.nil_append]
  rcases cut_inTransaction body cut with inBody | ⟨rfl, rfl⟩
  · exact cut_runBody booted whole inBody
  · -- Behind the outer commit everything is through.
    refine .inr ⟨[], .settled _ (List.append_nil _).symm whole, ?_⟩
    intro statement other
    rw [sinceCommit_concat_commit]

end Whole

end Booted2

end Runs

end Rasat
