import RasatTrading.Storage.Schema

/-! What statements on the schema achieve, what lasts, and what a second execution does. -/

namespace Rasat

open Redo

/-- A second execution of the statement does nothing instead of failing. -/
def Ddl.repeatable : Ddl → Bool
  | .createTable _ => true
  | .createIndex ifNotExists _ => ifNotExists
  | .addColumn _ _ => false

/-- The object that a statement is for is there, and nothing stands in its way. -/
def Ddl.Made (schema : Schema) : Ddl → Prop
  | .createTable table => schema.HasTable table.name
  | .createIndex _ index =>
    schema.HasTable index.table ∧ ¬schema.HasTable index.name ∧ schema.HasIndex index.name
  | .addColumn table column => schema.HasTable table ∧ column.name ∈ schema.columnNames table

namespace Schema

variable {schema after : Schema} {statement : Ddl} {name : String}

/-- Alteration keeps the name of a table. -/
@[simp] theorem altered_name (column : Column) (table : TableDef) :
    (altered name column table).name = table.name := by
  unfold altered
  split <;> rfl

/-- Alteration keeps the columns of a table. -/
theorem altered_columns (column : Column) (table : TableDef) :
    table.columns.map Column.name ⊆ (altered name column table).columns.map Column.name := by
  unfold altered
  split
  · simp
  · simp

/-- Altering tables leaves the table names as they are. -/
@[simp] theorem hasTable_altered {column : Column} {other : String} :
    Schema.HasTable { schema with tables := schema.tables.map (altered name column) } other ↔
      schema.HasTable other := by
  simp [HasTable]

/-- The table that a lookup finds is found again, altered, after an alteration. -/
theorem find?_altered (column : Column) (other : String) (tables : List TableDef) :
    (tables.map (altered name column)).find? (fun table => decide (table.name = other)) =
      (tables.find? (fun table => decide (table.name = other))).map (altered name column) := by
  rw [List.find?_map]
  -- The lookup goes by the name, which alteration keeps.
  have same : (fun table => decide (table.name = other)) ∘ altered name column =
      fun table => decide (table.name = other) := by
    funext table
    simp
  rw [same]

/-- An existing table is found. -/
theorem find?_of_hasTable (found : schema.HasTable name) :
    ∃ table, schema.tables.find? (fun table => decide (table.name = name)) = some table ∧
      table.name = name := by
  cases lookup : schema.tables.find? (fun table => decide (table.name = name)) with
  | none =>
    obtain ⟨table, member, named⟩ := found
    simpa [named] using List.find?_eq_none.mp lookup table member
  | some table => exact ⟨table, rfl, by simpa using List.find?_some lookup⟩

/-- Columns of a table that gets one more column. -/
theorem columnNames_altered (column : Column) (found : schema.HasTable name) :
    Schema.columnNames { schema with tables := schema.tables.map (altered name column) } name =
      schema.columnNames name ++ [column.name] := by
  obtain ⟨table, lookup, named⟩ := find?_of_hasTable found
  simp only [columnNames, find?_altered, lookup, Option.map_some]
  simp [altered, named]

/-- A new index leaves the tables as they are. -/
theorem tables_createIndex {ifNotExists : Bool} {index : IndexDef}
    (executed : schema.execute (.createIndex ifNotExists index) = .ok after) :
    after.tables = schema.tables := by
  simp only [execute] at executed
  split_ifs at executed
  · rw [← Except.ok.inj executed]
  · split at executed
    · contradiction
    · rw [← Except.ok.inj executed]

section Executed

variable (executed : schema.execute statement = .ok after)
include executed

/-- An execution loses no table. -/
theorem hasTable_execute (found : schema.HasTable name) : after.HasTable name := by
  -- Tables are only appended or altered.
  obtain ⟨table, member, named⟩ := found
  cases statement with
  | createTable created =>
    simp only [execute] at executed
    split_ifs at executed
    · obtain rfl : schema = after := by simpa using executed
      exact ⟨table, member, named⟩
    · cases executed
      exact ⟨table, List.mem_append_left _ member, named⟩
  | createIndex ifNotExists index =>
    have same := tables_createIndex executed
    exact ⟨table, same ▸ member, named⟩
  | addColumn altered column =>
    simp only [execute] at executed
    split_ifs at executed
    cases executed
    exact hasTable_altered.mpr ⟨table, member, named⟩

/-- An execution loses no index. -/
theorem hasIndex_execute (found : schema.HasIndex name) : after.HasIndex name := by
  obtain ⟨index, member, named⟩ := found
  cases statement with
  | createTable created =>
    simp only [execute] at executed
    split_ifs at executed
    · obtain rfl : schema = after := by simpa using executed
      exact ⟨index, member, named⟩
    · cases executed
      exact ⟨index, member, named⟩
  | createIndex ifNotExists created =>
    simp only [execute] at executed
    split_ifs at executed
    · obtain rfl : schema = after := by simpa using executed
      exact ⟨index, member, named⟩
    · split at executed
      · contradiction
      · cases executed
        exact ⟨index, List.mem_append_left _ member, named⟩
  | addColumn altered column =>
    simp only [execute] at executed
    split_ifs at executed
    cases executed
    exact ⟨index, member, named⟩

/-- No execution makes a table under the name of an index. -/
theorem not_hasTable_execute
    (index : schema.HasIndex name) (free : ¬schema.HasTable name) : ¬after.HasTable name := by
  rintro ⟨table, member, named⟩
  cases statement with
  | createTable created =>
    simp only [execute] at executed
    split_ifs at executed with known taken
    · obtain rfl : schema = after := by simpa using executed
      exact free ⟨table, member, named⟩
    · -- A new table under this name would have been refused.
      cases executed
      rcases List.mem_append.mp member with old | new
      · exact free ⟨table, old, named⟩
      · obtain rfl := List.mem_singleton.mp new
        exact taken (named ▸ index)
  | createIndex ifNotExists created =>
    have same := tables_createIndex executed
    exact free ⟨table, same ▸ member, named⟩
  | addColumn altered column =>
    simp only [execute] at executed
    split_ifs at executed
    cases executed
    exact free (hasTable_altered.mp ⟨table, member, named⟩)

/-- An execution loses no column of an existing table. -/
theorem columnNames_execute
    (found : schema.HasTable name) : schema.columnNames name ⊆ after.columnNames name := by
  obtain ⟨table, lookup, -⟩ := find?_of_hasTable found
  have before : schema.columnNames name = table.columns.map Column.name := by
    simp [columnNames, lookup]
  rw [before]
  cases statement with
  | createTable created =>
    simp only [execute] at executed
    split_ifs at executed
    · obtain rfl : schema = after := by simpa using executed
      simp [columnNames, lookup]
    · -- The appended table stands behind the one that the lookup finds.
      cases executed
      simp [columnNames, List.find?_append, lookup]
  | createIndex ifNotExists created =>
    have same := tables_createIndex executed
    simp [columnNames, same, lookup]
  | addColumn target column =>
    simp only [execute] at executed
    split_ifs at executed
    cases executed
    simp only [columnNames, find?_altered, lookup, Option.map_some]
    exact altered_columns column table

/-- An execution achieves what its statement is for. -/
theorem execute_made : statement.Made after := by
  cases statement with
  | createTable created =>
    simp only [execute] at executed
    split_ifs at executed with known
    · obtain rfl : schema = after := by simpa using executed
      exact known
    · cases executed
      exact ⟨created, by simp, rfl⟩
  | createIndex ifNotExists created =>
    simp only [execute] at executed
    split_ifs at executed with table free known repeated
    · obtain rfl : schema = after := by simpa using executed
      exact ⟨table, free, known⟩
    · split at executed
      · contradiction
      · cases executed
        exact ⟨table, free, created, by simp, rfl⟩
  | addColumn target column =>
    simp only [execute] at executed
    split_ifs at executed with table known
    cases executed
    refine ⟨hasTable_altered.mpr table, ?_⟩
    rw [columnNames_altered column table]
    simp

end Executed

/-- What a statement has achieved lasts through every later execution. -/
theorem made_execute {other : Ddl} (made : statement.Made schema)
    (executed : schema.execute other = .ok after) : statement.Made after := by
  cases statement with
  | createTable created => exact hasTable_execute executed made
  | createIndex ifNotExists created =>
    obtain ⟨table, free, known⟩ := made
    exact ⟨hasTable_execute executed table, not_hasTable_execute executed known free,
      hasIndex_execute executed known⟩
  | addColumn target column =>
    obtain ⟨table, known⟩ := made
    exact ⟨hasTable_execute executed table, columnNames_execute executed table known⟩

/-- A second execution does nothing if the statement is repeatable and fails otherwise. -/
theorem execute_of_made (made : statement.Made schema) :
    (statement.repeatable = true → schema.execute statement = .ok schema) ∧
      (statement.repeatable = false → ∃ error, schema.execute statement = .error error) := by
  cases statement with
  | createTable created =>
    have known : schema.HasTable created.name := made
    simp [Ddl.repeatable, execute, known]
  | createIndex ifNotExists created =>
    obtain ⟨table, free, known⟩ := made
    cases ifNotExists with
    | false => simp [Ddl.repeatable, execute, table, free, known]
    | true => simp [Ddl.repeatable, execute, table, free, known]
  | addColumn target column =>
    obtain ⟨table, known⟩ := made
    simp [Ddl.repeatable, execute, table, known]

end Schema

namespace Store

variable {store after : Store} {statement : Ddl}

/-- An execution changes the schema alone. -/
theorem execute_eq_ok : store.execute statement = .ok after ↔
    store.schema.execute statement = .ok after.schema ∧ after.recorded = store.recorded := by
  simp only [execute]
  cases executed : store.schema.execute statement with
  | error error => simp [bind, Except.bind]
  | ok schema =>
    simp only [bind, Except.bind, pure, Except.pure, Except.ok.injEq]
    constructor
    · rintro rfl
      exact ⟨rfl, rfl⟩
    · rintro ⟨rfl, same⟩
      cases store
      cases after
      simp_all

/-- An execution fails with the error of its schema. -/
theorem execute_eq_error {error : SqlError} : store.execute statement = .error error ↔
    store.schema.execute statement = .error error := by
  simp only [execute]
  cases store.schema.execute statement with
  | error raised => simp [bind, Except.bind]
  | ok schema => simp [bind, Except.bind, pure, Except.pure]

/-- The statements on a store last. -/
theorem lasting : Lasting (fun statement store => Store.execute statement store) Ddl.repeatable
    fun statement store => statement.Made store.schema where
  made executed := Schema.execute_made (execute_eq_ok.mp executed).1
  lasts made executed := Schema.made_execute made (execute_eq_ok.mp executed).1
  again := by
    intro statement store repeatable made
    exact execute_eq_ok.mpr ⟨(Schema.execute_of_made made).1 repeatable, rfl⟩
  clash := by
    intro statement store once made
    obtain ⟨error, fails⟩ := (Schema.execute_of_made made).2 once
    exact ⟨error, execute_eq_error.mpr fails⟩

end Store

end Rasat
