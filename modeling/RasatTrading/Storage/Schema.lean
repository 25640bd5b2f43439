import Mathlib.Data.List.Nodup
import RasatTrading.Coop.Crash
import RasatTrading.Redo.Statements

/-! The schema of the database, the statements that change it, and a connection to it. -/

namespace Rasat

open Coop

/-- A column as a statement declares it. -/
structure Column where
  name : String
  definition : String
  deriving DecidableEq, Repr

/-- A table with its columns in order and its table constraints. -/
structure TableDef where
  name : String
  columns : List Column
  constraints : List String := []
  deriving DecidableEq, Repr

/-- A column of an index. -/
structure IndexedColumn where
  name : String
  descending : Bool := false
  deriving DecidableEq, Repr

/-- An index over columns of one table. -/
structure IndexDef where
  name : String
  table : String
  columns : List IndexedColumn
  deriving DecidableEq, Repr

/-- The statements of the migrations that change the schema. -/
inductive Ddl
  /-- `CREATE TABLE IF NOT EXISTS`. -/
  | createTable (table : TableDef)
  /-- `CREATE INDEX`, with or without `IF NOT EXISTS`. -/
  | createIndex (ifNotExists : Bool) (index : IndexDef)
  /-- `ALTER TABLE .. ADD COLUMN`. -/
  | addColumn (table : String) (column : Column)
  deriving DecidableEq, Repr

/-- The tables and indexes of a database, oldest first. -/
structure Schema where
  tables : List TableDef := []
  indexes : List IndexDef := []
  deriving DecidableEq, Repr

/-- The errors of the statements. -/
inductive SqlError
  | tableTaken (name : String)
  | indexTaken (name : String)
  | indexExists (name : String)
  | noSuchTable (name : String)
  | noSuchColumn (name : String)
  | duplicateColumn (name : String)
  | uniqueFailed (column : String)
  deriving DecidableEq, Repr

/-- The text of an error. -/
def SqlError.message : SqlError → String
  | .tableTaken name => "there is already a table named " ++ name
  | .indexTaken name => "there is already an index named " ++ name
  | .indexExists name => "index " ++ name ++ " already exists"
  | .noSuchTable name => "no such table: " ++ name
  | .noSuchColumn name => "no such column: " ++ name
  | .duplicateColumn name => "duplicate column name: " ++ name
  | .uniqueFailed column => "UNIQUE constraint failed: " ++ column

namespace Schema

/-- A table of the given name exists. -/
def HasTable (schema : Schema) (name : String) : Prop := ∃ table ∈ schema.tables, table.name = name

instance (schema : Schema) (name : String) : Decidable (schema.HasTable name) :=
  inferInstanceAs (Decidable (∃ table ∈ schema.tables, table.name = name))

/-- An index of the given name exists. -/
def HasIndex (schema : Schema) (name : String) : Prop := ∃ index ∈ schema.indexes, index.name = name

instance (schema : Schema) (name : String) : Decidable (schema.HasIndex name) :=
  inferInstanceAs (Decidable (∃ index ∈ schema.indexes, index.name = name))

/-- `PRAGMA table_info`: the column names of a table, none if there is no such table. -/
def columnNames (schema : Schema) (name : String) : List String :=
  match schema.tables.find? (fun table => decide (table.name = name)) with
  | some table => table.columns.map Column.name
  | none => []

/-- A table with one more column, if it is the altered one. -/
def altered (name : String) (column : Column) (table : TableDef) : TableDef :=
  if table.name = name then { table with columns := table.columns ++ [column] } else table

/-- Execute one statement. -/
def execute : Ddl → Schema → Except SqlError Schema
  | .createTable table, schema =>
    if schema.HasTable table.name then .ok schema
    else if schema.HasIndex table.name then .error (.indexTaken table.name)
    else .ok { schema with tables := schema.tables ++ [table] }
  | .createIndex ifNotExists index, schema =>
    if ¬schema.HasTable index.table then .error (.noSuchTable ("main." ++ index.table))
    else if schema.HasTable index.name then .error (.tableTaken index.name)
    else if schema.HasIndex index.name then
      if ifNotExists then .ok schema else .error (.indexExists index.name)
    else
      match index.columns.find? (fun column => column.name ∉ schema.columnNames index.table) with
      | some column => .error (.noSuchColumn column.name)
      | none => .ok { schema with indexes := schema.indexes ++ [index] }
  | .addColumn name column, schema =>
    if ¬schema.HasTable name then .error (.noSuchTable name)
    else if column.name ∈ schema.columnNames name then .error (.duplicateColumn column.name)
    else .ok { schema with tables := schema.tables.map (altered name column) }

end Schema

/-- A row of `schema_migrations`. -/
structure AppliedRow where
  version : Int
  name : String
  deriving DecidableEq, Repr

/-- The contents of the database file, as far as the migrations read and write them. -/
structure Store where
  schema : Schema
  recorded : List AppliedRow
  /-- `version` is the primary key of `schema_migrations`. -/
  unique : (recorded.map AppliedRow.version).Nodup
  deriving DecidableEq

namespace Store

/-- Execute a statement that changes the schema. -/
def execute (statement : Ddl) (store : Store) : Except SqlError Store := do
  let schema ← store.schema.execute statement
  return { store with schema := schema }

/-- `INSERT INTO schema_migrations`. -/
def insert (row : AppliedRow) (store : Store) : Except SqlError Store :=
  if ¬store.schema.HasTable "schema_migrations" then .error (.noSuchTable "schema_migrations")
  else if fresh : row.version ∉ store.recorded.map AppliedRow.version then
    .ok
      { store with
        recorded := store.recorded ++ [row]
        unique := by
          rw [List.map_append, List.map_singleton]
          exact List.nodup_append.mpr ⟨store.unique, List.nodup_singleton _, by
            rintro version known _ single rfl
            rw [List.mem_singleton.mp single] at known
            exact fresh known⟩ }
  else .error (.uniqueFailed "schema_migrations.version")

/-- Select from `schema_migrations`. -/
def select (column : AppliedRow → α) (store : Store) : Except SqlError (List α) :=
  if store.schema.HasTable "schema_migrations" then .ok (store.recorded.map column)
  else .error (.noSuchTable "schema_migrations")

end Store

/-- A connection: the file, and the changes of its open transaction if there is one. -/
structure SchemaConnection where
  disk : Store
  pending : Option Store := none
  deriving DecidableEq

namespace SchemaConnection

/-- What the connection itself sees. -/
def view (conn : SchemaConnection) : Store := conn.pending.getD conn.disk

end SchemaConnection

/-- The calls on the connection. -/
inductive SqlReq
  /-- `conn.execute` of a statement that changes the schema. -/
  | ddl (statement : Ddl)
  /-- `conn.execute` of the insertion into `schema_migrations`. -/
  | insert (row : AppliedRow)
  | selectVersions
  | selectNames
  | tableInfo (table : String)
  | commit
  | rollback
  deriving DecidableEq

abbrev SqlReq.Ans : SqlReq → Type
  | .selectVersions => List Int
  | .selectNames => List String
  | .tableInfo _ => List String
  | _ => Unit

/-- Answer one call: a schema change opens no transaction of its own, an insertion does. -/
def sqlServe : Server SqlReq SqlReq.Ans SqlError SchemaConnection
  | .ddl statement, conn =>
    match conn.view.execute statement with
    | .error error => (.error error, conn)
    | .ok changed =>
      -- Outside a transaction the change is on the disk at once.
      match conn.pending with
      | none => (.ok (), { conn with disk := changed })
      | some _ => (.ok (), { conn with pending := some changed })
  | .insert row, conn =>
    match conn.view.insert row with
    | .error error => (.error error, { conn with pending := some conn.view })
    | .ok changed => (.ok (), { conn with pending := some changed })
  | .selectVersions, conn => (conn.view.select AppliedRow.version, conn)
  | .selectNames, conn => (conn.view.select AppliedRow.name, conn)
  | .tableInfo table, conn => (.ok (conn.view.schema.columnNames table), conn)
  | .commit, conn => (.ok (), ⟨conn.view, none⟩)
  | .rollback, conn => (.ok (), ⟨conn.disk, none⟩)

/-- Code that works on a connection. -/
abbrev SqlProg (α : Type) := Prog SqlReq SqlReq.Ans SqlError α

/-- One call on the connection. -/
abbrev sql (request : SqlReq) : SqlProg request.Ans := Prog.call request

end Rasat
