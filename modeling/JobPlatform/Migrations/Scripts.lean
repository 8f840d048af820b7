import JobPlatform.Migrations.Runner
import JobPlatform.Store.Schema

/-!
Contract: `001_initial_schema.sql` and `002_processing_fencing.sql`.

Owns:
- the schema the scripts work on: which tables exist, which columns they have, the indexes, and the
  rows;
- the statements of the two scripts, and what PostgreSQL does for each.

A row has a field for every column of the last release; the field of a column its table does not
have means nothing, and is NULL once the column is added. Constraints, types and defaults of the
columns belong to the rows. The `schema_migrations` of `001_initial_schema.sql` is left out: the
runner has created it.
-/

namespace JobPlatform.Migrations

open JobPlatform.Store

inductive TableName where
  | customers
  | jobs
  | jobResults
  | auditEvents
  | objectMetadata
  | jobOutbox
deriving DecidableEq

/-- The columns of each table that exists, the indexes, and the rows. -/
structure PgSchema where
  columns : TableName → Option (List String)
  indexes : List String
  contents : Database

/-- A table was created: it has no rows. -/
def withoutRows (db : Database) : TableName → Database
  | .customers => { db with customers := .empty }
  | .jobs => { db with jobs := .empty }
  | .jobResults => { db with jobResults := .empty }
  | .auditEvents => { db with auditEvents := .empty }
  | .objectMetadata => { db with objectMetadata := .empty }
  | .jobOutbox => { db with jobOutbox := .empty }

/-- A nullable column was added: it is NULL in every row. -/
def withNull (db : Database) : TableName → String → Database
  | .jobs, "processing_token" => { db with
      jobs := db.jobs.update (fun _ => True) (fun row => { row with processingToken := none })
        fun _ => rfl }
  | .jobs, "processing_started_at" => { db with
      jobs := db.jobs.update (fun _ => True) (fun row => { row with processingStartedAt := none })
        fun _ => rfl }
  | .jobOutbox, "claim_token" => { db with
      jobOutbox := db.jobOutbox.update (fun _ => True) (fun row => { row with claimToken := none })
        fun _ => rfl }
  | _, _ => db

/-- `CREATE TABLE IF NOT EXISTS`, `ADD COLUMN IF NOT EXISTS` and `CREATE INDEX IF NOT EXISTS`. -/
inductive Ddl where
  | createTable (table : TableName) (columns : List String)
  | addColumn (table : TableName) (column : String)
  | createIndex (index : String) (table : TableName) (columns : List String)

/-- One statement. The columns of an index are looked up before its name is. -/
def Ddl.run : Ddl → Script PgSchema
  | createTable table columns, schema =>
      match schema.columns table with
      | some _ => .ok schema
      | none => .ok { schema with
          columns := Function.update schema.columns table (some columns)
          contents := withoutRows schema.contents table }
  | addColumn table column, schema =>
      match schema.columns table with
      | none => .error .undefinedTable
      | some existing =>
          if column ∈ existing then .ok schema
          else .ok { schema with
            columns := Function.update schema.columns table (some (existing ++ [column]))
            contents := withNull schema.contents table column }
  | createIndex index table columns, schema =>
      match schema.columns table with
      | none => .error .undefinedTable
      | some existing =>
          if ∀ column ∈ columns, column ∈ existing then
            .ok (if index ∈ schema.indexes then schema
              else { schema with indexes := schema.indexes ++ [index] })
          else .error .undefinedColumn

/-- A script: its statements, up to the first that fails. -/
def script (statements : List Ddl) : Script PgSchema := fun schema =>
  statements.foldlM (fun current statement => statement.run current) schema

/-- The tables of `001_initial_schema.sql`. -/
def initialTables : List Ddl := [
  .createTable .customers ["id", "name", "email", "created_at"],
  .createTable .jobs ["id", "job_type", "status", "payload", "attempts", "last_error",
    "processing_token", "processing_started_at", "created_at", "updated_at"],
  .createTable .jobResults ["id", "job_id", "result", "created_at"],
  .createTable .auditEvents ["id", "entity_type", "entity_id", "action", "details", "created_at"],
  .createTable .objectMetadata ["id", "job_id", "object_key", "object_type", "owner_ref",
    "created_at"],
  .createTable .jobOutbox ["id", "event_type", "version", "payload", "status", "attempts",
    "locked_at", "claim_token", "published_at", "last_error", "created_at", "updated_at"]]

/-- The indexes of `001_initial_schema.sql` before the lease indexes. -/
def initialIndexes : List Ddl := [
  .createIndex "idx_customers_created_at" .customers ["created_at"],
  .createIndex "idx_jobs_status_created_at" .jobs ["status", "created_at"],
  .createIndex "idx_audit_events_entity" .auditEvents ["entity_type", "entity_id"],
  .createIndex "idx_object_metadata_job_id" .objectMetadata ["job_id"],
  .createIndex "idx_object_metadata_key" .objectMetadata ["object_key"],
  .createIndex "idx_job_outbox_status_created_at" .jobOutbox ["status", "created_at"]]

/-- The index of `jobs` both scripts create. -/
def processingLeaseIndex : Ddl :=
  .createIndex "idx_jobs_processing_lease" .jobs ["status", "processing_started_at"]

/-- The index of `job_outbox` both scripts create. -/
def publishingLeaseIndex : Ddl :=
  .createIndex "idx_job_outbox_publishing_lease" .jobOutbox ["status", "locked_at"]

def initialSchema : MigrationFile PgSchema where
  name := "001_initial_schema.sql"
  text := script (initialTables ++ initialIndexes ++ [processingLeaseIndex, publishingLeaseIndex])

def processingFencing : MigrationFile PgSchema where
  name := "002_processing_fencing.sql"
  text := script [.addColumn .jobs "processing_token", .addColumn .jobs "processing_started_at",
    .addColumn .jobOutbox "claim_token", processingLeaseIndex, publishingLeaseIndex]

/-- `application/shared/migrations`. -/
def migrationDir : List (MigrationFile PgSchema) := [initialSchema, processingFencing]

end JobPlatform.Migrations
