import Mathlib.Data.List.Sort
import Mathlib.Data.String.Basic
import JobPlatform.Foundation.Sessions

/-!
Contract: `run_migrations` and the processes that run it.

Owns:
- the database as the runner sees it: the schema, the table `schema_migrations`, and a log of the
  scripts whose effects the schema has;
- `Database.transaction` and `run_migrations`;
- the system of runner processes, each with the migration directory of its own release.

A script is a change of the schema that may fail. It has no transaction control and leaves
`schema_migrations` to the runner.

Does not own: what the scripts of a release do, and the settings check before the pool is opened.
-/

namespace JobPlatform.Migrations

open JobPlatform.Foundation

inductive MigrationError where
  | undefinedTable
  | undefinedColumn
  | uniqueViolation
  | failure
deriving DecidableEq, Repr

/-- The text of a migration: what the server does when it executes it. -/
abbrev Script (σ : Type) := σ → Except MigrationError σ

/-- A file of the migration directory. -/
structure MigrationFile (σ : Type) where
  name : String
  text : Script σ

/-- The database. `versions` is the column of `schema_migrations`, if the table exists. `executed`
is a ghost: the scripts whose effects the schema has, oldest first. -/
structure MigratedDb (σ : Type) where
  schema : σ
  versions : Option (List String)
  executed : List (MigrationFile σ)

/-- A statement of the runner that writes. -/
inductive Write (σ : Type) where
  | createVersions
  | run (file : MigrationFile σ)
  | record (version : String)

namespace MigratedDb

variable {σ : Type}

/-- The rows of `schema_migrations`. -/
def recorded (db : MigratedDb σ) : List String := db.versions.getD []

def apply : Write σ → MigratedDb σ → Except MigrationError (MigratedDb σ)
  | .createVersions, db => .ok { db with versions := some db.recorded }
  | .run file, db => (file.text db.schema).map fun schema =>
      { db with schema, executed := db.executed ++ [file] }
  | .record version, db =>
      match db.versions with
      | none => .error .undefinedTable
      | some versions =>
          if version ∈ versions then .error .uniqueViolation
          else .ok { db with versions := some (versions ++ [version]) }

/-- `SELECT version FROM schema_migrations`. -/
def selectVersions (db : MigratedDb σ) : Except MigrationError (List String) :=
  match db.versions with
  | none => .error .undefinedTable
  | some versions => .ok versions

/-- PostgreSQL as the runner uses it. -/
def postgres : Storage (MigratedDb σ) (Write σ) (List String) MigrationError where
  apply := apply
  query := selectVersions

end MigratedDb

/-! ### The program -/

section Program

variable (σ : Type)

/-- A call of the runner: a statement, the opening of the pool, or an access to its directory. -/
inductive MigrationCall where
  | openPool
  | sql (statement : SessionCall (Write σ))
  | glob
  | readText (path : MigrationFile σ)

variable {σ} in
@[reducible] def MigrationCall.Result : MigrationCall σ → Type
  | openPool => Unit
  | sql statement => statement.Result (List String)
  | glob => List (MigrationFile σ)
  | readText _ => Script σ

@[reducible] def migrationCalls : Calls where
  Call := MigrationCall σ
  Result := MigrationCall.Result
  Error := MigrationError

abbrev Migrating (α : Type) := Code (migrationCalls σ) α

variable {σ}

def execute (statement : SessionCall (Write σ)) :
    Migrating σ (statement.Result (List String)) :=
  Code.perform (S := migrationCalls σ) (.sql statement)

/-- `Database.transaction`. An error of the rollback is logged and ignored. -/
def transaction {α : Type} (body : Migrating σ α) : Migrating σ α := do
  execute .begin
  let value ← tryCatch body fun error => do
    tryCatch (execute .rollback) fun _ => pure ()
    throw error
  execute .commit
  return value

/-- `sorted(MIGRATION_DIR.glob("*.sql"))`. -/
def sorted (paths : List (MigrationFile σ)) : List (MigrationFile σ) :=
  paths.insertionSort fun left right => left.name ≤ right.name

/-- One round of the loop over the files. -/
def applyMigration (applied : List String) (migrationPath : MigrationFile σ) :
    Migrating σ Unit := do
  if migrationPath.name ∈ applied then
    return ()
  let text ← Code.perform (S := migrationCalls σ) (.readText migrationPath)
  execute (.write (.run ⟨migrationPath.name, text⟩))
  execute (.write (.record migrationPath.name))

def migrate : Migrating σ Unit := do
  execute .advisoryLock
  execute (.write .createVersions)
  let applied ← execute .read
  let paths ← Code.perform (S := migrationCalls σ) .glob
  Code.forEach (sorted paths) () fun _ migrationPath => applyMigration applied migrationPath

def runMigrations : Migrating σ Unit := do
  Code.perform (S := migrationCalls σ) .openPool
  Code.finally_ (transaction migrate) (execute .close)

end Program

/-! ### The processes -/

section Processes

variable (σ : Type)

/-- The database with its sessions, and the migration directory of each process. -/
structure Deployment where
  store : SessionStore (MigratedDb σ) (Write σ)
  directory : ThreadId → List (MigrationFile σ)

variable {σ}

namespace Deployment

/-- No process has started. -/
def initial (db : MigratedDb σ) : Deployment σ := ⟨⟨db, fun _ => none, none⟩, fun _ => []⟩

def committed (d : Deployment σ) : MigratedDb σ := d.store.committed

/-- What a call of process `t` may do and reply. Any call may raise, except the closing of the
pool. -/
inductive Perform (t : ThreadId) (d : Deployment σ) :
    (c : MigrationCall σ) → (migrationCalls σ).Reply c → Deployment σ → Prop where
  | sql {statement : SessionCall (Write σ)}
      {reply : Except MigrationError (statement.Result (List String))}
      {store : SessionStore (MigratedDb σ) (Write σ)}
      (performed : SessionStore.Performs MigratedDb.postgres t d.store statement reply store) :
      Perform t d (.sql statement) reply { d with store }
  | openedPool : Perform t d .openPool (.ok ()) d
  | notOpened (error : MigrationError) : Perform t d .openPool (.error error) d
  | listed {paths : List (MigrationFile σ)} (same : paths.Perm (d.directory t)) :
      Perform t d .glob (.ok paths) d
  | notListed (error : MigrationError) : Perform t d .glob (.error error) d
  | readText {path : MigrationFile σ} : Perform t d (.readText path) (.ok path.text) d
  | notRead {path : MigrationFile σ} (error : MigrationError) :
      Perform t d (.readText path) (.error error) d

/-- A process starts: a release with the files of its image, whose names differ. -/
inductive Start (t : ThreadId) (d : Deployment σ) :
    Program (migrationCalls σ) Unit → Deployment σ → Prop where
  | release (files : List (MigrationFile σ)) (names : (files.map MigrationFile.name).Nodup)
      (idle : d.store.sessions t = none) :
      Start t d runMigrations.task { d with directory := Function.update d.directory t files }

/-- The server ends a session, whether its process lives or not. -/
inductive Env (d : Deployment σ) : Deployment σ → Prop where
  | disconnect (t : ThreadId) : Env d { d with store := d.store.endSession t }

end Deployment

/-- Runners of any releases, in any interleaving, each of which may be killed at any call. -/
def migrations (σ : Type) : ThreadSystem (migrationCalls σ) (Deployment σ) where
  exec := fun t d c reply after => Deployment.Perform t d c reply after
  start := fun t d program after => Deployment.Start t d program after
  env := fun d after => Deployment.Env d after

end Processes

end JobPlatform.Migrations
