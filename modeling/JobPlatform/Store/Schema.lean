import JobPlatform.Foundation.Table
import JobPlatform.Store.Uuid
import JobPlatform.Store.Json
import JobPlatform.Store.PyJson

/-!
Contract: the database schema of `001_initial_schema.sql` and the errors of the Python code.

Owns the row types with their unique constraints, the check constraints on status columns (as
enumerations), and `Database`, one table per row type.

Does not own the indexes, which no result depends on, and `schema_migrations`, which the runtime
never touches. `attempts` is a natural number: the 32-bit bound of the column is not modelled.
-/

namespace JobPlatform.Store

open JobPlatform.Foundation

/-- A `TIMESTAMPTZ`, in microseconds. -/
abbrev Time := Int

/-- `n * INTERVAL '1 second'`. -/
def interval (seconds : Int) : Time := seconds * 1000000

/-- The Python exceptions the code raises, catches or lets pass. `other` stands for any exception
the code does not tell apart, by its class name. -/
inductive Exn where
  | typeError
  | valueError
  | keyError
  | uniqueViolation
  | foreignKeyViolation
  | duplicateCustomerError
  | notFoundError
  | lostJobClaimError
  | other (name : String)
deriving DecidableEq

/-- `type(exc).__name__`. -/
def Exn.typeName : Exn → String
  | .typeError => "TypeError"
  | .valueError => "ValueError"
  | .keyError => "KeyError"
  | .uniqueViolation => "UniqueViolation"
  | .foreignKeyViolation => "ForeignKeyViolation"
  | .duplicateCustomerError => "DuplicateCustomerError"
  | .notFoundError => "NotFoundError"
  | .lostJobClaimError => "LostJobClaimError"
  | .other name => name

/-- `CHECK (status IN ('pending', 'processing', 'completed', 'failed'))`. -/
inductive JobStatus where
  | pending
  | processing
  | completed
  | failed
deriving DecidableEq

/-- `CHECK (status IN ('pending', 'publishing', 'published', 'failed'))`. -/
inductive OutboxStatus where
  | pending
  | publishing
  | published
  | failed
deriving DecidableEq

structure CustomerRow where
  id : Uuid
  name : String
  email : String
  createdAt : Time

structure JobRow where
  id : Uuid
  jobType : String
  status : JobStatus
  payload : PyJson
  attempts : Nat
  lastError : Option String
  processingToken : Option Uuid
  processingStartedAt : Option Time
  createdAt : Time
  updatedAt : Time

structure JobResultRow where
  id : Uuid
  jobId : Uuid
  result : Json
  createdAt : Time

structure AuditEventRow where
  id : Uuid
  entityType : String
  entityId : Uuid
  action : String
  details : Json
  createdAt : Time

structure ObjectMetadataRow where
  id : Uuid
  jobId : Uuid
  objectKey : String
  objectType : String
  ownerRef : String
  createdAt : Time

structure OutboxRow where
  id : Uuid
  eventType : String
  version : Int
  payload : Json
  status : OutboxStatus
  attempts : Nat
  lockedAt : Option Time
  claimToken : Option Uuid
  publishedAt : Option Time
  lastError : Option String
  createdAt : Time
  updatedAt : Time

instance : Keyed CustomerRow := Keyed.byPrimaryAnd CustomerRow.id CustomerRow.email

instance : Keyed JobRow := Keyed.byPrimary JobRow.id

instance : Keyed JobResultRow := Keyed.byPrimaryAnd JobResultRow.id JobResultRow.jobId

instance : Keyed AuditEventRow := Keyed.byPrimary AuditEventRow.id

instance : Keyed ObjectMetadataRow :=
  Keyed.byPrimaryAnd ObjectMetadataRow.id fun row => (row.jobId, row.objectKey)

instance : Keyed OutboxRow := Keyed.byPrimary OutboxRow.id

/-- The committed contents of the database. -/
structure Database where
  customers : Table CustomerRow
  jobs : Table JobRow
  jobResults : Table JobResultRow
  auditEvents : Table AuditEventRow
  objectMetadata : Table ObjectMetadataRow
  jobOutbox : Table OutboxRow

namespace Database

/-- The migrated schema without rows. -/
def empty : Database := ⟨.empty, .empty, .empty, .empty, .empty, .empty⟩

/-- The job with a given id. -/
def job? (db : Database) (jobId : Uuid) : Option JobRow := db.jobs.find? jobId

/-- The outbox event with a given id. -/
def event? (db : Database) (eventId : Uuid) : Option OutboxRow := db.jobOutbox.find? eventId

end Database

end JobPlatform.Store
