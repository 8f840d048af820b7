import Mathlib.Data.List.Sort
import JobPlatform.Foundation.SqlLogic
import JobPlatform.Foundation.Transaction
import JobPlatform.Store.Schema

/-!
Contract: `application/shared/repository.py`.

Owns every method of `Repository` the API and the workers use, statement by statement, as a
transaction body over the database. What the code draws from outside is an argument: the values
of `uuid4()`, the transaction time `NOW()`, and the choices PostgreSQL is free to make
(`ClaimPlan`).

Does not own `check` and `list_customers`, which only read.
-/

namespace JobPlatform.Store

open JobPlatform.Foundation

/-- One SQL statement: its result and the new contents, or the error it raises. -/
abbrev Statement (α : Type) := Database → Except Exn (α × Database)

/-- The body of `with self.database.transaction() as connection:`. -/
abbrev Body (α : Type) := Txn Exn Database α

/-- A method call: its reply and the contents it leaves, under a plan of statement failures. -/
abbrev Method (α : Type) := Faults Exn → Database → Except Exn α × Database

/-! ### Inserts -/

/-- `INSERT INTO customers ... RETURNING`. -/
def insertCustomer (row : CustomerRow) : Statement CustomerRow := fun db =>
  match db.customers.insert? row with
  | some customers => .ok (row, { db with customers })
  | none => .error .uniqueViolation

/-- `INSERT INTO jobs ... RETURNING`. -/
def insertJob (row : JobRow) : Statement JobRow := fun db =>
  match db.jobs.insert? row with
  | some jobs => .ok (row, { db with jobs })
  | none => .error .uniqueViolation

/-- `INSERT INTO job_outbox`. -/
def insertOutbox (row : OutboxRow) : Statement Unit := fun db =>
  match db.jobOutbox.insert? row with
  | some jobOutbox => .ok ((), { db with jobOutbox })
  | none => .error .uniqueViolation

/-- `INSERT INTO audit_events`. -/
def insertAuditEvent (row : AuditEventRow) : Statement Unit := fun db =>
  match db.auditEvents.insert? row with
  | some auditEvents => .ok ((), { db with auditEvents })
  | none => .error .uniqueViolation

/-- `INSERT INTO job_results ... ON CONFLICT (job_id) DO UPDATE SET result = EXCLUDED.result`. -/
def upsertJobResult (row : JobResultRow) : Statement Unit := fun db =>
  if db.job? row.jobId = none then .error .foreignKeyViolation
  else if ∃ old ∈ db.jobResults.rows, old.jobId = row.jobId then
    .ok ((), { db with
      jobResults := db.jobResults.update (fun old => old.jobId = row.jobId)
        (fun old => { old with result := row.result }) fun _ => rfl })
  else
    match db.jobResults.insert? row with
    | some jobResults => .ok ((), { db with jobResults })
    | none => .error .uniqueViolation

/-- `INSERT INTO object_metadata ... ON CONFLICT (job_id, object_key) DO NOTHING`. -/
def insertObjectMetadata (row : ObjectMetadataRow) : Statement Unit := fun db =>
  if db.job? row.jobId = none then .error .foreignKeyViolation
  else if ∃ old ∈ db.objectMetadata.rows,
      old.jobId = row.jobId ∧ old.objectKey = row.objectKey then .ok ((), db)
  else
    match db.objectMetadata.insert? row with
    | some objectMetadata => .ok ((), { db with objectMetadata })
    | none => .error .uniqueViolation

/-! ### Updates -/

/-- `UPDATE jobs SET ... WHERE id = jobId AND clause RETURNING`: the rows after the update. -/
def updateJob (jobId : Uuid) (clause : JobRow → Truth) (set : JobRow → JobRow)
    (fixed : ∀ row, (set row).id = row.id) : Statement (List JobRow) := fun db =>
  .ok ((db.jobs.matching fun row => Keyed.key row = jobId ∧ (clause row).Holds).map set,
    { db with
      jobs := db.jobs.update (fun row => Keyed.key row = jobId ∧ (clause row).Holds) set fixed })

/-- `UPDATE job_outbox SET ... WHERE id = eventId AND clause`: the rows after the update. -/
def updateEvent (eventId : Uuid) (clause : OutboxRow → Truth) (set : OutboxRow → OutboxRow)
    (fixed : ∀ row, (set row).id = row.id) : Statement (List OutboxRow) := fun db =>
  .ok ((db.jobOutbox.matching fun row => Keyed.key row = eventId ∧ (clause row).Holds).map set,
    { db with
      jobOutbox :=
        db.jobOutbox.update (fun row => Keyed.key row = eventId ∧ (clause row).Holds) set fixed })

namespace Repository

/-! ### Customers and jobs -/

/-- `Repository.create_customer`. The unique violation is renamed outside the transaction. -/
def createCustomer (name email : String) (customerId auditId : Uuid) (now : Time) :
    Method CustomerRow := fun faults db =>
  let body : Body CustomerRow := do
    let customer ← Txn.execute (insertCustomer ⟨customerId, name, email, now⟩)
    Txn.execute (insertAuditEvent
      ⟨auditId, "customer", customerId, "created", .obj [("email", .str email)], now⟩)
    return customer
  match body.commit faults db with
  | (.error .uniqueViolation, after) => (.error .duplicateCustomerError, after)
  | outcome => outcome

/-- The payload of the outbox event of a new job. -/
def outboxPayload (jobId : Uuid) (correlationId : Option String) : Json :=
  let base := [("version", .int 1), ("event_type", .str "job.created"), ("job_id", .str jobId.str)]
  match correlationId with
  | some text => if text ≠ "" then .obj (base ++ [("correlation_id", .str text)]) else .obj base
  | none => .obj base

/-- The row `create_job` inserts into `jobs`. -/
def newJob (jobType : String) (payload : PyJson) (jobId : Uuid) (now : Time) : JobRow :=
  ⟨jobId, jobType, .pending, payload, 0, none, none, none, now, now⟩

/-- The row `create_job` inserts into `job_outbox`. -/
def newEvent (jobId : Uuid) (correlationId : Option String) (eventId : Uuid) (now : Time) :
    OutboxRow :=
  ⟨eventId, "job.created", 1, outboxPayload jobId correlationId, .pending, 0, none, none, none,
    none, now, now⟩

/-- `Repository.create_job`. -/
def createJob (jobType : String) (payload : PyJson) (correlationId : Option String)
    (jobId eventId auditId : Uuid) (now : Time) : Body JobRow := do
  let job ← Txn.execute (insertJob (newJob jobType payload jobId now))
  Txn.execute (insertOutbox (newEvent jobId correlationId eventId now))
  Txn.execute (insertAuditEvent
    ⟨auditId, "job", jobId, "created", .obj [("job_type", .str jobType)], now⟩)
  return job

/-- One row of the `SELECT` in `get_job`. -/
structure JobView where
  job : JobRow
  result : Option Json
  objectKey : Option String
  objectType : Option String

/-- `LEFT JOIN`: the matches, or one row of nulls. -/
def leftJoin {α : Type} (found : List α) : List (Option α) :=
  if found.isEmpty then [none] else found.map some

/-- The rows of `jobs LEFT JOIN job_results LEFT JOIN object_metadata WHERE j.id = jobId`. -/
def jobViews (db : Database) (jobId : Uuid) : List JobView :=
  (db.jobs.rows.filter fun job => job.id = jobId).flatMap fun job =>
    (leftJoin (db.jobResults.rows.filter fun row => row.jobId = job.id)).flatMap fun result =>
      (leftJoin (db.objectMetadata.rows.filter fun row => row.jobId = job.id)).map fun object =>
        ⟨job, result.map JobResultRow.result, object.map ObjectMetadataRow.objectKey,
          object.map ObjectMetadataRow.objectType⟩

/-- `Repository.get_job`. -/
def getJob (jobId : Uuid) : Body JobView := do
  let rows ← Txn.execute fun db => .ok (jobViews db jobId, db)
  match rows.head? with
  | some row => return row
  | none => Txn.raise .notFoundError

/-! ### The job claim -/

/-- The `WHERE` clause of `mark_job_processing` after `id = %s AND`. -/
def jobClaimable (leaseSeconds : Int) (now : Time) (job : JobRow) : Truth :=
  (Truth.isIn job.status [.pending, .failed]).or
    ((Truth.eq (some job.status) (some .processing)).and
      (Truth.lt job.processingStartedAt (some (now - interval leaseSeconds))))

/-- The fence of every later job update: `status = 'processing' AND processing_token = %s`. -/
def jobFence (processingToken : Uuid) (job : JobRow) : Truth :=
  (Truth.eq (some job.status) (some .processing)).and
    (Truth.eq job.processingToken (some processingToken))

/-- `SET` of `mark_job_processing`. -/
def claimJobRow (processingToken : Uuid) (now : Time) (job : JobRow) : JobRow :=
  { job with
    status := .processing
    attempts := job.attempts + 1
    processingToken := some processingToken
    processingStartedAt := some now
    updatedAt := now }

@[simp] theorem claimJobRow_id (processingToken : Uuid) (now : Time) (job : JobRow) :
    (claimJobRow processingToken now job).id = job.id := rfl

/-- `SET` of `renew_job_processing_lease`. -/
def renewJobRow (now : Time) (job : JobRow) : JobRow :=
  { job with processingStartedAt := some now, updatedAt := now }

@[simp] theorem renewJobRow_id (now : Time) (job : JobRow) : (renewJobRow now job).id = job.id := rfl

/-- `SET` of the fenced update in `complete_job_with_report`. -/
def completeJobRow (now : Time) (job : JobRow) : JobRow :=
  { job with
    status := .completed
    lastError := none
    processingToken := none
    processingStartedAt := none
    updatedAt := now }

@[simp] theorem completeJobRow_id (now : Time) (job : JobRow) :
    (completeJobRow now job).id = job.id := rfl

/-- `error[:1000]`. -/
def truncate (error : String) : String := String.ofList (error.toList.take 1000)

/-- `SET` of `fail_job`. -/
def failJobRow (error : String) (now : Time) (job : JobRow) : JobRow :=
  { job with
    status := .failed
    lastError := some (truncate error)
    processingToken := none
    processingStartedAt := none
    updatedAt := now }

@[simp] theorem failJobRow_id (error : String) (now : Time) (job : JobRow) :
    (failJobRow error now job).id = job.id := rfl

/-- The `RETURNING` columns of `mark_job_processing`. The token is the one `SET` just assigned. -/
structure ClaimedJob where
  id : Uuid
  jobType : String
  status : JobStatus
  payload : PyJson
  attempts : Nat
  processingToken : Uuid
  processingStartedAt : Option Time

/-- The `RETURNING` columns of a row claimed under a token. -/
def ClaimedJob.ofRow (processingToken : Uuid) (job : JobRow) : ClaimedJob :=
  ⟨job.id, job.jobType, job.status, job.payload, job.attempts, processingToken,
    job.processingStartedAt⟩

/-- `Repository.mark_job_processing`. -/
def markJobProcessing (jobId : Uuid) (leaseSeconds : Int) (processingToken : Uuid) (now : Time) :
    Body (Option ClaimedJob) := do
  let rows ← Txn.execute (updateJob jobId (jobClaimable leaseSeconds now)
    (claimJobRow processingToken now) (claimJobRow_id processingToken now))
  return rows.head?.map (ClaimedJob.ofRow processingToken)

/-- `Repository.renew_job_processing_lease`. -/
def renewJobProcessingLease (jobId processingToken : Uuid) (now : Time) : Body Bool := do
  let rows ← Txn.execute (updateJob jobId (jobFence processingToken) (renewJobRow now)
    (renewJobRow_id now))
  return rows.length = 1

/-- `Repository.complete_job_with_report`. -/
def completeJobWithReport (jobId processingToken : Uuid) (result : Json)
    (objectKey objectType : String) (resultId metadataId auditId : Uuid) (now : Time) :
    Body Unit := do
  let fenced ← Txn.execute (updateJob jobId (jobFence processingToken) (completeJobRow now)
    (completeJobRow_id now))
  if fenced.isEmpty then
    Txn.raise .lostJobClaimError
  else
    Txn.execute (upsertJobResult ⟨resultId, jobId, result, now⟩)
    Txn.execute (insertObjectMetadata ⟨metadataId, jobId, objectKey, objectType, "job", now⟩)
    Txn.execute (insertAuditEvent ⟨auditId, "job", jobId, "completed", result, now⟩)

/-- `Repository.fail_job`. -/
def failJob (jobId processingToken : Uuid) (error : String) (now : Time) : Body Bool := do
  let rows ← Txn.execute (updateJob jobId (jobFence processingToken) (failJobRow error now)
    (failJobRow_id error now))
  return rows.length = 1

/-! ### The outbox claim -/

/-- The `WHERE` clause of `claim_outbox_events`. -/
def eventClaimable (leaseSeconds : Int) (now : Time) (event : OutboxRow) : Truth :=
  (Truth.isIn event.status [.pending, .failed]).or
    ((Truth.eq (some event.status) (some .publishing)).and
      (Truth.lt event.lockedAt (some (now - interval leaseSeconds))))

/-- The fence of both marks: `status = 'publishing' AND claim_token = %s`. -/
def eventFence (claimToken : Uuid) (event : OutboxRow) : Truth :=
  (Truth.eq (some event.status) (some .publishing)).and
    (Truth.eq event.claimToken (some claimToken))

/-- `SET` of `claim_outbox_events`. -/
def claimEventRow (claimToken : Uuid) (now : Time) (event : OutboxRow) : OutboxRow :=
  { event with
    status := .publishing
    attempts := event.attempts + 1
    lockedAt := some now
    claimToken := some claimToken
    updatedAt := now }

@[simp] theorem claimEventRow_id (claimToken : Uuid) (now : Time) (event : OutboxRow) :
    (claimEventRow claimToken now event).id = event.id := rfl

/-- `SET` of `mark_outbox_published`. -/
def publishEventRow (now : Time) (event : OutboxRow) : OutboxRow :=
  { event with
    status := .published
    publishedAt := some now
    updatedAt := now
    lastError := none
    lockedAt := none
    claimToken := none }

@[simp] theorem publishEventRow_id (now : Time) (event : OutboxRow) :
    (publishEventRow now event).id = event.id := rfl

/-- `SET` of `mark_outbox_failed`. -/
def failEventRow (error : String) (now : Time) (event : OutboxRow) : OutboxRow :=
  { event with
    status := .failed
    lastError := some (truncate error)
    lockedAt := none
    claimToken := none
    updatedAt := now }

@[simp] theorem failEventRow_id (error : String) (now : Time) (event : OutboxRow) :
    (failEventRow error now event).id = event.id := rfl

/-- What PostgreSQL is free to choose in `claim_outbox_events`: the order of rows created at the
same time, the rows skipped because another transaction holds their lock, and the order in which
`UPDATE ... RETURNING` gives the batch back. -/
structure ClaimPlan where
  tie : Uuid → Nat
  locked : Uuid → Bool
  returning : Uuid → Nat

/-- `ORDER BY created_at`, with the tie-break of the plan. -/
def ClaimPlan.Before (plan : ClaimPlan) (left right : OutboxRow) : Prop :=
  left.createdAt < right.createdAt ∨
    left.createdAt = right.createdAt ∧ plan.tie left.id ≤ plan.tie right.id

instance (plan : ClaimPlan) : DecidableRel plan.Before := fun _ _ =>
  inferInstanceAs (Decidable (_ ∨ _))

/-- The `claimed` table expression: `SELECT ... ORDER BY ... LIMIT ... FOR UPDATE SKIP LOCKED`. -/
def claimedIds (plan : ClaimPlan) (limit : Nat) (leaseSeconds : Int) (now : Time)
    (db : Database) : List Uuid :=
  ((((db.jobOutbox.matching fun event => (eventClaimable leaseSeconds now event).Holds).insertionSort
    plan.Before).filter fun event => !plan.locked event.id).take limit).map OutboxRow.id

/-- The `RETURNING` columns of `claim_outbox_events`. -/
structure ClaimedEvent where
  id : Uuid
  eventType : String
  version : Int
  payload : Json
  attempts : Nat
  claimToken : Uuid

/-- The `RETURNING` columns of a row claimed under a token. -/
def ClaimedEvent.ofRow (claimToken : Uuid) (event : OutboxRow) : ClaimedEvent :=
  ⟨event.id, event.eventType, event.version, event.payload, event.attempts, claimToken⟩

/-- `UPDATE job_outbox o SET ... FROM claimed WHERE o.id = claimed.id RETURNING`. -/
def updateClaimed (plan : ClaimPlan) (claimed : List Uuid) (claimToken : Uuid) (now : Time) :
    Statement (List OutboxRow) := fun db =>
  .ok (((db.jobOutbox.matching fun event => event.id ∈ claimed).map
      (claimEventRow claimToken now)).insertionSort
        fun left right => plan.returning left.id ≤ plan.returning right.id,
    { db with
      jobOutbox := db.jobOutbox.update (fun event => event.id ∈ claimed)
        (claimEventRow claimToken now) (claimEventRow_id claimToken now) })

/-- `Repository.claim_outbox_events`. PostgreSQL refuses a negative `LIMIT`. -/
def claimOutboxEvents (limit leaseSeconds : Int) (plan : ClaimPlan) (claimToken : Uuid)
    (now : Time) : Body (List ClaimedEvent) := do
  let rows ← Txn.execute fun db =>
    if limit < 0 then .error (.other "InvalidRowCountInLimitClause")
    else updateClaimed plan (claimedIds plan limit.toNat leaseSeconds now db) claimToken now db
  return rows.map (ClaimedEvent.ofRow claimToken)

/-- `Repository.mark_outbox_published`. -/
def markOutboxPublished (eventId claimToken : Uuid) (now : Time) : Body Bool := do
  let rows ← Txn.execute (updateEvent eventId (eventFence claimToken) (publishEventRow now)
    (publishEventRow_id now))
  return rows.length = 1

/-- `Repository.mark_outbox_failed`. -/
def markOutboxFailed (eventId claimToken : Uuid) (error : String) (now : Time) : Body Bool := do
  let rows ← Txn.execute (updateEvent eventId (eventFence claimToken) (failEventRow error now)
    (failEventRow_id error now))
  return rows.length = 1

end Repository

end JobPlatform.Store
