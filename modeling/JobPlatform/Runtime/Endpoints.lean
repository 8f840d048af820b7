import JobPlatform.Runtime.Service
import JobPlatform.Store.Undisturbed

/-!
Contract: the job endpoints of `application/api/main.py` over a database that may be unavailable.

Owns:
- `JobCreate` and `Job` of `schemas.py`, the two endpoints and their status codes;
- `Carrier`, the values the database stores and the depth to which an answer is encoded, and
  `Conduct`, what becomes of the transaction of a request;
- `Honest`, what an accepted request is promised, and the condition under which it is kept.

A header holds no null character, so neither does a correlation id. What is stored is returned as it
is. An answer with 422 is its status here: it repeats what was rejected.
-/

namespace JobPlatform.Runtime

open JobPlatform.Foundation JobPlatform.Store
open JobPlatform.Store.Repository (JobView newJob)

/-! ### The schemas -/

/-- An accepted body of `POST /jobs`. -/
structure JobCreate where
  jobType : String
  payload : List (PyStr × PyJson)
  bounded : 1 ≤ jobType.length ∧ jobType.length ≤ 100

/-- The validation of a body against `JobCreate`; `none` is answered with 422. The constraints on its
length make pydantic read the type as a text. -/
def JobCreate.validate : PyJson → Option JobCreate
  | .obj fields =>
      match (PyJson.field? "job_type" fields).getD (.str (.ofString "csv_report")),
          (PyJson.field? "payload" fields).getD (.obj []) with
      | .str jobType, .obj payload =>
          match jobType.text? with
          | some jobType =>
              if bounded : 1 ≤ jobType.length ∧ jobType.length ≤ 100 then
                some ⟨jobType, payload, bounded⟩
              else none
          | none => none
      | _, _ => none
  | _ => none

/-- The body of an answer that shows a job. -/
structure JobBody where
  id : Uuid
  jobType : String
  status : JobStatus
  payload : PyJson
  attempts : Nat
  lastError : Option String
  createdAt : Time
  updatedAt : Time
  result : Option Json
  objectKey : Option String
  objectType : Option String

/-- The row `create_job` returns, as `Job`. -/
def JobBody.ofRow (job : JobRow) : JobBody :=
  ⟨job.id, job.jobType, job.status, job.payload, job.attempts, job.lastError, job.createdAt,
    job.updatedAt, none, none, none⟩

/-- The row `get_job` returns, as `Job`. -/
def JobBody.ofView (view : JobView) : JobBody :=
  { JobBody.ofRow view.job with
    result := view.result
    objectKey := view.objectKey
    objectType := view.objectType }

/-- An answer: a job, or an error with its detail. -/
inductive Answer where
  | job (status : Nat) (body : JobBody)
  | error (status : Nat) (detail : String)

def Answer.status : Answer → Nat
  | .job status _ => status
  | .error status _ => status

/-- An answer on its way out. A body that cannot be encoded, because a payload is too deep or holds
half of a surrogate pair, raises after the endpoint has returned. -/
def Answer.encoded (maxDepth : Nat) : Answer → Answer
  | .job status body =>
      match body.payload.rendered with
      | some payload =>
          if body.payload.depth ≤ maxDepth then .job status { body with payload }
          else .error 500 "Internal Server Error"
      | none => .error 500 "Internal Server Error"
  | .error status detail => .error status detail

section Encoded

variable {maxDepth status shownStatus : Nat} {body shown : JobBody}

/-- A body whose payload is plain, and not too deep, is shown as it is. -/
theorem Answer.encoded_of_plain (plain : body.payload.plain) (flat : body.payload.depth ≤ maxDepth) :
    (Answer.job status body).encoded maxDepth = .job status body := by
  have shown := (PyJson.rendered_eq_self body.payload).mpr plain
  simp only [Answer.encoded, shown, if_pos flat]

/-- What is shown was encoded. -/
theorem Answer.rendered_of_encoded
    (shows : (Answer.job status body).encoded maxDepth = .job shownStatus shown) :
    body.payload.rendered = some shown.payload ∧ body.payload.depth ≤ maxDepth ∧
      body.id = shown.id := by
  unfold Answer.encoded at shows
  cases isRendered : body.payload.rendered with
  | none => simp [isRendered] at shows
  | some payload =>
      by_cases flat : body.payload.depth ≤ maxDepth
      · simp only [isRendered, if_pos flat, Answer.job.injEq] at shows
        obtain ⟨_, rfl⟩ := shows
        exact ⟨rfl, flat, rfl⟩
      · simp [isRendered, flat] at shows

end Encoded

/-! ### The endpoints -/

/-- The value of a request header. -/
structure HeaderValue where
  text : String
  printable : '\x00' ∉ text.toList

/-- `POST /jobs` for an accepted body. -/
def createJobEndpoint (publisher : JobPublisher) (request : JobCreate)
    (correlationId : Option HeaderValue) : Run Answer :=
  tryCatch
    (do
      let job ← ApplicationService.createJob publisher request.jobType (.obj request.payload)
        (correlationId.map HeaderValue.text)
      return .job 202 (.ofRow job))
    fun _ => return .error 503 "database unavailable"

/-- `POST /jobs`. -/
def postJobs (publisher : JobPublisher) (body : PyJson) (correlationId : Option HeaderValue) :
    Run Answer :=
  match JobCreate.validate body with
  | some request => createJobEndpoint publisher request correlationId
  | none => return .error 422 "validation error"

/-- `GET /jobs/{job_id}`. -/
def getJobEndpoint (jobId : Uuid) : Run Answer :=
  tryCatch
    (do
      let view ← repository (.getJob jobId)
      return .job 200 (.ofView view))
    fun error =>
      match error with
      | .notFoundError => return .error 404 "job not found"
      | error => throw error

/-! ### The database -/

/-- What becomes of the transaction of a request: it finds the database available, it fails for
lack of availability at a statement or at the commit, or it commits and its answer is lost. -/
inductive Conduct where
  | available
  | fails (statement : Fin 4)
  | unanswered
deriving DecidableEq

/-- The error of a database that is not available. -/
def operationalError : Exn := .other "OperationalError"

/-- The error of a value PostgreSQL does not store. -/
def dataError : Exn := .other "DataError"

/-- PostgreSQL stores the text. -/
def storableText (text : String) : Bool := '\x00' ∉ text.toList

/-- What carries a value: how deep the encoder of answers goes, and which values the database stores.
It stores none that holds a null character, and every other that is plain and not deeper. One that
is not plain, such as half of a surrogate pair, or deeper it may store or refuse. -/
structure Carrier where
  maxDepth : Nat
  stores : PyJson → Bool
  nullFree_of_stores : ∀ value, stores value = true → value.nullFree
  stores_of_plain : ∀ value : PyJson, value.nullFree → value.plain → value.depth ≤ maxDepth →
    stores value = true

/-- Only a null character is refused. -/
def Carrier.lenient (maxDepth : Nat) : Carrier :=
  ⟨maxDepth, PyJson.nullFree, fun _ free => free, fun _ free _ _ => free⟩

/-- What is no JSON is refused as well. -/
def Carrier.strict (maxDepth : Nat) : Carrier :=
  ⟨maxDepth, fun value => value.nullFree && value.plain, by simp +contextual, by simp +contextual⟩

/-- The first statement of the call holds a value PostgreSQL does not store. -/
def refusesValues (carrier : Carrier) : RepoCall → Bool
  | .createJob jobType payload _ => !(storableText jobType && carrier.stores payload)
  | _ => false

namespace Conduct

/-- The statement that fails for lack of availability. -/
def outage : Conduct → Faults Exn
  | .fails statement => List.replicate statement none ++ [some operationalError]
  | _ => []

/-- The statements that fail. A value that is not stored fails the first, if that is reached. -/
def faults (carrier : Carrier) (conduct : Conduct) (call : RepoCall) : Faults Exn :=
  if refusesValues carrier call then
    if conduct = .fails 0 then [some operationalError] else [some dataError]
  else conduct.outage

/-- What the caller of a transaction gets back. -/
def heard {α : Type} : Conduct → Except Exn α → Except Exn α
  | .unanswered, .ok _ => .error operationalError
  | _, reply => reply

/-- A call of the API. It makes no others. -/
def handle (carrier : Carrier) (conduct : Conduct) (inputs : Inputs) :
    (call : PlatformCall) → Database → platform.Reply call × Database
  | .repository call, db =>
      let (reply, after) := call.run inputs (conduct.faults carrier call) db
      (conduct.heard reply, after)
  | .appendPublished .., db => (.ok (), db)
  | _, db => (.error (.other "NotImplementedError"), db)

end Conduct

/-! ### One transaction -/

/-- The drawn values are no ids of the tables `create_job` writes. -/
structure Unused (inputs : Inputs) (db : Database) : Prop where
  jobs : ∀ job ∈ db.jobs.rows, job.id ≠ inputs.uuid 0
  events : ∀ event ∈ db.jobOutbox.rows, event.id ≠ inputs.uuid 1
  audits : ∀ audit ∈ db.auditEvents.rows, audit.id ≠ inputs.uuid 2

section CreateJob

variable {inputs : Inputs} {db : Database} (jobType : String) (payload : PyJson)
  (correlationId : Option String)

/-- The three statements of `create_job` on unused ids. -/
theorem createJob_statements (unused : Unused inputs db) : ∃ first second third,
    insertJob (newJob jobType payload (inputs.uuid 0) inputs.now) db =
      .ok (newJob jobType payload (inputs.uuid 0) inputs.now, first) ∧
    insertOutbox (Repository.newEvent (inputs.uuid 0) correlationId (inputs.uuid 1) inputs.now)
      first = .ok ((), second) ∧
    insertAuditEvent ⟨inputs.uuid 2, "job", inputs.uuid 0, "created",
      .obj [("job_type", .str jobType)], inputs.now⟩ second = .ok ((), third) := by
  have freeJob : ∀ old ∈ db.jobs.rows,
      ¬ Keyed.Conflict old (newJob jobType payload (inputs.uuid 0) inputs.now) := unused.jobs
  have freeEvent : ∀ old ∈ db.jobOutbox.rows, ¬ Keyed.Conflict old
      (Repository.newEvent (inputs.uuid 0) correlationId (inputs.uuid 1) inputs.now) := unused.events
  obtain ⟨jobs, inserted, _⟩ := Table.insert?_of_free freeJob
  obtain ⟨jobOutbox, queued, _⟩ := Table.insert?_of_free freeEvent
  obtain ⟨auditEvents, audited, _⟩ := insertAuditEvent_returns { db with jobs, jobOutbox }
    ⟨inputs.uuid 2, "job", inputs.uuid 0, "created", .obj [("job_type", .str jobType)],
      inputs.now⟩ unused.audits
  refine ⟨{ db with jobs }, { db with jobs, jobOutbox }, _, ?_, ?_, audited⟩
  · unfold insertJob
    rw [inserted]
  · unfold insertOutbox
    rw [queued]

/-- With the database available the job is created. -/
theorem createJob_returns (unused : Unused inputs db) : ∃ after,
    (RepoCall.createJob jobType payload correlationId).run inputs [] db =
      (.ok (newJob jobType payload (inputs.uuid 0) inputs.now), after) := by
  obtain ⟨first, second, third, inserted, queued, audited⟩ :=
    createJob_statements jobType payload correlationId unused
  refine ⟨third, ?_⟩
  dsimp only [RepoCall.run, Repository.createJob]
  exact commit_of_execute inserted (commit_of_execute queued (commit_of_execute audited rfl))

/-- An outage at any statement, or at the commit, is what the caller gets to see. -/
theorem createJob_outage (unused : Unused inputs db) (statement : Fin 4) :
    (RepoCall.createJob jobType payload correlationId).run inputs (Conduct.fails statement).outage
      db = (.error operationalError, db) := by
  obtain ⟨first, second, third, inserted, queued, audited⟩ :=
    createJob_statements jobType payload correlationId unused
  dsimp only [RepoCall.run, Repository.createJob, Txn.commit, Conduct.outage]
  match statement with
  | 0 => rfl
  | 1 =>
      simp only [bind, StateT.bind, Txn.execute, List.replicate, List.cons_append,
        inserted, Except.map, Except.bind]
      rfl
  | 2 =>
      simp only [bind, StateT.bind, Txn.execute, List.replicate, List.cons_append,
        inserted, queued, Except.map, Except.bind]
      rfl
  | 3 =>
      simp only [bind, StateT.bind, Txn.execute, List.replicate, List.cons_append,
        inserted, queued, audited, Except.map, Except.bind]
      rfl

end CreateJob

/-! ### The job afterwards -/

/-- The job is in the database with this type and payload. -/
def ShowsJob (jobId : Uuid) (jobType : String) (payload : PyJson) (db : Database) : Prop :=
  ∃ row, db.job? jobId = some row ∧ row.jobType = jobType ∧ row.payload = payload

/-- No call changes the type or the payload of a job. -/
theorem ShowsJob.effect {inputs : Inputs} {jobId : Uuid} {jobType : String} {payload : PyJson}
    {db after : Database} {call : RepoCall} {value : call.Result}
    (shows : ShowsJob jobId jobType payload db) (effect : Effect inputs db call value after) :
    ShowsJob jobId jobType payload after := by
  obtain ⟨row, found, sameType, samePayload⟩ := shows
  have change := jobChange_of_effect effect jobId
  unfold ShowsJob
  rw [found] at change
  generalize after.job? jobId = later at change
  cases change with
  | same => exact ⟨row, rfl, sameType, samePayload⟩
  | claimed => exact ⟨_, rfl, sameType, samePayload⟩
  | renewed => exact ⟨_, rfl, sameType, samePayload⟩
  | completed => exact ⟨_, rfl, sameType, samePayload⟩
  | failed => exact ⟨_, rfl, sameType, samePayload⟩

/-- A created job is shown after any later transactions. -/
theorem showsJob_of_created {inputs : Inputs} {db after : Database} {jobType : String}
    {payload : PyJson} {correlationId : Option String} {job : JobRow}
    (created : (RepoCall.createJob jobType payload correlationId).run inputs [] db = (.ok job, after))
    (later : List Request) :
    ShowsJob (inputs.uuid 0) jobType payload (committed after later) := by
  refine committed_invariant ?_ ShowsJob.effect later
  cases effect_of_run created with
  | jobCreated inserted =>
      refine ⟨newJob jobType payload (inputs.uuid 0) inputs.now, ?_, rfl, rfl⟩
      change Table.find? _ _ = _
      rw [Table.find?_insert? inserted]
      exact if_pos rfl

/-- What a client gets of an endpoint that ran. -/
def sentOut (carrier : Carrier) (ran : Except Exn Answer × Database) :
    Except Exn Answer × Database :=
  (ran.1.map (Answer.encoded carrier.maxDepth), ran.2)

/-- What becomes of `GET /jobs/{job_id}`. -/
def got (carrier : Carrier) (inputs : Inputs) (jobId : Uuid) (db : Database) :
    Except Exn Answer × Database :=
  sentOut carrier (Code.meaning (Conduct.available.handle carrier inputs) (getJobEndpoint jobId) db)

/-- `GET /jobs/{job_id}` answers with the job. -/
theorem getJobEndpoint_answers (carrier : Carrier) (inputs : Inputs) {jobId : Uuid} {jobType : String}
    {payload : PyJson} {db : Database} (shows : ShowsJob jobId jobType payload db) :
    ∃ body : JobBody, got carrier inputs jobId db =
        (.ok ((Answer.job 200 body).encoded carrier.maxDepth), db) ∧
      body.jobType = jobType ∧ body.payload = payload := by
  obtain ⟨row, found, rfl, rfl⟩ := shows
  obtain ⟨view, returned, rfl⟩ := getJob_returns inputs found
  refine ⟨.ofView view, ?_, rfl, rfl⟩
  have read : Code.meaning (Conduct.available.handle carrier inputs) (repository (.getJob jobId)) db =
      (.ok view, db) := by
    change ((RepoCall.getJob jobId).run inputs [] db) = _
    exact returned
  unfold got getJobEndpoint
  rw [Code.meaning_tryCatch, Code.meaning_bind, read]
  rfl

/-! ### The answers -/

section Answers

variable (carrier : Carrier) (conduct : Conduct) (inputs : Inputs) (isCloud : Bool)
  (request : JobCreate) (correlationId : Option HeaderValue) (db : Database)

/-- The call of the database for a request. -/
def JobCreate.call : RepoCall :=
  .createJob request.jobType (.obj request.payload) (correlationId.map HeaderValue.text)

theorem handle_of_run {call : RepoCall} {reply : Except Exn call.Result} {after : Database}
    (ran : call.run inputs (conduct.faults carrier call) db = (reply, after)) :
    conduct.handle carrier inputs (.repository call) db = (conduct.heard reply, after) := by
  unfold Conduct.handle
  dsimp only
  rw [ran]

/-- A created job is what the answer shows. -/
theorem createJobEndpoint_accepts {job : JobRow} {after : Database}
    (returned : conduct.handle carrier inputs (.repository (request.call correlationId)) db =
      (.ok job, after)) :
    Code.meaning (conduct.handle carrier inputs) (createJobEndpoint (createJobPublisher isCloud false)
      request correlationId) db = (.ok (.job 202 (.ofRow job)), after) := by
  have inserted : Code.meaning (conduct.handle carrier inputs)
      (repository (request.call correlationId)) db = (.ok job, after) := returned
  unfold createJobEndpoint ApplicationService.createJob ApplicationService.insertJob
  unfold JobCreate.call at inserted
  rw [Code.meaning_tryCatch, Code.meaning_bind, Code.meaning_bind, Code.meaning_tryCatch, inserted]
  cases isCloud with
  | true => rfl
  | false => rfl

/-- A transaction that raised is answered with 503. -/
theorem createJobEndpoint_unavailable {name : String} {after : Database}
    (raised : conduct.handle carrier inputs (.repository (request.call correlationId)) db =
      (.error (.other name), after)) :
    Code.meaning (conduct.handle carrier inputs) (createJobEndpoint (createJobPublisher isCloud false)
      request correlationId) db = (.ok (.error 503 "database unavailable"), after) := by
  have failed : Code.meaning (conduct.handle carrier inputs)
      (repository (request.call correlationId)) db = (.error (.other name), after) := raised
  unfold createJobEndpoint ApplicationService.createJob ApplicationService.insertJob
  unfold JobCreate.call at failed
  rw [Code.meaning_tryCatch, Code.meaning_bind, Code.meaning_bind, Code.meaning_tryCatch, failed]
  rfl

end Answers

/-! ### The promise -/

/-- What becomes of `POST /jobs`. -/
def posted (carrier : Carrier) (conduct : Conduct) (inputs : Inputs) (isCloud : Bool) (body : PyJson)
    (correlationId : Option HeaderValue) (db : Database) : Except Exn Answer × Database :=
  sentOut carrier (Code.meaning (conduct.handle carrier inputs)
    (postJobs (createJobPublisher isCloud false) body correlationId) db)

/-- What an accepted request is promised: with the database available it is answered with 202, and
any later `GET` shows the job with its type and payload; and 503 is the answer only to a
transaction that failed for lack of availability, of which nothing remains. -/
structure Honest (carrier : Carrier) (conduct : Conduct) (inputs : Inputs) (isCloud : Bool)
    (body : PyJson) (request : JobCreate) (correlationId : Option HeaderValue) (db : Database) :
    Prop where
  accepts : conduct = .available →
    ∃ job, (posted carrier conduct inputs isCloud body correlationId db).1 = .ok (.job 202 job) ∧
      ∀ later reading, ∃ shown,
        got carrier reading job.id
            (committed (posted carrier conduct inputs isCloud body correlationId db).2 later) =
          (.ok (.job 200 shown),
            committed (posted carrier conduct inputs isCloud body correlationId db).2 later) ∧
        shown.jobType = request.jobType ∧ shown.payload = .obj request.payload
  unavailable : ∀ answer,
    (posted carrier conduct inputs isCloud body correlationId db).1 = .ok answer →
      answer.status = 503 →
      (conduct.handle carrier inputs (.repository (request.call correlationId)) db).1 =
        .error operationalError ∧
      (posted carrier conduct inputs isCloud body correlationId db).2 = db

/-- The database stores the values of the request. -/
def JobCreate.Storable (carrier : Carrier) (request : JobCreate) : Prop :=
  storableText request.jobType ∧ carrier.stores (.obj request.payload)

/-- The values of the request can be stored and shown: no string holds a null character or half of a
surrogate pair, every number is finite, and the payload is not too deep. -/
structure JobCreate.Plain (carrier : Carrier) (request : JobCreate) : Prop where
  jobType : storableText request.jobType
  nullFree : (PyJson.obj request.payload).nullFree
  plain : (PyJson.obj request.payload).plain
  flat : (PyJson.obj request.payload).depth ≤ carrier.maxDepth

/-- The condition of the promise. -/
def Serviceable (carrier : Carrier) (request : JobCreate) : Conduct → Prop
  | .available => request.Plain carrier
  | .fails statement => statement = 0 ∨ request.Storable carrier
  | .unanswered => False

section Promise

variable {carrier : Carrier} {conduct : Conduct} {inputs : Inputs} (isCloud : Bool) {body : PyJson}
  {request : JobCreate} {correlationId : Option HeaderValue} {db : Database}

/-- A plain request is stored, by any database. -/
theorem JobCreate.Plain.storable (plain : request.Plain carrier) : request.Storable carrier :=
  ⟨plain.jobType, carrier.stores_of_plain _ plain.nullFree plain.plain plain.flat⟩

theorem refusesValues_call (correlationId : Option HeaderValue) :
    refusesValues carrier (request.call correlationId) = true ↔ ¬ request.Storable carrier := by
  unfold refusesValues JobCreate.call JobCreate.Storable
  simp only [Bool.not_eq_true', Bool.and_eq_false_iff, not_and_or, Bool.not_eq_true]

theorem posted_eq (accepted : JobCreate.validate body = some request) :
    posted carrier conduct inputs isCloud body correlationId db =
      sentOut carrier (Code.meaning (conduct.handle carrier inputs) (createJobEndpoint
        (createJobPublisher isCloud false) request correlationId) db) := by
  unfold posted postJobs
  rw [accepted]

/-- An answer of 503, with the error and the contents behind it. -/
theorem posted_unavailable (accepted : JobCreate.validate body = some request) {name : String}
    {after : Database}
    (raised : conduct.handle carrier inputs (.repository (request.call correlationId)) db =
      (.error (.other name), after)) :
    posted carrier conduct inputs isCloud body correlationId db =
      (.ok (.error 503 "database unavailable"), after) := by
  rw [posted_eq isCloud accepted, createJobEndpoint_unavailable carrier conduct inputs isCloud
    request correlationId db raised]
  rfl

/-- A request that failed for lack of availability, and was rolled back, is answered honestly. -/
theorem honest_of_outage (accepted : JobCreate.validate body = some request)
    (failed : conduct ≠ .available)
    (raised : conduct.handle carrier inputs (.repository (request.call correlationId)) db =
      (.error operationalError, db)) :
    Honest carrier conduct inputs isCloud body request correlationId db := by
  refine ⟨fun available => absurd available failed, fun answer _ _ => ?_⟩
  exact ⟨congrArg Prod.fst raised, congrArg Prod.snd (posted_unavailable isCloud accepted raised)⟩

/-- An outage at the first statement, whatever the request holds. -/
theorem handle_fails_first (request : JobCreate) (correlationId : Option HeaderValue)
    (db : Database) :
    (Conduct.fails 0).handle carrier inputs (.repository (request.call correlationId)) db =
      (.error operationalError, db) := by
  have first : (Conduct.fails 0).faults carrier (request.call correlationId) =
      [some operationalError] := by
    unfold Conduct.faults
    split
    · exact if_pos rfl
    · rfl
  exact handle_of_run _ _ _ _ (by rw [first]; rfl)

/-- A value that is not stored, unless an outage comes first. -/
theorem handle_refused (refused : ¬ request.Storable carrier) (reached : conduct ≠ .fails 0)
    (correlationId : Option HeaderValue) (db : Database) :
    conduct.handle carrier inputs (.repository (request.call correlationId)) db =
      (.error dataError, db) := by
  have first : conduct.faults carrier (request.call correlationId) = [some dataError] := by
    unfold Conduct.faults
    rw [if_pos ((refusesValues_call correlationId).mpr refused), if_neg reached]
  have ran : (request.call correlationId).run inputs
      (conduct.faults carrier (request.call correlationId)) db = (.error dataError, db) := by
    rw [first]
    rfl
  rw [handle_of_run carrier conduct inputs db ran]
  cases conduct <;> rfl

/-- A value that is stored leaves only the outage. -/
theorem faults_of_storable (stored : request.Storable carrier) (correlationId : Option HeaderValue) :
    conduct.faults carrier (request.call correlationId) = conduct.outage :=
  if_neg fun refused => (refusesValues_call correlationId).mp refused stored

/-- A refused value is taken for an outage. -/
theorem storable_of_honest (accepted : JobCreate.validate body = some request)
    (reached : conduct ≠ .fails 0)
    (honest : Honest carrier conduct inputs isCloud body request correlationId db) :
    request.Storable carrier := by
  by_contra refused
  have raised : conduct.handle carrier inputs (.repository (request.call correlationId)) db = _ :=
    handle_refused refused reached correlationId db
  have answered := posted_unavailable isCloud accepted raised
  have isOutage := (honest.unavailable _ (congrArg Prod.fst answered) rfl).1
  rw [raised] at isOutage
  have other : dataError ≠ operationalError := by decide
  exact other (Except.error.inj isOutage)

variable (carrier correlationId) in
/-- What the database stores when it is available, and what the answer shows of it. -/
theorem posted_stored (accepted : JobCreate.validate body = some request)
    (unused : Unused inputs db) (stored : request.Storable carrier) :
    ∃ after, (RepoCall.createJob request.jobType (.obj request.payload)
        (correlationId.map HeaderValue.text)).run inputs [] db =
          (.ok (newJob request.jobType (.obj request.payload) (inputs.uuid 0) inputs.now), after) ∧
      posted carrier .available inputs isCloud body correlationId db =
        (.ok ((Answer.job 202 (.ofRow (newJob request.jobType (.obj request.payload)
          (inputs.uuid 0) inputs.now))).encoded carrier.maxDepth), after) := by
  obtain ⟨after, created⟩ := createJob_returns request.jobType (.obj request.payload)
    (correlationId.map HeaderValue.text) unused
  have handled : Conduct.available.handle carrier inputs (.repository (request.call correlationId))
      db = (.ok (newJob request.jobType (.obj request.payload) (inputs.uuid 0) inputs.now),
        after) := by
    apply handle_of_run
    rw [faults_of_storable stored]
    exact created
  refine ⟨after, created, ?_⟩
  rw [posted_eq isCloud accepted,
    createJobEndpoint_accepts carrier .available inputs isCloud request correlationId db handled]
  rfl

/-- With the database available a plain request is answered honestly. -/
theorem honest_of_available (accepted : JobCreate.validate body = some request)
    (unused : Unused inputs db) (plain : request.Plain carrier) :
    Honest carrier .available inputs isCloud body request correlationId db := by
  obtain ⟨after, created, answered⟩ :=
    posted_stored carrier isCloud correlationId accepted unused plain.storable
  rw [Answer.encoded_of_plain plain.plain plain.flat] at answered
  constructor
  · intro _
    refine ⟨_, congrArg Prod.fst answered, fun later reading => ?_⟩
    rw [answered]
    obtain ⟨shown, read, isType, isPayload⟩ :=
      getJobEndpoint_answers carrier reading (showsJob_of_created created later)
    rw [Answer.encoded_of_plain (isPayload ▸ plain.plain) (isPayload ▸ plain.flat)] at read
    exact ⟨shown, read, isType, isPayload⟩
  · intro answer isAnswer unavailable
    rw [answered] at isAnswer
    cases isAnswer
    cases unavailable

/-- A payload that is shown as it was sent is plain. -/
theorem plain_of_honest (accepted : JobCreate.validate body = some request)
    (unused : Unused inputs db)
    (honest : Honest carrier .available inputs isCloud body request correlationId db) :
    request.Plain carrier := by
  have stored := storable_of_honest isCloud accepted (by simp) honest
  obtain ⟨after, created, answered⟩ :=
    posted_stored carrier isCloud correlationId accepted unused stored
  obtain ⟨job, isJob, shows⟩ := honest.accepts rfl
  rw [answered] at isJob shows
  obtain ⟨_, flat, isId⟩ := Answer.rendered_of_encoded (Except.ok.inj isJob)
  obtain ⟨shown, read, _, samePayload⟩ := shows [] inputs
  obtain ⟨body, answers, _, isPayload⟩ :=
    getJobEndpoint_answers carrier inputs (showsJob_of_created created [])
  rw [← isId] at read
  have isAnswer : (Answer.job 200 body).encoded carrier.maxDepth = .job 200 shown :=
    Except.ok.inj (congrArg Prod.fst (answers.symm.trans read))
  have rendered := (Answer.rendered_of_encoded isAnswer).1
  rw [isPayload, samePayload] at rendered
  exact ⟨stored.1, carrier.nullFree_of_stores _ stored.2, (PyJson.rendered_eq_self _).mp rendered,
    flat⟩

/-- A lost answer is not honest: the job remains. -/
theorem not_honest_of_unanswered (accepted : JobCreate.validate body = some request)
    (unused : Unused inputs db) :
    ¬ Honest carrier .unanswered inputs isCloud body request correlationId db := by
  intro honest
  have stored := storable_of_honest isCloud accepted (by simp) honest
  obtain ⟨after, created⟩ := createJob_returns request.jobType (.obj request.payload)
    (correlationId.map HeaderValue.text) unused
  have lost : Conduct.unanswered.handle carrier inputs (.repository (request.call correlationId)) db =
      (.error operationalError, after) := by
    have ran : (request.call correlationId).run inputs
        (Conduct.unanswered.faults carrier (request.call correlationId)) db =
          (.ok (newJob request.jobType (.obj request.payload) (inputs.uuid 0) inputs.now), after) := by
      rw [faults_of_storable stored]
      exact created
    exact handle_of_run _ _ _ _ ran
  have answered := posted_unavailable isCloud accepted lost
  have same := (honest.unavailable _ (congrArg Prod.fst answered) rfl).2
  rw [answered] at same
  obtain rfl : after = db := same
  obtain ⟨row, found, _⟩ := showsJob_of_created created []
  obtain ⟨member, isId⟩ := Database.job?_eq_some.mp found
  exact unused.jobs row member isId

/-- An outage of a request whose values are stored is answered honestly. -/
theorem honest_of_fails (accepted : JobCreate.validate body = some request)
    (unused : Unused inputs db) (stored : request.Storable carrier) (statement : Fin 4) :
    Honest carrier (.fails statement) inputs isCloud body request correlationId db := by
  refine honest_of_outage isCloud accepted (by simp) ?_
  have ran : (request.call correlationId).run inputs
      ((Conduct.fails statement).faults carrier (request.call correlationId)) db =
        (.error operationalError, db) := by
    rw [faults_of_storable stored]
    exact createJob_outage _ _ _ unused statement
  exact handle_of_run _ _ _ _ ran

end Promise

/-- An accepted `POST /jobs` that draws unused ids is answered honestly exactly in these cases: the
database is available, no string holds a null character or half of a surrogate pair and every number
is finite; or it fails, before it sees the request or with values it stores. A commit whose answer
is lost is never answered honestly. -/
theorem honest_iff {body : PyJson} {request : JobCreate} {inputs : Inputs} {db : Database}
    (accepted : JobCreate.validate body = some request) (unused : Unused inputs db) (carrier : Carrier)
    (conduct : Conduct) (isCloud : Bool) (correlationId : Option HeaderValue) :
    Honest carrier conduct inputs isCloud body request correlationId db ↔
      Serviceable carrier request conduct := by
  cases conduct with
  | available =>
      exact ⟨plain_of_honest isCloud accepted unused, honest_of_available isCloud accepted unused⟩
  | fails statement =>
      constructor
      · intro honest
        by_cases first : statement = 0
        · exact .inl first
        · exact .inr (storable_of_honest isCloud accepted (by simp [first]) honest)
      · intro serviceable
        by_cases first : statement = 0
        · rw [first]
          exact honest_of_outage isCloud accepted (by simp) (handle_fails_first _ _ _)
        · exact honest_of_fails isCloud accepted unused (serviceable.resolve_left first) statement
  | unanswered =>
      exact ⟨not_honest_of_unanswered isCloud accepted unused, False.elim⟩

/-- A request with nested objects and arrays. -/
def nestedRequest : JobCreate :=
  ⟨"export", [(.ofString "filters", .arr [.obj [(.ofString "name", .str (.ofString "Zoë")),
    (.ofString "limit", .int 10)], .float (.finite (1 / 2)), .null])], by decide⟩

def nestedBody : PyJson :=
  .obj [(.ofString "payload", .obj nestedRequest.payload),
    (.ofString "job_type", .str (.ofString "export"))]

/-- A database that holds a job with its event. -/
def busyDatabase : Database :=
  ((RepoCall.createJob "csv_report" (.obj []) none).run (.numbered 0 0) [] .empty).2

theorem honest_iff_nested :
    Honest (.strict 255) .available (.numbered 1 5) true nestedBody nestedRequest none busyDatabase :=
  (honest_iff rfl ⟨by decide, by decide, by decide⟩ (.strict 255) .available true none).mpr
    ⟨by decide, by decide +kernel, by decide +kernel, by decide +kernel⟩

/-- A request with a null character in its payload. -/
def nullRequest : JobCreate :=
  ⟨"csv_report", [(.ofString "note", .str (.ofString "\x00"))], by decide⟩

def nullBody : PyJson := .obj [(.ofString "payload", .obj nullRequest.payload)]

/-- The database is available, and the request is answered with 503. -/
theorem null_unavailable : ¬ ∀ body request inputs db conduct isCloud correlationId,
    JobCreate.validate body = some request → Unused inputs db →
      Honest (.lenient 255) conduct inputs isCloud body request correlationId db := by
  intro honest
  have kept := honest nullBody nullRequest (.numbered 0 0) .empty .available true none rfl
    ⟨by simp [Database.empty, Table.empty], by simp [Database.empty, Table.empty],
      by simp [Database.empty, Table.empty]⟩
  have stored := storable_of_honest true rfl (by simp) kept
  have refused : (Carrier.lenient 255).stores (.obj nullRequest.payload) = false := by decide +kernel
  rw [JobCreate.Storable, refused] at stored
  simp at stored

end JobPlatform.Runtime
