import JobPlatform.Runtime.World
import JobPlatform.Store.Undisturbed

/-!
Contract: one worker that consumes a sequence of deliveries, with no failing calls.

Owns:
- `Shift.handle`, the calls of that worker: every transaction runs, every message of the sequence
  is received in turn, and heartbeat threads renew whatever they hold before any call;
- `Finished`, what completing a job leaves;
- `deliver_completed` and `deliver_open`: what one `consume_one_message` does, by the state of the
  job its message names.
-/

namespace JobPlatform.Runtime

open JobPlatform.Foundation JobPlatform.Store
open JobPlatform.Store.Repository

/-- What the worker works on: the deliveries to come, and the messages not deleted yet. -/
structure Desk where
  db : Database
  incoming : List Message
  queue : List Message
  objects : List (String × ReportRows)
  calls : Nat

/-- What the calls draw, by number, and what heartbeat threads renew before each of them. -/
structure Shift where
  inputs : Nat → Inputs
  renewals : Nat → List (Uuid × Uuid × Inputs)

/-- Renewals of heartbeat threads, in order. -/
def renewAll (renewals : List (Uuid × Uuid × Inputs)) (db : Database) : Database :=
  renewals.foldl (fun contents (jobId, processingToken, inputs) =>
    ((RepoCall.renewJobProcessingLease jobId processingToken).run inputs [] contents).2) db

namespace Shift

/-- The reply and the effect of a call. -/
def answer (shift : Shift) : (call : PlatformCall) → Desk → platform.Reply call × Desk
  | .repository call, desk =>
      let (reply, after) := call.run (shift.inputs desk.calls) [] desk.db
      (reply, { desk with db := after })
  | .uuid4, desk => (.ok ((shift.inputs desk.calls).uuid 0), desk)
  | .receiveMessage, desk =>
      match desk.incoming with
      | [] => (.ok none, desk)
      | message :: rest =>
          (.ok (some ⟨some message.body, message.id⟩), { desk with incoming := rest })
  | .deleteMessage receiptHandle, desk =>
      (.ok (), { desk with queue := desk.queue.filter fun message => message.id ≠ receiptHandle })
  | .putObject objectKey rows, desk =>
      (.ok (), { desk with objects := desk.objects ++ [(objectKey, rows)] })
  | .startThread _, desk => (.ok 0, desk)
  | .stopWait .., desk => (.ok false, desk)
  | .sendMessage .., desk => (.ok (), desk)
  | .changeMessageVisibility .., desk => (.ok (), desk)
  | .appendPublished .., desk => (.ok (), desk)
  | .stopThread _, desk => (.ok (), desk)
  | .record .., desk => (.ok (), desk)

/-- One call: the renewals before it, its answer, and the next number. -/
def handle (shift : Shift) (call : PlatformCall) (desk : Desk) : platform.Reply call × Desk :=
  let (reply, after) :=
    shift.answer call { desk with db := renewAll (shift.renewals desk.calls) desk.db }
  (reply, { after with calls := desk.calls + 1 })

end Shift

/-! ### Renewals -/

/-- No job is being processed. -/
def Idle (db : Database) : Prop := ∀ job ∈ db.jobs.rows, job.status ≠ .processing

/-- The contents of `base` with one job claimed, and the claim perhaps renewed. -/
def Busy (base : Database) (jobId processingToken : Uuid) (db : Database) : Prop :=
  ∃ time, db = base.setJob jobId (claimJobRow processingToken time) (claimJobRow_id _ _)

section Renewals

variable {base db : Database} {jobId processingToken : Uuid}

theorem Idle.unfenced (idle : Idle db) {row : JobRow} (found : db.job? jobId = some row) :
    ¬ (jobFence processingToken row).Holds := by
  intro holds
  simp only [jobFence, Truth.holds_and, Truth.holds_eq_some, Option.some.injEq] at holds
  exact idle row (Database.job?_eq_some.mp found).1 holds.1

/-- Nothing is renewed while no job is processed. -/
theorem renewAll_idle (idle : Idle db) (renewals : List (Uuid × Uuid × Inputs)) :
    renewAll renewals db = db := by
  induction renewals with
  | nil => rfl
  | cons renewal rest inductionHypothesis =>
      obtain ⟨otherJob, token, inputs⟩ := renewal
      change renewAll rest
        ((RepoCall.renewJobProcessingLease otherJob token).run inputs [] db).2 = db
      rw [renewJobProcessingLease_refuses fun row found => idle.unfenced found]
      exact inductionHypothesis

/-- The row of the claimed job. -/
theorem Busy.row (busy : Busy base jobId processingToken db) {row : JobRow}
    (found : base.job? jobId = some row) :
    ∃ time, db.job? jobId = some (claimJobRow processingToken time row) := by
  obtain ⟨time, rfl⟩ := busy
  exact ⟨time, by rw [Database.job?_setJob, if_pos rfl, found]; rfl⟩

/-- A renewal of the claim moves its time, and any other renewal is refused. -/
theorem busy_renew (idle : Idle base) (busy : Busy base jobId processingToken db)
    (otherJob otherToken : Uuid) (inputs : Inputs) :
    Busy base jobId processingToken
      ((RepoCall.renewJobProcessingLease otherJob otherToken).run inputs [] db).2 := by
  by_cases refused : ∀ row, db.job? otherJob = some row → ¬ (jobFence otherToken row).Holds
  · rw [renewJobProcessingLease_refuses refused]
    exact busy
  · push Not at refused
    obtain ⟨row, found, holds⟩ := refused
    rw [renewJobProcessingLease_renews found holds]
    obtain ⟨time, rfl⟩ := busy
    have same : otherJob = jobId := by
      by_contra different
      rw [Database.job?_setJob, if_neg different] at found
      exact idle.unfenced found holds
    subst same
    exact ⟨inputs.now, Database.setJob_setJob⟩

/-- Renewals keep the claim. -/
theorem renewAll_busy (idle : Idle base) (renewals : List (Uuid × Uuid × Inputs))
    (busy : Busy base jobId processingToken db) :
    Busy base jobId processingToken (renewAll renewals db) := by
  induction renewals generalizing db with
  | nil => exact busy
  | cons renewal rest inductionHypothesis =>
      obtain ⟨otherJob, token, inputs⟩ := renewal
      exact inductionHypothesis (busy_renew idle busy otherJob token inputs)

end Renewals

/-! ### Parts of a delivery -/

/-- A number of calls left everything but the database alone. -/
structure Kept (number : Nat) (before after : Desk) : Prop where
  incoming : after.incoming = before.incoming
  queue : after.queue = before.queue
  objects : after.objects = before.objects
  calls : after.calls = before.calls + number

/-- What the report of a job draws: the id in its key, and the inputs of the completion. -/
structure ReportDraws where
  reportId : Uuid
  inputs : Inputs

/-- The row of a job that was claimed once more and completed. -/
def finishedRow (now : Time) (job : JobRow) : JobRow :=
  completeJobRow now { job with attempts := job.attempts + 1 }

/-- The report of a job that was claimed once more. -/
def finishedReport (job : JobRow) : ReportRows :=
  [("job_id", job.id.str), ("job_type", job.jobType), ("attempt", toString (job.attempts + 1))]

/-- The contents after a job was claimed and completed. -/
structure Finished (store : ArtifactStore) (draws : ReportDraws) (base : Database) (job : JobRow)
    (after : Database) : Prop where
  customers : after.customers = base.customers
  jobs : after.jobs.rows = base.jobs.rows.map fun row =>
    if row.id = job.id then finishedRow draws.inputs.now row else row
  jobResults : after.jobResults.rows = upserted ⟨draws.inputs.uuid 0, job.id,
    reportResult (store.objectKey job.id draws.reportId) (finishedReport job), draws.inputs.now⟩
      base.jobResults.rows
  auditEvents : after.auditEvents.rows = base.auditEvents.rows ++
    [⟨draws.inputs.uuid 2, "job", job.id, "completed",
      reportResult (store.objectKey job.id draws.reportId) (finishedReport job), draws.inputs.now⟩]
  objectMetadata : after.objectMetadata.rows = base.objectMetadata.rows ++
    [⟨draws.inputs.uuid 1, job.id, store.objectKey job.id draws.reportId, "text/csv", "job",
      draws.inputs.now⟩]
  jobOutbox : after.jobOutbox = base.jobOutbox

section Delivery

variable (shift : Shift) {desk : Desk} {jobId processingToken : Uuid} {job : JobRow}
  (store : ArtifactStore)

theorem meaning_perform (call : PlatformCall) :
    Code.meaning shift.handle (perform call) desk = shift.handle call desk := rfl

/-- A transaction while no job is processed. -/
theorem meaning_repository (desk : Desk) (idle : Idle desk.db) {call : RepoCall}
    {reply : Except Exn call.Result} {after : Database}
    (returns : call.run (shift.inputs desk.calls) [] desk.db = (reply, after)) :
    Code.meaning shift.handle (repository call) desk =
      (reply, { desk with db := after, calls := desk.calls + 1 }) := by
  unfold repository
  rw [meaning_perform]
  unfold Shift.handle Shift.answer
  rw [renewAll_idle idle]
  dsimp only
  rw [returns]

/-- A metric while no job is processed. -/
theorem meaning_record_idle (desk : Desk) (idle : Idle desk.db) (metric : Metric)
    (labels : List String) : Code.meaning shift.handle (record metric labels) desk =
      (.ok (), { desk with calls := desk.calls + 1 }) := by
  unfold record
  rw [meaning_perform]
  unfold Shift.handle Shift.answer
  rw [renewAll_idle idle]

/-- A message of the sequence that names a job is received. -/
theorem receives {message : Message} {rest : List Message} (idle : Idle desk.db)
    (next : desk.incoming = message :: rest) (names : Names message.body jobId) :
    ∃ after, Code.meaning shift.handle (tryCatch receiveJob fun _ => pure none) desk =
        (.ok (some (jobId, message.id)), after) ∧
      after.db = desk.db ∧ after.incoming = rest ∧ after.queue = desk.queue ∧
      after.objects = desk.objects ∧ after.calls = desk.calls + 1 := by
  let after := { desk with incoming := rest, calls := desk.calls + 1 }
  refine ⟨after, ?_, rfl, rfl, rfl, rfl, rfl⟩
  have received : Code.meaning shift.handle (perform .receiveMessage) desk =
      (.ok (some ⟨some message.body, message.id⟩), after) := by
    rw [meaning_perform]
    unfold Shift.handle Shift.answer
    rw [renewAll_idle idle]
    simp only [next]
    rfl
  have ran : Code.meaning shift.handle receiveJob desk =
      (.ok (some (jobId, message.id)), after) := by
    unfold receiveJob
    rw [Code.meaning_bind, received]
    dsimp only
    rw [Code.meaning_bind, Code.meaning_ofExcept, names]
    rfl
  rw [Code.meaning_tryCatch, ran]

/-- A job that is open is claimed. -/
theorem claims_open (leaseSeconds : Int) (idle : Idle desk.db) (found : desk.db.job? jobId = some job)
    (unfinished : job.status ≠ .completed) :
    ∃ token time after, Code.meaning shift.handle (claimJob jobId leaseSeconds) desk =
        (.ok (.claimed (.ofRow token (claimJobRow token time job))), after) ∧
      Busy desk.db jobId token after.db ∧ Kept 2 desk after := by
  let draws := shift.inputs desk.calls
  have holds : (jobClaimable leaseSeconds draws.now job).Holds := by
    have waiting : job.status ∈ [JobStatus.pending, JobStatus.failed] := by
      have unclaimed := idle job (Database.job?_eq_some.mp found).1
      cases status : job.status <;> simp_all
    simp only [jobClaimable, Truth.holds_or, Truth.holds_isIn]
    exact .inl waiting
  unfold claimJob
  rw [Code.meaning_bind, meaning_repository shift desk idle (markJobProcessing_acquires found holds)]
  exact ⟨draws.uuid 0, draws.now, _, rfl, renewAll_busy idle _ ⟨_, rfl⟩, rfl, rfl, rfl, rfl⟩

/-- A completed job is found to be a duplicate. -/
theorem claims_completed (leaseSeconds : Int) (idle : Idle desk.db)
    (found : desk.db.job? jobId = some job)
    (finished : job.status = .completed) :
    ∃ after, Code.meaning shift.handle (claimJob jobId leaseSeconds) desk =
        (.ok (.status .duplicateCompleted), after) ∧
      after.db = desk.db ∧ Kept 4 desk after := by
  have rejected : ∀ row, desk.db.job? jobId = some row →
      ¬ (jobClaimable leaseSeconds (shift.inputs desk.calls).now row).Holds := by
    intro row isRow holds
    obtain rfl : job = row := Option.some.inj (found.symm.trans isRow)
    simp [jobClaimable, finished] at holds
  obtain ⟨view, returns, isJob⟩ := getJob_returns (shift.inputs (desk.calls + 1)) found
  unfold claimJob
  rw [Code.meaning_bind, meaning_repository shift desk idle (markJobProcessing_refuses rejected)]
  dsimp only
  rw [Code.meaning_bind, meaning_repository shift { desk with calls := desk.calls + 1 } idle returns]
  dsimp only
  rw [if_pos (isJob ▸ finished)]
  refine ⟨_, rfl, ?_, rfl, rfl, rfl, rfl⟩
  change renewAll _ (renewAll _ desk.db) = desk.db
  rw [renewAll_idle idle, renewAll_idle idle]

theorem Finished.idle {store : ArtifactStore} {draws : ReportDraws} {base after : Database}
    (idle : Idle base)
    (finished : Finished store draws base job after) : Idle after := by
  intro row member
  rw [finished.jobs] at member
  obtain ⟨old, inBase, rfl⟩ := List.mem_map.mp member
  split
  · simp [finishedRow, completeJobRow]
  · exact idle old inBase

/-- A claimed job is completed. -/
theorem completes (desk : Desk) {base : Database} {claimed : ClaimedJob} {time : Time}
    (idle : Idle base)
    (busy : Busy base job.id processingToken desk.db) (found : base.job? job.id = some job)
    (isClaimed : claimed = .ofRow processingToken (claimJobRow processingToken time job))
    (free : FreeFor base (shift.inputs (desk.calls + 2)) job.id
      (store.objectKey job.id ((shift.inputs desk.calls).uuid 0))) :
    ∃ after,
      Code.meaning shift.handle (completeClaimedJob store claimed) desk = (.ok .completed, after) ∧
      Finished store ⟨(shift.inputs desk.calls).uuid 0, shift.inputs (desk.calls + 2)⟩ base job
        after.db ∧
      after.incoming = desk.incoming ∧ after.queue = desk.queue ∧
      after.objects = desk.objects ++
        [(store.objectKey job.id ((shift.inputs desk.calls).uuid 0), finishedReport job)] ∧
      after.calls = desk.calls + 5 := by
  let reportId := (shift.inputs desk.calls).uuid 0
  let objectKey := store.objectKey job.id reportId
  let inputs := shift.inputs (desk.calls + 2)
  let stored : Desk :=
    { desk with
      db := renewAll (shift.renewals (desk.calls + 1)) (renewAll (shift.renewals desk.calls) desk.db)
      objects := desk.objects ++ [(objectKey, finishedReport job)]
      calls := desk.calls + 2 }
  have wrote : Code.meaning shift.handle (store.putCsvReport claimed.id (reportRows claimed))
      desk = (.ok (objectKey, "text/csv"), stored) := by
    rw [isClaimed]
    rfl
  have held : Busy base job.id processingToken (renewAll (shift.renewals stored.calls) stored.db) :=
    renewAll_busy idle _ (renewAll_busy idle _ (renewAll_busy idle _ busy))
  obtain ⟨renewed, claimedRow⟩ := held.row found
  have fence : (jobFence processingToken (claimJobRow processingToken renewed job)).Holds := by
    simp [jobFence, claimJobRow]
  have room : FreeFor (renewAll (shift.renewals stored.calls) stored.db) inputs job.id objectKey := by
    obtain ⟨_, isBase⟩ := held
    rw [isBase]
    exact ⟨free.result, free.metadata, free.key, free.audit⟩
  obtain ⟨after, returns, completed⟩ := completeJobWithReport_returns
    (reportResult objectKey (finishedReport job)) "text/csv" claimedRow fence room
  have finished : Finished store ⟨reportId, inputs⟩ base job after := by
    obtain ⟨_, isBase⟩ := held
    rw [isBase] at completed
    refine ⟨completed.customers, ?_, completed.jobResults, completed.auditEvents,
      completed.objectMetadata, completed.jobOutbox⟩
    rw [completed.jobs, Database.setJob_setJob]
    rfl
  have rest : Idle after := finished.idle idle
  have ran : Code.meaning shift.handle (repository (.completeJobWithReport claimed.id
      claimed.processingToken (reportResult objectKey (reportRows claimed)) objectKey "text/csv"))
      stored = (.ok (), { stored with db := after, calls := stored.calls + 1 }) := by
    subst isClaimed
    unfold repository
    rw [meaning_perform]
    unfold Shift.handle Shift.answer
    dsimp only
    exact congrArg (fun result => (result.1, { stored with
      db := result.2
      calls := stored.calls + 1 })) returns
  refine ⟨{ stored with db := after, calls := stored.calls + 3 }, ?_, finished, rfl, rfl, rfl, rfl⟩
  unfold completeClaimedJob
  rw [Code.meaning_tryCatch, Code.meaning_bind, wrote]
  dsimp only
  rw [Code.meaning_bind, ran]
  dsimp only
  rw [Code.meaning_bind, meaning_record_idle shift { stored with db := after, calls := stored.calls + 1 }
    rest]
  dsimp only
  rw [Code.meaning_bind, meaning_record_idle shift { stored with db := after, calls := stored.calls + 2 }
    rest]
  rfl

/-! ### A delivery -/

/-- A call that touches neither the database nor the messages. -/
theorem meaning_startThread (heartbeat : VisibilityHeartbeat) :
    Code.meaning shift.handle (perform (.startThread heartbeat)) desk =
      (.ok 0, { desk with
        db := renewAll (shift.renewals desk.calls) desk.db
        calls := desk.calls + 1 }) := rfl

/-- A delivery of a completed job deletes its message and changes nothing else. -/
theorem deliver_completed (config : ConsumerConfig) {message : Message} {rest : List Message}
    (idle : Idle desk.db) (next : desk.incoming = message :: rest)
    (names : Names message.body jobId) (found : desk.db.job? jobId = some job)
    (finished : job.status = .completed) :
    ∃ after, Code.meaning shift.handle (consumeOneMessage store config) desk = (.ok true, after) ∧
      after.db = desk.db ∧ after.incoming = rest ∧
      after.queue = desk.queue.filter (fun other => other.id ≠ message.id) ∧
      after.objects = desk.objects ∧ after.calls = desk.calls + 6 := by
  obtain ⟨received, ran, sameDb, isRest, sameQueue, sameObjects, one⟩ :=
    receives shift idle next names
  rw [← sameDb] at idle found
  obtain ⟨claimed, claimRan, sameAgain, kept⟩ := claims_completed shift
    config.processingLeaseSeconds idle found finished
  unfold consumeOneMessage
  rw [Code.meaning_bind, ran]
  dsimp only
  rw [Code.meaning_bind, claimRan]
  refine ⟨_, rfl, ?_, kept.incoming.trans isRest, ?_, kept.objects.trans sameObjects, ?_⟩
  · change renewAll _ claimed.db = desk.db
    rw [sameAgain, renewAll_idle idle, sameDb]
  · change claimed.queue.filter _ = _
    rw [kept.queue, sameQueue]
  · change claimed.calls + 1 = desk.calls + 6
    rw [kept.calls, one]

/-- A delivery of an open job completes it, with a report of its own, and deletes its message. -/
theorem deliver_open (config : ConsumerConfig) {message : Message} {rest : List Message}
    (idle : Idle desk.db) (next : desk.incoming = message :: rest)
    (names : Names message.body job.id) (found : desk.db.job? job.id = some job)
    (unfinished : job.status ≠ .completed)
    (free : FreeFor desk.db (shift.inputs (desk.calls + 6)) job.id
      (store.objectKey job.id ((shift.inputs (desk.calls + 4)).uuid 0))) :
    ∃ after,
      Code.meaning shift.handle (consumeOneMessage store config) desk = (.ok true, after) ∧
      Finished store ⟨(shift.inputs (desk.calls + 4)).uuid 0, shift.inputs (desk.calls + 6)⟩
        desk.db job after.db ∧
      after.incoming = rest ∧
      after.queue = desk.queue.filter (fun other => other.id ≠ message.id) ∧
      after.objects = desk.objects ++
        [(store.objectKey job.id ((shift.inputs (desk.calls + 4)).uuid 0), finishedReport job)] ∧
      after.calls = desk.calls + 11 := by
  obtain ⟨received, ran, sameDb, isRest, sameQueue, sameObjects, one⟩ :=
    receives shift idle next names
  rw [← sameDb] at idle found free ⊢
  obtain ⟨token, time, claimed, claimRan, busy, kept⟩ := claims_open shift
    config.processingLeaseSeconds idle found unfinished
  let beating : Desk := { claimed with
    db := renewAll (shift.renewals claimed.calls) claimed.db
    calls := claimed.calls + 1 }
  have number : beating.calls = desk.calls + 4 := by
    change claimed.calls + 1 = desk.calls + 4
    rw [kept.calls, one]
  have completion : desk.calls + 6 = beating.calls + 2 := by rw [number]
  rw [completion, ← number] at free ⊢
  obtain ⟨after, completeRan, finished, sameIncoming, sameQueueAgain, isObjects, five⟩ :=
    completes shift store beating idle
      (renewAll_busy idle _ busy) found
      (rfl : _ = ClaimedJob.ofRow token (claimJobRow token time job)) free
  have rested := finished.idle idle
  have stopped : Code.meaning shift.handle (perform (.stopThread 0)) after =
      (.ok (), { after with calls := after.calls + 1 }) := by
    rw [meaning_perform]
    unfold Shift.handle Shift.answer
    rw [renewAll_idle rested]
  have deleted : Code.meaning shift.handle (perform (.deleteMessage message.id))
      { after with calls := after.calls + 1 } = (.ok (), { after with
        queue := after.queue.filter fun other => other.id ≠ message.id
        calls := after.calls + 2 }) := by
    rw [meaning_perform]
    unfold Shift.handle Shift.answer
    rw [renewAll_idle rested]
  have consumed : Code.meaning shift.handle (consumeClaimed store config job.id message.id
      (ClaimedJob.ofRow token (claimJobRow token time job))) claimed =
      (.ok true, { after with
        queue := after.queue.filter fun other => other.id ≠ message.id
        calls := after.calls + 2 }) := by
    unfold consumeClaimed withHeartbeat
    rw [Code.meaning_tryCatch, Code.meaning_bind, Code.meaning_bind, meaning_startThread]
    dsimp only
    rw [Code.meaning_finally, completeRan]
    dsimp only
    rw [stopped]
    dsimp only
    rw [Code.meaning_bind, deleted]
    rfl
  unfold consumeOneMessage
  rw [Code.meaning_bind, ran]
  dsimp only
  rw [Code.meaning_bind, claimRan]
  dsimp only
  rw [consumed]
  refine ⟨_, rfl, finished, sameIncoming.trans (kept.incoming.trans isRest), ?_, ?_, ?_⟩
  · change after.queue.filter _ = _
    rw [sameQueueAgain]
    exact congrArg (List.filter _) (kept.queue.trans sameQueue)
  · rw [← sameObjects, ← kept.objects]
    exact isObjects
  · change after.calls + 2 = desk.calls + 11
    rw [five, number]

end Delivery

end JobPlatform.Runtime
