import JobPlatform.Runtime.Adapters

/-!
Contract: `application/worker/main.py`.

Owns the functions of the worker as code over the calls: the claim, the processing of a claimed
job, the outbox dispatcher, the consumer of one message, and the heartbeat thread. The loop of
`run_idle_worker` is the repeated start of these. A worker that holds a message neither receives
nor sends (`Inner`).
-/

namespace JobPlatform.Runtime

open JobPlatform.Foundation JobPlatform.Store
open JobPlatform.Store.Repository (ClaimedJob ClaimedEvent JobView)

inductive JobProcessStatus where
  | completed
  | duplicateCompleted
  | inProgressNotOwned
deriving DecidableEq

/-- `METRIC.labels(...).inc()` or `.observe(...)`. -/
def record (metric : Metric) (labels : List String) : Run Unit := perform (.record metric labels)

/-- What `claim_job` returns: the claimed row or a status. -/
inductive ClaimOutcome where
  | claimed (job : ClaimedJob)
  | status (status : JobProcessStatus)

/-- `claim_job`. -/
def claimJob (jobId : Uuid) (leaseSeconds : Int) : Run ClaimOutcome := do
  match ← repository (.markJobProcessing jobId leaseSeconds) with
  | some job =>
      record .workerJobClaims ["acquired"]
      return .claimed job
  | none =>
      let existing ← repository (.getJob jobId)
      if existing.job.status = .completed then
        record .workerDuplicateJobs ["completed"]
        record .workerJobClaims ["duplicate_completed"]
        return .status .duplicateCompleted
      else
        record .workerJobClaims ["in_progress_not_owned"]
        return .status .inProgressNotOwned

/-- The rows of the report of a claimed job. -/
def reportRows (job : ClaimedJob) : ReportRows :=
  [("job_id", job.id.str), ("job_type", job.jobType), ("attempt", toString job.attempts)]

/-- The result stored for a report. -/
def reportResult (objectKey : String) (rows : ReportRows) : Json :=
  .obj [("report_key", .str objectKey), ("rows", .int rows.length)]

/-- `complete_claimed_job`. -/
def completeClaimedJob (store : ArtifactStore) (job : ClaimedJob) : Run JobProcessStatus :=
  tryCatch
    (do
      let rows := reportRows job
      let (objectKey, objectType) ← store.putCsvReport job.id rows
      repository (.completeJobWithReport job.id job.processingToken (reportResult objectKey rows)
        objectKey objectType)
      record .workerJobsProcessed [job.jobType, "success"]
      record .workerJobDuration [job.jobType, "success"]
      return .completed)
    fun error => do
      record .workerJobsProcessed [job.jobType, "failure"]
      record .workerJobDuration [job.jobType, "failure"]
      throw error

/-- `process_job`. -/
def processJob (store : ArtifactStore) (jobId : Uuid) (leaseSeconds : Int) :
    Run JobProcessStatus := do
  match ← claimJob jobId leaseSeconds with
  | .status status => return status
  | .claimed job =>
      tryCatch (completeClaimedJob store job) fun error =>
        match error with
        | .lostJobClaimError => throw .lostJobClaimError
        | error => do
            let _ ← repository (.failJob jobId job.processingToken "JobProcessingError")
            throw error

/-! ### The dispatcher -/

/-- `UUID(str(payload["job_id"])), payload.get("correlation_id")`. -/
def readOutboxPayload : Json → Except Exn (Uuid × Json)
  | .obj fields =>
      match Json.field? "job_id" fields with
      | none => .error .keyError
      | some value =>
          match value.asUuid with
          | some jobId => .ok (jobId, getField "correlation_id" fields)
          | none => .error .valueError
  | _ => .error .typeError

/-- The body of the `try` in `dispatch_outbox`: publish one event and mark it. -/
def publishEvent (publisher : JobPublisher) (event : ClaimedEvent) (dispatched : Nat) :
    Run Nat := do
  record .workerOutboxDispatch ["attempt"]
  if event.eventType ≠ "job.created" ∨ event.version ≠ 1 then
    throw .valueError
  else
    let (jobId, correlationId) ← Code.ofExcept (S := platform) (readOutboxPayload event.payload)
    publisher.publish (some (event.id, event.claimToken)) jobId correlationId
    if ← repository (.markOutboxPublished event.id event.claimToken) then
      record .workerOutboxDispatch ["success"]
      return dispatched + 1
    else
      return dispatched

/-- One iteration of the loop of `dispatch_outbox`. -/
def dispatchEvent (publisher : JobPublisher) (dispatched : Nat) (event : ClaimedEvent) :
    Run Nat := do
  if event.attempts > 1 then
    record .workerOutboxReclaims ["reclaimed"]
  tryCatch (publishEvent publisher event dispatched) fun error => do
    record .workerOutboxDispatch ["failure"]
    let _ ← repository (.markOutboxFailed event.id event.claimToken error.typeName)
    return dispatched

/-- `dispatch_outbox`. -/
def dispatchOutbox (publisher : JobPublisher) (limit leaseSeconds : Int) : Run Nat := do
  let events ← repository (.claimOutboxEvents limit leaseSeconds)
  Code.forEach events 0 (dispatchEvent publisher)

/-! ### The consumer -/

/-- `VisibilityHeartbeat._run`, for at most `fuel` rounds: a thread that is killed earlier makes
fewer calls, and a longer life needs more fuel. -/
def VisibilityHeartbeat.run (heartbeat : VisibilityHeartbeat) (thread : Nat) : Nat → Run Unit
  | 0 => return ()
  | fuel + 1 => do
      if ← perform (.stopWait thread heartbeat.heartbeatSeconds) then
        return ()
      else
        let leaseRenewed ←
          repository (.renewJobProcessingLease heartbeat.jobId heartbeat.processingToken)
        if !leaseRenewed then
          record .workerVisibilityHeartbeatFailures ["db_lease_renewal"]
        else
          tryCatch
            (perform (.changeMessageVisibility heartbeat.receiptHandle
              heartbeat.visibilityTimeoutSeconds))
            fun _ => record .workerVisibilityHeartbeatFailures ["sqs_change_visibility"]
          heartbeat.run thread fuel

/-- `with VisibilityHeartbeat(...): body`. -/
def withHeartbeat {α : Type} (heartbeat : VisibilityHeartbeat) (body : Run α) : Run α := do
  let thread ← perform (.startThread heartbeat)
  Code.finally_ body (perform (.stopThread thread))

/-- The keyword arguments of `consume_one_message`. -/
structure ConsumerConfig where
  processingLeaseSeconds : Int
  visibilityTimeoutSeconds : Int
  visibilityHeartbeatSeconds : Int

/-- The `try` of `consume_one_message`, for a claimed job. -/
def consumeClaimed (store : ArtifactStore) (config : ConsumerConfig) (jobId : Uuid)
    (receiptHandle : ReceiptHandle) (job : ClaimedJob) : Run Bool :=
  tryCatch
    (do
      let _ ← withHeartbeat ⟨jobId, job.processingToken, receiptHandle,
        config.visibilityTimeoutSeconds, config.visibilityHeartbeatSeconds⟩
          (completeClaimedJob store job)
      perform (.deleteMessage receiptHandle)
      return true)
    fun error =>
      match error with
      | .lostJobClaimError => return false
      | error => do
          let _ ← repository (.failJob jobId job.processingToken error.typeName)
          return false

/-- `consume_one_message`. `claim_job` never returns `COMPLETED`; the code would fail on it. -/
def consumeOneMessage (store : ArtifactStore) (config : ConsumerConfig) : Run Bool := do
  match ← tryCatch receiveJob fun _ => pure none with
  | none => return false
  | some (jobId, receiptHandle) =>
      match ← claimJob jobId config.processingLeaseSeconds with
      | .status .duplicateCompleted => do
          perform (.deleteMessage receiptHandle)
          return true
      | .status .inProgressNotOwned => return false
      | .status .completed => throw .typeError
      | .claimed job => consumeClaimed store config jobId receiptHandle job

/-! ### The calls of a worker that holds a message -/

/-- The call neither receives a message nor sends one. -/
def Inner : PlatformCall → Prop
  | .receiveMessage => False
  | .sendMessage .. => False
  | _ => True

theorem record_inner (metric : Metric) (labels : List String) :
    Code.Only Inner (record metric labels) :=
  Code.only_perform trivial

theorem repository_inner (call : RepoCall) : Code.Only Inner (repository call) :=
  Code.only_perform trivial

theorem claimJob_inner (jobId : Uuid) (leaseSeconds : Int) :
    Code.Only Inner (claimJob jobId leaseSeconds) := by
  unfold claimJob
  refine (repository_inner _).bind fun claimed => ?_
  cases claimed with
  | some job => exact (record_inner _ _).bind fun _ => trivial
  | none =>
      refine (repository_inner _).bind fun existing => ?_
      split
      · exact (record_inner _ _).bind fun _ => (record_inner _ _).bind fun _ => trivial
      · exact (record_inner _ _).bind fun _ => trivial

theorem completeClaimedJob_inner (store : ArtifactStore) (job : ClaimedJob) :
    Code.Only Inner (completeClaimedJob store job) := by
  have stored : Code.Only Inner (store.putCsvReport job.id (reportRows job)) :=
    (Code.only_perform trivial).bind fun _ => (Code.only_perform trivial).bind fun _ => trivial
  unfold completeClaimedJob
  refine Code.Only.tryCatch ?_ fun error => ?_
  · refine stored.bind fun returned => (repository_inner _).bind fun _ => ?_
    exact (record_inner _ _).bind fun _ => (record_inner _ _).bind fun _ => trivial
  · exact (record_inner _ _).bind fun _ => (record_inner _ _).bind fun _ => trivial

theorem consumeClaimed_inner (store : ArtifactStore) (config : ConsumerConfig) (jobId : Uuid)
    (receiptHandle : ReceiptHandle) (job : ClaimedJob) :
    Code.Only Inner (consumeClaimed store config jobId receiptHandle job) := by
  unfold consumeClaimed withHeartbeat
  refine Code.Only.tryCatch ?_ fun error => ?_
  · refine Code.Only.bind ((Code.only_perform trivial).bind fun thread => ?_) fun _ => ?_
    · exact (completeClaimedJob_inner store job).finally_ (Code.only_perform trivial)
    · exact (Code.only_perform trivial).bind fun _ => trivial
  · cases error with
    | lostJobClaimError => trivial
    | _ => exact (repository_inner _).bind fun _ => trivial

/-- `receive_job` makes one call. -/
theorem receiveJob_only :
    Code.Only (fun call => call = PlatformCall.receiveMessage) receiveJob := by
  unfold receiveJob
  refine Code.Only.bind (Code.only_perform rfl) fun delivery => ?_
  cases delivery with
  | none => exact Code.only_pure _
  | some delivery => exact Code.Only.bind (Code.only_ofExcept _) fun jobId => Code.only_pure _

/-! ### The calls of the dispatcher and of the heartbeat -/

/-- Every call `dispatch_outbox` may make. -/
inductive DispatchCall : PlatformCall → Prop where
  | claimed (limit leaseSeconds : Int) :
      DispatchCall (.repository (.claimOutboxEvents limit leaseSeconds))
  | reclaimed : DispatchCall (.record .workerOutboxReclaims ["reclaimed"])
  | counted {result : String} (isResult : result ∈ ["attempt", "success", "failure"]) :
      DispatchCall (.record .workerOutboxDispatch [result])
  | sent (origin : Option (Uuid × Uuid)) (messageBody : Json) :
      DispatchCall (.sendMessage origin messageBody)
  | appended (jobId : Uuid) (correlationId : Json) :
      DispatchCall (.appendPublished jobId correlationId)
  | published (eventId claimToken : Uuid) :
      DispatchCall (.repository (.markOutboxPublished eventId claimToken))
  | failed (eventId claimToken : Uuid) (error : String) :
      DispatchCall (.repository (.markOutboxFailed eventId claimToken error))

theorem publish_only (publisher : JobPublisher) (origin : Option (Uuid × Uuid)) (jobId : Uuid)
    (correlationId : Json) :
    Code.Only DispatchCall (publisher.publish origin jobId correlationId) := by
  cases publisher with
  | sqs => exact Code.only_perform (.sent _ _)
  | inProcess => exact Code.only_perform (.appended _ _)
  | noop => exact Code.only_pure _

theorem publishEvent_only (publisher : JobPublisher) (event : ClaimedEvent) (dispatched : Nat) :
    Code.Only DispatchCall (publishEvent publisher event dispatched) := by
  unfold publishEvent
  apply (Code.only_perform (.counted (by simp))).bind
  intro _
  split
  · exact Code.only_throw _
  · apply (Code.only_ofExcept _).bind
    intro named
    apply (publish_only _ _ _ _).bind
    intro _
    apply (Code.only_perform (.published _ _)).bind
    intro marked
    cases marked with
    | true => exact (Code.only_perform (.counted (by simp))).bind fun _ => Code.only_pure _
    | false => exact Code.only_pure _

theorem dispatchEvent_only (publisher : JobPublisher) (dispatched : Nat) (event : ClaimedEvent) :
    Code.Only DispatchCall (dispatchEvent publisher dispatched event) := by
  have dispatching : Code.Only DispatchCall
      (tryCatch (publishEvent publisher event dispatched) fun error => do
        record .workerOutboxDispatch ["failure"]
        let _ ← repository (.markOutboxFailed event.id event.claimToken error.typeName)
        return dispatched) := by
    apply (publishEvent_only publisher event dispatched).tryCatch
    intro error
    apply (Code.only_perform (.counted (by simp))).bind
    intro _
    exact (Code.only_perform (.failed _ _ _)).bind fun _ => Code.only_pure _
  unfold dispatchEvent
  split
  · exact (Code.only_perform .reclaimed).bind fun _ => dispatching
  · exact dispatching

theorem dispatchOutbox_only (publisher : JobPublisher) (limit leaseSeconds : Int) :
    Code.Only DispatchCall (dispatchOutbox publisher limit leaseSeconds) := by
  unfold dispatchOutbox
  apply (Code.only_perform (.claimed _ _)).bind
  intro events
  apply Code.only_forEach
  exact fun event _ dispatched => dispatchEvent_only publisher dispatched event

/-- Every call a heartbeat thread may make. -/
inductive HeartbeatCall : PlatformCall → Prop where
  | waited (thread : Nat) (seconds : Int) : HeartbeatCall (.stopWait thread seconds)
  | renewed (jobId processingToken : Uuid) :
      HeartbeatCall (.repository (.renewJobProcessingLease jobId processingToken))
  | extended (receiptHandle : ReceiptHandle) (visibilityTimeout : Int) :
      HeartbeatCall (.changeMessageVisibility receiptHandle visibilityTimeout)
  | counted {operation : String}
      (isOperation : operation ∈ ["db_lease_renewal", "sqs_change_visibility"]) :
      HeartbeatCall (.record .workerVisibilityHeartbeatFailures [operation])

theorem heartbeat_only (heartbeat : VisibilityHeartbeat) (thread fuel : Nat) :
    Code.Only HeartbeatCall (heartbeat.run thread fuel) := by
  induction fuel with
  | zero => exact Code.only_pure _
  | succ fuel inductionHypothesis =>
      unfold VisibilityHeartbeat.run
      apply Code.Only.bind (Code.only_perform (.waited _ _))
      intro stopped
      split
      · exact Code.only_pure _
      · apply Code.Only.bind (Code.only_perform (.renewed _ _))
        intro leaseRenewed
        split
        · exact Code.only_perform (.counted (by simp))
        · apply Code.Only.bind
          · apply (Code.only_perform (.extended _ _)).tryCatch
            exact fun _ => Code.only_perform (.counted (by simp))
          · exact fun _ => inductionHypothesis

/-- Every call `consume_one_message` may make. -/
inductive DeliveryCall (store : ArtifactStore) : PlatformCall → Prop where
  | received : DeliveryCall store .receiveMessage
  | claimed (jobId : Uuid) (leaseSeconds : Int) :
      DeliveryCall store (.repository (.markJobProcessing jobId leaseSeconds))
  | read (jobId : Uuid) : DeliveryCall store (.repository (.getJob jobId))
  | begun (heartbeat : VisibilityHeartbeat) : DeliveryCall store (.startThread heartbeat)
  | drawn : DeliveryCall store .uuid4
  | stored (jobId reportId : Uuid) (rows : ReportRows) :
      DeliveryCall store (.putObject (store.objectKey jobId reportId) rows)
  | completed (jobId processingToken : Uuid) (result : Json) (objectKey objectType : String) :
      DeliveryCall store
        (.repository (.completeJobWithReport jobId processingToken result objectKey objectType))
  | failed (jobId processingToken : Uuid) (error : String) :
      DeliveryCall store (.repository (.failJob jobId processingToken error))
  | ended (thread : Nat) : DeliveryCall store (.stopThread thread)
  | deleted (receiptHandle : ReceiptHandle) : DeliveryCall store (.deleteMessage receiptHandle)
  | counted (metric : Metric) (labels : List String) : DeliveryCall store (.record metric labels)

theorem record_delivers (store : ArtifactStore) (metric : Metric) (labels : List String) :
    Code.Only (DeliveryCall store) (record metric labels) :=
  Code.only_perform (.counted _ _)

theorem claimJob_delivers (store : ArtifactStore) (jobId : Uuid) (leaseSeconds : Int) :
    Code.Only (DeliveryCall store) (claimJob jobId leaseSeconds) := by
  unfold claimJob
  apply (Code.only_perform (.claimed _ _)).bind
  intro claimed
  cases claimed with
  | some job => exact (record_delivers store _ _).bind fun _ => Code.only_pure _
  | none =>
      apply (Code.only_perform (.read _)).bind
      intro existing
      split
      · apply (record_delivers store _ _).bind
        exact fun _ => (record_delivers store _ _).bind fun _ => Code.only_pure _
      · exact (record_delivers store _ _).bind fun _ => Code.only_pure _

theorem completeClaimedJob_delivers (store : ArtifactStore) (job : ClaimedJob) :
    Code.Only (DeliveryCall store) (completeClaimedJob store job) := by
  have stored : Code.Only (DeliveryCall store) (store.putCsvReport job.id (reportRows job)) := by
    apply (Code.only_perform .drawn).bind
    exact fun _ => (Code.only_perform (.stored _ _ _)).bind fun _ => Code.only_pure _
  unfold completeClaimedJob
  apply Code.Only.tryCatch
  · apply stored.bind
    intro returned
    apply (Code.only_perform (.completed _ _ _ _ _)).bind
    intro _
    apply (record_delivers store _ _).bind
    exact fun _ => (record_delivers store _ _).bind fun _ => Code.only_pure _
  · intro error
    apply (record_delivers store _ _).bind
    exact fun _ => (record_delivers store _ _).bind fun _ => Code.only_throw _

theorem consumeClaimed_delivers (store : ArtifactStore) (config : ConsumerConfig) (jobId : Uuid)
    (receiptHandle : ReceiptHandle) (job : ClaimedJob) :
    Code.Only (DeliveryCall store) (consumeClaimed store config jobId receiptHandle job) := by
  unfold consumeClaimed withHeartbeat
  apply Code.Only.tryCatch
  · apply Code.Only.bind
    · apply (Code.only_perform (.begun _)).bind
      intro thread
      exact (completeClaimedJob_delivers store job).finally_ (Code.only_perform (.ended _))
    · exact fun _ => (Code.only_perform (.deleted _)).bind fun _ => Code.only_pure _
  · intro error
    cases error with
    | lostJobClaimError => exact Code.only_pure _
    | _ => exact (Code.only_perform (.failed _ _ _)).bind fun _ => Code.only_pure _

theorem consumeOneMessage_only (store : ArtifactStore) (config : ConsumerConfig) :
    Code.Only (DeliveryCall store) (consumeOneMessage store config) := by
  have received : Code.Only (DeliveryCall store) receiveJob :=
    receiveJob_only.mono fun call isReceive => isReceive ▸ .received
  unfold consumeOneMessage
  apply (received.tryCatch fun _ => Code.only_pure _).bind
  intro message
  match message with
  | none => exact Code.only_pure _
  | some (jobId, receiptHandle) =>
      apply (claimJob_delivers store _ _).bind
      intro outcome
      match outcome with
      | .claimed job => exact consumeClaimed_delivers store config jobId receiptHandle job
      | .status .completed => exact Code.only_throw _
      | .status .inProgressNotOwned => exact Code.only_pure _
      | .status .duplicateCompleted =>
          exact (Code.only_perform (.deleted _)).bind fun _ => Code.only_pure _

end JobPlatform.Runtime
