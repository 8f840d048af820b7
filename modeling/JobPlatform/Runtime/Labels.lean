import Mathlib.Data.List.Dedup
import JobPlatform.Runtime.Invariants
import JobPlatform.Runtime.RequestMetrics

/-!
Contract: the label values the platform records, over every run.

Owns:
- `monitored`, the platform together with the requests of its API: every request passes the
  middleware, and a job is created for the accepted body of a `POST /jobs` in progress;
- `tupleTable`, the label values of each metric, given the job types in use;
- where a label comes from: a job type travels from an accepted body through the jobs table into
  the labels of the worker, and nothing else that a client chooses does;
- `inTables_of_reachable`: if the clients ask for these job types alone, every label stays in the
  tables.
-/

namespace JobPlatform.Runtime

open JobPlatform.Foundation JobPlatform.Foundation.ThreadSystem JobPlatform.Store

/-! ### The platform with its requests -/

/-- The world, the requests in progress, and what the middleware recorded. -/
structure Monitored where
  world : World
  requests : List HttpRequest
  recorded : List ApiRecord

def Monitored.initial : Monitored := ⟨World.initial, [], []⟩

/-- The request is a `POST /jobs` with an accepted body. -/
structure HttpRequest.Posts (request : HttpRequest) (create : JobCreate) : Prop where
  method : request.method = "POST"
  route : request.route = some .createJob
  accepted : JobCreate.validate request.body = some create

/-- What happens without a thread. The clients send any request with an admitted method; the job
types of the jobs they ask for satisfy `clients`. -/
inductive MonitoredEnv (server : ApiServer) (clients : String → Prop) (s : Monitored) :
    Monitored → Prop where
  | received {request : HttpRequest} (admitted : request.method ∈ server.methods)
      (asked : ∀ create, request.Posts create → clients create.jobType) :
      MonitoredEnv server clients s { s with
        requests := s.requests ++ [request]
        recorded := s.recorded ++ dispatchStart request }
  | finished {before after : List HttpRequest} {request : HttpRequest} {handling : Handling}
      (inProgress : s.requests = before ++ request :: after) (allowed : server.Allows handling) :
      MonitoredEnv server clients s { s with
        requests := before ++ after
        recorded := s.recorded ++ dispatchEnd request handling }
  | queue {world : World} (moved : s.world.Env world) :
      MonitoredEnv server clients s { s with world }

/-- The programs that may start: the endpoint of a `POST /jobs` in progress, and every program of
the platform but the creation of a job. -/
inductive MonitoredStart (isCloud : Bool) (s : Monitored) :
    Program platform Unit → Monitored → Prop where
  | posted {request : HttpRequest} {create : JobCreate} (member : request ∈ s.requests)
      (posts : request.Posts create) :
      MonitoredStart isCloud s (Code.task (createJobEndpoint (createJobPublisher isCloud false)
        create request.correlationId)) s
  | other {program : Program platform Unit} {world : World}
      (started : s.world.Start isCloud program world)
      (notCreation : ∀ jobType payload correlationId, program ≠ Code.task
        (ApplicationService.createJob (createJobPublisher isCloud false) jobType payload
          correlationId)) :
      MonitoredStart isCloud s program { s with world }

/-- The platform with its API, for clients that ask for these job types. -/
def monitored (isCloud : Bool) (server : ApiServer) (clients : String → Prop) :
    ThreadSystem platform Monitored where
  exec t s call reply after := ∃ done, s.world.Perform call reply done ∧
    after = { s with world := done.logged t call reply }
  start _ s program after := MonitoredStart isCloud s program after
  env s after := MonitoredEnv server clients s after

/-! ### The tables -/

/-- The metrics of `metrics.py`. -/
inductive DeclaredMetric where
  | worker (metric : Metric)
  | api (metric : ApiMetric)

/-- The label values recorded in a metric, one entry for each time. -/
def Monitored.tuples (s : Monitored) : DeclaredMetric → List (List String)
  | .worker metric => s.world.log.filterMap fun entry =>
      match entry.call with
      | .record recorded labels => if recorded = metric then some labels else none
      | _ => none
  | .api metric => (s.recorded.filter fun record => record.1 = metric).map Prod.snd

/-- The label values a metric of the worker may carry, for jobs of these types. -/
def workerTable (jobTypes : List String) : Metric → List (List String)
  | .workerOutboxDispatch => [["attempt"], ["success"], ["failure"]]
  | .workerJobsProcessed => jobTypes.flatMap fun jobType => [[jobType, "success"], [jobType, "failure"]]
  | .workerJobDuration => jobTypes.flatMap fun jobType => [[jobType, "success"], [jobType, "failure"]]
  | .workerDuplicateJobs => [["completed"]]
  | .workerJobClaims => [["acquired"], ["duplicate_completed"], ["in_progress_not_owned"]]
  | .workerOutboxReclaims => [["reclaimed"]]
  | .workerVisibilityHeartbeatFailures => [["db_lease_renewal"], ["sqs_change_visibility"]]

/-- The label values of each metric. -/
def tupleTable (server : ApiServer) (jobTypes : List String) : DeclaredMetric → List (List String)
  | .worker metric => workerTable jobTypes metric
  | .api metric => apiTable server metric

/-! ### Where a label comes from -/

/-- The call records labels of the table, or creates a job of one of the types. -/
def Labelled (jobTypes : List String) : PlatformCall → Prop
  | .record metric labels => labels ∈ workerTable jobTypes metric
  | .repository (.createJob jobType ..) => jobType ∈ jobTypes
  | _ => True

/-- Every job, and every job that is asked for, is of one of the types. -/
structure Vetted (server : ApiServer) (jobTypes : List String) (s : Monitored) : Prop where
  rows : ∀ job ∈ s.world.db.jobs.rows, job.jobType ∈ jobTypes
  admitted : ∀ request ∈ s.requests, request.method ∈ server.methods
  asked : ∀ request ∈ s.requests, ∀ create, request.Posts create → create.jobType ∈ jobTypes

section Effect

variable {inputs : Inputs} {db after : Database} {jobTypes : List String}

/-- An update of a job keeps the job types. -/
theorem jobTypes_of_update {jobId : Uuid} {clause : JobRow → Truth} {set : JobRow → JobRow}
    {fixed : ∀ row, (set row).id = row.id} {row : Option JobRow}
    (update : JobUpdate db jobId clause set fixed row after)
    (kept : ∀ row, (set row).jobType = row.jobType)
    (typed : ∀ job ∈ db.jobs.rows, job.jobType ∈ jobTypes) :
    ∀ job ∈ after.jobs.rows, job.jobType ∈ jobTypes := by
  cases update with
  | hit found =>
      apply Database.forall_setJob found typed
      rw [kept]
      exact typed _ (Database.job?_eq_some.mp found).1
  | miss => exact typed

/-- Only a creation adds a job type. -/
theorem jobTypes_of_effect {call : RepoCall} {value : call.Result}
    (effect : Effect inputs db call value after) (labelled : Labelled jobTypes (.repository call))
    (typed : ∀ job ∈ db.jobs.rows, job.jobType ∈ jobTypes) :
    ∀ job ∈ after.jobs.rows, job.jobType ∈ jobTypes := by
  cases effect with
  | jobCreated inserted =>
      intro job member
      rw [Table.rows_of_insert? inserted] at member
      rcases List.mem_append.mp member with old | new
      · exact typed job old
      · rw [List.mem_singleton.mp new]
        exact labelled
  | jobClaimed _ update => exact jobTypes_of_update update (fun _ => rfl) typed
  | leaseRenewed _ update => exact jobTypes_of_update update (fun _ => rfl) typed
  | jobFailed _ update => exact jobTypes_of_update update (fun _ => rfl) typed
  | jobCompleted found _ completion =>
      have isTyped := typed _ (Database.job?_eq_some.mp found).1
      rw [completion.jobs]
      exact Database.forall_setJob found typed isTyped
  | eventPublished _ update => cases update <;> exact typed
  | eventFailed _ update => cases update <;> exact typed
  | _ => exact typed

/-- A granted claim carries the type of its row. -/
theorem jobType_of_grant {jobId : Uuid} {leaseSeconds : Int} {job : Repository.ClaimedJob}
    (effect : Effect inputs db (.markJobProcessing jobId leaseSeconds) (some job) after)
    (typed : ∀ job ∈ db.jobs.rows, job.jobType ∈ jobTypes) : job.jobType ∈ jobTypes := by
  cases effect with
  | jobClaimed isValue update =>
      cases update with
      | hit found =>
          have isTyped := typed _ (Database.job?_eq_some.mp found).1
          cases isValue
          exact isTyped
      | miss => cases isValue

end Effect

section Labels

variable {isCloud : Bool} {server : ApiServer} {clients : String → Prop} {jobTypes : List String}

/-- A labelled call keeps the types of the jobs. -/
theorem Vetted.perform {s : Monitored} {t : ThreadId} {call : PlatformCall}
    {reply : platform.Reply call} {done : World} (vetted : Vetted server jobTypes s)
    (labelled : Labelled jobTypes call) (performed : s.world.Perform call reply done) :
    Vetted server jobTypes { s with world := done.logged t call reply } := by
  refine ⟨?_, vetted.admitted, vetted.asked⟩
  show ∀ job ∈ done.db.jobs.rows, job.jobType ∈ jobTypes
  rcases performed.database with same | ⟨repoCall, inputs, value, rfl, _, effect⟩
  · rw [same]
    exact vetted.rows
  · exact jobTypes_of_effect effect labelled vetted.rows

theorem Vetted.env {s after : Monitored} (vetted : Vetted server jobTypes s)
    (within : ∀ create : JobCreate, clients create.jobType → create.jobType ∈ jobTypes)
    (moved : MonitoredEnv server clients s after) : Vetted server jobTypes after := by
  cases moved with
  | @received request admitted asked =>
      refine ⟨vetted.rows, ?_, ?_⟩
      · intro other member
        rcases List.mem_append.mp member with old | new
        · exact vetted.admitted other old
        · rw [List.mem_singleton.mp new]
          exact admitted
      · intro other member create posts
        rcases List.mem_append.mp member with old | new
        · exact vetted.asked other old create posts
        · rw [List.mem_singleton.mp new] at posts
          exact within create (asked create posts)
  | @finished before after request handling inProgress allowed =>
      have kept : ∀ other ∈ before ++ after, other ∈ s.requests := by
        intro other member
        rw [inProgress]
        exact (List.sublist_cons_self request after).append_left before |>.subset member
      exact ⟨vetted.rows, fun other member => vetted.admitted other (kept other member),
        fun other member => vetted.asked other (kept other member)⟩
  | queue moved =>
      refine ⟨?_, vetted.admitted, vetted.asked⟩
      show ∀ job ∈ World.db _ |>.jobs.rows, job.jobType ∈ jobTypes
      rw [moved.db_eq]
      exact vetted.rows

/-- The discipline: calls are labelled, and the types of the jobs are vetted. -/
def labelling (isCloud : Bool) (server : ApiServer) (clients : String → Prop)
    (jobTypes : List String)
    (within : ∀ create : JobCreate, clients create.jobType → create.jobType ∈ jobTypes) :
    Discipline (monitored isCloud server clients) :=
  .ofOrder (Vetted server jobTypes) (fun _ _ call => Labelled jobTypes call) (fun _ _ => True)
    (fun _ => trivial) (fun _ _ => trivial)
    (by
      rintro t s call reply after vetted labelled ⟨done, performed, rfl⟩
      exact ⟨vetted.perform labelled performed, trivial⟩)
    (fun vetted moved => ⟨vetted.env within moved, trivial⟩)

/-! ### The labels of each program -/

theorem DispatchCall.labelled (call : PlatformCall) (dispatches : DispatchCall call) :
    Labelled jobTypes call := by
  cases dispatches with
  | reclaimed => simp [Labelled, workerTable]
  | counted isResult => simpa [Labelled, workerTable] using isResult
  | _ => trivial

theorem HeartbeatCall.labelled (call : PlatformCall) (beats : HeartbeatCall call) :
    Labelled jobTypes call := by
  cases beats with
  | counted isOperation => simpa [Labelled, workerTable] using isOperation
  | _ => trivial

theorem CreateCall.labelled {jobType : String} (isType : jobType ∈ jobTypes) (call : PlatformCall)
    (creates : ApplicationService.CreateCall jobType call) : Labelled jobTypes call := by
  cases creates with
  | created => exact isType
  | _ => trivial

theorem createJobEndpoint_labelled {publisher : JobPublisher} {create : JobCreate}
    (isType : create.jobType ∈ jobTypes) (correlationId : Option HeaderValue) :
    Code.Only (Labelled jobTypes) (createJobEndpoint publisher create correlationId) := by
  have created : Code.Only (Labelled jobTypes) (ApplicationService.createJob publisher
      create.jobType (.obj create.payload) (correlationId.map HeaderValue.text)) :=
    (ApplicationService.createJob_only _ _ _ _).mono (CreateCall.labelled isType)
  exact (created.bind fun _ => Code.only_pure _).tryCatch fun _ => Code.only_pure _

/-- Only a claimed job brings a label that is no constant: its type. -/
theorem completeClaimedJob_labelled {store : ArtifactStore} {job : Repository.ClaimedJob}
    (isType : job.jobType ∈ jobTypes) :
    Code.Only (Labelled jobTypes) (completeClaimedJob store job) := by
  have recorded : ∀ {metric : Metric} {result : String},
      [job.jobType, result] ∈ workerTable jobTypes metric →
      Code.Only (Labelled jobTypes) (record metric [job.jobType, result]) :=
    fun member => Code.only_perform member
  have pair : ∀ {result : String}, result ∈ ["success", "failure"] → ∀ ending : Run JobProcessStatus,
      Code.Only (Labelled jobTypes) ending → Code.Only (Labelled jobTypes)
        (record .workerJobsProcessed [job.jobType, result] >>= fun _ =>
          record .workerJobDuration [job.jobType, result] >>= fun _ => ending) := by
    intro result isResult ending only
    have member : [job.jobType, result] ∈ jobTypes.flatMap fun jobType =>
        [[jobType, "success"], [jobType, "failure"]] := by
      apply List.mem_flatMap.mpr ⟨_, isType, _⟩
      simpa using isResult
    exact (recorded member).bind fun _ => (recorded member).bind fun _ => only
  have stored : Code.Only (Labelled jobTypes) (store.putCsvReport job.id (reportRows job)) :=
    (Code.only_perform trivial).bind fun _ => (Code.only_perform trivial).bind fun _ => trivial
  unfold completeClaimedJob
  apply Code.Only.tryCatch
  · apply stored.bind
    intro returned
    apply (Code.only_perform trivial).bind
    exact fun _ => pair (by simp) _ (Code.only_pure _)
  · exact fun error => pair (by simp) _ (Code.only_throw _)

theorem consumeClaimed_labelled {store : ArtifactStore} {config : ConsumerConfig} {jobId : Uuid}
    {receiptHandle : ReceiptHandle} {job : Repository.ClaimedJob}
    (isType : job.jobType ∈ jobTypes) :
    Code.Only (Labelled jobTypes) (consumeClaimed store config jobId receiptHandle job) := by
  unfold consumeClaimed withHeartbeat
  apply Code.Only.tryCatch
  · apply Code.Only.bind
    · apply Code.Only.bind (Code.only_perform trivial)
      exact fun _ => (completeClaimedJob_labelled isType).finally_ (Code.only_perform trivial)
    · exact fun _ => (Code.only_perform trivial).bind fun _ => Code.only_pure _
  · intro error
    cases error with
    | lostJobClaimError => exact Code.only_pure _
    | _ => exact (Code.only_perform trivial).bind fun _ => Code.only_pure _

section Safe

variable {within : ∀ create : JobCreate, clients create.jobType → create.jobType ∈ jobTypes}
  {t : ThreadId} {s : Monitored} {α : Type}

/-- Code all of whose calls are labelled is safe. -/
theorem safe_of_labelled {code : Run α} (only : Code.Only (Labelled jobTypes) code) :
    (labelling isCloud server clients jobTypes within).SafeCode t code
      (Discipline.Returns fun _ _ => True) s := by
  apply Discipline.SafeCode.mono
  · exact Discipline.Safe.ofOnly (A := fun _ => True) (fun _ _ => trivial) (fun _ _ _ => trivial)
      (fun _ _ labelled => labelled) only trivial
  · exact fun _ _ _ _ _ => trivial

/-- A claim that was granted is of a vetted type. -/
theorem claimJob_safe (jobId : Uuid) (leaseSeconds : Int) :
    (labelling isCloud server clients jobTypes within).SafeCode t (claimJob jobId leaseSeconds)
      (Discipline.Returns fun outcome _ => ∀ job, outcome = .claimed job → job.jobType ∈ jobTypes)
      s := by
  have recorded : ∀ {metric : Metric} {labels : List String},
      labels ∈ workerTable jobTypes metric → Code.Only (Labelled jobTypes) (record metric labels) :=
    fun member => Code.only_perform member
  have marked : (labelling isCloud server clients jobTypes within).SafeCode t
      (repository (.markJobProcessing jobId leaseSeconds))
      (Discipline.Returns fun claimed _ => ∀ job, claimed = some job → job.jobType ∈ jobTypes)
      s := by
    apply Discipline.safe_perform
    intro before _ vetted
    refine ⟨trivial, ?_⟩
    rintro reply after ⟨done, performed, rfl⟩ _ claimed rfl job rfl
    obtain ⟨inputs, _, _, effect⟩ := performed.effect
    exact jobType_of_grant effect vetted.rows
  unfold claimJob
  apply Discipline.returns_bind marked
  intro claimed s typed
  cases claimed with
  | some job =>
      apply Discipline.returns_bind (safe_of_labelled (recorded (by simp [workerTable])))
      intro _ s _
      apply Discipline.returns_pure
      rintro _ ⟨⟩
      exact typed job rfl
  | none =>
      have refused : ∀ (status : JobProcessStatus) (s : Monitored),
          (labelling isCloud server clients jobTypes within).SafeCode t
            (pure (.status status)) (Discipline.Returns fun outcome _ =>
              ∀ job, outcome = ClaimOutcome.claimed job → job.jobType ∈ jobTypes) s :=
        fun status s => Discipline.returns_pure nofun
      have looked : Code.Only (Labelled jobTypes) (repository (.getJob jobId)) :=
        Code.only_perform trivial
      apply Discipline.returns_bind (safe_of_labelled looked)
      intro existing s _
      split
      · apply Discipline.returns_bind (safe_of_labelled (recorded (by simp [workerTable])))
        intro _ s _
        apply Discipline.returns_bind (safe_of_labelled (recorded (by simp [workerTable])))
        exact fun _ s _ => refused _ s
      · apply Discipline.returns_bind (safe_of_labelled (recorded (by simp [workerTable])))
        exact fun _ s _ => refused _ s

/-- The rest of a program that claimed a job. -/
theorem claim_safe {jobId : Uuid} {leaseSeconds : Int} {next : ClaimOutcome → Run α}
    (claimed : ∀ job, job.jobType ∈ jobTypes →
      Code.Only (Labelled jobTypes) (next (.claimed job)))
    (refused : ∀ status, Code.Only (Labelled jobTypes) (next (.status status))) :
    (labelling isCloud server clients jobTypes within).SafeCode t
      (claimJob jobId leaseSeconds >>= next) (Discipline.Returns fun _ _ => True) s := by
  apply Discipline.returns_bind (claimJob_safe jobId leaseSeconds)
  intro outcome s typed
  cases outcome with
  | claimed job => exact safe_of_labelled (claimed job (typed job rfl))
  | status status => exact safe_of_labelled (refused status)

theorem consumeOneMessage_safe (store : ArtifactStore) (config : ConsumerConfig) :
    (labelling isCloud server clients jobTypes within).SafeCode t (consumeOneMessage store config)
      (Discipline.Returns fun _ _ => True) s := by
  have received : Code.Only (Labelled jobTypes) (tryCatch receiveJob fun _ => pure none) :=
    (receiveJob_only.mono fun call isReceive => isReceive ▸ trivial).tryCatch fun _ =>
      Code.only_pure _
  unfold consumeOneMessage
  apply Discipline.returns_bind (safe_of_labelled received)
  intro message s _
  match message with
  | none => exact Discipline.returns_pure trivial
  | some (jobId, receiptHandle) =>
      apply claim_safe
      · exact fun job isType => consumeClaimed_labelled isType
      · intro status
        cases status with
        | completed => exact Code.only_throw _
        | inProgressNotOwned => exact Code.only_pure _
        | duplicateCompleted => exact (Code.only_perform trivial).bind fun _ => Code.only_pure _

theorem processJob_safe (store : ArtifactStore) (jobId : Uuid) (leaseSeconds : Int) :
    (labelling isCloud server clients jobTypes within).SafeCode t
      (processJob store jobId leaseSeconds) (Discipline.Returns fun _ _ => True) s := by
  apply claim_safe
  · intro job isType
    apply (completeClaimedJob_labelled isType).tryCatch
    intro error
    cases error with
    | lostJobClaimError => exact Code.only_throw _
    | _ => exact (Code.only_perform trivial).bind fun _ => Code.only_throw _
  · exact fun status => Code.only_pure _

end Safe

/-- Every program that may start is labelled. -/
theorem labelling_starts
    (within : ∀ create : JobCreate, clients create.jobType → create.jobType ∈ jobTypes) :
    (labelling isCloud server clients jobTypes within).Starts := by
  intro t s program after vetted started
  have started : MonitoredStart isCloud s program after := started
  cases started with
  | posted member posts =>
      refine ⟨vetted, fun _ _ => trivial, ?_⟩
      apply Discipline.safe_task
      exact safe_of_labelled (createJobEndpoint_labelled (vetted.asked _ member _ posts) _)
  | @other _ world begun notCreation =>
      have same : world.db = s.world.db := by cases begun <;> rfl
      refine ⟨⟨same ▸ vetted.rows, vetted.admitted, vetted.asked⟩, fun _ _ => trivial, ?_⟩
      cases begun with
      | createJob jobType payload correlationId => exact absurd rfl (notCreation _ _ _)
      | createCustomer name email =>
          exact Discipline.safe_task (safe_of_labelled (Code.only_perform trivial))
      | getJob jobId => exact Discipline.safe_task (safe_of_labelled (Code.only_perform trivial))
      | dispatchOutbox limit leaseSeconds =>
          exact Discipline.safe_task
            (safe_of_labelled ((dispatchOutbox_only _ _ _).mono DispatchCall.labelled))
      | consumeOneMessage store config => exact Discipline.safe_task (consumeOneMessage_safe _ _)
      | processJob store jobId leaseSeconds => exact Discipline.safe_task (processJob_safe _ _ _)
      | heartbeat =>
          exact Discipline.safe_task
            (safe_of_labelled ((heartbeat_only _ _ _).mono HeartbeatCall.labelled))

/-- What the log and the middleware have recorded so far. -/
structure InTables (server : ApiServer) (jobTypes : List String) (s : Monitored) : Prop where
  log : ∀ entry ∈ s.world.log, Labelled jobTypes entry.call
  api : ∀ record ∈ s.recorded, record.2 ∈ apiTable server record.1

theorem InTables.env {s after : Monitored} (tables : InTables server jobTypes s)
    (admitted : ∀ request ∈ s.requests, request.method ∈ server.methods)
    (moved : MonitoredEnv server clients s after) : InTables server jobTypes after := by
  have more : ∀ {records : List ApiRecord},
      (∀ record ∈ records, record.2 ∈ apiTable server record.1) →
      ∀ record ∈ s.recorded ++ records, record.2 ∈ apiTable server record.1 := by
    intro records new record member
    exact (List.mem_append.mp member).elim (tables.api record) (new record)
  cases moved with
  | received isAdmitted => exact ⟨tables.log, more (dispatchStart_mem isAdmitted)⟩
  | @finished before after request handling inProgress allowed =>
      have isAdmitted := admitted request (by simp [inProgress])
      exact ⟨tables.log, more (dispatchEnd_mem isAdmitted allowed)⟩
  | queue moved =>
      refine ⟨?_, tables.api⟩
      show ∀ entry ∈ World.log _, Labelled jobTypes entry.call
      rw [moved.log_eq]
      exact tables.log

/-- Everything recorded in a run is in the tables, if the clients ask for these job types. -/
theorem inTables_of_reachable
    (within : ∀ create : JobCreate, clients create.jobType → create.jobType ∈ jobTypes)
    {pool : Pool platform Monitored}
    (reached : (monitored isCloud server clients).Reachable Monitored.initial pool) :
    Vetted server jobTypes pool.state ∧ InTables server jobTypes pool.state := by
  have opening : Vetted server jobTypes Monitored.initial :=
    ⟨List.forall_mem_nil _, List.forall_mem_nil _, List.forall_mem_nil _⟩
  refine Discipline.invariant_of_reachable (labelling_starts within) opening
    (I := fun s => Vetted server jobTypes s ∧ InTables server jobTypes s)
    ⟨opening, List.forall_mem_nil _, List.forall_mem_nil _⟩ ?_ ?_ ?_ reached
  · rintro t s call reply after ⟨vetted, tables⟩ labelled ⟨done, performed, rfl⟩
    refine ⟨vetted.perform labelled performed, ?_, tables.api⟩
    show ∀ entry ∈ done.log ++ _, Labelled jobTypes entry.call
    rw [performed.log_eq]
    intro entry member
    rcases List.mem_append.mp member with old | new
    · exact tables.log entry old
    · rw [List.mem_singleton.mp new]
      exact labelled
  · rintro t s program after ⟨vetted, tables⟩ started
    have started : MonitoredStart isCloud s program after := started
    cases started with
    | posted => exact ⟨vetted, tables⟩
    | other begun =>
        cases begun <;>
          exact ⟨⟨vetted.rows, vetted.admitted, vetted.asked⟩, ⟨tables.log, tables.api⟩⟩
  · rintro s after ⟨vetted, tables⟩ moved
    exact ⟨vetted.env within moved, tables.env vetted.admitted moved⟩

/-- What is in the tables of the log is in the table of its metric. -/
theorem InTables.tuples {s : Monitored} (tables : InTables server jobTypes s)
    (metric : DeclaredMetric) :
    ∀ labels ∈ s.tuples metric, labels ∈ tupleTable server jobTypes metric := by
  intro labels member
  cases metric with
  | worker metric =>
      obtain ⟨entry, inLog, isTuple⟩ := List.mem_filterMap.mp member
      have labelled := tables.log entry inLog
      obtain ⟨t, call, reply⟩ := entry
      cases call with
      | record recorded values =>
          simp only [Option.ite_none_right_eq_some, Option.some.injEq] at isTuple
          obtain ⟨rfl, rfl⟩ := isTuple
          exact labelled
      | _ => cases isTuple
  | api metric =>
      obtain ⟨record, inRecords, rfl⟩ := List.mem_map.mp member
      obtain ⟨isRecorded, isMetric⟩ := List.mem_filter.mp inRecords
      have inTable := tables.api record isRecorded
      rwa [of_decide_eq_true isMetric] at inTable

end Labels

end JobPlatform.Runtime
