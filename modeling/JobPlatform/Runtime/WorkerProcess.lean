import JobPlatform.Foundation.Hosting
import JobPlatform.Runtime.LogLines
import JobPlatform.Runtime.Settings

/-!
Contract: `run_idle_worker` of `application/worker/main.py`, from the environment of the process to
its exit.

Owns:
- the calls a worker process makes outside of its work, and its code;
- `runIdleWorker_serves`: between these calls it runs whole dispatches and whole deliveries;
- `worker_lifecycle`: what the process does before, with and after its pool of connections.

The tracing and the log lines are left out: they cannot raise, and nothing reads them. The clients of
AWS are built without a call. Python's `while` has no bound; `rounds` bounds the rounds of a run, and
a later shutdown needs more of them.
-/

namespace JobPlatform.Runtime.WorkerProcess

open JobPlatform.Foundation JobPlatform.Store
open JobPlatform.Store.Repository (ClaimedJob ClaimedEvent)

/-- The calls outside of the work. `shutdownRequested` reads the flag that the signals set. -/
inductive ProcessCall where
  | startHttpServer (host : String) (port : Int)
  | onSignal (name : String)
  | openDatabase (conninfo : Settings.Conninfo)
  | closeDatabase
  | shutdownRequested
  | sleep (seconds : Nat)

/-- What each of them returns. -/
@[reducible] def ProcessCall.Answer : ProcessCall → Type
  | shutdownRequested => Bool
  | _ => Unit

/-- The language of a worker process. -/
@[reducible] def workerProcess : Calls := platform.withOwn ProcessCall ProcessCall.Answer

/-- Code of a worker process. -/
abbrev Process (α : Type) := Code workerProcess α

/-- Make one call outside of the work. -/
def own (call : ProcessCall) : Process call.Answer := Code.perform (S := workerProcess) (.inr call)

/-- A check that raises this error. -/
def orRaise {α : Type} (error : Exn) (result : Except String α) : Process α :=
  Code.ofExcept (S := workerProcess) (result.mapError fun _ => error)

/-! ### Starting -/

/-- `start_worker_metrics_server`. -/
def startWorkerMetricsServer (host : String) (port : Int) : Process Bool :=
  tryCatch
    (do
      own (.startHttpServer host port)
      return true)
    fun _ => return false

/-! ### Working -/

/-- The loop of `run_idle_worker`. -/
def serve (publisher : JobPublisher) (settings : Settings) : Nat → Process Unit
  | 0 => return ()
  | rounds + 1 => do
      if ← own .shutdownRequested then
        return ()
      else
        let _ ← (dispatchOutbox publisher 10 settings.outboxClaimLeaseSeconds).hosted
        if settings.isCloud then
          let _ ← (consumeOneMessage ⟨settings.artifactPrefix⟩ settings.consumerConfig).hosted
        else
          own (.sleep 2)
        serve publisher settings rounds

/-- The `try` of `run_idle_worker`: `create_artifact_store`, `create_job_publisher`,
`create_job_consumer` and the loop. -/
def work (settings : Settings) (rounds : Nat) : Process Unit := do
  let _ ← Code.ofExcept (S := workerProcess) (createArtifactStore settings.toArtifactSettings)
  if settings.isCloud then
    orRaise .valueError settings.validateQueue
  if settings.isCloud then
    orRaise .valueError settings.validateQueue
  serve (createJobPublisher settings.isCloud settings.isCloud) settings rounds

/-- `run_idle_worker` between the settings and `database.open()`. -/
def prepare (settings : Settings) : Process Settings.Conninfo := do
  let _ ← orRaise .valueError (configureLogging settings.logLevel)
  if settings.metricsEnabled then
    let _ ← startWorkerMetricsServer settings.workerMetricsHost settings.workerMetricsPort
  own (.onSignal "SIGINT")
  own (.onSignal "SIGTERM")
  orRaise .valueError settings.validateWorkerRuntime
  orRaise .valueError settings.databaseConninfo

/-- `run_idle_worker` from `database.open()` on. -/
def session (settings : Settings) (rounds : Nat) (conninfo : Settings.Conninfo) : Process Unit := do
  own (.openDatabase conninfo)
  Code.finally_ (work settings rounds) (own .closeDatabase)

/-- `run_idle_worker`. -/
def runIdleWorker (P : Pydantic) (environment : Environment) (rounds : Nat) : Process Unit := do
  let settings ← orRaise (.other "ValidationError") (Settings.load P environment)
  let conninfo ← prepare settings
  session settings rounds conninfo

/-! ### The pieces of its work -/

/-- A dispatch or a delivery of a worker in this mode. -/
inductive WorkerPiece (isCloud : Bool) : Program platform Unit → Prop where
  | dispatch (limit leaseSeconds : Int) :
      WorkerPiece isCloud (Code.task (dispatchOutbox (createJobPublisher isCloud true) limit
        leaseSeconds))
  | consume (store : ArtifactStore) (config : ConsumerConfig) :
      WorkerPiece isCloud (Code.task (consumeOneMessage store config))

section Serving

variable {P : Pydantic} {environment : Environment} {settings : Settings} {isCloud : Bool}

theorem createJobPublisher_direct (isCloud : Bool) :
    createJobPublisher isCloud isCloud = createJobPublisher isCloud true := by
  cases isCloud <;> rfl

theorem serve_serves (settings : Settings) (rounds : Nat) :
    Code.Serves (WorkerPiece settings.isCloud)
      (serve (createJobPublisher settings.isCloud settings.isCloud) settings rounds) := by
  induction rounds with
  | zero => exact Code.serves_pure _
  | succ rounds inductionHypothesis =>
      unfold serve
      refine (Code.serves_own _).bind fun requested => ?_
      split
      · exact Code.serves_pure _
      · refine Code.Serves.bind (Code.serves_hosted ?_) fun dispatched => ?_
        · rw [createJobPublisher_direct]
          exact .dispatch _ _
        split
        · refine Code.Serves.bind (Code.serves_hosted (.consume _ _)) fun consumed => ?_
          exact inductionHypothesis
        · exact (Code.serves_own _).bind fun _ => inductionHypothesis

theorem work_serves (settings : Settings) (rounds : Nat) :
    Code.Serves (WorkerPiece settings.isCloud) (work settings rounds) := by
  have loop := serve_serves settings rounds
  have checked : Code.Serves (WorkerPiece settings.isCloud)
      (orRaise .valueError settings.validateQueue) := Code.serves_ofExcept _
  unfold work
  refine (Code.serves_ofExcept _).bind fun store => ?_
  split
  · exact checked.bind fun _ => checked.bind fun _ => loop
  · exact loop

theorem prepare_serves (settings : Settings) :
    Code.Serves (WorkerPiece isCloud) (prepare settings) := by
  have rest : Code.Serves (WorkerPiece isCloud) (do
      own (.onSignal "SIGINT")
      own (.onSignal "SIGTERM")
      orRaise .valueError settings.validateWorkerRuntime
      orRaise .valueError settings.databaseConninfo) := by
    refine (Code.serves_own _).bind fun _ => (Code.serves_own _).bind fun _ => ?_
    exact (Code.serves_ofExcept _).bind fun _ => Code.serves_ofExcept _
  unfold prepare
  refine (Code.serves_ofExcept _).bind fun _ => ?_
  split
  · refine Code.Serves.bind ?_ fun _ => rest
    unfold startWorkerMetricsServer
    exact ((Code.serves_own _).bind fun _ => Code.serves_pure _).tryCatch fun _ => Code.serves_pure _
  · exact rest

/-- Between its own calls a worker process runs whole dispatches and whole deliveries. -/
theorem runIdleWorker_serves
    (mode : ∀ settings, Settings.load P environment = .ok settings → settings.isCloud = isCloud)
    (rounds : Nat) : Code.Serves (WorkerPiece isCloud) (runIdleWorker P environment rounds) := by
  unfold runIdleWorker
  cases loaded : Settings.load P environment with
  | error text => exact Code.serves_ofExcept _
  | ok settings =>
      rw [← mode settings loaded]
      have prepared : Code.Serves (WorkerPiece settings.isCloud) (prepare settings) :=
        prepare_serves settings
      refine prepared.bind fun conninfo => ?_
      exact (Code.serves_own _).bind fun _ => (work_serves settings rounds).finally_ (Code.serves_own _)

end Serving

/-! ### Its life -/

/-- A call of a process before its pool of connections is open. -/
def Preparing : workerProcess.Call → Prop
  | .inr (.startHttpServer ..) => True
  | .inr (.onSignal _) => True
  | _ => False

/-- A call of a process while its pool of connections is open. -/
def Working : workerProcess.Call → Prop
  | .inl _ => True
  | .inr .shutdownRequested => True
  | .inr (.sleep _) => True
  | _ => False

section Life

variable {σ α : Type} {P : Pydantic} {environment : Environment} {rounds : Nat}

/-- The process reads that a shutdown was requested. -/
def Requested : Exchange workerProcess σ → Prop
  | ⟨_, .inr .shutdownRequested, .ok true, _⟩ => True
  | _ => False

theorem hosted_working (code : Run α) : Code.Only Working (code.hosted : Process α) :=
  (Program.only_true code.run).hosted fun _ _ => trivial

theorem serve_working (publisher : JobPublisher) (settings : Settings) (rounds : Nat) :
    Code.Only Working (serve publisher settings rounds) := by
  induction rounds with
  | zero => exact Code.only_pure _
  | succ rounds inductionHypothesis =>
      unfold serve
      refine (Code.only_perform trivial).bind fun requested => ?_
      split
      · exact Code.only_pure _
      · refine (hosted_working _).bind fun dispatched => ?_
        split
        · exact (hosted_working _).bind fun _ => inductionHypothesis
        · exact (Code.only_perform trivial).bind fun _ => inductionHypothesis

theorem work_working (settings : Settings) (rounds : Nat) :
    Code.Only Working (work settings rounds) := by
  have loop := serve_working (createJobPublisher settings.isCloud settings.isCloud) settings rounds
  have checked : Code.Only Working (orRaise .valueError settings.validateQueue) :=
    Code.only_ofExcept _
  unfold work
  refine (Code.only_ofExcept _).bind fun store => ?_
  split
  · exact checked.bind fun _ => checked.bind fun _ => loop
  · exact loop

theorem prepare_preparing (settings : Settings) : Code.Only Preparing (prepare settings) := by
  have rest : Code.Only Preparing (do
      own (.onSignal "SIGINT")
      own (.onSignal "SIGTERM")
      orRaise .valueError settings.validateWorkerRuntime
      orRaise .valueError settings.databaseConninfo) := by
    refine (Code.only_perform trivial).bind fun _ => (Code.only_perform trivial).bind fun _ => ?_
    exact (Code.only_ofExcept _).bind fun _ => Code.only_ofExcept _
  unfold prepare
  refine (Code.only_ofExcept _).bind fun _ => ?_
  split
  · refine Code.Only.bind ?_ fun _ => rest
    unfold startWorkerMetricsServer
    exact ((Code.only_perform trivial).bind fun _ => Code.only_pure _).tryCatch fun _ =>
      Code.only_pure _
  · exact rest

/-- A check that returned, and what ran after it. -/
theorem orRaise_returned {error : Exn} {check : Except String α} {exchanges} {value : α}
    (ran : Transcript (σ := σ) (orRaise error check).run exchanges (.ok value)) :
    check = .ok value := by
  have same := (transcript_done ran).2
  cases check with
  | ok result => exact congrArg _ (Except.ok.inj same).symm
  | error text => cases same

/-- Code that returned, returned from its last part. -/
theorem last_returned {β : Type} {code : Process α} {next : α → Process β} {value : β}
    {exchanges : List (Exchange workerProcess σ)}
    (ran : Transcript (code >>= next).run exchanges (.ok value)) :
    ∃ (first rest : List (Exchange workerProcess σ)) (middle : α),
      Transcript code.run first (.ok middle) ∧ Transcript (next middle).run rest (.ok value) := by
  rcases transcript_codeBind ran with ⟨first, middle, rest, _, codeRan, restRan⟩ | ⟨_, isError, _⟩
  · exact ⟨first, rest, middle, codeRan, restRan⟩
  · cases isError

/-- A process that is ready to open its pool has passed its checks. -/
theorem prepare_returned {settings : Settings} {conninfo : Settings.Conninfo}
    {exchanges : List (Exchange workerProcess σ)}
    (ran : Transcript (prepare settings).run exchanges (.ok conninfo)) :
    settings.validateWorkerRuntime = .ok () ∧ settings.databaseConninfo = .ok conninfo := by
  unfold prepare at ran
  obtain ⟨_, _, _, _, ran⟩ := last_returned ran
  have finish {exchanges : List (Exchange workerProcess σ)}
      (ran : Transcript (do
        own (.onSignal "SIGINT")
        own (.onSignal "SIGTERM")
        orRaise .valueError settings.validateWorkerRuntime
        orRaise .valueError settings.databaseConninfo).run exchanges (.ok conninfo)) :
      settings.validateWorkerRuntime = .ok () ∧ settings.databaseConninfo = .ok conninfo := by
    obtain ⟨_, _, _, _, ran⟩ := last_returned ran
    obtain ⟨_, _, _, _, ran⟩ := last_returned ran
    obtain ⟨_, _, _, validated, ran⟩ := last_returned ran
    exact ⟨orRaise_returned validated, orRaise_returned ran⟩
  split at ran
  · obtain ⟨_, _, _, _, ran⟩ := last_returned ran
    exact finish ran
  · exact finish ran

/-- A call that does not read whether a shutdown was requested. -/
def Unasked : workerProcess.Call → Prop
  | .inr .shutdownRequested => False
  | _ => True

/-- Nothing follows a shutdown that was read. -/
def Stops (exchanges : List (Exchange workerProcess σ)) : Prop :=
  exchanges.Pairwise fun exchange _ => ¬ Requested exchange

/-- The exchanges of a piece of the work, or of a pause, read no shutdown. -/
theorem not_requested {exchanges : List (Exchange workerProcess σ)} {program : Program workerProcess α}
    {value : α} (ran : Transcript program exchanges value)
    (only : program.Only Unasked) : ∀ exchange ∈ exchanges, ¬ Requested exchange := by
  intro exchange member requested
  have unasked := ran.only only exchange member
  obtain ⟨before, call, reply, after⟩ := exchange
  match call with
  | .inr .shutdownRequested => exact unasked
  | .inl _ => exact requested
  | .inr (.startHttpServer ..) => exact requested
  | .inr (.onSignal _) => exact requested
  | .inr (.openDatabase _) => exact requested
  | .inr .closeDatabase => exact requested
  | .inr (.sleep _) => exact requested

/-- Code that reads no shutdown, before code that stops at one. -/
theorem stops_then {β : Type} {code : Process α} {next : α → Process β}
    {exchanges : List (Exchange workerProcess σ)} {result : Except Exn β}
    (only : Code.Only Unasked code)
    (later : ∀ value (rest : List (Exchange workerProcess σ)),
      Transcript (next value).run rest result → Stops rest)
    (ran : Transcript (code >>= next).run exchanges result) : Stops exchanges := by
  rcases transcript_codeBind ran with ⟨first, value, rest, rfl, codeRan, restRan⟩ | ⟨_, _, raised⟩
  · have quiet := not_requested codeRan only
    exact List.pairwise_append.mpr ⟨List.pairwise_of_forall_mem_list fun e member _ _ => quiet e member,
      later value rest restRan, fun e member _ _ => quiet e member⟩
  · have quiet := not_requested raised only
    exact List.pairwise_of_forall_mem_list fun e member _ _ => quiet e member

theorem hosted_unasked (code : Run α) : Code.Only Unasked (code.hosted : Process α) :=
  (Program.only_true code.run).hosted fun _ _ => trivial

/-- The loop stops at the first shutdown it reads. -/
theorem serve_stops {publisher : JobPublisher} {settings : Settings}
    {exchanges : List (Exchange workerProcess σ)} {result : Except Exn Unit}
    (ran : Transcript (serve publisher settings rounds).run exchanges result) : Stops exchanges := by
  induction rounds generalizing exchanges with
  | zero =>
      rw [(transcript_pure ran).1]
      exact .nil
  | succ rounds inductionHypothesis =>
      unfold serve at ran
      rcases transcript_performBind ran with
        ⟨before, requested, after, rest, rfl, continued⟩ | ⟨before, error, after, rfl, _⟩
      · cases requested with
        | true =>
            rw [(transcript_pure continued).1]
            exact List.pairwise_singleton _ _
        | false =>
            refine List.pairwise_cons.mpr ⟨fun _ _ => id, ?_⟩
            refine stops_then (hosted_unasked _) (fun dispatched rest ran => ?_) continued
            split at ran
            · exact stops_then (hosted_unasked _) (fun _ _ => inductionHypothesis) ran
            · have pause : Code.Only Unasked (own (.sleep 2)) := Code.only_perform trivial
              exact stops_then pause (fun _ _ => inductionHypothesis) ran
      · exact List.pairwise_singleton _ _

theorem work_stops {settings : Settings} {exchanges : List (Exchange workerProcess σ)}
    {result : Except Exn Unit} (ran : Transcript (work settings rounds).run exchanges result) :
    Stops exchanges := by
  unfold work at ran
  refine stops_then (Code.only_ofExcept _) (fun store rest ran => ?_) ran
  split at ran
  · refine stops_then (Code.only_ofExcept _) (fun _ _ ran => ?_) ran
    exact stops_then (Code.only_ofExcept _) (fun _ _ => serve_stops) ran
  · exact serve_stops ran

/-- The pool of connections of a process: it is opened after the preparations, which leave valid
settings and in cloud mode all that the work needs, everything in between is work, the first shutdown
that is read is the last of it, and the pool is closed at the end, once. -/
inductive Life (environment : Environment) (P : Pydantic) :
    List (Exchange workerProcess σ) → Except Exn Unit → Prop where
  | refused {preparing : List (Exchange workerProcess σ)} {error : Exn}
      (prepares : ∀ exchange ∈ preparing, Preparing exchange.call) :
      Life environment P preparing (.error error)
  | unopened {preparing : List (Exchange workerProcess σ)} {settings : Settings}
      {conninfo : Settings.Conninfo} {before after : σ} {error : Exn}
      (prepares : ∀ exchange ∈ preparing, Preparing exchange.call)
      (loaded : Settings.load P environment = .ok settings) (valid : settings.Valid)
      (validated : settings.validateWorkerRuntime = .ok ())
      (ready : settings.isCloud = true → settings.Ready)
      (connects : settings.databaseConninfo = .ok conninfo) :
      Life environment P (preparing ++ [⟨before, .inr (.openDatabase conninfo), .error error, after⟩])
        (.error error)
  | served {preparing working : List (Exchange workerProcess σ)} {settings : Settings}
      {conninfo : Settings.Conninfo} {before after opened closing : σ}
      {reply : Except Exn Unit} {result : Except Exn Unit}
      (prepares : ∀ exchange ∈ preparing, Preparing exchange.call)
      (loaded : Settings.load P environment = .ok settings) (valid : settings.Valid)
      (validated : settings.validateWorkerRuntime = .ok ())
      (ready : settings.isCloud = true → settings.Ready)
      (connects : settings.databaseConninfo = .ok conninfo)
      (works : ∀ exchange ∈ working, Working exchange.call) (stops : Stops working)
      (ends : ∀ error, reply = .error error → result = .error error) :
      Life environment P (preparing ++ ⟨before, .inr (.openDatabase conninfo), .ok (), opened⟩ ::
        (working ++ [⟨closing, .inr .closeDatabase, reply, after⟩])) result

/-- Whatever its environment is and whatever its calls reply, a worker process lives so. -/
theorem worker_lifecycle {exchanges : List (Exchange workerProcess σ)} {result : Except Exn Unit}
    (ran : Transcript (runIdleWorker P environment rounds).run exchanges result) :
    Life environment P exchanges result := by
  unfold runIdleWorker at ran
  rcases transcript_codeBind ran with ⟨first, settings, rest, rfl, loading, ran⟩ | ⟨error, rfl, raised⟩
  · have loaded := orRaise_returned loading
    rw [(transcript_done loading).1, List.nil_append]
    rcases transcript_codeBind ran with
      ⟨preparing, conninfo, rest, rfl, prepared, ran⟩ | ⟨error, rfl, raised⟩
    · have prepares := prepared.only (prepare_preparing settings)
      obtain ⟨validated, connects⟩ := prepare_returned prepared
      have valid := Settings.valid_of_load loaded
      have ready := fun isCloud => Settings.ready_of_validated isCloud validated
      unfold session at ran
      rcases transcript_performBind ran with
        ⟨before, _, opened, rest, rfl, lived⟩ | ⟨before, error, after, rfl, rfl⟩
      · obtain ⟨working, body, closing, rfl, worked, cleaned⟩ := transcript_finally lived
        have works := worked.only (work_working settings rounds)
        have stops := work_stops worked
        rcases cleaned with ⟨closed, rfl⟩ | ⟨error, closed, rfl⟩
        · obtain ⟨state, after, rfl⟩ := transcript_perform closed
          refine .served prepares loaded valid validated ready connects works stops ?_
          intro error isError
          cases isError
        · obtain ⟨state, after, rfl⟩ := transcript_perform closed
          exact .served prepares loaded valid validated ready connects works stops
            fun _ same => same
      · exact .unopened prepares loaded valid validated ready connects
    · exact .refused (raised.only (prepare_preparing settings))
  · rw [(transcript_done raised).1]
    exact .refused (List.forall_mem_nil _)

/-! ### A worker in cloud mode -/

/-- A `Pydantic` for variables that are written plainly. -/
def plainPydantic : Pydantic where
  int := String.toInt?
  bool text := if text = "true" then some true else if text = "false" then some false else none
  float text := text.toInt?.map fun value => (value : Rat)

/-- The variables that a worker in cloud mode cannot do without. -/
def plainEnvironment : Environment :=
  [("RUNTIME_MODE", "cloud"), ("DATABASE_URL", "postgresql://worker@database/platform"),
    ("SQS_QUEUE_URL", "https://sqs.us-east-1.amazonaws.com/123456789012/jobs"),
    ("ARTIFACT_BACKEND", "s3"), ("ARTIFACT_BUCKET_NAME", "artifacts")]

/-- The settings of these variables. -/
def plainSettings : Settings where
  awsRegion := "us-east-1"
  artifactBackend := .s3
  artifactBucketName := some "artifacts"
  artifactPrefix := "reports"
  localArtifactRoot := "/app/platform-artifacts"
  logLevel := "INFO"
  runtimeMode := .cloud
  databaseUrl := some "postgresql://worker@database/platform"
  databaseUrlSet := true
  dbHost := none
  dbPort := 5432
  dbName := none
  dbUsername := none
  dbPassword := none
  sqsQueueUrl := some "https://sqs.us-east-1.amazonaws.com/123456789012/jobs"
  jobProcessingLeaseSeconds := 120
  outboxClaimLeaseSeconds := 120
  sqsVisibilityTimeoutSeconds := 60
  sqsVisibilityHeartbeatSeconds := 30
  metricsEnabled := true
  workerMetricsHost := "127.0.0.1"
  workerMetricsPort := 9464

theorem plainSettings_loaded :
    Settings.load plainPydantic plainEnvironment = .ok plainSettings := rfl

theorem plainSettings_cloud : ∀ settings, Settings.load plainPydantic plainEnvironment = .ok settings →
    settings.isCloud = true := by
  intro settings isSettings
  rw [plainSettings_loaded] at isSettings
  cases isSettings
  rfl

/-- The event of the one job of a new database. -/
def plainEvent : ClaimedEvent :=
  ⟨Uuid.ofInt 1, "job.created", 1, Repository.outboxPayload (Uuid.ofInt 0) none, 1, Uuid.ofInt 3⟩

/-- The job, claimed. -/
def plainJob : ClaimedJob :=
  ⟨Uuid.ofInt 0, "csv_report", .processing, .obj [], 1, Uuid.ofInt 9, some 0⟩

/-- The heartbeat of the claim. -/
def plainHeartbeat : VisibilityHeartbeat := ⟨Uuid.ofInt 0, Uuid.ofInt 9, 0, 60, 30⟩

/-- The key of its report. -/
def plainKey : String := ArtifactStore.objectKey ⟨"reports"⟩ (Uuid.ofInt 0) (Uuid.ofInt 12)

/-- A call and its reply. -/
def answered (call : PlatformCall) (reply : platform.Reply call) : Exchange platform Unit :=
  ⟨(), call, reply, ()⟩

/-- The event is published. -/
def dispatching : List (Exchange platform Unit) :=
  [answered (.repository (.claimOutboxEvents 10 120)) (.ok [plainEvent]),
    answered (.record .workerOutboxDispatch ["attempt"]) (.ok ()),
    answered (.sendMessage (some (Uuid.ofInt 1, Uuid.ofInt 3)) (jobMessage (Uuid.ofInt 0) .null))
      (.ok ()),
    answered (.repository (.markOutboxPublished (Uuid.ofInt 1) (Uuid.ofInt 3))) (.ok true),
    answered (.record .workerOutboxDispatch ["success"]) (.ok ())]

/-- The job is completed, and its message deleted. -/
def consuming : List (Exchange platform Unit) :=
  [answered .receiveMessage (.ok (some ⟨some (jobMessage (Uuid.ofInt 0) .null), 0⟩)),
    answered (.repository (.markJobProcessing (Uuid.ofInt 0) 120)) (.ok (some plainJob)),
    answered (.record .workerJobClaims ["acquired"]) (.ok ()),
    answered (.startThread plainHeartbeat) (.ok 0), answered .uuid4 (.ok (Uuid.ofInt 12)),
    answered (.putObject plainKey (reportRows plainJob)) (.ok ()),
    answered (.repository (.completeJobWithReport (Uuid.ofInt 0) (Uuid.ofInt 9)
      (reportResult plainKey (reportRows plainJob)) plainKey "text/csv")) (.ok ()),
    answered (.record .workerJobsProcessed ["csv_report", "success"]) (.ok ()),
    answered (.record .workerJobDuration ["csv_report", "success"]) (.ok ()),
    answered (.stopThread 0) (.ok ()), answered (.deleteMessage 0) (.ok ())]

theorem transcript_dispatching :
    Transcript (dispatchOutbox .sqs 10 120).run dispatching (.ok 1) := by
  have published : Transcript (publishEvent .sqs plainEvent 0).run dispatching.tail (.ok 1) := by
    have formed : readOutboxPayload plainEvent.payload = .ok (Uuid.ofInt 0, .null) := rfl
    have supported : ¬ (plainEvent.eventType ≠ "job.created" ∨ plainEvent.version ≠ 1) := by
      simp [plainEvent]
    unfold publishEvent
    rw [if_neg supported, formed, Code.ofExcept_ok_bind]
    exact .call (.call (.call (.call .done)))
  have attempted : Transcript (dispatchEvent .sqs 0 plainEvent).run dispatching.tail (.ok 1) :=
    published.tryReturn _
  exact .call (attempted.codeBind .done)

theorem transcript_consuming :
    Transcript (consumeOneMessage ⟨"reports"⟩ ⟨120, 60, 30⟩).run consuming (.ok true) := by
  have received : Transcript receiveJob.run (consuming.take 1) (.ok (some (Uuid.ofInt 0, 0))) := by
    have names : parseJobMessage (some (jobMessage (Uuid.ofInt 0) .null)) = .ok (Uuid.ofInt 0) :=
      names_jobMessage _ _
    refine .call ?_
    show Transcript (Code.ofExcept (S := platform) (parseJobMessage _) >>= fun _ => _).run _ _
    rw [names]
    exact .done
  have claimed : Transcript (claimJob (Uuid.ofInt 0) 120).run ((consuming.drop 1).take 2)
      (.ok (.claimed plainJob)) := .call (.call .done)
  have completed : Transcript (consumeClaimed ⟨"reports"⟩ ⟨120, 60, 30⟩ (Uuid.ofInt 0) 0 plainJob).run
      (consuming.drop 3) (.ok true) :=
    .call (.call (.call (.call (.call (.call (.call (.call .done)))))))
  exact (received.tryReturn _).codeBind (claimed.codeBind completed)

/-- A call of the process itself. -/
def asked (call : ProcessCall) (reply : workerProcess.Reply (.inr call)) :
    Exchange workerProcess Unit := ⟨(), .inr call, reply, ()⟩

/-- A process from its start to the shutdown it reads after a round of work. -/
def plainRun : List (Exchange workerProcess Unit) :=
  [asked (.startHttpServer "127.0.0.1" 9464) (.ok ()), asked (.onSignal "SIGINT") (.ok ()),
    asked (.onSignal "SIGTERM") (.ok ()),
    asked (.openDatabase (.url "postgresql://worker@database/platform")) (.ok ()),
    asked .shutdownRequested (.ok false)] ++
  (dispatching ++ consuming).map (Exchange.outer id) ++
  [asked .shutdownRequested (.ok true), asked .closeDatabase (.ok ())]

theorem transcript_plainRun :
    Transcript (runIdleWorker plainPydantic plainEnvironment 2).run plainRun (.ok ()) := by
  have prepared : Transcript (prepare plainSettings).run (plainRun.take 3)
      (.ok (.url "postgresql://worker@database/platform")) := .call (.call (.call .done))
  have dispatched : Transcript ((dispatchOutbox .sqs 10 120).hosted : Process Nat).run
      (dispatching.map (Exchange.outer id)) (.ok 1) := transcript_dispatching.hosted id
  have consumed : Transcript ((consumeOneMessage ⟨"reports"⟩ ⟨120, 60, 30⟩).hosted : Process Bool).run
      (consuming.map (Exchange.outer id)) (.ok true) := transcript_consuming.hosted id
  have stopped : Transcript (serve .sqs plainSettings 1).run
      [asked .shutdownRequested (.ok true)] (.ok ()) := .call .done
  have looped : Transcript (serve .sqs plainSettings 2).run _ (.ok ()) :=
    (Transcript.perform () (.ok false) ()).codeBind (dispatched.codeBind (consumed.codeBind stopped))
  have worked : Transcript (work plainSettings 2).run _ (.ok ()) := looped
  have closed : Transcript (own .closeDatabase).run [asked .closeDatabase (.ok ())] (.ok ()) :=
    .call .done
  have opened : Transcript (own (.openDatabase (.url "postgresql://worker@database/platform"))).run
      [asked (.openDatabase (.url "postgresql://worker@database/platform")) (.ok ())] (.ok ()) :=
    .call .done
  exact (prepared.codeBind (opened.codeBind (worked.finally_ closed)) :
    Transcript (prepare plainSettings >>= session plainSettings 2).run _ _)

/-- A worker that publishes an event and completes its job before it reads a shutdown. -/
theorem worker_lifecycle_served : Life plainEnvironment plainPydantic plainRun (.ok ()) :=
  worker_lifecycle transcript_plainRun

end Life

end JobPlatform.Runtime.WorkerProcess
