import JobPlatform.Runtime.Labels
import JobPlatform.Runtime.Restart

/-!
Contract: how the labels grow with the job types that are asked for.

Owns:
- `Counted`, what one request for a job and a worker that fails it leave behind, and
  `counted_turns`: this can happen in every state of a growing run;
- `jobTypes_recorded`: any number of job types that the clients ask for become labels in one run;
- the exact condition under which every label stays in the tables of `Labels`.
-/

namespace JobPlatform.Runtime

open JobPlatform.Foundation JobPlatform.Foundation.ThreadSystem JobPlatform.Store
open JobPlatform.Store.Repository

variable {isCloud : Bool} {server : ApiServer} {clients : String → Prop} {t : ThreadId}

/-! ### The request -/

/-- A body that asks for the job. -/
def postBody (create : JobCreate) : PyJson :=
  .obj [(.ofString "job_type", .str (.ofString create.jobType)),
    (.ofString "payload", .obj create.payload)]

theorem validate_postBody (create : JobCreate) :
    JobCreate.validate (postBody create) = some create := by
  simp [JobCreate.validate, postBody, PyJson.field?, create.bounded]

/-- The request that asks for the job. -/
def postJob (create : JobCreate) : HttpRequest := ⟨"POST", some .createJob, postBody create, none⟩

theorem postJob_posts (create : JobCreate) : (postJob create).Posts create :=
  ⟨rfl, rfl, validate_postBody create⟩

/-! ### Calls -/

section Calls

variable {s : Monitored}

theorem monitored_perform {call : PlatformCall} {reply : platform.Reply call} {done : World}
    (performed : s.world.Perform call reply done) :
    (monitored isCloud server clients).Completes t (perform call).run s reply
      { s with world := done.logged t call reply } :=
  completes_perform ⟨done, performed, rfl⟩

theorem monitored_record (metric : Metric) (labels : List String) :
    (monitored isCloud server clients).Completes t (record metric labels).run s (.ok ())
      { s with world := s.world.logged t (.record metric labels) (.ok ()) } :=
  monitored_perform .recorded

/-- A method that runs undisturbed. -/
theorem monitored_repository {call : RepoCall} {value : call.Result} {inputs : Inputs}
    {after : Database} (fresh : inputs.Fresh s.world.drawn)
    (returns : call.run inputs [] s.world.db = (.ok value, after)) :
    (monitored isCloud server clients).Completes t (repository call).run s (.ok value)
      { s with
        world := World.logged
          { s.world with db := after, drawn := s.world.drawn ++ List.ofFn inputs.uuid } t
          (.repository call) (.ok value) } :=
  monitored_perform (.returned fresh returns)

end Calls

/-! ### One more job type -/

/-- The ids in the tables `create_job` writes were drawn. -/
structure Stamped (w : World) : Prop where
  jobs : ∀ id ∈ jobIds w.db, id ∈ w.drawn
  events : ∀ event ∈ w.db.jobOutbox.rows, event.id ∈ w.drawn
  audits : ∀ audit ∈ w.db.auditEvents.rows, audit.id ∈ w.drawn

theorem Stamped.unused {w : World} (stamped : Stamped w) {inputs : Inputs}
    (fresh : inputs.Fresh w.drawn) : Unused inputs w.db where
  jobs job member same := fresh.new 0 (same ▸ stamped.jobs job.id (List.mem_map_of_mem member))
  events event member same := fresh.new 1 (same ▸ stamped.events event member)
  audits audit member same := fresh.new 2 (same ▸ stamped.audits audit member)

/-- A created job has drawn ids, and is pending. -/
theorem Stamped.created {w : World} (stamped : Stamped w) {jobType : String} {payload : PyJson}
    {correlationId : Option String} {inputs : Inputs} {job : JobRow} {after : Database}
    (ran : (RepoCall.createJob jobType payload correlationId).run inputs [] w.db = (.ok job, after)) :
    job = newJob jobType payload (inputs.uuid 0) inputs.now ∧ after.job? (inputs.uuid 0) = some job ∧
      Stamped { w with db := after, drawn := w.drawn ++ List.ofFn inputs.uuid } := by
  have isDrawn (index : Fin 3) : inputs.uuid index ∈ w.drawn ++ List.ofFn inputs.uuid :=
    List.mem_append_right _ (List.mem_ofFn.mpr ⟨index, rfl⟩)
  cases effect_of_run ran with
  | jobCreated inserted queued audited =>
      refine ⟨rfl, Database.job?_eq_some.mpr ⟨?_, rfl⟩, ?_, ?_, ?_⟩
      · show _ ∈ Table.rows _
        rw [Table.rows_of_insert? inserted]
        exact List.mem_append_right _ List.mem_cons_self
      · intro id member
        have ids : List.map JobRow.id _ = jobIds w.db ++ [inputs.uuid 0] :=
          (congrArg (List.map JobRow.id) (Table.rows_of_insert? inserted)).trans List.map_append
        unfold jobIds at member
        rw [ids] at member
        rcases List.mem_append.mp member with old | new
        · exact List.mem_append_left _ (stamped.jobs id old)
        · rw [List.mem_singleton.mp new]
          exact isDrawn 0
      · intro event member
        have rows := Table.rows_of_insert? queued
        rcases List.mem_append.mp (rows ▸ member) with old | new
        · exact List.mem_append_left _ (stamped.events event old)
        · rw [List.mem_singleton.mp new]
          exact isDrawn 1
      · intro audit member
        have rows := Table.rows_of_insert? audited
        rcases List.mem_append.mp (rows ▸ member) with old | new
        · exact List.mem_append_left _ (stamped.audits audit old)
        · rw [List.mem_singleton.mp new]
          exact isDrawn 2

section Growth

variable (isCloud server clients t)

/-- A job is accepted, and a worker that cannot store its report counts the failure. -/
structure Counted (jobType : String) (s after : Monitored) : Prop where
  stamped : Stamped after.world
  drawn : after.world.drawn.length = s.world.drawn.length + 10
  kept : s.world.log ⊆ after.world.log
  counted : [jobType, "failure"] ∈ after.tuples (.worker .workerJobsProcessed)

/-- The endpoint of a request creates its job. -/
theorem create_completes {s : Monitored} (stamped : Stamped s.world) (create : JobCreate)
    (correlationId : Option HeaderValue) {inputs : Inputs} (fresh : inputs.Fresh s.world.drawn) :
    ∃ job after, (monitored isCloud server clients).Completes t
        (createJobEndpoint (createJobPublisher isCloud false) create correlationId).task s () after ∧
      job.jobType = create.jobType ∧ job.status = .pending ∧ after.world.db.job? job.id = some job ∧
      Stamped after.world ∧ after.world.drawn.length = s.world.drawn.length + 3 ∧
      s.world.log ⊆ after.world.log := by
  obtain ⟨db, returns⟩ := createJob_returns create.jobType (.obj create.payload)
    (correlationId.map HeaderValue.text) (stamped.unused fresh)
  obtain ⟨_, found, known⟩ := stamped.created returns
  have inserted : (monitored isCloud server clients).Completes t
      (ApplicationService.insertJob create.jobType (.obj create.payload)
        (correlationId.map HeaderValue.text)).run s _ _ :=
    completes_tryCatch (monitored_repository fresh returns)
  have drew : (s.world.drawn ++ List.ofFn inputs.uuid).length = s.world.drawn.length + 3 := by simp
  refine ⟨newJob create.jobType (.obj create.payload) (inputs.uuid 0) inputs.now, ?_⟩
  cases isCloud with
  | true =>
      refine ⟨_, completes_task (completes_tryCatch (completes_bind
        (completes_bind inserted (completes_bind completes_pure completes_pure)) completes_pure)),
        rfl, rfl, found, ⟨known.jobs, known.events, known.audits⟩, drew, ?_⟩
      exact List.subset_append_left _ _
  | false =>
      refine ⟨_, completes_task (completes_tryCatch (completes_bind
        (completes_bind inserted (completes_bind (monitored_perform .appended) completes_pure))
        completes_pure)), rfl, rfl, found, ⟨known.jobs, known.events, known.audits⟩, drew, ?_⟩
      exact List.Subset.trans (List.subset_append_left _ _) (List.subset_append_left _ _)

/-- A worker claims a pending job, cannot store its report, and counts the failure. -/
theorem process_completes {s : Monitored} (stamped : Stamped s.world) (store : ArtifactStore)
    (leaseSeconds : Int) {job : JobRow} (found : s.world.db.job? job.id = some job)
    (pending : job.status = .pending) (room : s.world.drawn.length + 7 ≤ 2 ^ 128) :
    ∃ after, (monitored isCloud server clients).Completes t
        (processJob store job.id leaseSeconds).task s () after ∧
      Stamped after.world ∧ after.world.drawn.length = s.world.drawn.length + 7 ∧
      s.world.log ⊆ after.world.log ∧
      [job.jobType, "failure"] ∈ after.tuples (.worker .workerJobsProcessed) := by
  obtain ⟨first, firstFresh, _⟩ := exists_inputs s.world.drawn (by omega) 0 unlockedPlan
  obtain ⟨report, _, newReport⟩ := exists_fresh (s.world.drawn ++ List.ofFn first.uuid) 1
    (by simp; omega)
  obtain ⟨last, lastFresh, _⟩ := exists_inputs (s.world.drawn ++ List.ofFn first.uuid ++ [report 0])
    (by simp; omega) 0 unlockedPlan
  have claimable : (jobClaimable leaseSeconds first.now job).Holds := by
    simp [jobClaimable, pending]
  let claimed := s.world.db.setJob job.id (claimJobRow (first.uuid 0) first.now)
    (claimJobRow_id _ _)
  have held : claimed.job? job.id = some (claimJobRow (first.uuid 0) first.now job) := by
    simp [claimed, Database.job?_setJob, found]
  have fence : (jobFence (first.uuid 0) (claimJobRow (first.uuid 0) first.now job)).Holds := by
    simp [jobFence, claimJobRow]
  apply Exists.intro
  constructor
  · unfold processJob
    apply completes_task
    apply completes_bind
    · unfold claimJob
      apply completes_bind
      · exact monitored_repository firstFresh (markJobProcessing_acquires found claimable)
      exact completes_bind (monitored_record _ _) completes_pure
    apply completes_catch
    · unfold completeClaimedJob
      apply completes_catch
      · apply completes_raise
        unfold ArtifactStore.putCsvReport
        apply completes_bind (monitored_perform (.uuid4 (newReport 0)))
        exact completes_raise (monitored_perform (.notStored (.other "ClientError"))) _
      apply completes_bind (monitored_record _ _)
      exact completes_bind (monitored_record _ _) ⟨rfl, rfl⟩
    apply completes_bind
    · exact monitored_repository lastFresh (failJob_fails "JobProcessingError" held fence)
    exact ⟨rfl, rfl⟩
  · have grows : s.world.drawn ⊆
        s.world.drawn ++ List.ofFn first.uuid ++ [report 0] ++ List.ofFn last.uuid := fun id member =>
      List.mem_append_left _ (List.mem_append_left _ (List.mem_append_left _ member))
    refine ⟨⟨fun id member => grows (stamped.jobs id ?_), fun event member =>
      grows (stamped.events event member), fun audit member => grows (stamped.audits audit member)⟩,
      ?_, ?_, ?_⟩
    · have sameIds : jobIds (claimed.setJob job.id (failJobRow "JobProcessingError" last.now)
          (failJobRow_id _ _)) = jobIds s.world.db :=
        (Database.map_setJob (failJobRow_id "JobProcessingError" last.now)).trans
          (Database.map_setJob (claimJobRow_id (first.uuid 0) first.now))
      rw [← sameIds]
      exact member
    · change (s.world.drawn ++ List.ofFn first.uuid ++ [report 0] ++ List.ofFn last.uuid).length = _
      simp
    · intro entry member
      simp only [World.logged, List.mem_append]
      tauto
    · refine List.mem_filterMap.mpr ⟨⟨t, .record .workerJobsProcessed [job.jobType, "failure"],
        .ok ()⟩, ?_, rfl⟩
      simp [World.logged, claimJobRow, ClaimedJob.ofRow]

/-- One more job type becomes a label. -/
theorem counted_turns {s : Monitored} (stamped : Stamped s.world) (create : JobCreate)
    (asked : clients create.jobType) (room : s.world.drawn.length + 10 ≤ 2 ^ 128) :
    ∃ after, Relation.ReflTransGen ((monitored isCloud server clients).Turn t) s after ∧
      Counted create.jobType s after := by
  have onlyThis : ∀ other, (postJob create).Posts other → clients other.jobType := by
    intro other posts
    have same := posts.accepted.symm.trans (validate_postBody create)
    cases same
    exact asked
  let received : Monitored :=
    { s with
      requests := s.requests ++ [postJob create]
      recorded := s.recorded ++ dispatchStart (postJob create) }
  have first : (monitored isCloud server clients).Turn t s received :=
    .moved (.received server.post onlyThis)
  obtain ⟨inputs, fresh, _⟩ := exists_inputs s.world.drawn (by omega) 0 unlockedPlan
  obtain ⟨job, created, posted, isType, pending, found, known, drew, kept⟩ :=
    create_completes isCloud server clients t (s := received) stamped create none fresh
  have second : (monitored isCloud server clients).Turn t received created :=
    .ran (.posted (List.mem_append_right _ List.mem_cons_self) (postJob_posts create)) posted
  change created.world.drawn.length = s.world.drawn.length + 3 at drew
  obtain ⟨after, processed, stampedAfter, drewMore, keptMore, counted⟩ :=
    process_completes isCloud server clients t known ⟨"reports"⟩ 120 found pending (by omega)
  have third : (monitored isCloud server clients).Turn t created after :=
    .ran (.other (.processJob ⟨"reports"⟩ job.id 120) fun _ _ _ same => by cases same) processed
  refine ⟨after, .tail (.tail (.single first) second) third, stampedAfter, by omega, ?_, ?_⟩
  · exact List.Subset.trans kept keptMore
  · rw [← isType]
    exact counted

end Growth

/-! ### Any number of job types -/

/-- What is recorded stays recorded. -/
theorem tuples_mono {s after : Monitored} (kept : s.world.log ⊆ after.world.log) (metric : Metric) :
    s.tuples (.worker metric) ⊆ after.tuples (.worker metric) :=
  List.filterMap_subset _ kept

/-- All these job types become labels in one run. -/
theorem jobTypes_recorded (clients : String → Prop) (isCloud : Bool) (server : ApiServer)
    (creates : List JobCreate)
    (asked : ∀ create ∈ creates, clients create.jobType) (room : 10 * creates.length ≤ 2 ^ 128) :
    ∃ pool, (monitored isCloud server clients).Reachable Monitored.initial pool ∧
      ∀ create ∈ creates,
        [create.jobType, "failure"] ∈ pool.state.tuples (.worker .workerJobsProcessed) := by
  suffices run : ∃ after, Relation.ReflTransGen ((monitored isCloud server clients).Turn 0)
        Monitored.initial after ∧ Stamped after.world ∧
      after.world.drawn.length = 10 * creates.length ∧ ∀ create ∈ creates,
        [create.jobType, "failure"] ∈ after.tuples (.worker .workerJobsProcessed) by
    obtain ⟨after, turns, _, _, all⟩ := run
    have steps : Relation.ReflTransGen (monitored isCloud server clients).Step
        (ThreadSystem.initial Monitored.initial) _ := run_of_turns turns rfl
    exact ⟨_, steps, all⟩
  induction creates with
  | nil =>
      exact ⟨_, .refl, ⟨List.forall_mem_nil _, List.forall_mem_nil _, List.forall_mem_nil _⟩, rfl,
        List.forall_mem_nil _⟩
  | cons create rest inductionHypothesis =>
      rw [List.length_cons] at room
      obtain ⟨middle, turns, stamped, drawn, all⟩ := inductionHypothesis
        (fun other member => asked other (List.mem_cons_of_mem _ member)) (by omega)
      obtain ⟨after, more, counted⟩ := counted_turns isCloud server clients 0 stamped create
        (asked create List.mem_cons_self) (by omega)
      refine ⟨after, turns.trans more, counted.stamped, ?_, List.forall_mem_cons.mpr
        ⟨counted.counted, fun other member => ?_⟩⟩
      · rw [counted.drawn, drawn, List.length_cons]
        omega
      · exact tuples_mono counted.kept _ (all other member)

/-- Every label of every run stays in the tables exactly when every job type that an accepted
`POST /jobs` carries is one of the types the tables are made of; and then the number of distinct
label tuples of each metric never exceeds the length of its table. -/
theorem labels_bounded_iff (isCloud : Bool) (server : ApiServer) (clients : String → Prop)
    (jobTypes : List String) :
    (∀ pool, (monitored isCloud server clients).Reachable Monitored.initial pool → ∀ metric,
      (∀ labels ∈ pool.state.tuples metric, labels ∈ tupleTable server jobTypes metric) ∧
      (pool.state.tuples metric).dedup.length ≤ (tupleTable server jobTypes metric).length) ↔
    ∀ create : JobCreate, clients create.jobType → create.jobType ∈ jobTypes := by
  constructor
  · intro bounded create asked
    obtain ⟨pool, reached, recorded⟩ :=
      jobTypes_recorded clients isCloud server [create] (List.forall_mem_singleton.mpr asked) (by simp)
    have inTable := (bounded pool reached (.worker .workerJobsProcessed)).1 _
      (recorded create List.mem_cons_self)
    obtain ⟨jobType, isType, isTuple⟩ := List.mem_flatMap.mp inTable
    simp only [List.mem_cons, List.cons.injEq, List.not_mem_nil, or_false] at isTuple
    rcases isTuple with ⟨rfl, _⟩ | ⟨rfl, _⟩ <;> exact isType
  · intro within pool reached metric
    have inTables := (inTables_of_reachable within reached).2.tuples metric
    refine ⟨inTables, ?_⟩
    apply List.Subperm.length_le
    apply List.subperm_of_subset (List.nodup_dedup _)
    intro labels member
    exact inTables labels (List.mem_dedup.mp member)

/-- A server with the common methods. -/
def commonServer : ApiServer :=
  ⟨["GET", "HEAD", "POST", "PUT", "PATCH", "DELETE", "OPTIONS"], ["RuntimeError"], by decide⟩

/-- A job whose type is the text of a UUID. -/
def uuidJob (number : Nat) : JobCreate :=
  ⟨(Uuid.ofInt number).str, [], by
    have long : (Uuid.ofInt number).str.length = 36 := Uuid.length_str _
    omega⟩

/-- Different small numbers give different job types. -/
theorem uuidJob_injective {left right : Nat} (leftSmall : left < 2 ^ 128)
    (rightSmall : right < 2 ^ 128) (same : (uuidJob left).jobType = (uuidJob right).jobType) :
    left = right := by
  have numbers : left % 2 ^ 128 = right % 2 ^ 128 := congrArg Uuid.int (Uuid.str_injective same)
  rwa [Nat.mod_eq_of_lt leftSmall, Nat.mod_eq_of_lt rightSmall] at numbers

/-- The texts of UUIDs that clients chose as job types are recorded as label values, and every
further one adds label values: no constant that fits into a machine word bounds their number. -/
theorem uuid_recorded :
    (¬ ∃ bound < 2 ^ 64, ∀ pool,
      (monitored true commonServer fun _ => True).Reachable Monitored.initial pool → ∀ metric,
        (pool.state.tuples metric).dedup.length ≤ bound) ∧
    ¬ ∀ pool, (monitored true commonServer fun _ => True).Reachable Monitored.initial pool →
      ∀ metric, ∀ labels ∈ pool.state.tuples metric, ∀ label ∈ labels, ∀ id : Uuid,
        label ≠ id.str := by
  constructor
  · rintro ⟨bound, small, bounded⟩
    obtain ⟨pool, reached, recorded⟩ := jobTypes_recorded (fun _ => True) true commonServer
      ((List.range (bound + 1)).map uuidJob) (fun _ _ => trivial) (by simp; omega)
    let labels := (List.range (bound + 1)).map fun number => [(uuidJob number).jobType, "failure"]
    have distinct : labels.Nodup := by
      refine List.Nodup.map_on ?_ List.nodup_range
      intro left leftMember right rightMember same
      have leftSmall := List.mem_range.mp leftMember
      have rightSmall := List.mem_range.mp rightMember
      exact uuidJob_injective (by omega) (by omega) (List.cons.inj same).1
    have all : labels ⊆ (pool.state.tuples (.worker .workerJobsProcessed)).dedup := by
      intro label member
      obtain ⟨number, inRange, rfl⟩ := List.mem_map.mp member
      exact List.mem_dedup.mpr (recorded _ (List.mem_map_of_mem inRange))
    have many := (List.subperm_of_subset distinct all).length_le
    have few := bounded pool reached (.worker .workerJobsProcessed)
    rw [List.length_map, List.length_range] at many
    omega
  · intro noUuid
    obtain ⟨pool, reached, recorded⟩ := jobTypes_recorded (fun _ => True) true commonServer [uuidJob 7]
      (fun _ _ => trivial) (by simp)
    exact noUuid pool reached _ _ (recorded _ List.mem_cons_self) _ List.mem_cons_self
      (Uuid.ofInt 7) rfl

end JobPlatform.Runtime
