import JobPlatform.Foundation.Csv
import JobPlatform.Foundation.Solvency
import JobPlatform.Runtime.ArtifactPaths
import JobPlatform.Runtime.Completion

/-!
Contract: the reports in the artifact store, as somebody reads them who has the key of one.

Owns:
- `reportText`, the text both stores write, and `finalReport`, the records it should have;
- `reportLedger`: a name drawn for a report is used by the next call of the thread, or never;
- `RowKept`, what no change of a job's row touches, its type among it;
- `reports_readable`, over every run.

Does not own the file system or S3: a text is stored whole or not at all.
-/

namespace JobPlatform.Runtime

open JobPlatform.Foundation JobPlatform.Foundation.ThreadSystem JobPlatform.Store
open JobPlatform.Store.Repository (ClaimedJob)

/-! ### Texts -/

/-- What `csv.DictWriter` makes of the rows, with `fieldnames=["field", "value"]`. -/
def reportText (rows : ReportRows) : List Char :=
  Csv.write (["field".toList, "value".toList] :: rows.map fun row => [row.1.toList, row.2.toList])

/-- The records of the report of a completed job. -/
def finalReport (job : JobRow) : List Csv.Row :=
  [["field".toList, "value".toList], ["job_id".toList, job.id.str.toList],
    ["job_type".toList, job.jobType.toList], ["attempt".toList, (toString job.attempts).toList]]

theorem read_reportText {claimed : ClaimedJob} {job : JobRow} (isJob : claimed.id = job.id)
    (isType : claimed.jobType = job.jobType) (isAttempt : claimed.attempts = job.attempts)
    {limit : Nat} (fits : ∀ row ∈ finalReport job, ∀ field ∈ row, field.length ≤ limit) :
    Csv.read limit (reportText (reportRows claimed)) = .ok (finalReport job) := by
  have same : reportText (reportRows claimed) = Csv.write (finalReport job) := by
    simp only [reportText, reportRows, finalReport, isJob, isType, isAttempt, List.map_cons,
      List.map_nil]
  rw [same]
  exact Csv.read_write limit (finalReport job) fits

/-! ### Names of files -/

/-- The last forty characters of a key, where the name of the file is. -/
def fileName (objectKey : String) : List Char :=
  objectKey.toList.drop (objectKey.toList.length - 40)

theorem fileName_objectKey (store : ArtifactStore) (jobId reportId : Uuid) :
    fileName (store.objectKey jobId reportId) = reportName reportId := by
  have isKey : (store.objectKey jobId reportId).toList =
      ((stripSlashes store.keyPrefix).toList ++ '/' :: (jobId.str.toList ++ ['/'])) ++
        reportName reportId := by
    rw [objectKey_eq, reportKey_toList]
    simp
  have long : (reportName reportId).length = 40 := by simp [reportName, Uuid.length_str]
  rw [fileName, isKey, List.length_append, long, Nat.add_sub_cancel, List.drop_left]

theorem reportName_injective {left right : Uuid} (same : reportName left = reportName right) :
    left = right := by
  obtain ⟨texts, _⟩ := List.append_inj same (by simp [Uuid.length_str])
  exact Uuid.str_injective (String.toList_injective texts)

/-- `uuid4` hands out the name of a file, and an object is stored under such a name. -/
def reportLedger : Ledger platform (List Char) where
  incurs
    | .uuid4, .ok reportId => some (reportName reportId)
    | _, _ => none
  settles
    | .putObject objectKey _ => some (fileName objectKey)
    | _ => none

/-- The log of the platform, read with this ledger. -/
def reportAccounts : Accounts LogEntry ThreadId (List Char) where
  holder entry := entry.thread
  incurs entry := reportLedger.incurs entry.call entry.reply
  settles entry := reportLedger.settles entry.call

/-! ### Every program uses a name at once -/

section Programs

/-- The call stores no object. -/
def StoresNone (call : PlatformCall) : Prop := reportLedger.settles call = none

theorem putCsvReport_honors (store : ArtifactStore) (jobId : Uuid) (rows : ReportRows) :
    Code.Honors reportLedger none (store.putCsvReport jobId rows) := by
  unfold ArtifactStore.putCsvReport
  apply Code.honors_performBind
  · intro debt settled
    simp [reportLedger] at settled
  · intro reportId
    apply Code.honors_performBind
    · intro debt settled
      show some (reportName reportId) = some debt
      rw [← fileName_objectKey store jobId reportId]
      exact settled
    · exact fun _ => Code.honors_of_only (Code.only_pure _)

theorem record_honors {α : Type} {metric : Metric} {labels : List String} {next : Unit → Run α}
    (rest : ∀ value, Code.Honors reportLedger none (next value)) :
    Code.Honors reportLedger none (record metric labels >>= next) :=
  (Code.honors_of_only (Code.only_perform rfl)).bind rest

theorem repository_honors (call : RepoCall) : Code.Honors reportLedger none (repository call) :=
  Code.honors_of_only (Code.only_perform rfl)

theorem pure_honors {α : Type} (value : α) : Code.Honors reportLedger none (pure value : Run α) :=
  Code.honors_of_only (Code.only_pure value)

theorem throw_honors {α : Type} (error : Exn) :
    Code.Honors reportLedger none (throw error : Run α) :=
  Code.honors_of_only (Code.only_throw (S := platform) error)

theorem claimJob_honors (jobId : Uuid) (leaseSeconds : Int) :
    Code.Honors reportLedger none (claimJob jobId leaseSeconds) := by
  unfold claimJob
  apply (repository_honors _).bind
  intro claimed
  cases claimed with
  | some job => exact record_honors fun _ => pure_honors _
  | none =>
      apply (repository_honors _).bind
      intro existing
      split
      · exact record_honors fun _ => record_honors fun _ => pure_honors _
      · exact record_honors fun _ => pure_honors _

theorem completeClaimedJob_honors (store : ArtifactStore) (job : ClaimedJob) :
    Code.Honors reportLedger none (completeClaimedJob store job) := by
  unfold completeClaimedJob
  apply Code.Honors.tryCatch
  · apply (putCsvReport_honors store job.id (reportRows job)).bind
    intro returned
    apply (repository_honors _).bind
    exact fun _ => record_honors fun _ => record_honors fun _ => pure_honors _
  · exact fun error => record_honors fun _ => record_honors fun _ => throw_honors error

theorem consumeClaimed_honors (store : ArtifactStore) (config : ConsumerConfig) (jobId : Uuid)
    (receiptHandle : ReceiptHandle) (job : ClaimedJob) :
    Code.Honors reportLedger none (consumeClaimed store config jobId receiptHandle job) := by
  have stopped : ∀ thread, Code.Honors reportLedger none (perform (.stopThread thread)) :=
    fun thread => Code.honors_of_only (Code.only_perform rfl)
  unfold consumeClaimed withHeartbeat
  apply Code.Honors.tryCatch
  · apply Code.Honors.bind
    · apply (Code.honors_of_only (Code.only_perform rfl)).bind
      exact fun thread => (completeClaimedJob_honors store job).finally_ (stopped thread)
    · exact fun _ => (Code.honors_of_only (Code.only_perform rfl)).bind fun _ => pure_honors _
  · intro error
    cases error with
    | lostJobClaimError => exact pure_honors _
    | _ => exact (repository_honors _).bind fun _ => pure_honors _

theorem consumeOneMessage_honors (store : ArtifactStore) (config : ConsumerConfig) :
    Code.Honors reportLedger none (consumeOneMessage store config) := by
  have received : Code.Only StoresNone receiveJob :=
    receiveJob_only.mono fun call isReceive => isReceive ▸ rfl
  unfold consumeOneMessage
  apply (Code.honors_of_only (received.tryCatch fun _ => Code.only_pure _)).bind
  intro message
  match message with
  | none => exact pure_honors _
  | some (jobId, receiptHandle) =>
      apply (claimJob_honors jobId config.processingLeaseSeconds).bind
      intro outcome
      match outcome with
      | .claimed job => exact consumeClaimed_honors store config jobId receiptHandle job
      | .status .completed => exact throw_honors _
      | .status .inProgressNotOwned => exact pure_honors _
      | .status .duplicateCompleted =>
          exact (Code.honors_of_only (Code.only_perform rfl)).bind fun _ => pure_honors _

theorem processJob_honors (store : ArtifactStore) (jobId : Uuid) (leaseSeconds : Int) :
    Code.Honors reportLedger none (processJob store jobId leaseSeconds) := by
  unfold processJob
  apply (claimJob_honors jobId leaseSeconds).bind
  intro outcome
  cases outcome with
  | status status => exact pure_honors _
  | claimed job =>
      apply (completeClaimedJob_honors store job).tryCatch
      intro error
      cases error with
      | lostJobClaimError => exact throw_honors _
      | _ => exact (repository_honors _).bind fun _ => throw_honors _

/-- Every program of the platform stores an object only under the name it has just drawn. -/
theorem start_honors {isCloud : Bool} {w after : World} {program : Program platform Unit}
    (started : w.Start isCloud program after) : program.Honors reportLedger none := by
  have others : ∀ {Q : PlatformCall → Prop} {α : Type} {code : Run α}, Code.Only Q code →
      (∀ call, Q call → StoresNone call) → code.task.Honors reportLedger none :=
    fun only none => (Code.honors_of_only (only.mono none)).task
  cases started with
  | createJob jobType payload correlationId =>
      exact others (ApplicationService.createJob_only _ _ _ _) fun _ creates => by
        cases creates <;> rfl
  | createCustomer => exact (repository_honors _).task
  | getJob => exact (repository_honors _).task
  | dispatchOutbox limit leaseSeconds =>
      exact others (dispatchOutbox_only _ _ _) fun _ dispatches => by cases dispatches <;> rfl
  | consumeOneMessage store config => exact (consumeOneMessage_honors store config).task
  | processJob store jobId leaseSeconds => exact (processJob_honors store jobId leaseSeconds).task
  | @heartbeat index thread _ _ fuel =>
      exact others (heartbeat_only _ _ _) fun _ beats => by cases beats <;> rfl

end Programs

/-! ### Runs -/

section Runs

variable {isCloud : Bool} {w done : World} {pool : Pool platform World}

theorem platform_recorded (isCloud : Bool) :
    Recorded (jobPlatform isCloud) reportLedger reportAccounts World.log where
  exec := by
    intro t w call reply after called
    obtain ⟨done, performed, isAfter⟩ := called
    subst isAfter
    refine ⟨⟨t, call, reply⟩, ?_, rfl, rfl, rfl⟩
    rw [← performed.log_eq]
    rfl
  start := by
    intro t w program after started
    have started : w.Start isCloud program after := started
    refine ⟨?_, start_honors started⟩
    cases started <;> rfl
  env := World.Env.log_eq

/-- An invariant that every call keeps, and that speaks of nothing a start or SQS changes. -/
theorem call_invariant {I : World → Prop} (first : I World.initial)
    (perform : ∀ {w done : World} {call : PlatformCall} {reply : platform.Reply call}
      (t : ThreadId), w.Sound → w.Perform call reply done → I w → I (done.logged t call reply))
    (quiet : ∀ {w after : World}, after.db = w.db → after.log = w.log → after.drawn = w.drawn →
      after.objects = w.objects → I w → I after)
    (reached : (jobPlatform isCloud).Reachable World.initial pool) : I pool.state := by
  induction reached with
  | refl => exact first
  | @tail before after reachedBefore step inductionHypothesis =>
      cases step with
      | start _ started =>
          have started : before.state.Start isCloud _ _ := started
          apply quiet _ _ _ _ inductionHypothesis <;> cases started <;> rfl
      | call _ called =>
          obtain ⟨done, performed, rfl⟩ := called
          exact perform _ (sound_of_reachable reachedBefore) performed inductionHypothesis
      | stop => exact inductionHypothesis
      | env moved =>
          have moved : before.state.Env _ := moved
          apply quiet _ _ _ _ inductionHypothesis <;> cases moved <;> rfl

theorem filterMap_logged {β : Type} (f : LogEntry → Option β) {call : PlatformCall}
    {reply : platform.Reply call} (t : ThreadId) (performed : w.Perform call reply done) :
    (done.logged t call reply).log.filterMap f =
      w.log.filterMap f ++ (f ⟨t, call, reply⟩).toList := by
  show (done.log ++ [(⟨t, call, reply⟩ : LogEntry)]).filterMap f = _
  rw [performed.log_eq, List.filterMap_append]
  cases value : f ⟨t, call, reply⟩ <;> simp [value]

/-- Every name in the log was drawn, and drawn once. -/
def NamesDrawn (w : World) : Prop :=
  (w.log.filterMap reportAccounts.incurs).Nodup ∧
    ∀ name ∈ w.log.filterMap reportAccounts.incurs, ∃ reportId ∈ w.drawn, name = reportName reportId

theorem namesDrawn_of_reachable (reached : (jobPlatform isCloud).Reachable World.initial pool) :
    NamesDrawn pool.state := by
  apply call_invariant _ _ _ reached
  · simp [NamesDrawn, World.initial]
  · intro w done call reply t _ performed kept
    have older : ∀ name ∈ w.log.filterMap reportAccounts.incurs,
        ∃ reportId ∈ done.drawn, name = reportName reportId := by
      intro name member
      obtain ⟨reportId, drawn, isName⟩ := kept.2 name member
      exact ⟨reportId, performed.drawn_objects.1 drawn, isName⟩
    unfold NamesDrawn
    rw [filterMap_logged _ t performed]
    cases named : reportAccounts.incurs ⟨t, call, reply⟩ with
    | none =>
      rw [Option.toList_none, List.append_nil]
      exact ⟨kept.1, older⟩
    | some name =>
      cases performed with
      | @uuid4 reportId fresh =>
        have isName : reportName reportId = name := by
          simpa [reportAccounts, reportLedger] using named
        subst isName
        have new : reportName reportId ∉ w.log.filterMap reportAccounts.incurs := by
          intro member
          obtain ⟨other, drawn, same⟩ := kept.2 _ member
          rw [reportName_injective same] at fresh
          exact fresh drawn
        constructor
        · exact List.nodup_append.mpr ⟨kept.1, by simp, by
            intro name member other isOther
            rw [show other = reportName reportId by simpa using isOther]
            exact fun same => new (same ▸ member)⟩
        · intro name member
          rcases List.mem_append.mp member with old | last
          · exact older name old
          · exact ⟨reportId, by simp [World.logged], by simpa using last⟩
      | _ => simp [reportAccounts, reportLedger] at named
  · intro w after _ sameLog sameDrawn _ kept
    unfold NamesDrawn
    rw [sameLog, sameDrawn]
    exact kept

/-- The stored objects are among the calls that store one. -/
theorem objects_sublist (reached : (jobPlatform isCloud).Reachable World.initial pool) :
    (pool.state.objects.map fun object => fileName object.1).Sublist
      (pool.state.log.filterMap reportAccounts.settles) := by
  apply call_invariant (I := fun w => (w.objects.map fun object => fileName object.1).Sublist
    (w.log.filterMap reportAccounts.settles)) _ _ _ reached
  · exact List.Sublist.refl _
  · intro w done call reply t _ performed kept
    rw [filterMap_logged _ t performed]
    cases performed with
    | @stored objectKey rows reply =>
        show ((w.objects ++ [(objectKey, rows)]).map _).Sublist (_ ++ [fileName objectKey])
        rw [List.map_append]
        exact kept.append (List.Sublist.refl _)
    | _ => exact kept.trans (List.sublist_append_left _ _)
  · intro w after _ sameLog _ sameObjects kept
    rw [sameLog, sameObjects]
    exact kept

/-- No two reports are stored under one key. -/
theorem objectKeys_nodup (reached : (jobPlatform isCloud).Reachable World.initial pool) :
    (pool.state.objects.map Prod.fst).Nodup := by
  have solvent := solvent_of_reachable (platform_recorded isCloud) rfl reached
  have names := (objects_sublist reached).nodup
    (solvent.nodup (namesDrawn_of_reachable reached).1)
  rw [show (fun object : String × ReportRows => fileName object.1) = fileName ∘ Prod.fst from rfl,
    ← List.map_map] at names
  exact names.of_map

end Runs

/-! ### What a row keeps -/

section Types

variable {isCloud : Bool} {w done : World} {pool : Pool platform World}

/-- What a later version of a row keeps. -/
structure RowKept (row next : JobRow) : Prop where
  id : next.id = row.id
  jobType : next.jobType = row.jobType
  payload : next.payload = row.payload
  createdAt : next.createdAt = row.createdAt
  attempts : row.attempts ≤ next.attempts

theorem RowKept.refl (row : JobRow) : RowKept row row :=
  ⟨rfl, rfl, rfl, rfl, le_rfl⟩

theorem rowKept_of_jobChange {inputs : Inputs} {jobId : Uuid} {call : RepoCall}
    {value : call.Result} {before later : Option JobRow}
    (change : JobChange inputs jobId call value before later) {row : JobRow}
    (found : before = some row) : ∃ next, later = some next ∧ RowKept row next := by
  cases change with
  | same => exact ⟨row, found, .refl row⟩
  | created => simp at found
  | claimed =>
      cases found
      exact ⟨_, rfl, rfl, rfl, rfl, rfl, Nat.le_succ _⟩
  | renewed =>
      cases found
      exact ⟨_, rfl, rfl, rfl, rfl, rfl, le_rfl⟩
  | completed =>
      cases found
      exact ⟨_, rfl, rfl, rfl, rfl, rfl, le_rfl⟩
  | failed =>
      cases found
      exact ⟨_, rfl, rfl, rfl, rfl, rfl, le_rfl⟩

theorem jobType_of_claim {inputs : Inputs} {db later : Database} {jobId : Uuid}
    {leaseSeconds : Int} {claimed : ClaimedJob}
    (effect : Effect inputs db (.markJobProcessing jobId leaseSeconds) (some claimed) later) :
    ∃ row, later.job? jobId = some row ∧ row.jobType = claimed.jobType := by
  cases effect with
  | jobClaimed isValue update =>
      cases update with
      | @hit row found =>
          cases isValue
          refine ⟨_, ?_, rfl⟩
          rw [Database.job?_setJob, if_pos rfl, found]
          rfl
      | miss => simp at isValue

/-- The claims in the log have the types the jobs still have. -/
def Typed (w : World) : Prop :=
  ∀ t jobId leaseSeconds claimed, granted t jobId leaseSeconds claimed ∈ w.log →
    ∃ row, w.db.job? jobId = some row ∧ row.jobType = claimed.jobType

theorem typed_of_reachable (reached : (jobPlatform isCloud).Reachable World.initial pool) :
    Typed pool.state := by
  apply call_invariant _ _ _ reached
  · intro t jobId leaseSeconds claimed member
    simp [World.initial] at member
  · intro w done call reply t _ performed kept u jobId leaseSeconds claimed member
    show ∃ row, done.db.job? jobId = some row ∧ _
    have isLog : granted u jobId leaseSeconds claimed ∈ done.log ++ [⟨t, call, reply⟩] := member
    rw [performed.log_eq] at isLog
    rcases List.mem_append.mp isLog with old | new
    · obtain ⟨row, found, isType⟩ := kept u jobId leaseSeconds claimed old
      rcases performed.database with same | ⟨_, _, _, _, _, effect⟩
      · rw [same]
        exact ⟨row, found, isType⟩
      · obtain ⟨next, isNext, kept⟩ :=
          rowKept_of_jobChange (jobChange_of_effect effect jobId) found
        exact ⟨next, isNext, kept.jobType.trans isType⟩
    · cases List.mem_singleton.mp new
      obtain ⟨_, _, _, effect⟩ := performed.effect
      exact jobType_of_claim effect
  · intro w after sameDb sameLog _ _ kept t jobId leaseSeconds claimed member
    rw [sameDb]
    exact kept t jobId leaseSeconds claimed (sameLog ▸ member)

end Types

/-! ### The reports -/

/-- No two reports are ever stored under one key, in any run. The object under the key that the
result of a completed job names is its report: read as CSV by any reader whose limit its fields
keep, the text has four records, which give the id, the type and the attempts the job's row has. -/
theorem reports_readable {isCloud : Bool} {pool : Pool platform World}
    (reached : (jobPlatform isCloud).Reachable World.initial pool) :
    (pool.state.objects.map Prod.fst).Nodup ∧
      ∀ job ∈ pool.state.db.jobs.rows, job.status = .completed →
        ∃ objectKey objectType rows,
          pool.state.db.HasReport job.id (reportResult objectKey rows) objectKey objectType ∧
          (objectKey, rows) ∈ pool.state.objects ∧
          ∀ stored, (objectKey, stored) ∈ pool.state.objects → ∀ limit,
            (∀ row ∈ finalReport job, ∀ field ∈ row, field.length ≤ limit) →
              Csv.read limit (reportText stored) = .ok (finalReport job) := by
  have distinct := objectKeys_nodup reached
  refine ⟨distinct, fun job member completed => ?_⟩
  obtain ⟨sound, proven⟩ := proven_of_reachable reached
  have found : pool.state.db.job? job.id = some job := Database.job?_eq_some.mpr ⟨member, rfl⟩
  obtain ⟨t, leaseSeconds, claimed, objectKey, objectType, _, steps, isJob, isAttempt, report⟩ :=
    proven found completed
  have isGranted : granted t job.id leaseSeconds claimed ∈ pool.state.log :=
    steps.subset List.mem_cons_self
  have isStored : (objectKey, reportRows claimed) ∈ pool.state.objects :=
    sound.truthful _ (steps.subset (List.mem_cons_of_mem _ List.mem_cons_self))
  obtain ⟨row, isRow, isType⟩ := typed_of_reachable reached _ _ _ _ isGranted
  rw [found] at isRow
  cases isRow
  refine ⟨objectKey, objectType, reportRows claimed, report, isStored, ?_⟩
  intro stored isObject limit fits
  have sameObject := List.inj_on_of_nodup_map distinct isObject isStored rfl
  rw [show stored = reportRows claimed from congrArg Prod.snd sameObject]
  exact read_reportText isJob isType.symm isAttempt fits

/-- A job that `process_job` has completed. -/
theorem reports_readable_processed : ∃ pool : Pool platform World,
    (jobPlatform false).Reachable World.initial pool ∧
      (∃ job ∈ pool.state.db.jobs.rows, job.status = .completed) ∧
      (pool.state.objects.map Prod.fst).Nodup ∧
      ∀ job ∈ pool.state.db.jobs.rows, job.status = .completed →
        ∃ objectKey objectType rows,
          pool.state.db.HasReport job.id (reportResult objectKey rows) objectKey objectType ∧
          (objectKey, rows) ∈ pool.state.objects ∧
          ∀ stored, (objectKey, stored) ∈ pool.state.objects → ∀ limit,
            (∀ row ∈ finalReport job, ∀ field ∈ row, field.length ≤ limit) →
              Csv.read limit (reportText stored) = .ok (finalReport job) := by
  let jobId := (Inputs.numbered 0 0).uuid 0
  have opened : (jobPlatform false).Reachable World.initial _ := .refl
  have created := (opened.start 0 rfl (.createJob "csv_report" (.obj []) none)).call 0 rfl
    ⟨_, .answered (show (Inputs.numbered 0 0).Fresh _ by decide) rfl, rfl⟩
  have claimed := (created.start 1 rfl (.processJob ⟨"reports"⟩ jobId 120)).call 1 rfl
    ⟨_, .answered (show (Inputs.numbered 1 0).Fresh _ by decide) rfl, rfl⟩
  have counted := claimed.call 1 rfl ⟨_, .recorded, rfl⟩
  have drawn := counted.call 1 rfl
    ⟨_, .uuid4 (show (Inputs.numbered 2 0).uuid 0 ∉ _ by decide), rfl⟩
  have stored := drawn.call 1 rfl ⟨_, .stored (.ok ()), rfl⟩
  have completed := stored.call 1 rfl
    ⟨_, .answered (show (Inputs.numbered 3 0).Fresh _ by decide) rfl, rfl⟩
  exact ⟨_, completed, ⟨_, List.mem_singleton.mpr rfl, rfl⟩, reports_readable completed⟩

end JobPlatform.Runtime
