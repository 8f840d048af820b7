import JobPlatform.Migrations.Alone
import JobPlatform.Migrations.Scripts
import JobPlatform.Store.Undisturbed

/-!
Contract: the upgrade of a database from before processing fencing.

Owns:
- `PreFencing`, the databases `002_processing_fencing.sql` is meant to upgrade;
- what `run_migrations` does to them, and exactly when no work is stranded by it.
-/

namespace JobPlatform.Migrations

open JobPlatform.Foundation JobPlatform.Store JobPlatform.Store.Repository

/-- The schema before processing fencing: `jobs` has neither of the two columns of a claim,
`job_outbox`, if it is there, has no claim token, and both have the columns that index the leases. -/
structure PreFencing (schema : PgSchema) : Prop where
  jobs : ∃ existing, schema.columns .jobs = some existing ∧ "status" ∈ existing ∧
    "processing_token" ∉ existing ∧ "processing_started_at" ∉ existing
  jobOutbox : ∀ existing, schema.columns .jobOutbox = some existing →
    "status" ∈ existing ∧ "locked_at" ∈ existing ∧ "claim_token" ∉ existing

/-! ### An index before its column -/

/-- A statement of `001_initial_schema.sql` leaves the columns of a table that exists alone. -/
theorem columns_kept {statement : Ddl} {schema after : PgSchema} {table : TableName}
    {existing : List String} (columns : schema.columns table = some existing)
    (notAdded : ∀ other column, statement ≠ .addColumn other column)
    (ran : statement.run schema = .ok after) : after.columns table = some existing := by
  cases statement with
  | createTable created list =>
      simp only [Ddl.run] at ran
      split at ran
      · cases ran
        exact columns
      · next absent =>
          cases ran
          have other : table ≠ created := by
            rintro rfl
            rw [absent] at columns
            cases columns
          exact (Function.update_of_ne other _ _).trans columns
  | addColumn other column => exact absurd rfl (notAdded other column)
  | createIndex index indexed list =>
      simp only [Ddl.run] at ran
      split at ran
      · cases ran
      · split_ifs at ran <;> cases ran <;> exact columns

/-- A script fails when a statement fails in every schema the ones before it lead to. -/
theorem script_fails {before later : List Ddl} {statement : Ddl} {schema : PgSchema}
    {table : TableName} {existing : List String} (columns : schema.columns table = some existing)
    (notAdded : ∀ earlier ∈ before, ∀ other column, earlier ≠ .addColumn other column)
    (fails : ∀ current : PgSchema, current.columns table = some existing →
      ∃ error, statement.run current = .error error) :
    ∃ error, script (before ++ statement :: later) schema = .error error := by
  unfold script
  induction before generalizing schema with
  | nil =>
      obtain ⟨error, failed⟩ := fails schema columns
      refine ⟨error, ?_⟩
      rw [List.nil_append, List.foldlM_cons, failed]
      rfl
  | cons earlier rest inductionHypothesis =>
      rw [List.cons_append, List.foldlM_cons]
      cases outcome : earlier.run schema with
      | error error => exact ⟨error, rfl⟩
      | ok middle =>
          have kept := columns_kept columns (notAdded earlier List.mem_cons_self) outcome
          exact inductionHypothesis kept fun other member =>
            notAdded other (List.mem_cons_of_mem _ member)

/-- `001_initial_schema.sql` indexes a column that only `002_processing_fencing.sql` adds. -/
theorem initialSchema_fails {schema : PgSchema} (old : PreFencing schema) :
    ∃ error, initialSchema.text schema = .error error := by
  obtain ⟨existing, columns, _, _, absent⟩ := old.jobs
  have fails : ∀ current : PgSchema, current.columns .jobs = some existing →
      ∃ error, processingLeaseIndex.run current = .error error := by
    intro current isColumns
    refine ⟨.undefinedColumn, ?_⟩
    simp only [processingLeaseIndex, Ddl.run, isColumns]
    exact if_neg fun all => absent (all _ (by simp))
  exact script_fails columns (by simp [initialTables, initialIndexes]) fails

/-! ### The new columns -/

/-- The contents after `002_processing_fencing.sql`. -/
def fenced (db : Database) : Database :=
  withNull (withNull (withNull db .jobs "processing_token") .jobs "processing_started_at")
    .jobOutbox "claim_token"

theorem jobs_fenced (db : Database) : (fenced db).jobs.rows = db.jobs.rows.map fun row =>
    { row with processingToken := none, processingStartedAt := none } := by
  simp [fenced, withNull, Table.update]

theorem script_cons {statement : Ddl} {schema middle : PgSchema}
    (ran : statement.run schema = .ok middle) (rest : List Ddl) :
    script (statement :: rest) schema = script rest middle := by
  unfold script
  rw [List.foldlM_cons, ran]
  rfl

theorem addColumn_run {schema : PgSchema} {table : TableName} {existing : List String}
    {column : String} (columns : schema.columns table = some existing) (absent : column ∉ existing) :
    ∃ after, (Ddl.addColumn table column).run schema = .ok after ∧
      after.columns table = some (existing ++ [column]) ∧
      (∀ other, other ≠ table → after.columns other = schema.columns other) ∧
      after.contents = withNull schema.contents table column := by
  simp only [Ddl.run, columns, if_neg absent]
  exact ⟨_, rfl, Function.update_self _ _ _, fun other differs => Function.update_of_ne differs _ _,
    rfl⟩

theorem createIndex_run (index : String) (columns : List String) {schema : PgSchema}
    {table : TableName} {existing : List String} (isColumns : schema.columns table = some existing)
    (present : ∀ column ∈ columns, column ∈ existing) :
    ∃ after, (Ddl.createIndex index table columns).run schema = .ok after ∧
      after.columns = schema.columns ∧ after.contents = schema.contents := by
  simp only [Ddl.run, isColumns, if_pos present]
  split_ifs
  · exact ⟨schema, rfl, rfl, rfl⟩
  · exact ⟨_, rfl, rfl, rfl⟩

/-- `002_processing_fencing.sql` adds its columns to every database it is meant for. -/
theorem processingFencing_runs {schema : PgSchema} (old : PreFencing schema)
    (present : schema.columns .jobOutbox ≠ none) :
    ∃ after, processingFencing.text schema = .ok after ∧ after.contents = fenced schema.contents := by
  obtain ⟨jobs, isJobs, status, noToken, noStart⟩ := old.jobs
  obtain ⟨jobOutbox, isOutbox⟩ := Option.ne_none_iff_exists'.mp present
  obtain ⟨outboxStatus, lockedAt, noClaim⟩ := old.jobOutbox jobOutbox isOutbox
  obtain ⟨first, ran₁, jobs₁, others₁, contents₁⟩ := addColumn_run isJobs noToken
  have noStart₁ : "processing_started_at" ∉ jobs ++ ["processing_token"] := by simp [noStart]
  obtain ⟨second, ran₂, jobs₂, others₂, contents₂⟩ := addColumn_run jobs₁ noStart₁
  have outbox₂ : second.columns .jobOutbox = some jobOutbox := by
    rw [others₂ .jobOutbox (by decide), others₁ .jobOutbox (by decide), isOutbox]
  obtain ⟨third, ran₃, outbox₃, others₃, contents₃⟩ := addColumn_run outbox₂ noClaim
  have jobs₃ := (others₃ .jobs (by decide)).trans jobs₂
  obtain ⟨fourth, ran₄, columns₄, contents₄⟩ := createIndex_run "idx_jobs_processing_lease"
    ["status", "processing_started_at"] jobs₃ (by simp [status])
  obtain ⟨after, ran₅, _, contents₅⟩ := createIndex_run "idx_job_outbox_publishing_lease"
    ["status", "locked_at"] ((congrFun columns₄ .jobOutbox).trans outbox₃)
    (by simp [outboxStatus, lockedAt])
  refine ⟨after, ?_, ?_⟩
  · unfold processingFencing
    dsimp only
    rw [script_cons ran₁, script_cons ran₂, script_cons ran₃, processingLeaseIndex,
      script_cons ran₄, publishingLeaseIndex, script_cons ran₅]
    rfl
  · rw [contents₅, contents₄, contents₃, contents₂, contents₁]
    rfl

/-! ### The upgrade -/

theorem sorted_migrationDir : sorted migrationDir = migrationDir := by
  apply List.Pairwise.insertionSort_eq
  refine List.pairwise_pair.mpr ?_
  change ("001_initial_schema.sql" : String) ≤ "002_processing_fencing.sql"
  decide

/-- A database the upgrade is meant for: nothing is recorded, or the first script is and the outbox
exists. -/
structure Upgradable (db : MigratedDb PgSchema) : Prop where
  schema : PreFencing db.schema
  recorded : db.recorded = [] ∨
    db.recorded = [initialSchema.name] ∧ db.schema.columns .jobOutbox ≠ none

theorem replay_created {db : MigratedDb PgSchema} {files : List (MigrationFile PgSchema)} :
    MigratedDb.postgres.replay (MigratedDb.plan files) db =
      MigratedDb.postgres.replay (files.flatMap MigratedDb.fileWrites)
        { db with versions := some db.recorded } :=
  rfl

/-- From nothing, the upgrade fails. -/
theorem upgrade_fails {db : MigratedDb PgSchema} (old : PreFencing db.schema)
    (nothing : db.recorded = []) :
    ∃ error, MigratedDb.postgres.replay (lonePlan migrationDir db) db = .error error := by
  obtain ⟨error, failed⟩ := initialSchema_fails old
  refine ⟨error, ?_⟩
  have pending : pendingFiles migrationDir [] = migrationDir := by simp [pendingFiles]
  unfold lonePlan
  rw [sorted_migrationDir, nothing, pending, replay_created]
  unfold Storage.replay
  change ((initialSchema.text db.schema).map _ >>= _) = _
  rw [failed]
  rfl

/-- After the first script, the upgrade adds the columns. -/
theorem upgrade_succeeds {db : MigratedDb PgSchema} (old : PreFencing db.schema)
    (first : db.recorded = [initialSchema.name]) (present : db.schema.columns .jobOutbox ≠ none) :
    ∃ after, MigratedDb.postgres.replay (lonePlan migrationDir db) db = .ok after ∧
      after.schema.contents = fenced db.schema.contents := by
  obtain ⟨schema, ran, contents⟩ := processingFencing_runs old present
  have pending : pendingFiles migrationDir [initialSchema.name] = [processingFencing] := by
    rfl
  unfold lonePlan
  rw [sorted_migrationDir, first, pending, replay_created, first]
  refine ⟨⟨schema, some [initialSchema.name, processingFencing.name],
    db.executed ++ [processingFencing]⟩, ?_, contents⟩
  unfold Storage.replay
  change ((processingFencing.text db.schema).map _ >>= _) = _
  rw [ran]
  rfl

/-- `mark_job_processing` grants the job. -/
def Granted (db : Database) (job : JobRow) (leaseSeconds : Int) (now : Time) : Prop :=
  ∀ inputs : Inputs, inputs.now = now → ∃ claimed,
    ((RepoCall.markJobProcessing job.id leaseSeconds).run inputs [] db).1 = .ok (some claimed)

/-- `claim_outbox_events` claims the event, unless its row is locked or the batch is too small. -/
def Selected (db : Database) (event : OutboxRow) (leaseSeconds : Int) (now : Time) : Prop :=
  ∀ (plan : ClaimPlan) (limit : Nat), plan.locked event.id = false →
    db.jobOutbox.rows.length ≤ limit →
    event.id ∈ claimedIds plan limit leaseSeconds now db

/-- The run succeeded, and what was under way before it can be claimed again: a job once the lease
has passed since the migration, an event once the lease has passed since it was locked. -/
structure NothingStranded (migrated : Time)
    (ended : Except MigrationError Unit × Deployment PgSchema) : Prop where
  succeeded : ended.1 = .ok ()
  jobs : ∀ leaseSeconds now, migrated + interval leaseSeconds < now →
    ∀ job ∈ ended.2.committed.schema.contents.jobs.rows, job.status = .processing →
      Granted ended.2.committed.schema.contents job leaseSeconds now
  events : ∀ leaseSeconds now, ∀ event ∈ ended.2.committed.schema.contents.jobOutbox.rows,
    event.status = .publishing → ∀ lockedAt, event.lockedAt = some lockedAt →
      lockedAt + interval leaseSeconds < now →
      Selected ended.2.committed.schema.contents event leaseSeconds now

theorem selected_of_claimable {db : Database} {event : OutboxRow} {leaseSeconds : Int} {now : Time}
    (member : event ∈ db.jobOutbox.rows)
    (holds : (eventClaimable leaseSeconds now event).Holds) :
    Selected db event leaseSeconds now := by
  intro plan limit unlocked fits
  unfold claimedIds
  have few : (((db.jobOutbox.matching fun event =>
      (eventClaimable leaseSeconds now event).Holds).insertionSort plan.Before).filter
        fun event => !plan.locked event.id).length ≤ limit := by
    refine (List.length_filter_le _ _).trans ?_
    rw [List.length_insertionSort]
    exact (List.length_filter_le _ _).trans fits
  rw [List.take_of_length_le few]
  refine List.mem_map_of_mem (List.mem_filter.mpr ⟨?_, by simp [unlocked]⟩)
  exact (List.mem_insertionSort _).mpr (List.mem_filter.mpr ⟨member, decide_eq_true holds⟩)

/-- A job that was being processed before the upgrade is never claimable after it: the start of its
lease is NULL. -/
theorem not_granted {db : Database} {job : JobRow} {leaseSeconds : Int} {now : Time}
    (member : job ∈ db.jobs.rows) (processing : job.status = .processing)
    (unknown : job.processingStartedAt = none) : ¬ Granted db job leaseSeconds now := by
  intro granted
  obtain ⟨claimed, isClaimed⟩ := granted ⟨fun _ => job.id, now, ⟨fun _ => 0, fun _ => false, fun _ => 0⟩⟩
    rfl
  rw [markJobProcessing_refuses] at isClaimed
  · cases isClaimed
  · intro row found
    rw [Database.job?_eq_some.mpr ⟨member, rfl⟩] at found
    cases found
    simp [jobClaimable, processing, unknown]

theorem nothingStranded_iff {db : Database} {migrated : Time} {d : Deployment PgSchema}
    (contents : d.committed.schema.contents = fenced db) :
    NothingStranded migrated (.ok (), d) ↔ ∀ job ∈ db.jobs.rows, job.status ≠ .processing := by
  constructor
  · intro fine job member processing
    have member' : { job with processingToken := none, processingStartedAt := none } ∈
        d.committed.schema.contents.jobs.rows := by
      rw [contents, jobs_fenced]
      exact List.mem_map_of_mem member
    exact not_granted member' processing rfl
      (fine.jobs 0 (migrated + 1) (by simp [interval]) _ member' processing)
  · intro idle
    refine ⟨rfl, fun leaseSeconds now later job member processing => ?_, ?_⟩
    · dsimp only at member
      rw [contents, jobs_fenced] at member
      obtain ⟨old, isOld, rfl⟩ := List.mem_map.mp member
      exact absurd processing (idle old isOld)
    · intro leaseSeconds now event member publishing lockedAt isLocked stale
      refine selected_of_claimable member ?_
      simp only [eventClaimable, Truth.holds_or, Truth.holds_and, Truth.holds_eq_some,
        Truth.holds_lt_some]
      exact .inr ⟨congrArg some publishing, lockedAt, isLocked, lt_sub_iff_add_lt.mpr stale⟩

section Upgrade

variable {t : ThreadId} {d : Deployment PgSchema}

theorem stranded_from_nothing (migrated : Time) (directory : d.directory t = migrationDir)
    (closed : d.store.sessions t = none) (free : d.store.lock = none)
    (old : PreFencing d.committed.schema) (nothing : d.committed.recorded = []) :
    ¬ NothingStranded migrated (Code.meaning (respond t) runMigrations d) := by
  intro fine
  have ended := meaning_runMigrations directory closed free
  obtain ⟨error, failed⟩ := upgrade_fails old nothing
  rw [failed] at ended
  generalize Code.meaning (respond t) runMigrations d = last at ended fine
  cases ended with
  | failed same => cases fine.succeeded

theorem stranded_from_first (migrated : Time) (directory : d.directory t = migrationDir)
    (closed : d.store.sessions t = none) (free : d.store.lock = none)
    (old : PreFencing d.committed.schema) (first : d.committed.recorded = [initialSchema.name])
    (present : d.committed.schema.columns .jobOutbox ≠ none) :
    NothingStranded migrated (Code.meaning (respond t) runMigrations d) ↔
      ∀ job ∈ d.committed.schema.contents.jobs.rows, job.status ≠ .processing := by
  have ended := meaning_runMigrations directory closed free
  obtain ⟨after, replayed, contents⟩ := upgrade_succeeds old first present
  rw [replayed] at ended
  generalize Code.meaning (respond t) runMigrations d = last at ended ⊢
  cases ended with
  | succeeded => exact nothingStranded_iff contents

/-- A run of `run_migrations` that nothing disturbs, on a database from before processing fencing,
whatever its rows: it succeeds and strands nothing exactly when the first script is recorded and no
job is being processed. -/
theorem upgrade_strands_nothing_iff (migrated : Time) (directory : d.directory t = migrationDir)
    (closed : d.store.sessions t = none) (free : d.store.lock = none)
    (upgradable : Upgradable d.committed) :
    NothingStranded migrated (Code.meaning (respond t) runMigrations d) ↔
      d.committed.recorded = [initialSchema.name] ∧
        ∀ job ∈ d.committed.schema.contents.jobs.rows, job.status ≠ .processing := by
  have old := upgradable.schema
  rcases upgradable.recorded with nothing | ⟨first, present⟩
  · refine ⟨fun fine => absurd fine ?_, fun recorded => ?_⟩
    · exact stranded_from_nothing migrated directory closed free old nothing
    · cases nothing.symm.trans recorded.1
  · rw [stranded_from_first migrated directory closed free old first present]
    exact (and_iff_right first).symm

end Upgrade

/-- Every process runs the last release. -/
def lastRelease (db : MigratedDb PgSchema) : Deployment PgSchema :=
  { Deployment.initial db with directory := fun _ => migrationDir }

/-- The schema of `services/platform_app/db/migrations/001_initial_schema.sql`. -/
def olderSchema : PgSchema where
  columns
    | .customers => some ["id", "name", "email", "created_at"]
    | .jobs => some ["id", "job_type", "status", "payload", "attempts", "last_error", "created_at",
        "updated_at"]
    | .jobResults => some ["id", "job_id", "result", "created_at"]
    | .auditEvents => some ["id", "entity_type", "entity_id", "action", "details", "created_at"]
    | _ => none
  indexes := ["idx_customers_created_at", "idx_jobs_status_created_at", "idx_audit_events_entity"]
  contents := .empty

/-- The older schema with an outbox that has no claim tokens. -/
def recordedSchema (contents : Database) : PgSchema where
  columns := Function.update olderSchema.columns .jobOutbox (some ["id", "event_type", "version",
    "payload", "status", "attempts", "locked_at", "published_at", "last_error", "created_at",
    "updated_at"])
  indexes := olderSchema.indexes
  contents := contents

theorem preFencing_olderSchema : PreFencing olderSchema where
  jobs := ⟨_, rfl, by decide, by decide, by decide⟩
  jobOutbox existing isColumns := by cases isColumns

theorem preFencing_recordedSchema (contents : Database) : PreFencing (recordedSchema contents) where
  jobs := ⟨_, rfl, by decide, by decide, by decide⟩
  jobOutbox existing isColumns := by
    cases isColumns
    decide

theorem upgradable_recordedSchema (contents : Database) :
    Upgradable ⟨recordedSchema contents, some [initialSchema.name], []⟩ where
  schema := preFencing_recordedSchema contents
  recorded := .inr ⟨rfl, nofun⟩

/-- A job that has failed, and an event that a dispatcher had locked when it stopped. -/
def inFlight : Database :=
  { Database.empty with
    jobs := ⟨[⟨Uuid.ofInt 1, "csv_report", .failed, .obj [], 2, some "ValueError", none, none, 0, 0⟩],
      List.pairwise_singleton _ _⟩
    jobOutbox := ⟨[{ newEvent (Uuid.ofInt 1) none (Uuid.ofInt 2) 0 with
      status := .publishing, attempts := 1, lockedAt := some 5 }], List.pairwise_singleton _ _⟩ }

theorem upgrade_strands_nothing_iff_inFlight :
    (inFlight.jobOutbox.rows.map OutboxRow.status = [.publishing]) ∧
    NothingStranded 0 (Code.meaning (respond 0) runMigrations
      (lastRelease ⟨recordedSchema inFlight, some [initialSchema.name], []⟩)) := by
  refine ⟨rfl, (upgrade_strands_nothing_iff
    (d := lastRelease ⟨recordedSchema inFlight, some [initialSchema.name], []⟩) 0 rfl rfl rfl
    (upgradable_recordedSchema inFlight)).mpr ⟨rfl, List.forall_mem_singleton.mpr ?_⟩⟩
  decide

/-- A job that a worker from before fencing had claimed. -/
def claimedBefore : JobRow :=
  ⟨Uuid.ofInt 1, "csv_report", .processing, .obj [], 1, none, none, none, 0, 0⟩

/-- The older schema cannot be upgraded; after the first script, a job that was being processed is
stranded. -/
theorem upgrade_strands :
    (Upgradable ⟨olderSchema, none, []⟩ ∧ ¬ NothingStranded 0 (Code.meaning (respond 0)
      runMigrations (lastRelease ⟨olderSchema, none, []⟩))) ∧
    ∃ jobs, ¬ NothingStranded 0 (Code.meaning (respond 0) runMigrations
      (lastRelease ⟨recordedSchema { Database.empty with jobs }, some [initialSchema.name], []⟩)) := by
  have older : Upgradable ⟨olderSchema, none, []⟩ := ⟨preFencing_olderSchema, .inl rfl⟩
  refine ⟨⟨older, ?_⟩, ⟨[claimedBefore], List.pairwise_singleton _ _⟩, fun fine => ?_⟩
  · exact stranded_from_nothing (d := lastRelease ⟨olderSchema, none, []⟩) 0 rfl rfl rfl
      preFencing_olderSchema rfl
  · let jobs : Table JobRow := ⟨[claimedBefore], List.pairwise_singleton _ _⟩
    let contents : Database := { Database.empty with jobs }
    have idle := (stranded_from_first
      (d := lastRelease ⟨recordedSchema contents, some [initialSchema.name], []⟩) 0 rfl rfl rfl
      (preFencing_recordedSchema contents) rfl nofun).mp fine
    exact idle claimedBefore List.mem_cons_self rfl

end JobPlatform.Migrations
