import JobPlatform.Store.Shape

/-!
Contract: a job is completed exactly when it has its report.

Owns:
- `Reported`: a completed job has one result row, one object row and one completion audit, which
  agree, and any other job has none of the three;
- its preservation by every repository call, what it gives `get_job`, and that a completed job and
  its three rows never change again.
-/

namespace JobPlatform.Store

open JobPlatform.Foundation
open Repository

/-- The audit event of a completed job. -/
def AuditEventRow.IsCompletion (jobId : Uuid) (audit : AuditEventRow) : Prop :=
  audit.entityType = "job" ∧ audit.entityId = jobId ∧ audit.action = "completed"

instance (jobId : Uuid) (audit : AuditEventRow) : Decidable (audit.IsCompletion jobId) :=
  inferInstanceAs (Decidable (_ ∧ _))

namespace Database

variable (db : Database) (jobId : Uuid)

/-- The `job_results` rows of a job. -/
def reportsOf : List JobResultRow := db.jobResults.rows.filter fun row => row.jobId = jobId

/-- The `object_metadata` rows of a job. -/
def objectsOf : List ObjectMetadataRow := db.objectMetadata.rows.filter fun row => row.jobId = jobId

/-- The completion audits of a job. -/
def completionsOf : List AuditEventRow :=
  db.auditEvents.rows.filter fun row => row.IsCompletion jobId

/-- The job exists and is completed. -/
def Completed : Prop := ∃ job, db.job? jobId = some job ∧ job.status = .completed

instance : Decidable (db.Completed jobId) :=
  decidable_of_iff ((db.job? jobId).any fun job => job.status = .completed) (by
    simp [Completed, Option.any_eq_true])

/-- The report of a job: its result and its object, audited under the same result. -/
structure HasReport (result : Json) (objectKey objectType : String) : Prop where
  reports : ∃ row, db.reportsOf jobId = [row] ∧ row.result = result
  objects : ∃ row, db.objectsOf jobId = [row] ∧ row.objectKey = objectKey ∧
    row.objectType = objectType
  completions : ∃ row, db.completionsOf jobId = [row] ∧ row.details = result

/-- The job has none of the three rows. -/
structure HasNoReport : Prop where
  reports : db.reportsOf jobId = []
  objects : db.objectsOf jobId = []
  completions : db.completionsOf jobId = []

/-- A job has its report exactly when it is completed. -/
def Reported (db : Database) : Prop :=
  ∀ jobId, (db.Completed jobId → ∃ result objectKey objectType,
      db.HasReport jobId result objectKey objectType) ∧
    (¬ db.Completed jobId → db.HasNoReport jobId)

end Database

variable {inputs : Inputs} {db after : Database} {call : RepoCall} {value : call.Result}
  {jobId : Uuid}

/-! ### Completion is for ever -/

/-- Only a fenced completion makes a job completed, and nothing undoes it. -/
theorem completed_of_jobChange {before after : Option JobRow}
    (change : JobChange inputs jobId call value before after) :
    (∃ processingToken result objectKey objectType,
      call = .completeJobWithReport jobId processingToken result objectKey objectType) ∨
      ((∃ job, after = some job ∧ job.status = .completed) ↔
        ∃ job, before = some job ∧ job.status = .completed) := by
  cases change with
  | same => exact .inr Iff.rfl
  | created => exact .inr (by simp [newJob])
  | @claimed _ old holds =>
      have unfinished : old.status ≠ .completed := by
        intro finished
        simp [jobClaimable, finished] at holds
      exact .inr (by simp [claimJobRow, unfinished])
  | @renewed _ old holds =>
      simp only [jobFence, Truth.holds_and, Truth.holds_eq_some] at holds
      have processing := Option.some.inj holds.1
      exact .inr (by simp [renewJobRow, processing])
  | completed => exact .inl ⟨_, _, _, _, rfl⟩
  | @failed _ _ old holds =>
      simp only [jobFence, Truth.holds_and, Truth.holds_eq_some] at holds
      have processing := Option.some.inj holds.1
      exact .inr (by simp [failJobRow, processing])

/-- A fenced job is not completed. -/
theorem not_completed_of_fence {job : JobRow} {token : Uuid} (found : db.job? jobId = some job)
    (holds : (jobFence token job).Holds) : ¬ db.Completed jobId := by
  rintro ⟨other, isOther, completed⟩
  rw [found] at isOther
  cases isOther
  simp only [jobFence, Truth.holds_and, Truth.holds_eq_some] at holds
  rw [Option.some.inj holds.1] at completed
  cases completed

/-- A call leaves the row of a completed job alone. -/
theorem job_of_completed (effect : Effect inputs db call value after)
    (completed : db.Completed jobId) : after.job? jobId = db.job? jobId := by
  obtain ⟨job, found, status⟩ := completed
  have change := jobChange_of_effect effect jobId
  rw [found] at change ⊢
  generalize after.job? jobId = row at change
  cases change with
  | same => rfl
  | claimed holds => simp [jobClaimable, status] at holds
  | renewed holds => simp [jobFence, status] at holds
  | completed holds => simp [jobFence, status] at holds
  | failed holds => simp [jobFence, status] at holds

theorem Database.Completed.effect (completed : db.Completed jobId)
    (effect : Effect inputs db call value after) : after.Completed jobId := by
  obtain ⟨job, found, status⟩ := completed
  exact ⟨job, (job_of_completed effect ⟨job, found, status⟩).trans found, status⟩

/-! ### The three rows -/

theorem Database.HasNoReport.unreported (none : db.HasNoReport jobId) :
    ¬ ∃ old ∈ db.jobResults.rows, old.jobId = jobId := by
  rintro ⟨old, member, isJob⟩
  have listed : old ∈ db.reportsOf jobId := List.mem_filter.mpr ⟨member, by simp [isJob]⟩
  rw [none.reports] at listed
  exact List.not_mem_nil listed

theorem Database.HasNoReport.uncatalogued (none : db.HasNoReport jobId) (objectKey : String) :
    ¬ ∃ old ∈ db.objectMetadata.rows, old.jobId = jobId ∧ old.objectKey = objectKey := by
  rintro ⟨old, member, isJob, _⟩
  have listed : old ∈ db.objectsOf jobId := List.mem_filter.mpr ⟨member, by simp [isJob]⟩
  rw [none.objects] at listed
  exact List.not_mem_nil listed

/-- A completion of a job without report inserts its three rows. -/
theorem Completion.rows {target : Uuid} {result : Json} {objectKey objectType : String}
    (completion : Completion inputs db target result objectKey objectType after)
    (none : db.HasNoReport target) :
    after.jobResults.rows = db.jobResults.rows ++ [⟨inputs.uuid 0, target, result, inputs.now⟩] ∧
      after.objectMetadata.rows = db.objectMetadata.rows ++
        [⟨inputs.uuid 1, target, objectKey, objectType, "job", inputs.now⟩] ∧
      after.auditEvents.rows = db.auditEvents.rows ++
        [⟨inputs.uuid 2, "job", target, "completed", result, inputs.now⟩] := by
  have reported := completion.reported.resolve_left none.unreported
  have catalogued := completion.catalogued.resolve_left (none.uncatalogued objectKey)
  exact ⟨Table.rows_of_insert? reported, Table.rows_of_insert? catalogued,
    Table.rows_of_insert? completion.audited⟩

/-- A completion gives the job its report. -/
theorem Completion.hasReport {result : Json} {objectKey objectType : String}
    (completion : Completion inputs db jobId result objectKey objectType after)
    (none : db.HasNoReport jobId) : after.HasReport jobId result objectKey objectType := by
  obtain ⟨reports, objects, audits⟩ := completion.rows none
  have noReports := none.reports
  have noObjects := none.objects
  have noCompletions := none.completions
  unfold Database.reportsOf at noReports
  unfold Database.objectsOf at noObjects
  unfold Database.completionsOf at noCompletions
  constructor
  · refine ⟨⟨inputs.uuid 0, jobId, result, inputs.now⟩, ?_, rfl⟩
    unfold Database.reportsOf
    rw [reports, List.filter_append, noReports]
    simp
  · refine ⟨⟨inputs.uuid 1, jobId, objectKey, objectType, "job", inputs.now⟩, ?_, rfl, rfl⟩
    unfold Database.objectsOf
    rw [objects, List.filter_append, noObjects]
    simp
  · refine ⟨⟨inputs.uuid 2, "job", jobId, "completed", result, inputs.now⟩, ?_, rfl⟩
    unfold Database.completionsOf
    rw [audits, List.filter_append, noCompletions]
    simp [AuditEventRow.IsCompletion]

/-- The report rows of one job in two databases. -/
structure Database.SameReports (jobId : Uuid) (before after : Database) : Prop where
  reports : after.reportsOf jobId = before.reportsOf jobId
  objects : after.objectsOf jobId = before.objectsOf jobId
  completions : after.completionsOf jobId = before.completionsOf jobId

/-- Appending an audit of another kind does not add a completion. -/
private theorem completionsOf_append {audit : AuditEventRow}
    (audits : after.auditEvents.rows = db.auditEvents.rows ++ [audit])
    (other : ¬ audit.IsCompletion jobId) : after.completionsOf jobId = db.completionsOf jobId := by
  unfold Database.completionsOf
  rw [audits, List.filter_append]
  simp [other]

/-- A call other than the completion of a job leaves its report rows alone. -/
theorem sameReports_of_effect (reported : db.Reported)
    (effect : Effect inputs db call value after)
    (other : ¬ ∃ processingToken result objectKey objectType,
      call = .completeJobWithReport jobId processingToken result objectKey objectType) :
    Database.SameReports jobId db after := by
  cases effect with
  | customerCreated _ audited =>
      exact ⟨rfl, rfl, completionsOf_append (Table.rows_of_insert? audited)
        (by simp [AuditEventRow.IsCompletion])⟩
  | jobCreated _ _ audited =>
      exact ⟨rfl, rfl, completionsOf_append (Table.rows_of_insert? audited)
        (by simp [AuditEventRow.IsCompletion])⟩
  | eventsClaimed => exact ⟨rfl, rfl, rfl⟩
  | eventPublished _ update => cases update <;> exact ⟨rfl, rfl, rfl⟩
  | eventFailed _ update => cases update <;> exact ⟨rfl, rfl, rfl⟩
  | jobRead => exact ⟨rfl, rfl, rfl⟩
  | jobClaimed _ update => cases update <;> exact ⟨rfl, rfl, rfl⟩
  | leaseRenewed _ update => cases update <;> exact ⟨rfl, rfl, rfl⟩
  | @jobCompleted target processingToken result objectKey objectType _ _ found holds completion =>
      have different : target ≠ jobId := by
        rintro rfl
        exact other ⟨_, _, _, _, rfl⟩
      have none := (reported target).2 (not_completed_of_fence found holds)
      obtain ⟨reports, objects, audits⟩ := completion.rows none
      refine ⟨?_, ?_, completionsOf_append audits (by simp [AuditEventRow.IsCompletion, different])⟩
      · unfold Database.reportsOf
        rw [reports, List.filter_append]
        simp [different]
      · unfold Database.objectsOf
        rw [objects, List.filter_append]
        simp [different]
  | jobFailed _ update => cases update <;> exact ⟨rfl, rfl, rfl⟩

theorem Database.HasReport.congr {result : Json} {objectKey objectType : String}
    (report : db.HasReport jobId result objectKey objectType)
    (same : Database.SameReports jobId db after) :
    after.HasReport jobId result objectKey objectType := by
  constructor
  · rw [same.reports]
    exact report.reports
  · rw [same.objects]
    exact report.objects
  · rw [same.completions]
    exact report.completions

theorem Database.HasNoReport.congr (none : db.HasNoReport jobId)
    (same : Database.SameReports jobId db after) : after.HasNoReport jobId :=
  ⟨same.reports.trans none.reports, same.objects.trans none.objects,
    same.completions.trans none.completions⟩

theorem Database.reported_empty : Database.empty.Reported := by
  intro jobId
  refine ⟨?_, fun _ => ⟨rfl, rfl, rfl⟩⟩
  rintro ⟨job, found, _⟩
  cases found

/-- Every repository call keeps `Reported`. -/
theorem Database.Reported.effect (reported : db.Reported)
    (effect : Effect inputs db call value after) : after.Reported := by
  intro jobId
  by_cases completes : ∃ processingToken result objectKey objectType,
      call = .completeJobWithReport jobId processingToken result objectKey objectType
  · obtain ⟨processingToken, result, objectKey, objectType, rfl⟩ := completes
    cases effect with
    | @jobCompleted _ _ _ _ _ row _ found holds completion =>
        have none := (reported jobId).2 (not_completed_of_fence found holds)
        refine ⟨fun _ => ⟨result, objectKey, objectType, completion.hasReport none⟩, fun open' => ?_⟩
        refine absurd ⟨completeJobRow inputs.now row, ?_, rfl⟩ open'
        rw [job?_eq_of_jobs completion.jobs, Database.job?_setJob, if_pos rfl, found]
        rfl
  · have same := sameReports_of_effect reported effect completes
    have status := (completed_of_jobChange (jobChange_of_effect effect jobId)).resolve_left completes
    constructor
    · intro completed
      obtain ⟨result, objectKey, objectType, report⟩ := (reported jobId).1 (status.mp completed)
      exact ⟨result, objectKey, objectType, report.congr same⟩
    · intro open'
      exact ((reported jobId).2 fun completed => open' (status.mpr completed)).congr same

/-- A call leaves a completed job and its report alone. -/
theorem sameJob_of_completed (reported : db.Reported) (effect : Effect inputs db call value after)
    (completed : db.Completed jobId) :
    after.job? jobId = db.job? jobId ∧ Database.SameReports jobId db after := by
  refine ⟨job_of_completed effect completed, sameReports_of_effect reported effect ?_⟩
  rintro ⟨processingToken, result, objectKey, objectType, rfl⟩
  cases effect with
  | jobCompleted found holds => exact not_completed_of_fence found holds completed

/-! ### Reading a job -/

/-- A join against at most one match gives one row. -/
theorem length_leftJoin {α : Type} {found : List α} (few : found.length ≤ 1) :
    (leftJoin found).length = 1 := by
  match found with
  | [] => rfl
  | [_] => rfl
  | _ :: _ :: _ => simp at few

theorem Database.Reported.few (reported : db.Reported) (jobId : Uuid) :
    (db.reportsOf jobId).length ≤ 1 ∧ (db.objectsOf jobId).length ≤ 1 := by
  by_cases completed : db.Completed jobId
  · obtain ⟨result, objectKey, objectType, report⟩ := (reported jobId).1 completed
    obtain ⟨row, isReport, _⟩ := report.reports
    obtain ⟨object, isObject, _⟩ := report.objects
    simp [isReport, isObject]
  · have none := (reported jobId).2 completed
    simp [none.reports, none.objects]

/-- The rows of a table with a given id. -/
theorem filter_jobs {job : JobRow} (member : job ∈ db.jobs.rows) :
    (db.jobs.rows.filter fun row => row.id = job.id) = [job] := by
  have found : db.jobs.find? job.id = some job := Database.job?_eq_some.mpr ⟨member, rfl⟩
  have selected := db.jobs.matching_key job.id fun _ => True
  rw [found] at selected
  unfold Table.matching at selected
  simp only [and_true, Option.filter, decide_true, if_true, Option.toList_some] at selected
  exact selected

/-- `get_job` reads exactly one row of every job. -/
theorem length_jobViews (reported : db.Reported) {job : JobRow} (member : job ∈ db.jobs.rows) :
    (jobViews db job.id).length = 1 := by
  obtain ⟨reports, objects⟩ := reported.few job.id
  obtain ⟨report, isReport⟩ := List.length_eq_one_iff.mp (length_leftJoin reports)
  obtain ⟨object, isObject⟩ := List.length_eq_one_iff.mp (length_leftJoin objects)
  unfold Database.reportsOf at isReport
  unfold Database.objectsOf at isObject
  unfold jobViews
  rw [filter_jobs member]
  simp [isReport, isObject]

end JobPlatform.Store
