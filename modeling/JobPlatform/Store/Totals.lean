import JobPlatform.Store.Effects

/-!
Contract: sums over the jobs.

Owns:
- `Database.total`, the sum of a column over all jobs, and what a call that returned adds to it;
- the number of completed jobs and the sum of attempts: a completion raises the first by one, a
  granted claim the second, and no other call changes either.
-/

namespace JobPlatform.Store

open JobPlatform.Foundation
open Repository

namespace Database

/-- The sum of a column over the jobs. -/
def total (db : Database) (column : JobRow → Nat) : Nat := (db.jobs.rows.map column).sum

/-- The number of jobs in status `completed`. -/
def completedJobs (db : Database) : Nat := db.jobs.rows.countP fun job => job.status = .completed

/-- The sum of `attempts` over all jobs. -/
def totalAttempts (db : Database) : Nat := db.total JobRow.attempts

/-- One for a completed job. -/
def completedColumn (job : JobRow) : Nat := if job.status = .completed then 1 else 0

variable {db after : Database}

theorem completedJobs_eq (db : Database) : db.completedJobs = db.total completedColumn := by
  unfold completedJobs total
  induction db.jobs.rows with
  | nil => rfl
  | cons job rest inductionHypothesis =>
      rw [List.countP_cons, List.map_cons, List.sum_cons, inductionHypothesis, completedColumn]
      simp [Nat.add_comm]

theorem total_of_jobs (same : after.jobs = db.jobs) (column : JobRow → Nat) :
    after.total column = db.total column := by
  unfold total
  rw [same]

/-- An update that adds the same to the column of every row it accepts. -/
theorem total_setJob {jobId : Uuid} {set : JobRow → JobRow}
    {fixed : ∀ row, (set row).id = row.id} {row : JobRow} (found : db.job? jobId = some row)
    {column : JobRow → Nat} {added : Nat} (adds : column (set row) = column row + added) :
    (db.setJob jobId set fixed).total column = db.total column + added := by
  have sum : (db.setJob jobId set fixed).total column + column row =
      db.total column + column (set row) := Table.sum_update_key fixed found column
  omega

end Database

open Database

/-- One for a call that granted a claim. -/
def grants : (call : RepoCall) → call.Result → Nat
  | .markJobProcessing .., some _ => 1
  | _, _ => 0

/-- One for a completion. -/
def completions : (call : RepoCall) → call.Result → Nat
  | .completeJobWithReport .., _ => 1
  | _, _ => 0

section Effect

variable {inputs : Inputs} {db after : Database} {call : RepoCall} {value : call.Result}

theorem total_jobUpdate {jobId : Uuid} {clause : JobRow → Truth} {set : JobRow → JobRow}
    {fixed : ∀ row, (set row).id = row.id} {row : Option JobRow}
    (update : JobUpdate db jobId clause set fixed row after) {column : JobRow → Nat} (added : Nat)
    (adds : ∀ job, (clause job).Holds → column (set job) = column job + added) :
    after.total column = db.total column + row.elim 0 fun _ => added := by
  cases update with
  | hit found holds => exact total_setJob found (adds _ holds)
  | miss => rfl

/-- What a call adds to a column that is zero in a new job, and that only claims and completions
raise. -/
theorem total_of_effect (effect : Effect inputs db call value after) (column : JobRow → Nat)
    (perClaim perCompletion : Nat)
    (created : ∀ jobType payload jobId now, column (newJob jobType payload jobId now) = 0)
    (claimed : ∀ leaseSeconds token now job, (jobClaimable leaseSeconds now job).Holds →
      column (claimJobRow token now job) = column job + perClaim)
    (renewed : ∀ token now job, (jobFence token job).Holds →
      column (renewJobRow now job) = column job)
    (completed : ∀ token now job, (jobFence token job).Holds →
      column (completeJobRow now job) = column job + perCompletion)
    (failed : ∀ token error now job, (jobFence token job).Holds →
      column (failJobRow error now job) = column job) :
    after.total column =
      db.total column + perClaim * grants call value + perCompletion * completions call value := by
  cases effect with
  | jobCreated inserted =>
      unfold total
      rw [Table.rows_of_insert? inserted, List.map_append, List.sum_append, List.map_singleton,
        List.sum_singleton, created]
      rfl
  | @jobClaimed _ _ row _ _ isValue update =>
      subst isValue
      rw [total_jobUpdate update perClaim (claimed _ _ _)]
      cases row with
      | none => rfl
      | some row => simp [grants, completions]
  | @leaseRenewed _ _ row _ _ _ update =>
      rw [total_jobUpdate update 0 (renewed _ _)]
      cases row <;> rfl
  | jobCompleted found holds completion =>
      rw [total_of_jobs completion.jobs, total_setJob found (completed _ _ _ holds)]
      simp [grants, completions]
  | @jobFailed _ _ _ row _ _ _ update =>
      rw [total_jobUpdate update 0 (failed _ _ _)]
      cases row <;> rfl
  | eventPublished _ update => cases update <;> rfl
  | eventFailed _ update => cases update <;> rfl
  | _ => rfl

theorem status_of_fence {token : Uuid} {job : JobRow} (holds : (jobFence token job).Holds) :
    job.status = .processing := by
  simp only [jobFence, Truth.holds_and, Truth.holds_eq_some] at holds
  exact Option.some.inj holds.1

theorem open_of_claimable {leaseSeconds : Int} {now : Time} {job : JobRow}
    (holds : (jobClaimable leaseSeconds now job).Holds) : job.status ≠ .completed := by
  intro completed
  simp [jobClaimable, completed] at holds

/-- A claim adds one attempt. -/
theorem totalAttempts_of_effect (effect : Effect inputs db call value after) :
    after.totalAttempts = db.totalAttempts + grants call value := by
  have total := total_of_effect effect JobRow.attempts 1 0 (fun _ _ _ _ => rfl)
    (fun _ _ _ _ _ => rfl) (fun _ _ _ _ => rfl) (fun _ _ _ _ => rfl) (fun _ _ _ _ _ => rfl)
  simpa [totalAttempts] using total

/-- A completion adds one completed job. -/
theorem completedJobs_of_effect (effect : Effect inputs db call value after) :
    after.completedJobs = db.completedJobs + completions call value := by
  rw [completedJobs_eq, completedJobs_eq]
  have total := total_of_effect effect completedColumn 0 1 (fun _ _ _ _ => rfl)
    (fun _ _ _ job holds => by simp [completedColumn, claimJobRow, open_of_claimable holds])
    (fun _ _ _ _ => rfl)
    (fun _ _ _ holds => by simp [completedColumn, completeJobRow, status_of_fence holds])
    (fun _ _ _ _ holds => by simp [completedColumn, failJobRow, status_of_fence holds])
  simpa using total

end Effect

end JobPlatform.Store
