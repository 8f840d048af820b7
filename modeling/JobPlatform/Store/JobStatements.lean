import JobPlatform.Foundation.RealTime
import JobPlatform.Store.Undisturbed

/-!
Contract: the job methods of `Repository`, step by step.

Owns:
- `JobStatement`, the statements of a worker on `jobs`, and `jobUpdates`, what each of them selects
  and assigns;
- `JobStatement.atomic`: the statement in one step is the method, on any database with these rows;
- `completion` and `attempt`, what the answers about one job promise to later calls.

After its `UPDATE` the completion inserts into other tables. An insert that fails is a step of the
transaction that raises.
-/

namespace JobPlatform.Store

open JobPlatform.Foundation
open Repository

/-- The statements that update `jobs`, with the arguments of their methods. -/
inductive JobStatement where
  | markJobProcessing (jobId : Uuid) (leaseSeconds : Int) (processingToken : Uuid)
  | renewJobProcessingLease (jobId processingToken : Uuid)
  | completeJobWithReport (jobId processingToken : Uuid) (result : Json)
      (objectKey objectType : String)
  | failJob (jobId processingToken : Uuid) (error : String)

namespace JobStatement

/-- `id = %s`. -/
def jobId : JobStatement → Uuid
  | markJobProcessing jobId _ _ => jobId
  | renewJobProcessingLease jobId _ => jobId
  | completeJobWithReport jobId _ _ _ _ => jobId
  | failJob jobId _ _ => jobId

/-- The `WHERE` clause after `id = %s AND`. -/
def selects : JobStatement → Time → JobRow → Truth
  | markJobProcessing _ leaseSeconds _, now => jobClaimable leaseSeconds now
  | renewJobProcessingLease _ processingToken, _ => jobFence processingToken
  | completeJobWithReport _ processingToken _ _ _, _ => jobFence processingToken
  | failJob _ processingToken _, _ => jobFence processingToken

/-- `SET`. -/
def set : JobStatement → Time → JobRow → JobRow
  | markJobProcessing _ _ processingToken, now => claimJobRow processingToken now
  | renewJobProcessingLease .., now => renewJobRow now
  | completeJobWithReport .., now => completeJobRow now
  | failJob _ _ error, now => failJobRow error now

@[simp] theorem set_id (statement : JobStatement) (now : Time) (job : JobRow) :
    (statement.set now job).id = job.id := by
  cases statement <;> rfl

/-- The method of the statement. -/
def call : JobStatement → RepoCall
  | markJobProcessing jobId leaseSeconds _ => .markJobProcessing jobId leaseSeconds
  | renewJobProcessingLease jobId processingToken =>
      .renewJobProcessingLease jobId processingToken
  | completeJobWithReport jobId processingToken result objectKey objectType =>
      .completeJobWithReport jobId processingToken result objectKey objectType
  | failJob jobId processingToken error => .failJob jobId processingToken error

/-- What the method makes of the rows of `RETURNING`. -/
def reply : (statement : JobStatement) → List JobRow → Except Exn statement.call.Result
  | markJobProcessing _ _ processingToken, rows =>
      .ok (rows.head?.map (ClaimedJob.ofRow processingToken))
  | renewJobProcessingLease .., rows => .ok (decide (rows.length = 1))
  | completeJobWithReport .., rows => if rows.isEmpty then .error .lostJobClaimError else .ok ()
  | failJob .., rows => .ok (decide (rows.length = 1))

/-- What the method draws for the statement: the token of a claim, and ids that are free for the
rows of a completion. -/
def DrawnFor (inputs : Inputs) (db : Database) : JobStatement → Prop
  | markJobProcessing _ _ processingToken => inputs.uuid 0 = processingToken
  | completeJobWithReport jobId _ _ objectKey _ => FreeFor db inputs jobId objectKey
  | _ => True

end JobStatement

/-- The statements on `jobs`, each on the row with one id. -/
def jobUpdates : PointUpdates JobStatement Uuid JobRow Time where
  key := JobRow.id
  clause statement now job :=
    (Truth.eq (some job.id) (some statement.jobId)).and (statement.selects now job)
  set := JobStatement.set
  fixed := JobStatement.set_id
  before _ _ _ := True
  limit _ := none
  skips _ := False
  accepts _ := True
  pin := JobStatement.jobId
  pinned holds := by simpa using ((Truth.holds_and _ _).mp holds).1
  unlimited _ := rfl
  waits _ skips := skips

/-! ### The methods -/

section Atomic

variable {statement : JobStatement} {now : Time} {before after : Uuid → Option JobRow}
  {rows : List JobRow} {db : Database} {inputs : Inputs}

/-- A clause speaks of the row with the id of the statement. -/
theorem JobStatement.clause_iff {job : JobRow} (isId : job.id = statement.jobId) :
    (jobUpdates.clause statement now job).Holds ↔ (statement.selects now job).Holds := by
  change ((Truth.eq (some job.id) (some statement.jobId)).and _).Holds ↔ _
  simp [isId]

/-- The rows after an assignment to one of them. -/
theorem job?_assigned {jobId : Uuid} {set : JobRow → JobRow} {fixed : ∀ row, (set row).id = row.id}
    {job : JobRow} (same : ∀ id, db.job? id = before id) (found : before jobId = some job)
    (id : Uuid) : (db.setJob jobId set fixed).job? id =
      Function.update before jobId (some (set job)) id := by
  rw [Database.job?_setJob, same, Function.update_apply]
  by_cases isJob : id = jobId
  · simp [isJob, found]
  · simp [isJob]

/-- A completion without the row of its job raises. -/
theorem completeJobWithReport_refuses {jobId processingToken : Uuid} {result : Json}
    {objectKey objectType : String}
    (rejected : ∀ job, db.job? jobId = some job → ¬ (jobFence processingToken job).Holds) :
    (RepoCall.completeJobWithReport jobId processingToken result objectKey objectType).run inputs []
      db = (.error .lostJobClaimError, db) := by
  have raised : (∃ fault, some fault ∈ ([] : Faults Exn) ∧
      Txn.commit (completeJobWithReport jobId processingToken result objectKey objectType
        (inputs.uuid 0) (inputs.uuid 1) (inputs.uuid 2) inputs.now) [] db = (.error fault, db)) ∨
      Txn.commit (completeJobWithReport jobId processingToken result objectKey objectType
        (inputs.uuid 0) (inputs.uuid 1) (inputs.uuid 2) inputs.now) [] db =
          (.error .lostJobClaimError, db) := by
    unfold completeJobWithReport
    exact Txn.commit_raise (updateJob_miss rejected) rfl []
  rcases raised with ⟨fault, member, _⟩ | raised
  · cases member
  · exact raised

/-- A statement in one step is its method, on a database with the same rows. -/
theorem JobStatement.atomic (ran : AtomicRun jobUpdates statement now before rows after)
    (same : ∀ id, db.job? id = before id) (isNow : inputs.now = now)
    (drawn : statement.DrawnFor inputs db) :
    ∃ done, statement.call.run inputs [] db = (statement.reply rows, done) ∧
      ∀ id, done.job? id = after id := by
  subst isNow
  cases ran with
  | @hit job found holds =>
      change before statement.jobId = some job at found
      have isFound := (same _).trans found
      have isId := (Database.job?_eq_some.mp isFound).2
      have selected := (JobStatement.clause_iff isId).mp holds
      cases statement with
      | markJobProcessing jobId leaseSeconds processingToken =>
          cases drawn
          exact ⟨_, markJobProcessing_acquires isFound selected, job?_assigned same found⟩
      | renewJobProcessingLease jobId processingToken =>
          exact ⟨_, renewJobProcessingLease_renews isFound selected, job?_assigned same found⟩
      | completeJobWithReport jobId processingToken result objectKey objectType =>
          obtain ⟨done, returns, completed⟩ :=
            completeJobWithReport_returns result objectType isFound selected drawn
          refine ⟨done, returns, fun id => ?_⟩
          rw [job?_eq_of_jobs completed.jobs]
          exact job?_assigned same found id
      | failJob jobId processingToken error =>
          exact ⟨_, failJob_fails error isFound selected, job?_assigned same found⟩
  | miss rejected =>
      have refused : ∀ job, db.job? statement.jobId = some job →
          ¬ (statement.selects inputs.now job).Holds := by
        intro job isFound selected
        have isId := (Database.job?_eq_some.mp isFound).2
        exact rejected job ((same _).symm.trans isFound)
          ((JobStatement.clause_iff isId).mpr selected)
      cases statement with
      | markJobProcessing => exact ⟨db, markJobProcessing_refuses refused, same⟩
      | renewJobProcessingLease => exact ⟨db, renewJobProcessingLease_refuses refused, same⟩
      | completeJobWithReport => exact ⟨db, completeJobWithReport_refuses refused, same⟩
      | failJob => exact ⟨db, failJob_refuses _ refused, same⟩

end Atomic

/-! ### What an answer promises -/

section Promises

variable {statement : JobStatement} {now : Time} {latest after : Uuid → Option JobRow}
  {rows : List JobRow} (clients : Clients JobStatement JobRow Exn) (jobId : Uuid)

/-- A statement on another row leaves a row alone, and one on this row assigns to it. -/
theorem AtomicRun.job {jobId : Uuid} (ran : AtomicRun jobUpdates statement now latest rows after) :
    (after jobId = latest jobId ∧ (statement.jobId = jobId → rows = [])) ∨
      ∃ job, statement.jobId = jobId ∧ latest jobId = some job ∧
        (statement.selects now job).Holds ∧ rows = [statement.set now job] ∧
        after jobId = some (statement.set now job) := by
  cases ran with
  | @hit job found holds =>
      change latest statement.jobId = some job at found
      by_cases isJob : statement.jobId = jobId
      · subst isJob
        have selected := ((Truth.holds_and _ _).mp holds).2
        exact .inr ⟨job, rfl, found, selected, rfl, Function.update_self _ _ _⟩
      · exact .inl ⟨Function.update_of_ne (Ne.symm isJob) _ _, fun isOwn => absurd isOwn isJob⟩
  | miss => exact .inl ⟨rfl, fun _ => rfl⟩

/-- No statement selects a completed job. -/
theorem JobStatement.not_completed {job : JobRow} (selected : (statement.selects now job).Holds) :
    job.status ≠ .completed := by
  intro completed
  cases statement <;>
    simp [JobStatement.selects, jobClaimable, jobFence, completed] at selected

/-- No statement takes an attempt back, and a claim adds one. -/
theorem JobStatement.attempts_le (statement : JobStatement) (now : Time) (job : JobRow) :
    job.attempts ≤ (statement.set now job).attempts := by
  cases statement with
  | markJobProcessing => exact Nat.le_succ _
  | _ => exact Nat.le_refl _

/-- The statement is a completion of the job. -/
def JobStatement.Completes (statement : JobStatement) (jobId : Uuid) : Prop :=
  ∃ processingToken result objectKey objectType,
    statement = .completeJobWithReport jobId processingToken result objectKey objectType

/-- The statement is a claim of the job. -/
def JobStatement.Claims (statement : JobStatement) (jobId : Uuid) : Prop :=
  ∃ leaseSeconds processingToken, statement = .markJobProcessing jobId leaseSeconds processingToken

/-- Once a completion has returned its row, every later call on the job finds none. -/
def completion : Lasting jobUpdates clients where
  fact latest := ∃ job, latest jobId = some job ∧ job.status = .completed
  tells statement rows := statement.Completes jobId ∧ rows ≠ []
  possible statement rows := statement.jobId = jobId → rows = []
  kept {statement now latest rows after} := by
    rintro ⟨job, found, completed⟩ ran
    rcases AtomicRun.job ran with ⟨same, _⟩ | ⟨other, _, isOther, selected, _, _⟩
    · exact ⟨job, same.trans found, completed⟩
    · cases found.symm.trans isOther
      exact absurd completed (JobStatement.not_completed selected)
  inserted {row latest} := by
    rintro ⟨job, found, completed⟩ _ new
    have apart : jobId ≠ jobUpdates.key row := by
      rintro rfl
      rw [new] at found
      cases found
    exact ⟨job, (Function.update_of_ne apart _ _).trans found, completed⟩
  established {statement now latest rows after} := by
    rintro ran ⟨⟨processingToken, result, objectKey, objectType, rfl⟩, nonempty⟩
    rcases AtomicRun.job ran with ⟨_, noRow⟩ | ⟨job, _, _, _, _, isNew⟩
    · exact absurd (noRow rfl) nonempty
    · exact ⟨_, isNew, rfl⟩
  answers {statement now latest rows after} := by
    rintro ⟨job, found, completed⟩ ran isOwn
    rcases AtomicRun.job ran with ⟨_, noRow⟩ | ⟨other, _, isOther, selected, _, _⟩
    · exact noRow isOwn
    · cases found.symm.trans isOther
      exact absurd completed (JobStatement.not_completed selected)

/-- Once a call has returned the job with so many attempts, every later call that returns it has as
many, and a later claim has more. -/
def attempt (attempts : Nat) : Lasting jobUpdates clients where
  fact latest := ∃ job, latest jobId = some job ∧ attempts ≤ job.attempts
  tells statement rows := statement.jobId = jobId ∧ ∃ job ∈ rows, attempts ≤ job.attempts
  possible statement rows := statement.jobId = jobId → ∀ job ∈ rows, attempts ≤ job.attempts ∧
    (statement.Claims jobId → attempts < job.attempts)
  kept {statement now latest rows after} := by
    rintro ⟨job, found, many⟩ ran
    rcases AtomicRun.job ran with ⟨same, _⟩ | ⟨other, _, isOther, _, _, isNew⟩
    · exact ⟨job, same.trans found, many⟩
    · cases found.symm.trans isOther
      exact ⟨_, isNew, Nat.le_trans many (statement.attempts_le now job)⟩
  inserted {row latest} := by
    rintro ⟨job, found, many⟩ _ new
    have apart : jobId ≠ jobUpdates.key row := by
      rintro rfl
      rw [new] at found
      cases found
    exact ⟨job, (Function.update_of_ne apart _ _).trans found, many⟩
  established {statement now latest rows after} := by
    rintro ran ⟨isOwn, job, member, many⟩
    rcases AtomicRun.job ran with ⟨_, noRow⟩ | ⟨old, _, _, _, rfl, isNew⟩
    · rw [noRow isOwn] at member
      cases member
    · cases List.mem_singleton.mp member
      exact ⟨_, isNew, many⟩
  answers {statement now latest rows after} := by
    rintro ⟨job, found, many⟩ ran isOwn new member
    rcases AtomicRun.job ran with ⟨_, noRow⟩ | ⟨other, _, isOther, _, rfl, _⟩
    · rw [noRow isOwn] at member
      cases member
    · cases found.symm.trans isOther
      cases List.mem_singleton.mp member
      refine ⟨Nat.le_trans many (statement.attempts_le now job), ?_⟩
      rintro ⟨leaseSeconds, processingToken, rfl⟩
      exact Nat.lt_succ_of_le many

end Promises

end JobPlatform.Store
