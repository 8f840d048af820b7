import JobPlatform.Store.Reports
import JobPlatform.Store.Undisturbed

/-!
Contract: a job that is being processed under a token.

Owns `Database.Held`, the row of a job under a claim that was taken or renewed no earlier than a
given time, with
- what ends it: a completion or a failure under its token, or a claim after the lease;
- what it gives: no claim before the end of the lease, and no lost completion.
-/

namespace JobPlatform.Store

open JobPlatform.Foundation
open Repository

/-- The row is under the token, since the given time or later. -/
structure JobRow.Under (job : JobRow) (token : Uuid) (since : Time) : Prop where
  status : job.status = .processing
  token : job.processingToken = some token
  started : ∃ started, job.processingStartedAt = some started ∧ since ≤ started

/-- The job is processed under the token, since the given time or later. -/
def Database.Held (db : Database) (jobId token : Uuid) (since : Time) : Prop :=
  ∃ job, db.job? jobId = some job ∧ job.Under token since

/-- The call ends the claim of the job with this token. -/
def Finishes (jobId token : Uuid) : RepoCall → Prop
  | .completeJobWithReport id processingToken .. => id = jobId ∧ processingToken = token
  | .failJob id processingToken _ => id = jobId ∧ processingToken = token
  | _ => False

theorem JobRow.Under.fence {job : JobRow} {token : Uuid} {since : Time}
    (under : job.Under token since) : (jobFence token job).Holds := by
  simp only [jobFence, Truth.holds_and, Truth.holds_eq_some]
  exact ⟨congrArg some under.status, under.token⟩

/-- A claim can be taken only after the lease. -/
theorem JobRow.Under.expired {job : JobRow} {token : Uuid} {since now : Time} {leaseSeconds : Int}
    (under : job.Under token since) (holds : (jobClaimable leaseSeconds now job).Holds) :
    since + interval leaseSeconds < now := by
  obtain ⟨started, isStarted, later⟩ := under.started
  simp [jobClaimable, under.status, isStarted] at holds
  exact lt_sub_iff_add_lt.mp (lt_of_le_of_lt later holds)

namespace Database.Held

variable {inputs : Inputs} {db after : Database} {call : RepoCall} {value : call.Result}
  {jobId token : Uuid} {since : Time} {leaseSeconds : Int}

theorem mono (held : db.Held jobId token since) {earlier : Time} (before : earlier ≤ since) :
    db.Held jobId token earlier := by
  obtain ⟨job, found, status, isToken, started, isStarted, later⟩ := held
  exact ⟨job, found, status, isToken, started, isStarted, before.trans later⟩

/-- A claim is refused until the end of the lease. -/
theorem unclaimed (held : db.Held jobId token since)
    (within : inputs.now ≤ since + interval leaseSeconds)
    {claimed : Option ClaimedJob}
    (effect : Effect inputs db (.markJobProcessing jobId leaseSeconds) claimed after) :
    claimed = none := by
  obtain ⟨job, found, under⟩ := held
  cases effect with
  | jobClaimed isValue update =>
      cases update with
      | hit isJob holds =>
          rw [found] at isJob
          cases isJob
          exact absurd (under.expired holds) (not_lt.mpr within)
      | miss => exact isValue

/-- A call leaves the claim, unless it ends it or comes after the lease. -/
theorem effect (held : db.Held jobId token since)
    (effect : Effect inputs db call value after) (present : since ≤ inputs.now)
    (unfinished : ¬ Finishes jobId token call)
    (within : ∀ leaseSeconds, call = .markJobProcessing jobId leaseSeconds →
      inputs.now ≤ since + interval leaseSeconds) : after.Held jobId token since := by
  obtain ⟨job, found, under⟩ := held
  have change := jobChange_of_effect effect jobId
  unfold Held
  rw [found] at change
  generalize after.job? jobId = row at change ⊢
  cases change with
  | same => exact ⟨job, rfl, under⟩
  | claimed holds => exact absurd (under.expired holds) (not_lt.mpr (within _ rfl))
  | renewed => exact ⟨_, rfl, under.status, under.token, _, rfl, present⟩
  | completed holds =>
      simp only [jobFence, Truth.holds_and, Truth.holds_eq_some, under.token] at holds
      exact absurd ⟨rfl, (Option.some.inj holds.2).symm⟩ unfinished
  | failed holds =>
      simp only [jobFence, Truth.holds_and, Truth.holds_eq_some, under.token] at holds
      exact absurd ⟨rfl, (Option.some.inj holds.2).symm⟩ unfinished

/-- A completion under the token does not report a lost claim. -/
theorem completes (held : db.Held jobId token since) {result : Json}
    {objectKey objectType : String} {faults : Faults Exn}
    (clean : some .lostJobClaimError ∉ faults) :
    ((RepoCall.completeJobWithReport jobId token result objectKey objectType).run inputs faults
      db).1 ≠ .error .lostJobClaimError := by
  obtain ⟨job, found, under⟩ := held
  exact fun lost => completeJobWithReport_held found under.fence clean (Prod.ext lost rfl)

/-- A granted claim. -/
theorem of_claim {job : ClaimedJob}
    (effect : Effect inputs db (.markJobProcessing jobId leaseSeconds) (some job) after) :
    after.Held jobId job.processingToken inputs.now := by
  cases effect with
  | jobClaimed isValue update =>
      cases update with
      | @hit row found =>
          cases isValue
          refine ⟨claimJobRow (inputs.uuid 0) inputs.now row, ?_, rfl, rfl, _, rfl, le_refl _⟩
          rw [Database.job?_setJob, if_pos rfl, found]
          rfl
      | miss => cases isValue

/-- A renewed claim. -/
theorem of_renewal
    (effect : Effect inputs db (.renewJobProcessingLease jobId token) true after) :
    after.Held jobId token inputs.now := by
  cases effect with
  | @leaseRenewed _ _ row _ _ isValue update =>
      cases update with
      | @hit row found holds =>
          simp only [jobFence, Truth.holds_and, Truth.holds_eq_some] at holds
          refine ⟨renewJobRow inputs.now row, ?_, Option.some.inj holds.1, holds.2, _, rfl,
            le_refl _⟩
          rw [Database.job?_setJob, if_pos rfl, found]
          rfl
      | miss => cases isValue

end Database.Held

/-! ### A claim that nobody renews -/

/-- The job is processed under the token since exactly the given time. -/
def Database.HeldSince (db : Database) (jobId token : Uuid) (started : Time) : Prop :=
  ∃ job, db.job? jobId = some job ∧ job.status = .processing ∧
    job.processingToken = some token ∧ job.processingStartedAt = some started

instance (db : Database) (jobId token : Uuid) (started : Time) :
    Decidable (db.HeldSince jobId token started) :=
  decidable_of_iff ((db.job? jobId).any fun job => job.status = .processing ∧
    job.processingToken = some token ∧ job.processingStartedAt = some started) (by
      simp [Database.HeldSince, Option.any_eq_true])

namespace Database.HeldSince

variable {inputs : Inputs} {db after : Database} {call : RepoCall} {value : call.Result}
  {jobId token : Uuid} {started : Time} {leaseSeconds : Int}

/-- A claim with this start was there before, unless the call issued or renewed it. -/
theorem before (held : after.HeldSince jobId token started)
    (effect : Effect inputs db call value after) (issued : inputs.uuid 0 ≠ token)
    (foreign : call ≠ .renewJobProcessingLease jobId token) :
    db.HeldSince jobId token started := by
  obtain ⟨job, found, status, isToken, isStarted⟩ := held
  have change := jobChange_of_effect effect jobId
  rw [found] at change
  unfold HeldSince
  generalize db.job? jobId = row at change ⊢
  cases change with
  | same => exact ⟨job, rfl, status, isToken, isStarted⟩
  | created => cases status
  | claimed => exact absurd (Option.some.inj isToken) issued
  | renewed holds =>
      simp only [jobFence, Truth.holds_and, Truth.holds_eq_some] at holds
      cases (holds.2.symm.trans isToken : some _ = some token)
      exact absurd rfl foreign
  | completed => cases status
  | failed => cases status

/-- After the lease the job is claimable. -/
theorem claimable (held : db.HeldSince jobId token started) {now : Time}
    (expired : started + interval leaseSeconds < now) :
    ∃ job, db.job? jobId = some job ∧ (jobClaimable leaseSeconds now job).Holds := by
  obtain ⟨job, found, status, _, isStarted⟩ := held
  refine ⟨job, found, ?_⟩
  simp only [jobClaimable, Truth.holds_or, Truth.holds_and, Truth.holds_eq_some,
    Truth.holds_lt_some]
  exact .inr ⟨congrArg some status, started, isStarted, lt_sub_iff_add_lt.mpr expired⟩

/-- A claim that was refused came within the lease. -/
theorem refused_early (held : db.HeldSince jobId token started)
    (effect : Effect inputs db (.markJobProcessing jobId leaseSeconds) none after) :
    inputs.now ≤ started + interval leaseSeconds := by
  by_contra late
  obtain ⟨job, found, holds⟩ := held.claimable (not_le.mp late)
  cases effect with
  | @jobClaimed _ _ row _ _ isValue update =>
      cases update with
      | hit => cases isValue
      | miss rejected => exact rejected job found holds

/-- The job is not under a token that was just issued. -/
theorem not_claimed (held : after.HeldSince jobId token started) {job : ClaimedJob}
    (effect : Effect inputs db (.markJobProcessing jobId leaseSeconds) (some job) after) :
    inputs.uuid 0 = token := by
  obtain ⟨row, found, _, isToken, _⟩ := held
  cases effect with
  | jobClaimed isValue update =>
      cases update with
      | @hit old isOld =>
          rw [Database.job?_setJob, if_pos rfl, isOld] at found
          cases found
          exact Option.some.inj isToken
      | miss => cases isValue

end Database.HeldSince

/-- No claim of a completed job is granted. -/
theorem Database.Completed.unclaimed {inputs : Inputs} {db after : Database} {jobId : Uuid}
    {leaseSeconds : Int} (completed : db.Completed jobId) {claimed : Option ClaimedJob}
    (effect : Effect inputs db (.markJobProcessing jobId leaseSeconds) claimed after) :
    claimed = none := by
  obtain ⟨job, found, status⟩ := completed
  cases effect with
  | jobClaimed isValue update =>
      cases update with
      | hit isJob holds =>
          rw [found] at isJob
          cases isJob
          simp [jobClaimable, status] at holds
      | miss => exact isValue

end JobPlatform.Store
