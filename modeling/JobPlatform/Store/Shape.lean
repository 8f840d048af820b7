import JobPlatform.Store.Runs

/-!
Contract: the nullable columns of a claimed row agree with its status.

Owns the shape of job and outbox rows, its preservation by every repository call, and what it
gives: no row can become unclaimable. Nothing in the schema ties these columns together; the shape
is kept by the assignments of the methods alone.
-/

namespace JobPlatform.Store

open JobPlatform.Foundation
open Repository

/-- The claim columns of a job are set exactly while it is being processed. -/
structure JobRow.Shape (job : JobRow) : Prop where
  token : job.status = .processing ↔ job.processingToken ≠ none
  started : job.processingToken ≠ none ↔ job.processingStartedAt ≠ none

/-- The claim columns of an event are set exactly while it is being published, and its publication
time exactly once it is published. -/
structure OutboxRow.Shape (event : OutboxRow) : Prop where
  token : event.status = .publishing ↔ event.claimToken ≠ none
  locked : event.claimToken ≠ none ↔ event.lockedAt ≠ none
  published : event.status = .published ↔ event.publishedAt ≠ none

/-- Every row has its shape. -/
structure Database.Shape (db : Database) : Prop where
  jobs : ∀ job ∈ db.jobs.rows, job.Shape
  events : ∀ event ∈ db.jobOutbox.rows, event.Shape

theorem Database.shape_empty : Database.empty.Shape := ⟨by simp [empty, Table.empty], by
  simp [empty, Table.empty]⟩

theorem shape_of_jobChange {inputs : Inputs} {jobId : Uuid} {call : RepoCall}
    {value : call.Result} {before after : Option JobRow}
    (change : JobChange inputs jobId call value before after)
    (kept : ∀ job, before = some job → job.Shape) : ∀ job, after = some job → job.Shape := by
  cases change with
  | same => exact kept
  | created =>
      rintro job ⟨⟩
      constructor <;> simp [newJob]
  | claimed =>
      rintro job ⟨⟩
      constructor <;> simp [claimJobRow]
  | @renewed _ old holds =>
      rintro job ⟨⟩
      have shape := kept old rfl
      simp only [jobFence, Truth.holds_and, Truth.holds_eq_some] at holds
      constructor
      · exact shape.token
      · simp [renewJobRow, holds.2]
  | completed =>
      rintro job ⟨⟩
      constructor <;> simp [completeJobRow]
  | failed =>
      rintro job ⟨⟩
      constructor <;> simp [failJobRow]

theorem shape_of_eventChange {inputs : Inputs} {eventId : Uuid} {call : RepoCall}
    {value : call.Result} {before after : Option OutboxRow}
    (change : EventChange inputs eventId call value before after)
    (kept : ∀ event, before = some event → event.Shape) :
    ∀ event, after = some event → event.Shape := by
  cases change with
  | same => exact kept
  | created =>
      rintro event ⟨⟩
      constructor <;> simp [newEvent]
  | @claimed _ _ _ old holds =>
      rintro event ⟨⟩
      have shape := kept old rfl
      have unpublished : old.status ≠ .published := by
        intro published
        simp [eventClaimable, published] at holds
      have noTime : old.publishedAt = none := by
        by_contra present
        exact unpublished (shape.published.mpr present)
      constructor <;> simp [claimEventRow, noTime]
  | published =>
      rintro event ⟨⟩
      constructor <;> simp [publishEventRow]
  | @failed _ _ old holds =>
      rintro event ⟨⟩
      have shape := kept old rfl
      simp only [eventFence, Truth.holds_and, Truth.holds_eq_some] at holds
      have noTime : old.publishedAt = none := by
        by_contra present
        have published := shape.published.mpr present
        rw [Option.some.inj holds.1] at published
        cases published
      constructor <;> simp [failEventRow, noTime]

/-- Every repository call keeps the shape. -/
theorem Database.Shape.effect {inputs : Inputs} {db after : Database} {call : RepoCall}
    {value : call.Result} (shape : db.Shape) (effect : Effect inputs db call value after) :
    after.Shape := by
  constructor
  · intro job member
    refine shape_of_jobChange (jobChange_of_effect effect job.id) ?_ job
      (Database.job?_eq_some.mpr ⟨member, rfl⟩)
    intro old found
    exact shape.jobs old (Database.job?_eq_some.mp found).1
  · intro event member
    refine shape_of_eventChange (eventChange_of_effect effect event.id) ?_ event
      (Database.event?_eq_some.mpr ⟨member, rfl⟩)
    intro old found
    exact shape.events old (Database.event?_eq_some.mp found).1

/-- Every reachable row has its shape. -/
theorem shape_of_committed (requests : List Request) : (committed .empty requests).Shape :=
  committed_invariant Database.shape_empty Database.Shape.effect requests

/-! ### Claimability -/

/-- An unfinished job whose lease, if any, has run out satisfies the clause of a claim. -/
theorem JobRow.Shape.claimable {job : JobRow} (shape : job.Shape)
    (unfinished : job.status ≠ .completed) {leaseSeconds : Int} {now : Time}
    (expired : ∀ started, job.processingStartedAt = some started →
      started + interval leaseSeconds < now) :
    (jobClaimable leaseSeconds now job).Holds := by
  simp only [jobClaimable, Truth.holds_or, Truth.holds_and, Truth.holds_isIn,
    Truth.holds_eq_some, Truth.holds_lt_some]
  cases status : job.status with
  | pending => exact .inl (by simp)
  | failed => exact .inl (by simp)
  | completed => exact absurd status unfinished
  | processing =>
      obtain ⟨started, isStarted⟩ :=
        Option.ne_none_iff_exists'.mp (shape.started.mp (shape.token.mp status))
      exact .inr ⟨rfl, started, isStarted, lt_sub_iff_add_lt.mpr (expired started isStarted)⟩

/-- An unpublished event whose lease, if any, has run out satisfies the clause of a claim. -/
theorem OutboxRow.Shape.claimable {event : OutboxRow} (shape : event.Shape)
    (unpublished : event.status ≠ .published) {leaseSeconds : Int} {now : Time}
    (expired : ∀ locked, event.lockedAt = some locked → locked + interval leaseSeconds < now) :
    (eventClaimable leaseSeconds now event).Holds := by
  simp only [eventClaimable, Truth.holds_or, Truth.holds_and, Truth.holds_isIn,
    Truth.holds_eq_some, Truth.holds_lt_some]
  cases status : event.status with
  | pending => exact .inl (by simp)
  | failed => exact .inl (by simp)
  | published => exact absurd status unpublished
  | publishing =>
      obtain ⟨locked, isLocked⟩ :=
        Option.ne_none_iff_exists'.mp (shape.locked.mp (shape.token.mp status))
      exact .inr ⟨rfl, locked, isLocked, lt_sub_iff_add_lt.mpr (expired locked isLocked)⟩

/-- A claim of a claimable job is granted. -/
theorem markJobProcessing_grants {inputs : Inputs} {db : Database} {job : JobRow}
    {leaseSeconds : Int} (member : job ∈ db.jobs.rows)
    (holds : (jobClaimable leaseSeconds inputs.now job).Holds) :
    ((RepoCall.markJobProcessing job.id leaseSeconds).run inputs [] db).1 =
      .ok (some (.ofRow (inputs.uuid 0) (claimJobRow (inputs.uuid 0) inputs.now job))) := by
  have found : db.job? job.id = some job := Database.job?_eq_some.mpr ⟨member, rfl⟩
  obtain ⟨row, after, update, ran⟩ := markJobProcessing_returns inputs db job.id leaseSeconds
  rw [ran]
  cases update with
  | hit isRow =>
      rw [found] at isRow
      cases isRow
      rfl
  | miss rejected => exact absurd holds (rejected job found)

/-- In every reachable database the claim columns of each row agree with its status, and so every
job that is not completed is granted to the next claim after its lease, and every event that is
not published is eligible after its own. -/
theorem no_row_stuck (requests : List Request) :
    (∀ job ∈ (committed .empty requests).jobs.rows,
      (job.status = .processing ↔ job.processingToken ≠ none) ∧
      (job.processingToken ≠ none ↔ job.processingStartedAt ≠ none)) ∧
    (∀ event ∈ (committed .empty requests).jobOutbox.rows,
      (event.status = .publishing ↔ event.claimToken ≠ none) ∧
      (event.claimToken ≠ none ↔ event.lockedAt ≠ none) ∧
      (event.status = .published ↔ event.publishedAt ≠ none)) ∧
    (∀ job ∈ (committed .empty requests).jobs.rows, job.status ≠ .completed →
      ∀ (leaseSeconds : Int) (now : Time),
        (job.status = .processing → ∀ started, job.processingStartedAt = some started →
          started + interval leaseSeconds < now) →
        (jobClaimable leaseSeconds now job).Holds ∧
        ∀ inputs : Inputs, inputs.now = now →
          ((RepoCall.markJobProcessing job.id leaseSeconds).run inputs []
            (committed .empty requests)).1 =
              .ok (some (.ofRow (inputs.uuid 0) (claimJobRow (inputs.uuid 0) now job)))) ∧
    (∀ event ∈ (committed .empty requests).jobOutbox.rows, event.status ≠ .published →
      ∀ (leaseSeconds : Int) (now : Time),
        (event.status = .publishing → ∀ locked, event.lockedAt = some locked →
          locked + interval leaseSeconds < now) →
        (eventClaimable leaseSeconds now event).Holds) := by
  have shape := shape_of_committed requests
  refine ⟨fun job member => ?_, fun event member => ?_, ?_, ?_⟩
  · exact ⟨(shape.jobs job member).token, (shape.jobs job member).started⟩
  · exact ⟨(shape.events event member).token, (shape.events event member).locked,
      (shape.events event member).published⟩
  · intro job member unfinished leaseSeconds now expired
    have jobShape := shape.jobs job member
    have holds : (jobClaimable leaseSeconds now job).Holds := by
      refine jobShape.claimable unfinished fun started isStarted => expired ?_ started isStarted
      exact jobShape.token.mpr (jobShape.started.mpr (by simp [isStarted]))
    refine ⟨holds, ?_⟩
    rintro inputs rfl
    exact markJobProcessing_grants member holds
  · intro event member unpublished leaseSeconds now expired
    have eventShape := shape.events event member
    refine eventShape.claimable unpublished fun locked isLocked => expired ?_ locked isLocked
    exact eventShape.token.mpr (eventShape.locked.mpr (by simp [isLocked]))

end JobPlatform.Store
