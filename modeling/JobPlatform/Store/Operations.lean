import JobPlatform.Store.Repository

/-!
Contract: the repository as one family of operations, and what each of them does to the rows.

Owns:
- `RepoCall`, one constructor per method, and `RepoCall.run`, the method itself;
- `Effect`, the effect of a method that returned, row by row;
- `effect_of_run`: under any plan of statement failures a call either raises and changes nothing,
  or returns with its effect.

Every later invariant is derived from `Effect`; nothing later unfolds a method.
-/

namespace JobPlatform.Store

open JobPlatform.Foundation
open Repository

/-! ### Row updates -/

namespace Database

/-- Assign to the job with a given id. -/
def setJob (db : Database) (jobId : Uuid) (set : JobRow → JobRow)
    (fixed : ∀ row, (set row).id = row.id) : Database :=
  { db with jobs := db.jobs.update (fun row => Keyed.key row = jobId) set fixed }

/-- Assign to every event whose id is in a batch. -/
def setEvents (db : Database) (batch : List Uuid) (set : OutboxRow → OutboxRow)
    (fixed : ∀ row, (set row).id = row.id) : Database :=
  { db with jobOutbox := db.jobOutbox.update (fun row => row.id ∈ batch) set fixed }

variable {db : Database}

theorem job?_eq_some {jobId : Uuid} {row : JobRow} :
    db.job? jobId = some row ↔ row ∈ db.jobs.rows ∧ row.id = jobId :=
  Table.find?_eq_some

theorem event?_eq_some {eventId : Uuid} {row : OutboxRow} :
    db.event? eventId = some row ↔ row ∈ db.jobOutbox.rows ∧ row.id = eventId :=
  Table.find?_eq_some

section SetJob

variable {jobId : Uuid} {set : JobRow → JobRow} {fixed : ∀ row, (set row).id = row.id}

theorem job?_setJob (other : Uuid) : (db.setJob jobId set fixed).job? other =
    if other = jobId then (db.job? other).map set else db.job? other := by
  change (db.jobs.update _ set fixed).find? other = _
  rw [Table.find?_update]
  change (db.job? other).map _ = _
  cases found : db.job? other with
  | none => simp
  | some row =>
      have isKey : Keyed.key row = other := (job?_eq_some.mp found).2
      by_cases same : other = jobId <;> simp [isKey, same]

theorem mem_setJob {after : JobRow} : after ∈ (db.setJob jobId set fixed).jobs.rows ↔
    ∃ old ∈ db.jobs.rows, after = if old.id = jobId then set old else old :=
  Table.mem_update fixed

/-- A column the assignment leaves alone keeps its values, in order. -/
theorem map_setJob {α : Type*} {column : JobRow → α} (kept : ∀ row, column (set row) = column row) :
    (db.setJob jobId set fixed).jobs.rows.map column = db.jobs.rows.map column :=
  Table.map_update fixed kept

/-- Two assignments to one job are one. -/
theorem setJob_setJob {next : JobRow → JobRow} {nextFixed : ∀ row, (next row).id = row.id} :
    (db.setJob jobId set fixed).setJob jobId next nextFixed =
      db.setJob jobId (fun row => next (set row)) fun row => (nextFixed _).trans (fixed row) := by
  have rows : ((db.setJob jobId set fixed).setJob jobId next nextFixed).jobs =
      (db.setJob jobId (fun row => next (set row)) fun row =>
        (nextFixed _).trans (fixed row)).jobs := by
    apply Table.ext
    change (db.jobs.rows.map _).map _ = db.jobs.rows.map _
    rw [List.map_map]
    apply List.map_congr_left
    intro row _
    by_cases isKey : Keyed.key row = jobId
    · have still : Keyed.key (set row) = jobId := (fixed row).trans isKey
      simp [isKey, still]
    · simp [isKey]
  exact congrArg (fun jobs => { db with jobs }) rows

/-- A property of all jobs after an assignment to one. -/
theorem forall_setJob {row : JobRow} (found : db.job? jobId = some row) {P : JobRow → Prop}
    (all : ∀ old ∈ db.jobs.rows, P old) (new : P (set row)) :
    ∀ after ∈ (db.setJob jobId set fixed).jobs.rows, P after := by
  intro after member
  obtain ⟨old, inOld, rfl⟩ := mem_setJob.mp member
  split
  next isKey =>
    have same : db.job? jobId = some old := job?_eq_some.mpr ⟨inOld, isKey⟩
    rw [found] at same
    cases same
    exact new
  next => exact all old inOld

end SetJob

section SetEvents

variable {batch : List Uuid} {set : OutboxRow → OutboxRow} {fixed : ∀ row, (set row).id = row.id}

theorem event?_setEvents (eventId : Uuid) : (db.setEvents batch set fixed).event? eventId =
    if eventId ∈ batch then (db.event? eventId).map set else db.event? eventId := by
  change (db.jobOutbox.update _ set fixed).find? eventId = _
  rw [Table.find?_update]
  change (db.event? eventId).map _ = _
  cases found : db.event? eventId with
  | none => simp
  | some row =>
      have isKey : row.id = eventId := (event?_eq_some.mp found).2
      by_cases member : eventId ∈ batch <;> simp [isKey, member]

theorem mem_setEvents {after : OutboxRow} :
    after ∈ (db.setEvents batch set fixed).jobOutbox.rows ↔
      ∃ old ∈ db.jobOutbox.rows, after = if old.id ∈ batch then set old else old :=
  Table.mem_update fixed

/-- A column the assignment leaves alone keeps its values, in order. -/
theorem map_setEvents {α : Type*} {column : OutboxRow → α}
    (kept : ∀ row, column (set row) = column row) :
    (db.setEvents batch set fixed).jobOutbox.rows.map column = db.jobOutbox.rows.map column :=
  Table.map_update fixed kept

/-- A property of all events after an assignment to a batch. -/
theorem forall_setEvents {P : OutboxRow → Prop} (all : ∀ old ∈ db.jobOutbox.rows, P old)
    (new : ∀ old ∈ db.jobOutbox.rows, old.id ∈ batch → P (set old)) :
    ∀ after ∈ (db.setEvents batch set fixed).jobOutbox.rows, P after := by
  intro after member
  obtain ⟨old, inOld, rfl⟩ := mem_setEvents.mp member
  split
  next inBatch => exact new old inOld inBatch
  next => exact all old inOld

end SetEvents

end Database

/-! ### Calls -/

/-- A call draws up to three ids, numbered from zero. -/
instance threeDraws : NeZero 3 := ⟨by decide⟩

/-- What a method draws from outside: fresh UUIDs, the transaction time, and the choices left to
PostgreSQL. -/
structure Inputs where
  uuid : Fin 3 → Uuid
  now : Time
  plan : ClaimPlan

/-- The methods of `Repository`, with the arguments a caller passes. -/
inductive RepoCall where
  | createCustomer (name email : String)
  | createJob (jobType : String) (payload : PyJson) (correlationId : Option String)
  | claimOutboxEvents (limit leaseSeconds : Int)
  | markOutboxPublished (eventId claimToken : Uuid)
  | markOutboxFailed (eventId claimToken : Uuid) (error : String)
  | getJob (jobId : Uuid)
  | markJobProcessing (jobId : Uuid) (leaseSeconds : Int)
  | renewJobProcessingLease (jobId processingToken : Uuid)
  | completeJobWithReport (jobId processingToken : Uuid) (result : Json)
      (objectKey objectType : String)
  | failJob (jobId processingToken : Uuid) (error : String)

namespace RepoCall

/-- What each method returns. -/
@[reducible] def Result : RepoCall → Type
  | createCustomer .. => CustomerRow
  | createJob .. => JobRow
  | claimOutboxEvents .. => List ClaimedEvent
  | markOutboxPublished .. => Bool
  | markOutboxFailed .. => Bool
  | getJob .. => JobView
  | markJobProcessing .. => Option ClaimedJob
  | renewJobProcessingLease .. => Bool
  | completeJobWithReport .. => Unit
  | failJob .. => Bool

/-- Run a method. -/
def run (inputs : Inputs) : (call : RepoCall) → Method call.Result
  | createCustomer name email =>
      Repository.createCustomer name email (inputs.uuid 0) (inputs.uuid 1) inputs.now
  | createJob jobType payload correlationId =>
      (Repository.createJob jobType payload correlationId (inputs.uuid 0) (inputs.uuid 1)
        (inputs.uuid 2) inputs.now).commit
  | claimOutboxEvents limit leaseSeconds =>
      (Repository.claimOutboxEvents limit leaseSeconds inputs.plan (inputs.uuid 0)
        inputs.now).commit
  | markOutboxPublished eventId claimToken =>
      (Repository.markOutboxPublished eventId claimToken inputs.now).commit
  | markOutboxFailed eventId claimToken error =>
      (Repository.markOutboxFailed eventId claimToken error inputs.now).commit
  | getJob jobId => (Repository.getJob jobId).commit
  | markJobProcessing jobId leaseSeconds =>
      (Repository.markJobProcessing jobId leaseSeconds (inputs.uuid 0) inputs.now).commit
  | renewJobProcessingLease jobId processingToken =>
      (Repository.renewJobProcessingLease jobId processingToken inputs.now).commit
  | completeJobWithReport jobId processingToken result objectKey objectType =>
      (Repository.completeJobWithReport jobId processingToken result objectKey objectType
        (inputs.uuid 0) (inputs.uuid 1) (inputs.uuid 2) inputs.now).commit
  | failJob jobId processingToken error =>
      (Repository.failJob jobId processingToken error inputs.now).commit

end RepoCall

/-- `UPDATE jobs ... WHERE id = jobId AND clause`: either it assigned to the one row with that
id, which satisfied the clause, or it selected nothing. -/
inductive JobUpdate (db : Database) (jobId : Uuid) (clause : JobRow → Truth)
    (set : JobRow → JobRow) (fixed : ∀ row, (set row).id = row.id) :
    Option JobRow → Database → Prop where
  | hit {row : JobRow} (found : db.job? jobId = some row) (holds : (clause row).Holds) :
      JobUpdate db jobId clause set fixed (some (set row)) (db.setJob jobId set fixed)
  | miss (rejected : ∀ row, db.job? jobId = some row → ¬ (clause row).Holds) :
      JobUpdate db jobId clause set fixed none db

/-- The same for one outbox event. -/
inductive EventUpdate (db : Database) (eventId : Uuid) (clause : OutboxRow → Truth)
    (set : OutboxRow → OutboxRow) (fixed : ∀ row, (set row).id = row.id) :
    Option OutboxRow → Database → Prop where
  | hit {row : OutboxRow} (found : db.event? eventId = some row) (holds : (clause row).Holds) :
      EventUpdate db eventId clause set fixed (some (set row)) (db.setEvents [eventId] set fixed)
  | miss (rejected : ∀ row, db.event? eventId = some row → ¬ (clause row).Holds) :
      EventUpdate db eventId clause set fixed none db

/-- `updateJob` returns at most one row, and is a `JobUpdate`. -/
theorem updateJob_spec (db : Database) (jobId : Uuid) (clause : JobRow → Truth)
    (set : JobRow → JobRow) (fixed : ∀ row, (set row).id = row.id) :
    ∃ (row : Option JobRow) (after : Database),
      updateJob jobId clause set fixed db = .ok (row.toList, after) ∧
        JobUpdate db jobId clause set fixed row after := by
  have selected := Table.matching_key db.jobs jobId fun row => (clause row).Holds
  unfold updateJob
  rw [selected]
  cases found : db.jobs.find? jobId with
  | none =>
      refine ⟨none, db, ?_, .miss fun row isRow => ?_⟩
      · rw [Table.update_key_of_not_holds (by simp [found])]
        rfl
      · exact absurd (found.symm.trans isRow) (by simp)
  | some row =>
      by_cases holds : (clause row).Holds
      · refine ⟨some (set row), db.setJob jobId set fixed, ?_, .hit found holds⟩
        rw [Table.update_key_of_holds found holds]
        simp [Option.filter, holds, Database.setJob]
      · refine ⟨none, db, ?_, .miss fun other isOther => ?_⟩
        · rw [Table.update_key_of_not_holds (by simpa [found] using holds)]
          simp [Option.filter, holds]
        · cases found.symm.trans isOther
          exact holds

/-- `updateEvent` returns at most one row, and is an `EventUpdate`. -/
theorem updateEvent_spec (db : Database) (eventId : Uuid) (clause : OutboxRow → Truth)
    (set : OutboxRow → OutboxRow) (fixed : ∀ row, (set row).id = row.id) :
    ∃ (row : Option OutboxRow) (after : Database),
      updateEvent eventId clause set fixed db = .ok (row.toList, after) ∧
        EventUpdate db eventId clause set fixed row after := by
  have selected := Table.matching_key db.jobOutbox eventId fun row => (clause row).Holds
  unfold updateEvent
  rw [selected]
  cases found : db.jobOutbox.find? eventId with
  | none =>
      refine ⟨none, db, ?_, .miss fun row isRow => ?_⟩
      · rw [Table.update_key_of_not_holds (by simp [found])]
        rfl
      · exact absurd (found.symm.trans isRow) (by simp)
  | some row =>
      by_cases holds : (clause row).Holds
      · refine ⟨some (set row), db.setEvents [eventId] set fixed, ?_, .hit found holds⟩
        rw [Table.update_key_of_holds found holds]
        simp only [Option.filter, holds, decide_true, if_true, Option.toList_some, List.map_cons,
          List.map_nil, Database.setEvents, List.mem_singleton]
        rfl
      · refine ⟨none, db, ?_, .miss fun other isOther => ?_⟩
        · rw [Table.update_key_of_not_holds (by simpa [found] using holds)]
          simp [Option.filter, holds]
        · cases found.symm.trans isOther
          exact holds

end JobPlatform.Store
