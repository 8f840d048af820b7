import JobPlatform.Store.Effects

/-!
Contract: what a repository call that returned did to one job, and to one outbox event.

Owns `JobChange` and `EventChange`, which list every way a row can change together with the call
that changed it, the reply it gave and the clause the row satisfied; and `jobChange_of_effect` and
`eventChange_of_effect`, which say that nothing else happens to a row.
-/

namespace JobPlatform.Store

open JobPlatform.Foundation
open Repository

/-! ### Jobs -/

/-- The call reports that it acted on the job. -/
def ActsOnJob (jobId : Uuid) : (call : RepoCall) → call.Result → Prop
  | .createJob .., job => job.id = jobId
  | .markJobProcessing id _, claimed => id = jobId ∧ claimed ≠ none
  | .renewJobProcessingLease id _, renewed => id = jobId ∧ renewed = true
  | .completeJobWithReport id .., _ => id = jobId
  | .failJob id .., failed => id = jobId ∧ failed = true
  | _, _ => False

/-- What a call that returned did to the job with id `jobId`. -/
inductive JobChange (inputs : Inputs) (jobId : Uuid) :
    (call : RepoCall) → call.Result → Option JobRow → Option JobRow → Prop where
  | same {call : RepoCall} {value : call.Result} {job : Option JobRow}
      (idle : ¬ ActsOnJob jobId call value) : JobChange inputs jobId call value job job
  | created {jobType : String} {payload : PyJson} {correlationId : Option String}
      (isId : inputs.uuid 0 = jobId) :
      JobChange inputs jobId (.createJob jobType payload correlationId)
        (newJob jobType payload (inputs.uuid 0) inputs.now) none
        (some (newJob jobType payload jobId inputs.now))
  | claimed {leaseSeconds : Int} {job : JobRow}
      (holds : (jobClaimable leaseSeconds inputs.now job).Holds) :
      JobChange inputs jobId (.markJobProcessing jobId leaseSeconds)
        (some (.ofRow (inputs.uuid 0) (claimJobRow (inputs.uuid 0) inputs.now job))) (some job)
        (some (claimJobRow (inputs.uuid 0) inputs.now job))
  | renewed {processingToken : Uuid} {job : JobRow} (holds : (jobFence processingToken job).Holds) :
      JobChange inputs jobId (.renewJobProcessingLease jobId processingToken) true (some job)
        (some (renewJobRow inputs.now job))
  | completed {processingToken : Uuid} {result : Json} {objectKey objectType : String}
      {job : JobRow} (holds : (jobFence processingToken job).Holds) :
      JobChange inputs jobId
        (.completeJobWithReport jobId processingToken result objectKey objectType) () (some job)
        (some (completeJobRow inputs.now job))
  | failed {processingToken : Uuid} {error : String} {job : JobRow}
      (holds : (jobFence processingToken job).Holds) :
      JobChange inputs jobId (.failJob jobId processingToken error) true (some job)
        (some (failJobRow error inputs.now job))

/-! ### Outbox events -/

/-- The call reports that it acted on the event. -/
def ActsOnEvent (eventId : Uuid) : (call : RepoCall) → call.Result → Prop
  | .claimOutboxEvents .., events => ∃ event ∈ events, event.id = eventId
  | .markOutboxPublished id _, published => id = eventId ∧ published = true
  | .markOutboxFailed id .., failed => id = eventId ∧ failed = true
  | _, _ => False

/-- What a call that returned did to the event with id `eventId`. -/
inductive EventChange (inputs : Inputs) (eventId : Uuid) :
    (call : RepoCall) → call.Result → Option OutboxRow → Option OutboxRow → Prop where
  | same {call : RepoCall} {value : call.Result} {event : Option OutboxRow}
      (idle : ¬ ActsOnEvent eventId call value) : EventChange inputs eventId call value event event
  | created {jobType : String} {payload : PyJson} {correlationId : Option String}
      (isId : inputs.uuid 1 = eventId) :
      EventChange inputs eventId (.createJob jobType payload correlationId)
        (newJob jobType payload (inputs.uuid 0) inputs.now) none
        (some (newEvent (inputs.uuid 0) correlationId eventId inputs.now))
  | claimed {limit leaseSeconds : Int} {events : List ClaimedEvent} {event : OutboxRow}
      (holds : (eventClaimable leaseSeconds inputs.now event).Holds)
      (returned : ∀ claimed : ClaimedEvent, claimed.id = eventId ∧ claimed ∈ events ↔
        claimed = .ofRow (inputs.uuid 0) (claimEventRow (inputs.uuid 0) inputs.now event)) :
      EventChange inputs eventId (.claimOutboxEvents limit leaseSeconds) events (some event)
        (some (claimEventRow (inputs.uuid 0) inputs.now event))
  | published {claimToken : Uuid} {event : OutboxRow} (holds : (eventFence claimToken event).Holds) :
      EventChange inputs eventId (.markOutboxPublished eventId claimToken) true (some event)
        (some (publishEventRow inputs.now event))
  | failed {claimToken : Uuid} {error : String} {event : OutboxRow}
      (holds : (eventFence claimToken event).Holds) :
      EventChange inputs eventId (.markOutboxFailed eventId claimToken error) true (some event)
        (some (failEventRow error inputs.now event))

/-! ### Completeness -/

section Complete

variable {inputs : Inputs} {db after : Database}

theorem event?_eq_of_jobOutbox {left right : Database} (same : left.jobOutbox = right.jobOutbox)
    (eventId : Uuid) : left.event? eventId = right.event? eventId := by
  unfold Database.event?
  rw [same]

theorem job?_eq_of_jobs {left right : Database} (same : left.jobs = right.jobs) (jobId : Uuid) :
    left.job? jobId = right.job? jobId := by
  unfold Database.job?
  rw [same]

/-- One fenced or conditional update of a job, seen from any job. -/
private theorem jobChange_of_update {call : RepoCall} {value : call.Result} {target : Uuid}
    {clause : JobRow → Truth} {set : JobRow → JobRow} {fixed : ∀ row, (set row).id = row.id}
    {row : Option JobRow} (update : JobUpdate db target clause set fixed row after) (jobId : Uuid)
    (acts : ActsOnJob jobId call value → target = jobId ∧ row ≠ none)
    (hit : ∀ job, target = jobId → row = some (set job) → (clause job).Holds →
      JobChange inputs jobId call value (some job) (some (set job))) :
    JobChange inputs jobId call value (db.job? jobId) (after.job? jobId) := by
  cases update with
  | miss rejected =>
      exact .same fun act => (acts act).2 rfl
  | @hit job found holds =>
      rw [Database.job?_setJob]
      split
      next same =>
        subst same
        rw [found]
        exact hit job rfl rfl holds
      next other => exact .same fun act => other (acts act).1.symm

/-- Nothing else happens to a job. -/
theorem jobChange_of_effect {call : RepoCall} {value : call.Result}
    (effect : Effect inputs db call value after) (jobId : Uuid) :
    JobChange inputs jobId call value (db.job? jobId) (after.job? jobId) := by
  cases effect with
  | customerCreated => exact .same id
  | jobCreated inserted =>
      change JobChange _ _ _ _ _ (Table.find? _ _)
      rw [Table.find?_insert? inserted]
      split
      next isKey =>
        have isId : inputs.uuid 0 = jobId := isKey
        have absent : db.job? jobId = none :=
          Table.find?_eq_none.mpr fun old member oldKey =>
            Table.free_of_insert? inserted old member
              (Table.conflict_of_key (oldKey.trans isKey.symm))
        rw [absent]
        subst isId
        exact .created rfl
      next otherKey => exact .same otherKey
  | eventsClaimed => exact .same id
  | eventPublished _ update => cases update <;> exact .same id
  | eventFailed _ update => cases update <;> exact .same id
  | jobRead => exact .same id
  | @jobClaimed _ leaseSeconds row _ _ isValue update =>
      subst isValue
      refine jobChange_of_update update jobId ?_ ?_
      · rintro ⟨same, granted⟩
        exact ⟨same, fun isNone => granted (by rw [isNone]; rfl)⟩
      · rintro job rfl rfl holds
        exact .claimed holds
  | leaseRenewed isValue update =>
      subst isValue
      refine jobChange_of_update update jobId ?_ ?_
      · rintro ⟨same, renewed⟩
        exact ⟨same, Option.isSome_iff_ne_none.mp renewed⟩
      · rintro job rfl rfl holds
        exact .renewed holds
  | jobCompleted found holds completion =>
      have update : JobUpdate db _ _ _ (completeJobRow_id inputs.now) _ _ := .hit found holds
      rw [job?_eq_of_jobs completion.jobs]
      refine jobChange_of_update update jobId ?_ ?_
      · intro same
        exact ⟨same, by simp⟩
      · rintro job rfl - holds
        exact .completed holds
  | jobFailed isValue update =>
      subst isValue
      refine jobChange_of_update update jobId ?_ ?_
      · rintro ⟨same, failed⟩
        exact ⟨same, Option.isSome_iff_ne_none.mp failed⟩
      · rintro job rfl rfl holds
        exact .failed holds

/-- One fenced update of an event, seen from any event. -/
private theorem eventChange_of_update {call : RepoCall} {target : Uuid}
    {clause : OutboxRow → Truth} {set : OutboxRow → OutboxRow}
    {fixed : ∀ row, (set row).id = row.id} {value : call.Result} {row : Option OutboxRow}
    (update : EventUpdate db target clause set fixed row after) (eventId : Uuid)
    (acts : ActsOnEvent eventId call value → target = eventId ∧ row ≠ none)
    (hit : ∀ event, target = eventId → row = some (set event) → (clause event).Holds →
      EventChange inputs eventId call value (some event) (some (set event))) :
    EventChange inputs eventId call value (db.event? eventId) (after.event? eventId) := by
  cases update with
  | miss rejected =>
      exact .same fun act => (acts act).2 rfl
  | @hit event found holds =>
      rw [Database.event?_setEvents]
      split
      next same =>
        have isTarget := List.mem_singleton.mp same
        subst isTarget
        rw [found]
        exact hit event rfl rfl holds
      next other => exact .same fun act => other (List.mem_singleton.mpr (acts act).1.symm)

/-- The batch of a claim is a set of claimable rows of the table. -/
theorem mem_claimedIds {plan : ClaimPlan} {limit : Nat} {leaseSeconds : Int} {now : Time}
    {eventId : Uuid} (member : eventId ∈ claimedIds plan limit leaseSeconds now db) :
    ∃ event, db.event? eventId = some event ∧ (eventClaimable leaseSeconds now event).Holds := by
  unfold claimedIds at member
  obtain ⟨event, inBatch, rfl⟩ := List.mem_map.mp member
  have sorted := (List.mem_filter.mp (List.mem_of_mem_take inBatch)).1
  have selected := (List.mem_insertionSort _).mp sorted
  obtain ⟨inTable, holds⟩ := List.mem_filter.mp selected
  exact ⟨event, Database.event?_eq_some.mpr ⟨inTable, rfl⟩, of_decide_eq_true holds⟩

/-- A claim returns exactly the rows of its batch, as claimed. -/
theorem mem_returnedEvents {plan : ClaimPlan} {batch : List Uuid} {claimToken : Uuid} {now : Time}
    {claimed : ClaimedEvent} :
    claimed ∈ returnedEvents plan batch claimToken now db ↔
      ∃ event ∈ db.jobOutbox.rows, event.id ∈ batch ∧
        claimed = .ofRow claimToken (claimEventRow claimToken now event) := by
  unfold returnedEvents
  simp only [List.mem_map, List.mem_insertionSort, Table.matching, List.mem_filter,
    decide_eq_true_eq]
  constructor
  · rintro ⟨_, ⟨event, ⟨inTable, inBatch⟩, rfl⟩, rfl⟩
    exact ⟨event, inTable, inBatch, rfl⟩
  · rintro ⟨event, inTable, inBatch, rfl⟩
    exact ⟨_, ⟨event, ⟨inTable, inBatch⟩, rfl⟩, rfl⟩

/-- Nothing else happens to an event. -/
theorem eventChange_of_effect {call : RepoCall} {value : call.Result}
    (effect : Effect inputs db call value after) (eventId : Uuid) :
    EventChange inputs eventId call value (db.event? eventId) (after.event? eventId) := by
  cases effect with
  | customerCreated => exact .same id
  | jobCreated inserted queued =>
      change EventChange _ _ _ _ _ (Table.find? _ _)
      rw [Table.find?_insert? queued]
      split
      next isKey =>
        have isId : inputs.uuid 1 = eventId := isKey
        have absent : db.event? eventId = none :=
          Table.find?_eq_none.mpr fun old member oldKey =>
            Table.free_of_insert? queued old member
              (Table.conflict_of_key (oldKey.trans isKey.symm))
        rw [absent]
        subst isId
        exact .created rfl
      next otherKey => exact .same id
  | eventsClaimed nonneg isBatch isEvents =>
      subst isEvents
      rw [Database.event?_setEvents]
      split
      next inBatch =>
        obtain ⟨event, found, holds⟩ := mem_claimedIds (isBatch ▸ inBatch)
        obtain ⟨inTable, isId⟩ := Database.event?_eq_some.mp found
        rw [found]
        refine .claimed holds fun claimed => ?_
        rw [mem_returnedEvents]
        constructor
        · rintro ⟨sameId, other, otherIn, _, rfl⟩
          rw [db.jobOutbox.eq_of_key otherIn inTable (sameId.trans isId.symm)]
        · rintro rfl
          exact ⟨isId, event, inTable, isId.symm ▸ inBatch, rfl⟩
      next outside =>
        refine .same ?_
        rintro ⟨claimed, returned, isId⟩
        obtain ⟨event, inTable, inBatch, rfl⟩ := mem_returnedEvents.mp returned
        exact outside (isId ▸ inBatch)
  | eventPublished isValue update =>
      subst isValue
      refine eventChange_of_update update eventId ?_ ?_
      · rintro ⟨same, published⟩
        exact ⟨same, Option.isSome_iff_ne_none.mp published⟩
      · rintro event rfl rfl holds
        exact .published holds
  | eventFailed isValue update =>
      subst isValue
      refine eventChange_of_update update eventId ?_ ?_
      · rintro ⟨same, failed⟩
        exact ⟨same, Option.isSome_iff_ne_none.mp failed⟩
      · rintro event rfl rfl holds
        exact .failed holds
  | jobRead => exact .same id
  | jobClaimed _ update => cases update <;> exact .same id
  | leaseRenewed _ update => cases update <;> exact .same id
  | jobCompleted _ _ completion =>
      rw [event?_eq_of_jobOutbox completion.jobOutbox]
      exact .same id
  | jobFailed _ update => cases update <;> exact .same id

end Complete

end JobPlatform.Store
