import JobPlatform.Store.Operations

/-!
Contract: what a repository call that returned did to the rows.

Owns `Effect`, one constructor per method, and `effect_of_run`: under any plan of statement
failures a call either raises and changes nothing, or returns with its effect. Every later
invariant is derived from `Effect`; nothing later unfolds a method.
-/

namespace JobPlatform.Store

open JobPlatform.Foundation
open Repository

/-- The batch a claim returns, in the order of the plan. -/
def returnedEvents (plan : ClaimPlan) (batch : List Uuid) (claimToken : Uuid) (now : Time)
    (db : Database) : List ClaimedEvent :=
  (((db.jobOutbox.matching fun event => event.id ∈ batch).map
    (claimEventRow claimToken now)).insertionSort
      fun left right => plan.returning left.id ≤ plan.returning right.id).map
        (ClaimedEvent.ofRow claimToken)

/-- The contents after the four statements of a completion, table by table. Each `ON CONFLICT`
insert either found an old row or added its own. -/
structure Completion (inputs : Inputs) (db : Database) (jobId : Uuid) (result : Json)
    (objectKey objectType : String) (after : Database) : Prop where
  customers : after.customers = db.customers
  jobs : after.jobs = (db.setJob jobId (completeJobRow inputs.now)
    (completeJobRow_id inputs.now)).jobs
  jobOutbox : after.jobOutbox = db.jobOutbox
  reported : (∃ old ∈ db.jobResults.rows, old.jobId = jobId) ∨
    db.jobResults.insert? ⟨inputs.uuid 0, jobId, result, inputs.now⟩ = some after.jobResults
  catalogued : (∃ old ∈ db.objectMetadata.rows, old.jobId = jobId ∧ old.objectKey = objectKey) ∨
    db.objectMetadata.insert? ⟨inputs.uuid 1, jobId, objectKey, objectType, "job", inputs.now⟩ =
      some after.objectMetadata
  audited : db.auditEvents.insert?
    ⟨inputs.uuid 2, "job", jobId, "completed", result, inputs.now⟩ = some after.auditEvents

/-- The effect of a call that returned. -/
inductive Effect (inputs : Inputs) (db : Database) :
    (call : RepoCall) → call.Result → Database → Prop where
  | customerCreated {name email : String} {customers : Table CustomerRow}
      {auditEvents : Table AuditEventRow}
      (inserted : db.customers.insert? ⟨inputs.uuid 0, name, email, inputs.now⟩ = some customers)
      (audited : db.auditEvents.insert? ⟨inputs.uuid 1, "customer", inputs.uuid 0, "created",
        .obj [("email", .str email)], inputs.now⟩ = some auditEvents) :
      Effect inputs db (.createCustomer name email) ⟨inputs.uuid 0, name, email, inputs.now⟩
        { db with customers, auditEvents }
  | jobCreated {jobType : String} {payload : PyJson} {correlationId : Option String}
      {jobs : Table JobRow} {jobOutbox : Table OutboxRow} {auditEvents : Table AuditEventRow}
      (inserted : db.jobs.insert? (newJob jobType payload (inputs.uuid 0) inputs.now) = some jobs)
      (queued : db.jobOutbox.insert?
        (newEvent (inputs.uuid 0) correlationId (inputs.uuid 1) inputs.now) = some jobOutbox)
      (audited : db.auditEvents.insert? ⟨inputs.uuid 2, "job", inputs.uuid 0, "created",
        .obj [("job_type", .str jobType)], inputs.now⟩ = some auditEvents) :
      Effect inputs db (.createJob jobType payload correlationId)
        (newJob jobType payload (inputs.uuid 0) inputs.now)
        { db with jobs, jobOutbox, auditEvents }
  | eventsClaimed {limit leaseSeconds : Int} {batch : List Uuid} {events : List ClaimedEvent}
      (nonneg : 0 ≤ limit)
      (isBatch : batch = claimedIds inputs.plan limit.toNat leaseSeconds inputs.now db)
      (isEvents : events = returnedEvents inputs.plan batch (inputs.uuid 0) inputs.now db) :
      Effect inputs db (.claimOutboxEvents limit leaseSeconds) events
        (db.setEvents batch (claimEventRow (inputs.uuid 0) inputs.now)
          (claimEventRow_id (inputs.uuid 0) inputs.now))
  | eventPublished {eventId claimToken : Uuid} {row : Option OutboxRow} {value : Bool}
      {after : Database} (isValue : value = row.isSome)
      (update : EventUpdate db eventId (eventFence claimToken) (publishEventRow inputs.now)
        (publishEventRow_id inputs.now) row after) :
      Effect inputs db (.markOutboxPublished eventId claimToken) value after
  | eventFailed {eventId claimToken : Uuid} {error : String} {row : Option OutboxRow}
      {value : Bool} {after : Database} (isValue : value = row.isSome)
      (update : EventUpdate db eventId (eventFence claimToken) (failEventRow error inputs.now)
        (failEventRow_id error inputs.now) row after) :
      Effect inputs db (.markOutboxFailed eventId claimToken error) value after
  | jobRead {jobId : Uuid} {view : JobView} (found : (jobViews db jobId).head? = some view) :
      Effect inputs db (.getJob jobId) view db
  | jobClaimed {jobId : Uuid} {leaseSeconds : Int} {row : Option JobRow}
      {value : Option ClaimedJob} {after : Database}
      (isValue : value = row.map (ClaimedJob.ofRow (inputs.uuid 0)))
      (update : JobUpdate db jobId (jobClaimable leaseSeconds inputs.now)
        (claimJobRow (inputs.uuid 0) inputs.now) (claimJobRow_id (inputs.uuid 0) inputs.now) row after) :
      Effect inputs db (.markJobProcessing jobId leaseSeconds) value after
  | leaseRenewed {jobId processingToken : Uuid} {row : Option JobRow} {value : Bool}
      {after : Database} (isValue : value = row.isSome)
      (update : JobUpdate db jobId (jobFence processingToken) (renewJobRow inputs.now)
        (renewJobRow_id inputs.now) row after) :
      Effect inputs db (.renewJobProcessingLease jobId processingToken) value after
  | jobCompleted {jobId processingToken : Uuid} {result : Json} {objectKey objectType : String}
      {row : JobRow} {after : Database} (found : db.job? jobId = some row)
      (holds : (jobFence processingToken row).Holds)
      (completion : Completion inputs db jobId result objectKey objectType after) :
      Effect inputs db (.completeJobWithReport jobId processingToken result objectKey objectType)
        () after
  | jobFailed {jobId processingToken : Uuid} {error : String} {row : Option JobRow} {value : Bool}
      {after : Database} (isValue : value = row.isSome)
      (update : JobUpdate db jobId (jobFence processingToken) (failJobRow error inputs.now)
        (failJobRow_id error inputs.now) row after) :
      Effect inputs db (.failJob jobId processingToken error) value after

/-! ### The methods run undisturbed -/

section Quiet

variable {inputs : Inputs} {db after : Database}

/-- A body that returned undisturbed: its first statement ran, and then the rest returned. -/
theorem commit_execute {α β : Type} {statement : Statement α} {next : α → Body β} {result : β}
    (ran : Txn.commit (Txn.execute statement >>= next) [] db = (.ok result, after)) :
    ∃ value middle, statement db = .ok (value, middle) ∧
      Txn.commit (next value) [] middle = (.ok result, after) := by
  cases executed : statement db with
  | error error =>
      have failed : (Txn.execute statement >>= next) ([], db) = .error error := by
        change ((statement db).map _).bind _ = _
        rw [executed]
        rfl
      unfold Txn.commit at ran
      rw [failed] at ran
      cases ran
  | ok pair =>
      obtain ⟨value, middle⟩ := pair
      have continued : (Txn.execute statement >>= next) ([], db) = next value ([], middle) := by
        change ((statement db).map _).bind _ = _
        rw [executed]
        rfl
      refine ⟨value, middle, rfl, ?_⟩
      unfold Txn.commit at ran ⊢
      rw [continued] at ran
      split at ran
      · cases ran
      · cases ran
      next =>
        cases ran
        rfl

theorem commit_return {α : Type} {value result : α}
    (ran : Txn.commit (pure value : Body α) [] db = (.ok result, after)) :
    result = value ∧ after = db := by
  cases ran
  exact ⟨rfl, rfl⟩

theorem updateJob_ok {jobId : Uuid} {clause : JobRow → Truth} {set : JobRow → JobRow}
    {fixed : ∀ row, (set row).id = row.id} {rows : List JobRow}
    (ran : updateJob jobId clause set fixed db = .ok (rows, after)) :
    ∃ row : Option JobRow, rows = row.toList ∧ JobUpdate db jobId clause set fixed row after := by
  obtain ⟨row, contents, updated, effect⟩ := updateJob_spec db jobId clause set fixed
  cases updated.symm.trans ran
  exact ⟨row, rfl, effect⟩

theorem updateEvent_ok {eventId : Uuid} {clause : OutboxRow → Truth}
    {set : OutboxRow → OutboxRow} {fixed : ∀ row, (set row).id = row.id} {rows : List OutboxRow}
    (ran : updateEvent eventId clause set fixed db = .ok (rows, after)) :
    ∃ row : Option OutboxRow, rows = row.toList ∧
      EventUpdate db eventId clause set fixed row after := by
  obtain ⟨row, contents, updated, effect⟩ := updateEvent_spec db eventId clause set fixed
  cases updated.symm.trans ran
  exact ⟨row, rfl, effect⟩

theorem length_toList_eq_one {α : Type} (row : Option α) :
    decide (row.toList.length = 1) = row.isSome := by
  cases row <;> rfl

theorem insertCustomer_ok {row value : CustomerRow}
    (ran : insertCustomer row db = .ok (value, after)) :
    ∃ customers, db.customers.insert? row = some customers ∧ value = row ∧
      after = { db with customers } := by
  unfold insertCustomer at ran
  split at ran
  next customers inserted =>
    cases ran
    exact ⟨customers, inserted, rfl, rfl⟩
  next => cases ran

theorem insertJob_ok {row value : JobRow} (ran : insertJob row db = .ok (value, after)) :
    ∃ jobs, db.jobs.insert? row = some jobs ∧ value = row ∧ after = { db with jobs } := by
  unfold insertJob at ran
  split at ran
  next jobs inserted =>
    cases ran
    exact ⟨jobs, inserted, rfl, rfl⟩
  next => cases ran

theorem insertOutbox_ok {row : OutboxRow} {value : Unit}
    (ran : insertOutbox row db = .ok (value, after)) :
    ∃ jobOutbox, db.jobOutbox.insert? row = some jobOutbox ∧ after = { db with jobOutbox } := by
  unfold insertOutbox at ran
  split at ran
  next jobOutbox inserted =>
    cases ran
    exact ⟨jobOutbox, inserted, rfl⟩
  next => cases ran

theorem insertAuditEvent_ok {row : AuditEventRow} {value : Unit}
    (ran : insertAuditEvent row db = .ok (value, after)) :
    ∃ auditEvents, db.auditEvents.insert? row = some auditEvents ∧
      after = { db with auditEvents } := by
  unfold insertAuditEvent at ran
  split at ran
  next auditEvents inserted =>
    cases ran
    exact ⟨auditEvents, inserted, rfl⟩
  next => cases ran

theorem upsertJobResult_ok {row : JobResultRow} {value : Unit}
    (ran : upsertJobResult row db = .ok (value, after)) :
    ∃ jobResults, after = { db with jobResults } ∧
      ((∃ old ∈ db.jobResults.rows, old.jobId = row.jobId) ∨
        db.jobResults.insert? row = some jobResults) := by
  unfold upsertJobResult at ran
  split at ran
  · cases ran
  · split at ran
    next conflict =>
      cases ran
      exact ⟨_, rfl, .inl conflict⟩
    next =>
      split at ran
      next jobResults inserted =>
        cases ran
        exact ⟨jobResults, rfl, .inr inserted⟩
      next => cases ran

theorem insertObjectMetadata_ok {row : ObjectMetadataRow} {value : Unit}
    (ran : insertObjectMetadata row db = .ok (value, after)) :
    ∃ objectMetadata, after = { db with objectMetadata } ∧
      ((∃ old ∈ db.objectMetadata.rows, old.jobId = row.jobId ∧ old.objectKey = row.objectKey) ∨
        db.objectMetadata.insert? row = some objectMetadata) := by
  unfold insertObjectMetadata at ran
  split at ran
  · cases ran
  · split at ran
    next conflict =>
      cases ran
      exact ⟨_, rfl, .inl conflict⟩
    next =>
      split at ran
      next objectMetadata inserted =>
        cases ran
        exact ⟨objectMetadata, rfl, .inr inserted⟩
      next => cases ran

/-- An undisturbed call that returned has its effect. -/
theorem effect_of_quiet {call : RepoCall} {value : call.Result}
    (ran : call.run inputs [] db = (.ok value, after)) : Effect inputs db call value after := by
  cases call with
  | createCustomer name email =>
      change Repository.createCustomer _ _ _ _ _ _ _ = _ at ran
      unfold Repository.createCustomer at ran
      dsimp only at ran
      split at ran
      · cases ran
      obtain ⟨customer, middle, first, rest⟩ := commit_execute ran
      obtain ⟨customers, inserted, rfl, rfl⟩ := insertCustomer_ok first
      obtain ⟨_, last, second, returned⟩ := commit_execute rest
      obtain ⟨auditEvents, audited, rfl⟩ := insertAuditEvent_ok second
      obtain ⟨rfl, rfl⟩ := commit_return returned
      exact .customerCreated inserted audited
  | createJob jobType payload correlationId =>
      obtain ⟨job, created, first, rest⟩ := commit_execute ran
      obtain ⟨jobs, inserted, rfl, rfl⟩ := insertJob_ok first
      obtain ⟨_, outboxed, second, rest⟩ := commit_execute rest
      obtain ⟨jobOutbox, queued, rfl⟩ := insertOutbox_ok second
      obtain ⟨_, last, third, returned⟩ := commit_execute rest
      obtain ⟨auditEvents, audited, rfl⟩ := insertAuditEvent_ok third
      obtain ⟨rfl, rfl⟩ := commit_return returned
      exact .jobCreated inserted queued audited
  | claimOutboxEvents limit leaseSeconds =>
      obtain ⟨rows, middle, executed, returned⟩ := commit_execute ran
      obtain ⟨rfl, rfl⟩ := commit_return returned
      split at executed
      · cases executed
      next nonneg =>
        cases executed
        exact .eventsClaimed (not_lt.mp nonneg) rfl rfl
  | markOutboxPublished eventId claimToken =>
      dsimp only [RepoCall.run, Repository.markOutboxPublished] at ran
      obtain ⟨rows, middle, executed, returned⟩ := commit_execute ran
      obtain ⟨rfl, rfl⟩ := commit_return returned
      obtain ⟨row, rfl, update⟩ := updateEvent_ok executed
      exact .eventPublished (length_toList_eq_one row) update
  | markOutboxFailed eventId claimToken error =>
      dsimp only [RepoCall.run, Repository.markOutboxFailed] at ran
      obtain ⟨rows, middle, executed, returned⟩ := commit_execute ran
      obtain ⟨rfl, rfl⟩ := commit_return returned
      obtain ⟨row, rfl, update⟩ := updateEvent_ok executed
      exact .eventFailed (length_toList_eq_one row) update
  | getJob jobId =>
      obtain ⟨rows, middle, executed, rest⟩ := commit_execute ran
      cases executed
      split at rest
      next view found =>
        obtain ⟨rfl, rfl⟩ := commit_return rest
        exact .jobRead found
      next => cases rest
  | markJobProcessing jobId leaseSeconds =>
      dsimp only [RepoCall.run, Repository.markJobProcessing] at ran
      obtain ⟨rows, middle, executed, returned⟩ := commit_execute ran
      obtain ⟨rfl, rfl⟩ := commit_return returned
      obtain ⟨row, rfl, update⟩ := updateJob_ok executed
      exact .jobClaimed (by cases row <;> rfl) update
  | renewJobProcessingLease jobId processingToken =>
      dsimp only [RepoCall.run, Repository.renewJobProcessingLease] at ran
      obtain ⟨rows, middle, executed, returned⟩ := commit_execute ran
      obtain ⟨rfl, rfl⟩ := commit_return returned
      obtain ⟨row, rfl, update⟩ := updateJob_ok executed
      exact .leaseRenewed (length_toList_eq_one row) update
  | completeJobWithReport jobId processingToken result objectKey objectType =>
      obtain ⟨rows, middle, executed, rest⟩ := commit_execute ran
      obtain ⟨row, rfl, update⟩ := updateJob_ok executed
      cases update with
      | miss rejected => cases rest
      | hit found holds =>
          obtain ⟨_, stored, reported, rest⟩ := commit_execute rest
          obtain ⟨_, described, catalogued, rest⟩ := commit_execute rest
          rw [← bind_pure (Txn.execute (insertAuditEvent _))] at rest
          obtain ⟨_, last, audited, returned⟩ := commit_execute rest
          obtain ⟨rfl, rfl⟩ := commit_return returned
          obtain ⟨jobResults, rfl, reports⟩ := upsertJobResult_ok reported
          obtain ⟨objectMetadata, rfl, objects⟩ := insertObjectMetadata_ok catalogued
          obtain ⟨auditEvents, inserted, rfl⟩ := insertAuditEvent_ok audited
          exact .jobCompleted found holds ⟨rfl, rfl, rfl, reports, objects, inserted⟩
  | failJob jobId processingToken error =>
      dsimp only [RepoCall.run, Repository.failJob] at ran
      obtain ⟨rows, middle, executed, returned⟩ := commit_execute ran
      obtain ⟨rfl, rfl⟩ := commit_return returned
      obtain ⟨row, rfl, update⟩ := updateJob_ok executed
      exact .jobFailed (length_toList_eq_one row) update

end Quiet

/-! ### Updates return -/

section Total

variable (inputs : Inputs) (db : Database)

/-- A first statement that runs hands over to the rest of the body. -/
theorem commit_of_execute {α β : Type} {statement : Statement α} {next : α → Body β}
    {db middle after : Database} {value : α} {result : β}
    (executed : statement db = .ok (value, middle))
    (rest : Txn.commit (next value) [] middle = (.ok result, after)) :
    Txn.commit (Txn.execute statement >>= next) [] db = (.ok result, after) := by
  have continued : (Txn.execute statement >>= next) ([], db) = next value ([], middle) := by
    change ((statement db).map _).bind _ = _
    rw [executed]
    rfl
  unfold Txn.commit at rest ⊢
  rw [continued]
  split at rest <;> cases rest
  rfl

/-- A body whose first statement raises. -/
theorem commit_of_raise {α β : Type} {statement : Statement α} {next : α → Body β}
    {db : Database} {error : Exn} (executed : statement db = .error error) :
    Txn.commit (Txn.execute statement >>= next) [] db = (.error error, db) := by
  have raised : (Txn.execute statement >>= next) ([], db) = .error error := by
    change ((statement db).map _).bind _ = _
    rw [executed]
    rfl
  unfold Txn.commit
  rw [raised]

theorem markJobProcessing_returns (jobId : Uuid) (leaseSeconds : Int) :
    ∃ (row : Option JobRow) (after : Database),
      JobUpdate db jobId (jobClaimable leaseSeconds inputs.now)
        (claimJobRow (inputs.uuid 0) inputs.now) (claimJobRow_id (inputs.uuid 0) inputs.now) row
        after ∧
      (RepoCall.markJobProcessing jobId leaseSeconds).run inputs [] db =
        (.ok (row.map (ClaimedJob.ofRow (inputs.uuid 0))), after) := by
  obtain ⟨row, after, updated, update⟩ := updateJob_spec db jobId
    (jobClaimable leaseSeconds inputs.now) (claimJobRow (inputs.uuid 0) inputs.now)
    (claimJobRow_id (inputs.uuid 0) inputs.now)
  refine ⟨row, after, update, ?_⟩
  dsimp only [RepoCall.run, Repository.markJobProcessing]
  apply commit_of_execute updated
  cases row <;> rfl

end Total

/-! ### The methods under statement failures -/

section Disturbed

variable {inputs : Inputs} {faults : Faults Exn} {db after : Database}

/-- A call that returned would have returned the same undisturbed. -/
theorem run_quiet {call : RepoCall} {value : call.Result}
    (ran : call.run inputs faults db = (.ok value, after)) :
    call.run inputs [] db = (.ok value, after) := by
  have lone : ∀ {α β : Type} (statement : Statement α) (result : α → β),
      Txn.Steady (Txn.execute statement >>= fun rows => pure (result rows) : Body β) :=
    fun statement result =>
      Txn.steady_bind (Txn.steady_execute statement) fun rows => Txn.steady_pure (result rows)
  cases call with
  | createCustomer name email =>
      dsimp only [RepoCall.run, Repository.createCustomer] at ran ⊢
      split at ran
      · cases ran
      have steady : Txn.Steady (do
          let customer ← Txn.execute (insertCustomer ⟨inputs.uuid 0, name, email, inputs.now⟩)
          Txn.execute (insertAuditEvent ⟨inputs.uuid 1, "customer", inputs.uuid 0, "created",
            .obj [("email", .str email)], inputs.now⟩)
          return customer : Body CustomerRow) :=
        Txn.steady_bind (Txn.steady_execute _) fun customer => lone _ fun _ => customer
      rw [Txn.commit_ok steady ran]
  | createJob jobType payload correlationId =>
      exact Txn.commit_ok (Txn.steady_bind (Txn.steady_execute _) fun job =>
        Txn.steady_bind (Txn.steady_execute _) fun _ => lone _ fun _ => job) ran
  | claimOutboxEvents limit leaseSeconds => exact Txn.commit_ok (lone _ _) ran
  | markOutboxPublished eventId claimToken => exact Txn.commit_ok (lone _ _) ran
  | markOutboxFailed eventId claimToken error => exact Txn.commit_ok (lone _ _) ran
  | getJob jobId =>
      refine Txn.commit_ok (Txn.steady_bind (Txn.steady_execute _) fun rows => ?_) ran
      split
      · exact Txn.steady_pure _
      · exact Txn.steady_raise _
  | markJobProcessing jobId leaseSeconds => exact Txn.commit_ok (lone _ _) ran
  | renewJobProcessingLease jobId processingToken => exact Txn.commit_ok (lone _ _) ran
  | completeJobWithReport jobId processingToken result objectKey objectType =>
      refine Txn.commit_ok (Txn.steady_bind (Txn.steady_execute _) fun fenced => ?_) ran
      split
      · exact Txn.steady_raise _
      · exact Txn.steady_bind (Txn.steady_execute _) fun _ =>
          Txn.steady_bind (Txn.steady_execute _) fun _ => Txn.steady_execute _
  | failJob jobId processingToken error => exact Txn.commit_ok (lone _ _) ran

/-- A call that raised has changed nothing. -/
theorem eq_of_run_error {call : RepoCall} {error : Exn}
    (ran : call.run inputs faults db = (.error error, after)) : after = db := by
  cases call with
  | createCustomer name email =>
      dsimp only [RepoCall.run, Repository.createCustomer] at ran
      split at ran
      next raised =>
        cases ran
        exact Txn.commit_error raised
      next => exact Txn.commit_error ran
  | _ => exact Txn.commit_error ran

/-- A call that returned has its effect. -/
theorem effect_of_run {call : RepoCall} {value : call.Result}
    (ran : call.run inputs faults db = (.ok value, after)) : Effect inputs db call value after :=
  effect_of_quiet (run_quiet ran)

end Disturbed

end JobPlatform.Store
