import JobPlatform.Store.Reports

/-!
Contract: the methods of the workers when nothing disturbs them.

Owns the reply and the contents of each method that runs without a failing statement, stated for
the rows it finds. Sequential runs are computed with these.
-/

namespace JobPlatform.Store

open JobPlatform.Foundation
open Repository

variable {inputs : Inputs} {db : Database}

/-! ### The outbox -/

section Updates

variable {eventId : Uuid} {clause : OutboxRow → Truth} {set : OutboxRow → OutboxRow}
  {fixed : ∀ row, (set row).id = row.id} {row : OutboxRow}

/-- An update whose clause holds of the row. -/
theorem updateEvent_hit (found : db.event? eventId = some row) (holds : (clause row).Holds) :
    updateEvent eventId clause set fixed db =
      .ok ([set row], db.setEvents [eventId] set fixed) := by
  obtain ⟨updated, after, isUpdate, update⟩ := updateEvent_spec db eventId clause set fixed
  cases update with
  | hit isRow _ =>
      rw [found] at isRow
      cases isRow
      exact isUpdate
  | miss rejected => exact absurd holds (rejected row found)

theorem markOutboxPublished_returns (inputs : Inputs) {claimToken : Uuid}
    (found : db.event? eventId = some row)
    (holds : (eventFence claimToken row).Holds) :
    (RepoCall.markOutboxPublished eventId claimToken).run inputs [] db =
      (.ok true, db.setEvents [eventId] (publishEventRow inputs.now)
        (publishEventRow_id inputs.now)) := by
  dsimp only [RepoCall.run, markOutboxPublished]
  exact commit_of_execute (updateEvent_hit found holds) rfl

theorem markOutboxFailed_returns (inputs : Inputs) {claimToken : Uuid} (error : String)
    (found : db.event? eventId = some row) (holds : (eventFence claimToken row).Holds) :
    (RepoCall.markOutboxFailed eventId claimToken error).run inputs [] db =
      (.ok true, db.setEvents [eventId] (failEventRow error inputs.now)
        (failEventRow_id error inputs.now)) := by
  dsimp only [RepoCall.run, markOutboxFailed]
  exact commit_of_execute (updateEvent_hit found holds) rfl

end Updates

section Claims

variable (inputs : Inputs) (db : Database) {limit : Int} (leaseSeconds : Int)

theorem claimOutboxEvents_returns (nonneg : 0 ≤ limit) :
    (RepoCall.claimOutboxEvents limit leaseSeconds).run inputs [] db =
      (.ok (returnedEvents inputs.plan
          (claimedIds inputs.plan limit.toNat leaseSeconds inputs.now db) (inputs.uuid 0)
          inputs.now db),
        db.setEvents (claimedIds inputs.plan limit.toNat leaseSeconds inputs.now db)
          (claimEventRow (inputs.uuid 0) inputs.now)
          (claimEventRow_id (inputs.uuid 0) inputs.now)) := by
  dsimp only [RepoCall.run, claimOutboxEvents]
  exact commit_of_execute (if_neg (not_lt.mpr nonneg)) rfl

theorem claimOutboxEvents_raises (negative : limit < 0) :
    (RepoCall.claimOutboxEvents limit leaseSeconds).run inputs [] db =
      (.error (.other "InvalidRowCountInLimitClause"), db) := by
  dsimp only [RepoCall.run, claimOutboxEvents]
  exact commit_of_raise (if_pos negative)

end Claims

/-! ### The job -/

section Jobs

variable {jobId : Uuid} {clause : JobRow → Truth} {set : JobRow → JobRow}
  {fixed : ∀ row, (set row).id = row.id} {row : JobRow}

/-- An update whose clause holds of the row. -/
theorem updateJob_hit (found : db.job? jobId = some row) (holds : (clause row).Holds) :
    updateJob jobId clause set fixed db = .ok ([set row], db.setJob jobId set fixed) := by
  obtain ⟨updated, after, isUpdate, update⟩ := updateJob_spec db jobId clause set fixed
  cases update with
  | hit isRow _ =>
      rw [found] at isRow
      cases isRow
      exact isUpdate
  | miss rejected => exact absurd holds (rejected row found)

/-- An update whose clause holds of no row with the id. -/
theorem updateJob_miss (rejected : ∀ row, db.job? jobId = some row → ¬ (clause row).Holds) :
    updateJob jobId clause set fixed db = .ok ([], db) := by
  obtain ⟨updated, after, isUpdate, update⟩ := updateJob_spec db jobId clause set fixed
  cases update with
  | hit isRow holds => exact absurd holds (rejected _ isRow)
  | miss => exact isUpdate

theorem markJobProcessing_acquires {leaseSeconds : Int} (found : db.job? jobId = some row)
    (holds : (jobClaimable leaseSeconds inputs.now row).Holds) :
    (RepoCall.markJobProcessing jobId leaseSeconds).run inputs [] db =
      (.ok (some (.ofRow (inputs.uuid 0) (claimJobRow (inputs.uuid 0) inputs.now row))),
        db.setJob jobId (claimJobRow (inputs.uuid 0) inputs.now) (claimJobRow_id _ _)) := by
  dsimp only [RepoCall.run, markJobProcessing]
  exact commit_of_execute (updateJob_hit found holds) rfl

theorem markJobProcessing_refuses {leaseSeconds : Int}
    (rejected : ∀ row, db.job? jobId = some row →
      ¬ (jobClaimable leaseSeconds inputs.now row).Holds) :
    (RepoCall.markJobProcessing jobId leaseSeconds).run inputs [] db = (.ok none, db) := by
  dsimp only [RepoCall.run, markJobProcessing]
  exact commit_of_execute (updateJob_miss rejected) rfl

theorem renewJobProcessingLease_renews {processingToken : Uuid} (found : db.job? jobId = some row)
    (holds : (jobFence processingToken row).Holds) :
    (RepoCall.renewJobProcessingLease jobId processingToken).run inputs [] db =
      (.ok true, db.setJob jobId (renewJobRow inputs.now) (renewJobRow_id _)) := by
  dsimp only [RepoCall.run, renewJobProcessingLease]
  exact commit_of_execute (updateJob_hit found holds) rfl

theorem renewJobProcessingLease_refuses {processingToken : Uuid}
    (rejected : ∀ row, db.job? jobId = some row → ¬ (jobFence processingToken row).Holds) :
    (RepoCall.renewJobProcessingLease jobId processingToken).run inputs [] db = (.ok false, db) := by
  dsimp only [RepoCall.run, renewJobProcessingLease]
  exact commit_of_execute (updateJob_miss rejected) rfl

theorem failJob_fails {processingToken : Uuid} (error : String) (found : db.job? jobId = some row)
    (holds : (jobFence processingToken row).Holds) :
    (RepoCall.failJob jobId processingToken error).run inputs [] db =
      (.ok true, db.setJob jobId (failJobRow error inputs.now) (failJobRow_id _ _)) := by
  dsimp only [RepoCall.run, failJob]
  exact commit_of_execute (updateJob_hit found holds) rfl

theorem failJob_refuses {processingToken : Uuid} (error : String)
    (rejected : ∀ row, db.job? jobId = some row → ¬ (jobFence processingToken row).Holds) :
    (RepoCall.failJob jobId processingToken error).run inputs [] db = (.ok false, db) := by
  dsimp only [RepoCall.run, failJob]
  exact commit_of_execute (updateJob_miss rejected) rfl

/-- A left join is never empty. -/
theorem leftJoin_ne_nil {α : Type} (found : List α) : leftJoin found ≠ [] := by
  unfold leftJoin
  cases found with
  | nil => simp
  | cons => simp

/-- Reading a job that is there gives its row, whatever it is joined with. -/
theorem getJob_returns (inputs : Inputs) (found : db.job? jobId = some row) :
    ∃ view : JobView, (RepoCall.getJob jobId).run inputs [] db = (.ok view, db) ∧
      view.job = row := by
  obtain ⟨member, rfl⟩ := Database.job?_eq_some.mp found
  have views : jobViews db row.id ≠ [] ∧ ∀ view ∈ jobViews db row.id, view.job = row := by
    unfold jobViews
    rw [filter_jobs member]
    constructor
    · obtain ⟨result, _, isResult⟩ := List.exists_cons_of_ne_nil (leftJoin_ne_nil
        (db.jobResults.rows.filter fun report => report.jobId = row.id))
      simp [isResult, leftJoin_ne_nil]
    · intro view isView
      simp only [List.flatMap_cons, List.flatMap_nil, List.append_nil, List.mem_flatMap,
        List.mem_map] at isView
      obtain ⟨_, _, _, _, rfl⟩ := isView
      rfl
  obtain ⟨view, rest, isViews⟩ := List.exists_cons_of_ne_nil views.1
  refine ⟨view, ?_, views.2 view (isViews ▸ List.mem_cons_self)⟩
  dsimp only [RepoCall.run, getJob]
  refine commit_of_execute rfl ?_
  rw [isViews]
  rfl

/-- Reading a job that is not there raises. -/
theorem getJob_raises (inputs : Inputs) (missing : db.job? jobId = none) :
    (RepoCall.getJob jobId).run inputs [] db = (.error .notFoundError, db) := by
  have nothing : jobViews db jobId = [] := by
    unfold jobViews
    have noRow : db.jobs.rows.filter (fun job => job.id = jobId) = [] := by
      rw [List.filter_eq_nil_iff]
      intro row member isJob
      have found : db.job? jobId = some row :=
        Database.job?_eq_some.mpr ⟨member, of_decide_eq_true isJob⟩
      rw [missing] at found
      cases found
    rw [noRow, List.flatMap_nil]
  have raised : (∃ fault, some fault ∈ ([] : Faults Exn) ∧
      Txn.commit (getJob jobId) [] db = (.error fault, db)) ∨
        Txn.commit (getJob jobId) [] db = (.error .notFoundError, db) := by
    unfold getJob
    refine Txn.commit_raise rfl ?_ []
    rw [nothing]
    rfl
  rcases raised with ⟨fault, member, _⟩ | raised
  · cases member
  · exact raised

end Jobs

/-! ### The report -/

section Reports

variable {jobId processingToken : Uuid} {result : Json} {objectKey objectType : String}
  {row : JobRow}

/-- `ON CONFLICT (job_id) DO UPDATE SET result = EXCLUDED.result`, for one row. -/
def refreshed (new old : JobResultRow) : JobResultRow :=
  if old.jobId = new.jobId then { old with result := new.result } else old

/-- The rows of `job_results` after the insertion of a row, or its conflict with an old one. -/
def upserted (new : JobResultRow) (rows : List JobResultRow) : List JobResultRow :=
  rows.map (refreshed new) ++ if ∃ old ∈ rows, old.jobId = new.jobId then [] else [new]

/-- A row after the upsert has the id of an old one, or is the new one. -/
theorem mem_upserted {new row : JobResultRow} {rows : List JobResultRow}
    (member : row ∈ upserted new rows) : (∃ old ∈ rows, row.id = old.id) ∨ row = new := by
  unfold upserted at member
  rcases List.mem_append.mp member with updated | added
  · obtain ⟨old, inTable, rfl⟩ := List.mem_map.mp updated
    refine .inl ⟨old, inTable, ?_⟩
    unfold refreshed
    split <;> rfl
  · split at added
    · exact absurd added List.not_mem_nil
    · exact .inr (List.mem_singleton.mp added)

/-- What a completion that found its job needs to be free. -/
structure FreeFor (db : Database) (inputs : Inputs) (jobId : Uuid) (objectKey : String) : Prop where
  result : ∀ old ∈ db.jobResults.rows, old.id ≠ inputs.uuid 0
  metadata : ∀ old ∈ db.objectMetadata.rows, old.id ≠ inputs.uuid 1
  key : ∀ old ∈ db.objectMetadata.rows, old.jobId = jobId → old.objectKey ≠ objectKey
  audit : ∀ old ∈ db.auditEvents.rows, old.id ≠ inputs.uuid 2

/-- The contents after a completion. -/
structure CompletedWith (inputs : Inputs) (db : Database) (jobId : Uuid) (result : Json)
    (objectKey objectType : String) (after : Database) : Prop where
  customers : after.customers = db.customers
  jobs : after.jobs = (db.setJob jobId (completeJobRow inputs.now) (completeJobRow_id _)).jobs
  jobResults : after.jobResults.rows =
    upserted ⟨inputs.uuid 0, jobId, result, inputs.now⟩ db.jobResults.rows
  auditEvents : after.auditEvents.rows = db.auditEvents.rows ++
    [⟨inputs.uuid 2, "job", jobId, "completed", result, inputs.now⟩]
  objectMetadata : after.objectMetadata.rows = db.objectMetadata.rows ++
    [⟨inputs.uuid 1, jobId, objectKey, objectType, "job", inputs.now⟩]
  jobOutbox : after.jobOutbox = db.jobOutbox

theorem upsertJobResult_returns (db : Database) (new : JobResultRow)
    (found : db.job? new.jobId = some row)
    (free : ∀ old ∈ db.jobResults.rows, old.id ≠ new.id) :
    ∃ jobResults : Table JobResultRow, upsertJobResult new db = .ok ((), { db with jobResults }) ∧
      jobResults.rows = upserted new db.jobResults.rows := by
  have present : ¬ db.job? new.jobId = none := by simp [found]
  unfold upsertJobResult upserted
  rw [if_neg present]
  by_cases reported : ∃ old ∈ db.jobResults.rows, old.jobId = new.jobId
  · rw [if_pos reported, if_pos reported, List.append_nil]
    exact ⟨_, rfl, rfl⟩
  · have apart : ∀ old ∈ db.jobResults.rows, ¬ Keyed.Conflict old new := by
      rintro old member (sameId | sameJob)
      · exact free old member sameId
      · exact reported ⟨old, member, sameJob⟩
    have untouched : db.jobResults.rows.map (refreshed new) = db.jobResults.rows := by
      conv_rhs => rw [← List.map_id db.jobResults.rows]
      apply List.map_congr_left
      intro old member
      exact if_neg fun same => reported ⟨old, member, same⟩
    obtain ⟨jobResults, inserted, rows⟩ := Table.insert?_of_free apart
    rw [if_neg reported, if_neg reported, inserted, untouched]
    exact ⟨jobResults, rfl, rows⟩

theorem insertObjectMetadata_returns (db : Database) (new : ObjectMetadataRow)
    (found : db.job? new.jobId = some row)
    (free : ∀ old ∈ db.objectMetadata.rows, old.id ≠ new.id)
    (unused : ∀ old ∈ db.objectMetadata.rows, old.jobId = new.jobId → old.objectKey ≠ new.objectKey) :
    ∃ objectMetadata : Table ObjectMetadataRow,
      insertObjectMetadata new db = .ok ((), { db with objectMetadata }) ∧
        objectMetadata.rows = db.objectMetadata.rows ++ [new] := by
  have present : ¬ db.job? new.jobId = none := by simp [found]
  have uncatalogued : ¬ ∃ old ∈ db.objectMetadata.rows,
      old.jobId = new.jobId ∧ old.objectKey = new.objectKey := by
    rintro ⟨old, member, sameJob, sameKey⟩
    exact unused old member sameJob sameKey
  have apart : ∀ old ∈ db.objectMetadata.rows, ¬ Keyed.Conflict old new := by
    rintro old member (sameId | sameKey)
    · exact free old member sameId
    · have same := Prod.mk.inj sameKey
      exact unused old member same.1 same.2
  obtain ⟨objectMetadata, inserted, rows⟩ := Table.insert?_of_free apart
  unfold insertObjectMetadata
  rw [if_neg present, if_neg uncatalogued, inserted]
  exact ⟨objectMetadata, rfl, rows⟩

theorem insertAuditEvent_returns (db : Database) (new : AuditEventRow)
    (free : ∀ old ∈ db.auditEvents.rows, old.id ≠ new.id) :
    ∃ auditEvents : Table AuditEventRow, insertAuditEvent new db = .ok ((), { db with auditEvents }) ∧
      auditEvents.rows = db.auditEvents.rows ++ [new] := by
  have apart : ∀ old ∈ db.auditEvents.rows, ¬ Keyed.Conflict old new := free
  obtain ⟨auditEvents, inserted, rows⟩ := Table.insert?_of_free apart
  unfold insertAuditEvent
  rw [inserted]
  exact ⟨auditEvents, rfl, rows⟩

theorem completeJobWithReport_returns (result : Json) (objectType : String)
    (found : db.job? jobId = some row)
    (holds : (jobFence processingToken row).Holds) (free : FreeFor db inputs jobId objectKey) :
    ∃ after, (RepoCall.completeJobWithReport jobId processingToken result objectKey
        objectType).run inputs [] db = (.ok (), after) ∧
      CompletedWith inputs db jobId result objectKey objectType after := by
  let done := db.setJob jobId (completeJobRow inputs.now) (completeJobRow_id _)
  have isDone : done.job? jobId = some (completeJobRow inputs.now row) := by
    simp [done, Database.job?_setJob, found]
  obtain ⟨jobResults, reported, resultRows⟩ := upsertJobResult_returns done
    ⟨inputs.uuid 0, jobId, result, inputs.now⟩ isDone free.result
  obtain ⟨objectMetadata, catalogued, metadataRows⟩ := insertObjectMetadata_returns
    { done with jobResults } ⟨inputs.uuid 1, jobId, objectKey, objectType, "job", inputs.now⟩ isDone
    free.metadata free.key
  obtain ⟨auditEvents, audited, auditRows⟩ := insertAuditEvent_returns
    { done with jobResults, objectMetadata }
    ⟨inputs.uuid 2, "job", jobId, "completed", result, inputs.now⟩ free.audit
  refine ⟨{ done with jobResults, objectMetadata, auditEvents }, ?_,
    ⟨rfl, rfl, resultRows, auditRows, metadataRows, rfl⟩⟩
  dsimp only [RepoCall.run, completeJobWithReport]
  refine commit_of_execute (updateJob_hit found holds) ?_
  refine commit_of_execute reported (commit_of_execute catalogued ?_)
  rw [← bind_pure (Txn.execute (insertAuditEvent _))]
  exact commit_of_execute audited rfl

/-- The constraints a statement may break. -/
def ConstraintOnly {α : Type} (outcome : Except Exn α) : Prop :=
  ∀ error, outcome = .error error → error = .foreignKeyViolation ∨ error = .uniqueViolation

theorem upsertJobResult_constraint (new : JobResultRow) (db : Database) :
    ConstraintOnly (upsertJobResult new db) := by
  intro error raised
  unfold upsertJobResult at raised
  repeat' split at raised
  all_goals cases raised <;> simp

theorem insertObjectMetadata_constraint (new : ObjectMetadataRow) (db : Database) :
    ConstraintOnly (insertObjectMetadata new db) := by
  intro error raised
  unfold insertObjectMetadata at raised
  repeat' split at raised
  all_goals cases raised <;> simp

theorem insertAuditEvent_constraint (new : AuditEventRow) (db : Database) :
    ConstraintOnly (insertAuditEvent new db) := by
  intro error raised
  unfold insertAuditEvent at raised
  split at raised
  all_goals cases raised <;> simp

/-- A completion under its token does not report a lost claim, whichever statement fails. -/
theorem completeJobWithReport_held {processingToken : Uuid} {faults : Faults Exn}
    (found : db.job? jobId = some row) (holds : (jobFence processingToken row).Holds)
    (clean : some .lostJobClaimError ∉ faults) {after : Database} :
    (RepoCall.completeJobWithReport jobId processingToken result objectKey objectType).run
      inputs faults db ≠ (.error .lostJobClaimError, after) := by
  intro lost
  have constraint : ∀ {statement : Statement Unit}, (∀ db, ConstraintOnly (statement db)) →
      Txn.Raises (fun error => error = .foreignKeyViolation ∨ error = .uniqueViolation)
        (Txn.execute statement) := fun only =>
    Txn.raises_execute fun db error raised => only db error raised
  have raises := (constraint (upsertJobResult_constraint
    ⟨inputs.uuid 0, jobId, result, inputs.now⟩)).bind fun _ =>
      (constraint (insertObjectMetadata_constraint
        ⟨inputs.uuid 1, jobId, objectKey, objectType, "job", inputs.now⟩)).bind fun _ =>
          constraint (insertAuditEvent_constraint
            ⟨inputs.uuid 2, "job", jobId, "completed", result, inputs.now⟩)
  dsimp only [RepoCall.run, completeJobWithReport] at lost
  rcases raises.commit (updateJob_hit found holds) lost with fault | own | own
  · exact clean fault
  · cases own
  · cases own

/-- A completion that reports a lost claim found no row under its token, and changed nothing. -/
theorem completeJobWithReport_loss {processingToken : Uuid} {after : Database}
    (lost : (RepoCall.completeJobWithReport jobId processingToken result objectKey objectType).run
      inputs [] db = (.error .lostJobClaimError, after)) :
    after = db ∧ ∀ row, db.job? jobId = some row → ¬ (jobFence processingToken row).Holds :=
  ⟨Txn.commit_error lost, fun _ found holds =>
    completeJobWithReport_held found holds List.not_mem_nil lost⟩

end Reports

end JobPlatform.Store
