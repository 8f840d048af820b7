import Mathlib.Data.List.Perm.Basic
import Mathlib.Logic.Function.Iterate
import JobPlatform.Runtime.Desk

/-!
Contract: the outcome of a sequence of deliveries depends only on the jobs it names.

Owns:
- `Outcome`, the contents a set of newly completed jobs determines up to what their reports drew;
- its preservation by one delivery, and so by a whole sequence;
- the comparison of two sequences that name the same jobs.
-/

namespace JobPlatform.Runtime

open JobPlatform.Foundation JobPlatform.Store
open JobPlatform.Store.Repository

/-! ### The outcome -/

section Rows

variable (store : ArtifactStore) (draws : Uuid → ReportDraws)

/-- The result of the report of a job. -/
def drawnResult (jobId : Uuid) : Json :=
  .obj [("report_key", .str (store.objectKey jobId (draws jobId).reportId)), ("rows", .int 3)]

/-- The row of `job_results` of a newly completed job. -/
def drawnResultRow (job : JobRow) : JobResultRow :=
  ⟨(draws job.id).inputs.uuid 0, job.id, drawnResult store draws job.id, (draws job.id).inputs.now⟩

/-- The completion audit of a newly completed job. -/
def drawnAudit (job : JobRow) : AuditEventRow :=
  ⟨(draws job.id).inputs.uuid 2, "job", job.id, "completed", drawnResult store draws job.id,
    (draws job.id).inputs.now⟩

/-- The row of `object_metadata` of a newly completed job. -/
def drawnMetadata (job : JobRow) : ObjectMetadataRow :=
  ⟨(draws job.id).inputs.uuid 1, job.id, store.objectKey job.id (draws job.id).reportId, "text/csv",
    "job", (draws job.id).inputs.now⟩

/-- The stored report of a newly completed job. -/
def drawnObject (job : JobRow) : String × ReportRows :=
  (store.objectKey job.id (draws job.id).reportId, finishedReport job)

/-- An old row of `job_results`: it gets the new result if its job is newly completed. -/
def drawnRefresh (done : List JobRow) (row : JobResultRow) : JobResultRow :=
  if row.jobId ∈ done.map JobRow.id then
    { row with result := drawnResult store draws row.jobId }
  else row

/-- The rows of `job_results` when some jobs are newly completed: the old ones, and one for each of
these jobs that had none. -/
def drawnResults (old : List JobResultRow) (done : List JobRow) : List JobResultRow :=
  old.map (drawnRefresh store draws done) ++
    (done.filter fun job => ¬ ∃ row ∈ old, row.jobId = job.id).map (drawnResultRow store draws)

end Rows

/-- The contents that `db` and a list of newly completed jobs determine, up to the order of the new
rows and to the draws: the ids and the times of the new rows, and the report ids in the keys. -/
structure Outcome (store : ArtifactStore) (db : Database) (done : List JobRow)
    (draws : Uuid → ReportDraws) (final : Database) : Prop where
  customers : final.customers = db.customers
  jobs : final.jobs.rows = db.jobs.rows.map fun row =>
    if row.id ∈ done.map JobRow.id then finishedRow (draws row.id).inputs.now row else row
  jobResults : final.jobResults.rows.Perm (drawnResults store draws db.jobResults.rows done)
  auditEvents :
    final.auditEvents.rows.Perm (db.auditEvents.rows ++ done.map (drawnAudit store draws))
  objectMetadata :
    final.objectMetadata.rows.Perm (db.objectMetadata.rows ++ done.map (drawnMetadata store draws))
  jobOutbox : final.jobOutbox = db.jobOutbox

section Outcome

variable {store : ArtifactStore} {db final : Database} {done : List JobRow}
  {draws : Uuid → ReportDraws}

theorem outcome_nil (draws : Uuid → ReportDraws) : Outcome store db [] draws db := by
  have none : drawnRefresh store draws [] = id := funext fun row => by simp [drawnRefresh]
  refine ⟨rfl, ?_, ?_, ?_, ?_, rfl⟩
  · simp
  · simp [drawnResults, none]
  · simp
  · simp

/-- The order of the jobs does not matter. -/
theorem Outcome.perm (outcome : Outcome store db done draws final) {other : List JobRow}
    (same : done.Perm other) : Outcome store db other draws final := by
  have ids : ∀ id, id ∈ done.map JobRow.id ↔ id ∈ other.map JobRow.id :=
    fun id => (same.map JobRow.id).mem_iff
  refine ⟨outcome.customers, ?_, outcome.jobResults.trans ?_,
    outcome.auditEvents.trans ((same.map _).append_left _),
    outcome.objectMetadata.trans ((same.map _).append_left _), outcome.jobOutbox⟩
  · rw [outcome.jobs]
    apply List.map_congr_left
    intro row _
    simp only [ids]
  · have refresh : drawnRefresh store draws done = drawnRefresh store draws other := by
      funext row
      unfold drawnRefresh
      simp only [ids]
    unfold drawnResults
    rw [refresh]
    exact ((same.filter _).map _).append_left _

theorem Outcome.idle (outcome : Outcome store db done draws final) (idle : Idle db) :
    Idle final := by
  intro row member
  rw [outcome.jobs] at member
  obtain ⟨old, inTable, rfl⟩ := List.mem_map.mp member
  split
  · simp [finishedRow, completeJobRow]
  · exact idle old inTable

/-- The row of a job in the outcome. -/
theorem Outcome.job (outcome : Outcome store db done draws final) {job : JobRow}
    (member : job ∈ db.jobs.rows) : final.job? job.id = some (if job.id ∈ done.map JobRow.id then
      finishedRow (draws job.id).inputs.now job else job) := by
  refine Database.job?_eq_some.mpr ⟨?_, ?_⟩
  · rw [outcome.jobs]
    exact List.mem_map.mpr ⟨job, member, rfl⟩
  · split <;> rfl

theorem upserted_perm (new : JobResultRow) {rows other : List JobResultRow}
    (same : rows.Perm other) : (upserted new rows).Perm (upserted new other) := by
  unfold upserted
  simp only [same.mem_iff]
  exact (same.map _).append_right _

section Update

variable {job : JobRow} {drawn : ReportDraws} (new : job.id ∉ done.map JobRow.id)

include new in
/-- The draws of one more job leave those of the others alone. -/
theorem update_draws {α : Type} (column : (Uuid → ReportDraws) → JobRow → α)
    (reads : ∀ {left right : Uuid → ReportDraws} {row : JobRow}, left row.id = right row.id →
      column left row = column right row) :
    (done ++ [job]).map (column (Function.update draws job.id drawn)) =
      done.map (column draws) ++ [column (Function.update draws job.id drawn) job] := by
  rw [List.map_append, List.map_singleton]
  congr 1
  apply List.map_congr_left
  intro other member
  apply reads
  apply Function.update_of_ne
  intro same
  exact new (same ▸ List.mem_map_of_mem member)

include new in
/-- The upsert of one more job adds it to the drawn results. -/
theorem upserted_drawnResults (old : List JobResultRow) :
    upserted (drawnResultRow store (Function.update draws job.id drawn) job)
        (drawnResults store draws old done) =
      drawnResults store (Function.update draws job.id drawn) old (done ++ [job]) := by
  have kept : ∀ other ∈ done, other.id ≠ job.id :=
    fun other member same => new (same ▸ List.mem_map_of_mem member)
  have sameJob : ∀ row, (drawnRefresh store draws done row).jobId = row.jobId := by
    intro row
    unfold drawnRefresh
    split <;> rfl
  have present : (∃ row ∈ drawnResults store draws old done, row.jobId = job.id) ↔
      ∃ row ∈ old, row.jobId = job.id := by
    unfold drawnResults
    constructor
    · rintro ⟨row, member, isJob⟩
      rcases List.mem_append.mp member with updated | added
      · obtain ⟨before, inOld, rfl⟩ := List.mem_map.mp updated
        exact ⟨before, inOld, (sameJob before).symm.trans isJob⟩
      · obtain ⟨other, inDone, rfl⟩ := List.mem_map.mp added
        exact absurd isJob (kept other (List.mem_filter.mp inDone).1)
    · rintro ⟨row, member, isJob⟩
      exact ⟨_, List.mem_append_left _ (List.mem_map_of_mem member), (sameJob row).trans isJob⟩
  let row := drawnResultRow store (Function.update draws job.id drawn) job
  have updated : (old.map (drawnRefresh store draws done)).map (refreshed row) =
      old.map (drawnRefresh store (Function.update draws job.id drawn) (done ++ [job])) := by
    rw [List.map_map]
    apply List.map_congr_left
    intro other _
    simp only [Function.comp_apply, refreshed, drawnRefresh, List.map_append, List.mem_append,
      List.map_singleton, List.mem_singleton, row, drawnResultRow]
    by_cases earlier : other.jobId ∈ done.map JobRow.id
    · have different : other.jobId ≠ job.id := fun same => new (same ▸ earlier)
      simp [earlier, different, drawnResult]
    · by_cases same : other.jobId = job.id
      · simp [same, new]
      · simp [earlier, same]
  have added : ((done.filter fun other => ¬ ∃ row ∈ old, row.jobId = other.id).map
      (drawnResultRow store draws)).map (refreshed row) =
      (done.filter fun other => ¬ ∃ row ∈ old, row.jobId = other.id).map
        (drawnResultRow store (Function.update draws job.id drawn)) := by
    rw [List.map_map]
    apply List.map_congr_left
    intro other member
    have different := kept other (List.mem_filter.mp member).1
    simp [refreshed, row, drawnResultRow, drawnResult, different]
  change (drawnResults store draws old done).map (refreshed row) ++
    (if ∃ other ∈ drawnResults store draws old done, other.jobId = job.id then [] else [row]) = _
  rw [if_congr present rfl rfl]
  unfold drawnResults
  rw [List.map_append, updated, added, List.filter_append, List.map_append, List.append_assoc]
  congr 2
  by_cases reported : ∃ row ∈ old, row.jobId = job.id
  · simp [reported]
  · have alone : ([job].filter fun other => ¬ ∃ row ∈ old, row.jobId = other.id) = [job] := by
      rw [List.filter_eq_self]
      intro other member
      rw [List.mem_singleton.mp member]
      exact decide_eq_true reported
    rw [if_neg reported, alone]
    rfl

end Update

/-- One more job. -/
theorem Outcome.finished {base after : Database} {job : JobRow} {drawn : ReportDraws}
    (outcome : Outcome store db done draws base) (new : job.id ∉ done.map JobRow.id)
    (finished : Finished store drawn base job after) :
    Outcome store db (done ++ [job]) (Function.update draws job.id drawn) after := by
  have own : Function.update draws job.id drawn job.id = drawn := Function.update_self _ _ _
  refine ⟨finished.customers.trans outcome.customers, ?_, ?_, ?_, ?_,
    finished.jobOutbox.trans outcome.jobOutbox⟩
  · rw [finished.jobs, outcome.jobs, List.map_map]
    apply List.map_congr_left
    intro row _
    simp only [Function.comp_apply, List.map_append, List.mem_append, List.map_singleton,
      List.mem_singleton]
    by_cases earlier : row.id ∈ done.map JobRow.id
    · have different : row.id ≠ job.id := fun same => new (same ▸ earlier)
      simp only [earlier, true_or, if_true, Function.update_of_ne different]
      exact if_neg different
    · by_cases same : row.id = job.id
      · simp [same, new]
      · simp [earlier, same]
  · have isNew : (⟨drawn.inputs.uuid 0, job.id, reportResult (store.objectKey job.id drawn.reportId)
        (finishedReport job), drawn.inputs.now⟩ : JobResultRow) =
        drawnResultRow store (Function.update draws job.id drawn) job := by
      unfold drawnResultRow drawnResult
      rw [own]
      rfl
    rw [finished.jobResults, isNew, ← upserted_drawnResults new]
    exact upserted_perm _ outcome.jobResults
  · rw [finished.auditEvents, update_draws new (drawnAudit store) ?_, ← List.append_assoc]
    · unfold drawnAudit drawnResult
      rw [own]
      exact outcome.auditEvents.append_right _
    · intro left right row same
      unfold drawnAudit drawnResult
      rw [same]
  · rw [finished.objectMetadata, update_draws new (drawnMetadata store) ?_, ← List.append_assoc]
    · unfold drawnMetadata
      rw [own]
      exact outcome.objectMetadata.append_right _
    · intro left right row same
      unfold drawnMetadata
      rw [same]

end Outcome

/-! ### A sequence of deliveries -/

/-- The values of `uuid4()` in the first `limit` calls are fresh: no two calls draw the same, and
neither the rows of the database nor their object keys use them. -/
structure Shift.Fresh (shift : Shift) (store : ArtifactStore) (db : Database) (limit : Nat) :
    Prop where
  distinct : ∀ index {early late}, early < late → late < limit →
    (shift.inputs early).uuid index ≠ (shift.inputs late).uuid index
  results : ∀ number < limit, ∀ old ∈ db.jobResults.rows, old.id ≠ (shift.inputs number).uuid 0
  metadata : ∀ number < limit, ∀ old ∈ db.objectMetadata.rows,
    old.id ≠ (shift.inputs number).uuid 1
  keys : ∀ number < limit, ∀ old ∈ db.objectMetadata.rows,
    old.objectKey ≠ store.objectKey old.jobId ((shift.inputs number).uuid 0)
  audits : ∀ number < limit, ∀ old ∈ db.auditEvents.rows, old.id ≠ (shift.inputs number).uuid 2

/-- One `consume_one_message`. -/
def consume (shift : Shift) (store : ArtifactStore) (config : ConsumerConfig) (desk : Desk) : Desk :=
  (Code.meaning shift.handle (consumeOneMessage store config) desk).2

/-- The desk after `consume_one_message` ran over a sequence of messages. -/
def consumeAll (shift : Shift) (store : ArtifactStore) (config : ConsumerConfig) (db : Database)
    (messages : List Message) : Desk :=
  (consume shift store config)^[messages.length] ⟨db, messages, messages, [], 0⟩

/-- The jobs a sequence of messages newly completes. -/
def newlyCompleted (db : Database) (messages : List Message) : List JobRow :=
  db.jobs.rows.filter fun job =>
    job.status ≠ .completed ∧ ∃ message ∈ messages, Names message.body job.id

/-- The calls of a delivery, at most. -/
def callsPerDelivery : Nat := 11

/-- The desk between two deliveries: the jobs completed so far, and what is left of the messages. -/
structure Midway (shift : Shift) (store : ArtifactStore) (db : Database)
    (messages seen rest : List Message) (done : List JobRow) (draws : Uuid → ReportDraws)
    (desk : Desk) : Prop where
  outcome : Outcome store db done draws desk.db
  objects : desk.objects = done.map (drawnObject store draws)
  distinct : (done.map JobRow.id).Nodup
  exact : ∀ job, job ∈ done ↔ job ∈ db.jobs.rows ∧ job.status ≠ .completed ∧
    ∃ message ∈ seen, Names message.body job.id
  drawn : ∀ job ∈ done, ∃ number < desk.calls, (draws job.id).inputs = shift.inputs number
  incoming : desk.incoming = rest
  calls : desk.calls + callsPerDelivery * rest.length ≤ callsPerDelivery * messages.length
  queue : desk.queue = messages.filter fun message => message.id ∉ seen.map Message.id

section Sequence

variable {shift : Shift} {store : ArtifactStore} {db : Database}
  {messages seen rest : List Message} {done : List JobRow} {draws : Uuid → ReportDraws}
  {desk : Desk}

/-- What is drawn later is free for a job that is not done. -/
theorem Midway.free (midway : Midway shift store db messages seen rest done draws desk)
    (fresh : shift.Fresh store db (callsPerDelivery * messages.length)) {job : JobRow}
    (new : job.id ∉ done.map JobRow.id) {early late : Nat} (first : desk.calls ≤ early)
    (second : early < late) (third : late < callsPerDelivery * messages.length) :
    FreeFor desk.db (shift.inputs late) job.id
      (store.objectKey job.id ((shift.inputs early).uuid 0)) := by
  have apart : ∀ other ∈ done, ∀ index,
      (draws other.id).inputs.uuid index ≠ (shift.inputs late).uuid index := by
    intro other member index
    obtain ⟨number, before, isDrawn⟩ := midway.drawn other member
    rw [isDrawn]
    exact fresh.distinct index (by omega) third
  constructor
  · intro old member
    rcases List.mem_append.mp (midway.outcome.jobResults.mem_iff.mp member) with initial | added
    · obtain ⟨before, inTable, rfl⟩ := List.mem_map.mp initial
      have same : (drawnRefresh store draws done before).id = before.id := by
        unfold drawnRefresh
        split <;> rfl
      rw [same]
      exact fresh.results late third before inTable
    · obtain ⟨other, inDone, rfl⟩ := List.mem_map.mp added
      exact apart other (List.mem_filter.mp inDone).1 0
  · intro old member
    rcases List.mem_append.mp (midway.outcome.objectMetadata.mem_iff.mp member) with initial | added
    · exact fresh.metadata late third old initial
    · obtain ⟨other, inDone, rfl⟩ := List.mem_map.mp added
      exact apart other inDone 1
  · intro old member isJob
    rcases List.mem_append.mp (midway.outcome.objectMetadata.mem_iff.mp member) with initial | added
    · rw [← isJob]
      exact fresh.keys early (second.trans third) old initial
    · obtain ⟨other, inDone, rfl⟩ := List.mem_map.mp added
      exact absurd (List.mem_map.mpr ⟨other, inDone, isJob⟩) new
  · intro old member
    rcases List.mem_append.mp (midway.outcome.auditEvents.mem_iff.mp member) with initial | added
    · exact fresh.audits late third old initial
    · obtain ⟨other, inDone, rfl⟩ := List.mem_map.mp added
      exact apart other inDone 2

/-- The queue after one more deletion. -/
theorem filter_seen (message : Message) :
    (messages.filter fun other => other.id ∉ seen.map Message.id).filter
        (fun other => other.id ≠ message.id) =
      messages.filter fun other => other.id ∉ (seen ++ [message]).map Message.id := by
  rw [List.filter_filter]
  apply List.filter_congr
  intro other _
  by_cases same : other.id = message.id
  · simp [same]
  · simp [same]

/-- One delivery. -/
theorem Midway.consume (config : ConsumerConfig) {message : Message} {jobId : Uuid} {job : JobRow}
    (midway : Midway shift store db messages seen (message :: rest) done draws desk)
    (idle : Idle db) (fresh : shift.Fresh store db (callsPerDelivery * messages.length))
    (names : Names message.body jobId) (found : db.job? jobId = some job) :
    ∃ done draws, Midway shift store db messages (seen ++ [message]) rest done draws
      (consume shift store config desk) := by
  obtain ⟨member, rfl⟩ := Database.job?_eq_some.mp found
  have row := midway.outcome.job member
  have quiet := midway.outcome.idle idle
  have named : ∀ other ∈ db.jobs.rows, Names message.body other.id ↔ other = job := by
    intro other otherIn
    constructor
    · intro namesOther
      have sameId : other.id = job.id := Except.ok.inj (namesOther.symm.trans names)
      exact db.jobs.eq_of_key otherIn member sameId
    · rintro rfl
      exact names
  have doneJob : job.id ∈ done.map JobRow.id → job ∈ done := by
    intro isDone
    obtain ⟨other, otherIn, sameId⟩ := List.mem_map.mp isDone
    obtain rfl : other = job :=
      db.jobs.eq_of_key ((midway.exact other).mp otherIn).1 member sameId
    exact otherIn
  have room : desk.calls + 11 + 11 * rest.length ≤ 11 * messages.length := by
    have calls := midway.calls
    simp only [callsPerDelivery, List.length_cons] at calls
    omega
  unfold JobPlatform.Runtime.consume
  by_cases finished : job.status = .completed ∨ job ∈ done
  · have completed : (if job.id ∈ done.map JobRow.id then
        finishedRow (draws job.id).inputs.now job else job).status = .completed := by
      split
      next => rfl
      next outside => exact finished.resolve_right fun inDone => outside (List.mem_map_of_mem inDone)
    obtain ⟨after, ran, sameDb, isRest, isQueue, sameObjects, six⟩ := deliver_completed
      shift store config quiet midway.incoming names row completed
    rw [ran]
    refine ⟨done, draws, sameDb ▸ midway.outcome, sameObjects.trans midway.objects,
      midway.distinct, ?_, ?_, isRest, ?_, ?_⟩
    · intro other
      rw [midway.exact other]
      refine and_congr_right fun otherIn => and_congr_right fun unfinished => ?_
      constructor
      · rintro ⟨earlier, inSeen, namesOther⟩
        exact ⟨earlier, List.mem_append_left _ inSeen, namesOther⟩
      · rintro ⟨earlier, inAll, namesOther⟩
        rcases List.mem_append.mp inAll with inSeen | isLast
        · exact ⟨earlier, inSeen, namesOther⟩
        · rw [List.mem_singleton.mp isLast, named other otherIn] at namesOther
          subst namesOther
          exact ((midway.exact other).mp (finished.resolve_left unfinished)).2.2
    · intro other inDone
      obtain ⟨number, before, isDrawn⟩ := midway.drawn other inDone
      refine ⟨number, ?_, isDrawn⟩
      change number < after.calls
      omega
    · change after.calls + 11 * rest.length ≤ 11 * messages.length
      omega
    · rw [isQueue, midway.queue]
      exact filter_seen message
  · rw [not_or] at finished
    have new : job.id ∉ done.map JobRow.id := fun isDone => finished.2 (doneJob isDone)
    rw [if_neg new] at row
    have free := midway.free fresh new (Nat.le_add_right desk.calls 4)
      (by omega : desk.calls + 4 < desk.calls + 6) (by unfold callsPerDelivery; omega)
    obtain ⟨after, ran, isFinished, isRest, isQueue, isObjects, eleven⟩ := deliver_open
      shift store config quiet midway.incoming names row
      finished.1 free
    rw [ran]
    refine ⟨done ++ [job], Function.update draws job.id _,
      midway.outcome.finished new isFinished, ?_, ?_, ?_, ?_, isRest, ?_, ?_⟩
    · rw [isObjects, update_draws new (drawnObject store) ?_, midway.objects]
      · unfold drawnObject
        rw [Function.update_self]
      · intro left right other same
        unfold drawnObject
        rw [same]
    · rw [List.map_append, List.map_singleton]
      exact midway.distinct.append (List.nodup_singleton _) (List.disjoint_singleton.mpr new)
    · intro other
      rw [List.mem_append, List.mem_singleton, midway.exact other]
      constructor
      · rintro (⟨otherIn, unfinished, earlier, inSeen, namesOther⟩ | rfl)
        · exact ⟨otherIn, unfinished, earlier, List.mem_append_left _ inSeen, namesOther⟩
        · exact ⟨member, finished.1, message, List.mem_append_right _ List.mem_cons_self, names⟩
      · rintro ⟨otherIn, unfinished, earlier, inAll, namesOther⟩
        rcases List.mem_append.mp inAll with inSeen | isLast
        · exact .inl ⟨otherIn, unfinished, earlier, inSeen, namesOther⟩
        · rw [List.mem_singleton.mp isLast, named other otherIn] at namesOther
          exact .inr namesOther
    · intro other inDone
      rcases List.mem_append.mp inDone with earlier | isLast
      · obtain ⟨number, before, isDrawn⟩ := midway.drawn other earlier
        have different : other.id ≠ job.id :=
          fun same => new (same ▸ List.mem_map_of_mem earlier)
        refine ⟨number, ?_, by rw [Function.update_of_ne different, isDrawn]⟩
        change number < after.calls
        omega
      · rw [List.mem_singleton.mp isLast, Function.update_self]
        refine ⟨desk.calls + 6, ?_, rfl⟩
        change desk.calls + 6 < after.calls
        omega
    · change after.calls + 11 * rest.length ≤ 11 * messages.length
      omega
    · rw [isQueue, midway.queue]
      exact filter_seen message

/-- Every message names a job of the database. -/
def AllName (db : Database) (messages : List Message) : Prop :=
  ∀ message ∈ messages, ∃ jobId job, Names message.body jobId ∧ db.job? jobId = some job

/-- What is left of the sequence, delivered to its end. -/
theorem Midway.finish (config : ConsumerConfig) (idle : Idle db)
    (fresh : shift.Fresh store db (callsPerDelivery * messages.length)) (all : AllName db rest)
    (midway : Midway shift store db messages seen rest done draws desk) :
    ∃ done draws, Midway shift store db messages (seen ++ rest) [] done draws
      ((JobPlatform.Runtime.consume shift store config)^[rest.length] desk) := by
  induction rest generalizing seen done draws desk with
  | nil =>
      rw [List.append_nil]
      exact ⟨done, draws, midway⟩
  | cons message rest inductionHypothesis =>
      obtain ⟨jobId, job, names, found⟩ := all message List.mem_cons_self
      obtain ⟨nextDone, nextDraws, next⟩ :=
        midway.consume config idle fresh names found
      rw [List.append_cons]
      exact inductionHypothesis (fun other member => all other (List.mem_cons_of_mem _ member)) next

/-- A whole sequence of deliveries: the jobs it newly completes determine the outcome. -/
theorem outcome_consumeAll (store : ArtifactStore) (config : ConsumerConfig) (idle : Idle db)
    (fresh : shift.Fresh store db (callsPerDelivery * messages.length)) (all : AllName db messages) :
    ∃ draws, Outcome store db (newlyCompleted db messages) draws
        (consumeAll shift store config db messages).db ∧
      (consumeAll shift store config db messages).objects.Perm
        ((newlyCompleted db messages).map (drawnObject store draws)) ∧
      (consumeAll shift store config db messages).incoming = [] ∧
      (consumeAll shift store config db messages).queue = [] := by
  have start : Midway shift store db messages [] messages [] (fun _ => ⟨Uuid.ofInt 0, shift.inputs 0⟩)
      ⟨db, messages, messages, [], 0⟩ := by
    refine ⟨outcome_nil _, rfl, List.nodup_nil, ?_, ?_, rfl, ?_, ?_⟩
    · simp
    · simp
    · simp
    · simp
  obtain ⟨done, draws, finish⟩ := start.finish config idle fresh all
  rw [List.nil_append] at finish
  have same : done.Perm (newlyCompleted db messages) := by
    unfold newlyCompleted
    rw [List.perm_ext_iff_of_nodup finish.distinct.of_map ((nodup_jobIds db).of_map.filter _)]
    intro job
    rw [finish.exact job, List.mem_filter, decide_eq_true_iff]
  refine ⟨draws, finish.outcome.perm same, ?_, finish.incoming, ?_⟩
  · exact finish.objects ▸ same.map (drawnObject store draws)
  · unfold consumeAll
    rw [finish.queue, List.filter_eq_nil_iff]
    intro message member
    simpa using ⟨message, member, rfl⟩

end Sequence

/-! ### Two sequences -/

/-- The two databases are the outcome of the same newly completed jobs: they differ in nothing but
the order of new rows and in what the reports of these jobs drew. -/
def SameUpToDraws (store : ArtifactStore) (db : Database) (done : List JobRow)
    (left right : Database) : Prop :=
  ∃ leftDraws rightDraws, Outcome store db done leftDraws left ∧ Outcome store db done rightDraws right

/-- What became of the jobs, the reports and the messages. -/
structure Delivered (db : Database) (messages : List Message) (desk : Desk) : Prop where
  named : ∀ job ∈ db.jobs.rows, (∃ message ∈ messages, Names message.body job.id) →
    ∃ after, desk.db.job? job.id = some after ∧ after.status = .completed ∧
      after.attempts = if job.status = .completed then job.attempts else job.attempts + 1
  others : ∀ job ∈ db.jobs.rows, (¬ ∃ message ∈ messages, Names message.body job.id) →
    desk.db.job? job.id = some job
  reports : (desk.objects.map Prod.snd).Perm ((newlyCompleted db messages).map finishedReport)
  deleted : desk.queue = []

theorem mem_newlyCompleted {db : Database} {messages : List Message} {job : JobRow}
    (member : job ∈ db.jobs.rows) : job.id ∈ (newlyCompleted db messages).map JobRow.id ↔
      job.status ≠ .completed ∧ ∃ message ∈ messages, Names message.body job.id := by
  unfold newlyCompleted
  constructor
  · intro isNew
    obtain ⟨other, inNew, same⟩ := List.mem_map.mp isNew
    obtain ⟨otherIn, holds⟩ := List.mem_filter.mp inNew
    obtain rfl : other = job := db.jobs.eq_of_key otherIn member same
    exact of_decide_eq_true holds
  · intro holds
    exact List.mem_map_of_mem (List.mem_filter.mpr ⟨member, decide_eq_true holds⟩)

theorem delivered_consumeAll {shift : Shift} {store : ArtifactStore} {config : ConsumerConfig}
    {db : Database} {messages : List Message} (idle : Idle db)
    (fresh : shift.Fresh store db (callsPerDelivery * messages.length)) (all : AllName db messages) :
    Delivered db messages (consumeAll shift store config db messages) := by
  obtain ⟨draws, outcome, objects, _, queue⟩ :=
    outcome_consumeAll store config idle fresh all
  refine ⟨?_, ?_, ?_, queue⟩
  · intro job member named
    refine ⟨_, outcome.job member, ?_⟩
    by_cases finished : job.status = .completed
    · have old : job.id ∉ (newlyCompleted db messages).map JobRow.id :=
        fun isNew => ((mem_newlyCompleted member).mp isNew).1 finished
      rw [if_neg old, if_pos finished]
      exact ⟨finished, rfl⟩
    · rw [if_pos ((mem_newlyCompleted member).mpr ⟨finished, named⟩), if_neg finished]
      exact ⟨rfl, rfl⟩
  · intro job member unnamed
    rw [outcome.job member, if_neg fun isNew => unnamed ((mem_newlyCompleted member).mp isNew).2]
  · have mapped := objects.map Prod.snd
    rwa [List.map_map] at mapped

/-- In a store in which no job is processing: two sequences of messages that name the same existing
jobs, consumed by one worker without failing calls, end in the same database up to what their
reports drew. Every named job is completed, with one more attempt if it was not completed before,
one report is stored for each newly completed job, every message is deleted, and the other jobs are
untouched. -/
theorem redelivery (store : ArtifactStore) (config : ConsumerConfig) {db : Database}
    {first second : List Message} {morning evening : Shift} (idle : Idle db)
    (morningFresh : morning.Fresh store db (callsPerDelivery * first.length))
    (eveningFresh : evening.Fresh store db (callsPerDelivery * second.length))
    (firstNames : AllName db first) (secondNames : AllName db second)
    (same : ∀ jobId, (∃ message ∈ first, Names message.body jobId) ↔
      ∃ message ∈ second, Names message.body jobId) :
    SameUpToDraws store db (newlyCompleted db first) (consumeAll morning store config db first).db
        (consumeAll evening store config db second).db ∧
      Delivered db first (consumeAll morning store config db first) ∧
      Delivered db second (consumeAll evening store config db second) := by
  obtain ⟨morningDraws, morningOutcome, _⟩ :=
    outcome_consumeAll store config idle morningFresh firstNames
  obtain ⟨eveningDraws, eveningOutcome, _⟩ :=
    outcome_consumeAll store config idle eveningFresh secondNames
  have sameJobs : newlyCompleted db second = newlyCompleted db first := by
    unfold newlyCompleted
    apply List.filter_congr
    intro job _
    rw [decide_eq_decide, same job.id]
  refine ⟨⟨morningDraws, eveningDraws, morningOutcome, sameJobs ▸ eveningOutcome⟩, ?_, ?_⟩
  · exact delivered_consumeAll idle morningFresh firstNames
  · exact delivered_consumeAll idle eveningFresh secondNames

/-- A store with one pending job. -/
def openStore : Database :=
  committed .empty [⟨.createJob "csv_report" (.obj []) none, .numbered 0 0, []⟩]

/-- A shift with numbered draws, and no renewals. -/
def numberedShift : Shift := ⟨fun number => .numbered (number + 1) 0, fun _ => []⟩

/-- A message that names the job of `openStore`. -/
def openMessage (id : ReceiptHandle) : Message := ⟨id, jobMessage (Uuid.ofInt 0) .null⟩

/-- The numbered draws of a short shift do not wrap around. -/
theorem numberedShift_value {number : Nat} (small : number < 1000) (index : Fin 3) :
    ((numberedShift.inputs number).uuid index).int = 3 * (number + 1) + index := by
  change (3 * (number + 1) + index.val) % 2 ^ 128 = _
  apply Nat.mod_eq_of_lt
  have bound : 3 * (number + 1) + index.val < 4000 := by omega
  exact bound.trans (by decide)

theorem numberedShift_fresh (store : ArtifactStore) {limit : Nat} (small : limit ≤ 1000) :
    numberedShift.Fresh store openStore limit := by
  have noResults : openStore.jobResults.rows = [] := by decide
  have noMetadata : openStore.objectMetadata.rows = [] := by decide
  refine ⟨?_, ?_, ?_, ?_, ?_⟩
  · intro index early late before bound same
    have equal := congrArg Uuid.int same
    rw [numberedShift_value (by omega), numberedShift_value (by omega)] at equal
    omega
  · intro number _ old member
    rw [noResults] at member
    exact absurd member List.not_mem_nil
  · intro number _ old member
    rw [noMetadata] at member
    exact absurd member List.not_mem_nil
  · intro number _ old member
    rw [noMetadata] at member
    exact absurd member List.not_mem_nil
  · intro number bound old member same
    have isId : old.id ∈ openStore.auditEvents.rows.map AuditEventRow.id := List.mem_map_of_mem member
    have ids : openStore.auditEvents.rows.map AuditEventRow.id = [Uuid.ofInt 2] := by decide
    rw [ids, List.mem_singleton] at isId
    have equal := congrArg Uuid.int (isId.symm.trans same)
    rw [numberedShift_value (by omega)] at equal
    change 2 = 3 * (number + 1) + 2 at equal
    omega

theorem redelivery_twice :
    SameUpToDraws ⟨"reports"⟩ openStore (newlyCompleted openStore [openMessage 0])
        (consumeAll numberedShift ⟨"reports"⟩ ⟨120, 60, 30⟩ openStore [openMessage 0]).db
        (consumeAll numberedShift ⟨"reports"⟩ ⟨120, 60, 30⟩ openStore
          [openMessage 0, openMessage 1]).db := by
  have all : ∀ messages : List Message, (∀ message ∈ messages, message.body =
      jobMessage (Uuid.ofInt 0) .null) → AllName openStore messages := by
    intro messages bodies message member
    refine ⟨Uuid.ofInt 0, newJob "csv_report" (.obj []) (Uuid.ofInt 0) 0, ?_, rfl⟩
    rw [bodies message member]
    exact names_jobMessage _ _
  have same : ∀ jobId, (∃ message ∈ [openMessage 0], Names message.body jobId) ↔
      ∃ message ∈ [openMessage 0, openMessage 1], Names message.body jobId := by
    intro jobId
    simp [openMessage]
  exact (redelivery ⟨"reports"⟩ ⟨120, 60, 30⟩ (by unfold Idle; decide) (numberedShift_fresh _ (by decide))
    (numberedShift_fresh _ (by decide)) (all _ (by simp [openMessage])) (all _ (by simp [openMessage]))
    same).1

end JobPlatform.Runtime
