import JobPlatform.Runtime.Correlation
import JobPlatform.Runtime.Dispatch
import JobPlatform.Runtime.Station

/-!
Contract: the rounds of a worker that is alone and whose calls do not fail.

Owns:
- `runIdleWorker`, a number of rounds of the loop of `run_idle_worker` in cloud mode;
- `Tidy` and `Stocked`, the invariants of its rounds;
- `workLeft`, the unpublished events and the queued messages: a dispatch keeps it, and a delivery
  makes it smaller.
-/

namespace JobPlatform.Runtime

open JobPlatform.Foundation JobPlatform.Store
open JobPlatform.Store.Repository

/-- The body of the loop of `run_idle_worker` in cloud mode. `dispatch_outbox` has its default
limit. -/
def idleRound (store : ArtifactStore) (config : ConsumerConfig) (outboxClaimLeaseSeconds : Int) :
    Run Unit := do
  let _ ← dispatchOutbox (createJobPublisher true true) 10 outboxClaimLeaseSeconds
  let _ ← consumeOneMessage store config
  return ()

/-- The loop of `run_idle_worker` in cloud mode, until a shutdown is requested after some rounds. -/
def runIdleWorker (store : ArtifactStore) (config : ConsumerConfig)
    (outboxClaimLeaseSeconds : Int) : Nat → Run Unit
  | 0 => return ()
  | rounds + 1 => do
      idleRound store config outboxClaimLeaseSeconds
      runIdleWorker store config outboxClaimLeaseSeconds rounds

/-! ### The work left -/

/-- The ids of the unpublished events. -/
def unpublished (db : Database) : List Uuid :=
  (db.jobOutbox.rows.filter fun event => event.status ≠ .published).map OutboxRow.id

/-- The ids of the jobs. -/
def jobIds (db : Database) : List Uuid := db.jobs.rows.map JobRow.id

/-- The unpublished events and the queued messages. -/
def workLeft (station : Station) : Nat := (unpublished station.db).length + station.queue.length

section Work

variable {db : Database}

theorem mem_unpublished {eventId : Uuid} : eventId ∈ unpublished db ↔
    ∃ event, db.event? eventId = some event ∧ event.status ≠ .published := by
  simp only [unpublished, List.mem_map, List.mem_filter, decide_eq_true_eq,
    Database.event?_eq_some]
  constructor
  · rintro ⟨event, ⟨member, open'⟩, rfl⟩
    exact ⟨event, ⟨member, rfl⟩, open'⟩
  · rintro ⟨event, ⟨member, rfl⟩, open'⟩
    exact ⟨event, ⟨member, open'⟩, rfl⟩

theorem nodup_unpublished (db : Database) : (unpublished db).Nodup :=
  (nodup_eventIds db).sublist (List.filter_sublist.map _)

/-- A claim publishes nothing. -/
theorem unpublished_claim {batch : List Uuid} {claimToken : Uuid} {now : Time}
    (claimed : ∀ event ∈ db.jobOutbox.rows, event.id ∈ batch → event.status ≠ .published) :
    (unpublished (db.setEvents batch (claimEventRow claimToken now) (claimEventRow_id _ _))).Perm
      (unpublished db) := by
  rw [List.perm_ext_iff_of_nodup (nodup_unpublished _) (nodup_unpublished _)]
  intro eventId
  rw [mem_unpublished, mem_unpublished, Database.event?_setEvents]
  split
  next inBatch =>
    cases found : db.event? eventId with
    | none => simp
    | some event =>
        obtain ⟨member, rfl⟩ := Database.event?_eq_some.mp found
        simp [claimEventRow, claimed event member inBatch]
  next => rfl

/-- A publication mark publishes its event. -/
theorem unpublished_publish (eventId : Uuid) (now : Time) :
    (unpublished (db.setEvents [eventId] (publishEventRow now) (publishEventRow_id _))).Perm
      ((unpublished db).erase eventId) := by
  rw [List.perm_ext_iff_of_nodup (nodup_unpublished _) ((nodup_unpublished db).erase _)]
  intro other
  rw [(nodup_unpublished db).mem_erase_iff, mem_unpublished, mem_unpublished,
    Database.event?_setEvents]
  split
  next same =>
    rw [List.mem_singleton.mp same]
    cases db.event? eventId <;> simp [publishEventRow]
  next apart =>
    rw [List.mem_singleton] at apart
    simp [apart]

end Work

/-! ### The invariants -/

/-- No job is processed, the events and messages name jobs, only the claimed events are being
published, and an unfinished job still has an event or a message. -/
structure Tidy (solo : Solo) (claimed : List Uuid) (station : Station) : Prop where
  idle : Idle station.db
  written : station.db.Written
  eventJobs : ∀ event ∈ station.db.jobOutbox.rows, ∃ jobId ∈ jobIds station.db, event.Names jobId
  publishing : ∀ event ∈ station.db.jobOutbox.rows, event.status = .publishing → event.id ∈ claimed
  named : ∀ message ∈ station.queue, ∃ jobId ∈ jobIds station.db, Names message.body jobId
  below : ∀ message ∈ station.queue, message.id < station.nextMessage
  same : ∀ message ∈ station.queue, ∀ other ∈ station.queue, message.id = other.id →
    message = other
  within : ∀ message ∈ station.queue, station.receives message.id < solo.maxReceiveCount
  covered : ∀ job ∈ station.db.jobs.rows, job.status ≠ .completed →
    (∃ event ∈ station.db.jobOutbox.rows, event.status ≠ .published ∧ event.Names job.id) ∨
      ∃ message ∈ station.queue, Names message.body job.id

/-- The id was drawn before the shift, or by a call with a smaller number. -/
def DrawnBefore (solo : Solo) (drawn : List Uuid) (calls : Nat) (index : Fin 3) (id : Uuid) :
    Prop :=
  id ∈ drawn ∨ ∃ number < calls, id = (solo.inputs number).uuid index

/-- The report rows have drawn ids, and only completed jobs have an object. -/
structure Stocked (solo : Solo) (drawn : List Uuid) (calls : Nat) (db : Database) : Prop where
  results : ∀ row ∈ db.jobResults.rows, DrawnBefore solo drawn calls 0 row.id
  metadata : ∀ row ∈ db.objectMetadata.rows, DrawnBefore solo drawn calls 1 row.id
  audits : ∀ row ∈ db.auditEvents.rows, DrawnBefore solo drawn calls 2 row.id
  catalogued : ∀ row ∈ db.objectMetadata.rows, db.Completed row.jobId

/-- The calls below the limit draw UUIDs that were not drawn before. -/
structure Solo.New (solo : Solo) (drawn : List Uuid) (limit : Nat) : Prop where
  new : ∀ number < limit, ∀ index, (solo.inputs number).uuid index ∉ drawn
  distinct : ∀ index {early late}, early < late → late < limit →
    (solo.inputs early).uuid index ≠ (solo.inputs late).uuid index

section Invariants

variable {solo : Solo} {drawn : List Uuid} {claimed : List Uuid} {station : Station}
  {calls later limit : Nat} {db after : Database}

theorem Tidy.atCall (tidy : Tidy solo claimed station) (calls : Nat) :
    Tidy solo claimed { station with calls } :=
  ⟨tidy.idle, tidy.written, tidy.eventJobs, tidy.publishing, tidy.named, tidy.below, tidy.same,
    tidy.within, tidy.covered⟩

theorem DrawnBefore.mono {index : Fin 3} {id : Uuid}
    (before : DrawnBefore solo drawn calls index id) (grows : calls ≤ later) :
    DrawnBefore solo drawn later index id := by
  rcases before with old | ⟨number, below, isDrawn⟩
  · exact .inl old
  · exact .inr ⟨number, below.trans_le grows, isDrawn⟩

theorem Stocked.mono (stocked : Stocked solo drawn calls db) (grows : calls ≤ later) :
    Stocked solo drawn later db :=
  ⟨fun row member => (stocked.results row member).mono grows,
    fun row member => (stocked.metadata row member).mono grows,
    fun row member => (stocked.audits row member).mono grows, stocked.catalogued⟩

/-- What the dispatcher does to the outbox leaves the reports alone. -/
theorem Stocked.setEvents (stocked : Stocked solo drawn calls db) (batch : List Uuid)
    (set : OutboxRow → OutboxRow) (fixed : ∀ row, (set row).id = row.id) :
    Stocked solo drawn calls (db.setEvents batch set fixed) :=
  ⟨stocked.results, stocked.metadata, stocked.audits, stocked.catalogued⟩

/-- A later call draws something else. -/
theorem DrawnBefore.ne {index : Fin 3} {id : Uuid} (before : DrawnBefore solo drawn calls index id)
    (new : solo.New drawn limit) (first : calls ≤ later) (second : later < limit) :
    id ≠ (solo.inputs later).uuid index := by
  rcases before with old | ⟨number, below, rfl⟩
  · rintro rfl
    exact new.new later second index old
  · exact new.distinct index (below.trans_le first) second

/-- There is room for the report of an unfinished job. -/
theorem Stocked.free (stocked : Stocked solo drawn calls db) (new : solo.New drawn limit)
    (first : calls ≤ later) (second : later < limit) {job : JobRow}
    (found : db.job? job.id = some job) (unfinished : job.status ≠ .completed)
    (objectKey : String) :
    FreeFor db (solo.inputs later) job.id objectKey := by
  constructor
  · exact fun row member => (stocked.results row member).ne new first second
  · exact fun row member => (stocked.metadata row member).ne new first second
  · intro row member isJob
    obtain ⟨other, isOther, finished⟩ := stocked.catalogued row member
    rw [isJob, found] at isOther
    cases isOther
    exact absurd finished unfinished
  · exact fun row member => (stocked.audits row member).ne new first second

/-- A completion keeps the stock. -/
theorem Stocked.finished {store : ArtifactStore} {reportId : Uuid} {job : JobRow}
    (stocked : Stocked solo drawn calls db) (grows : calls ≤ later)
    (found : db.job? job.id = some job)
    (finished : Finished store ⟨reportId, solo.inputs later⟩ db job after) :
    Stocked solo drawn (later + 1) after := by
  have own (index : Fin 3) :
      DrawnBefore solo drawn (later + 1) index ((solo.inputs later).uuid index) :=
    .inr ⟨later, Nat.lt_succ_self later, rfl⟩
  have kept {index : Fin 3} {id : Uuid} (before : DrawnBefore solo drawn calls index id) :
      DrawnBefore solo drawn (later + 1) index id :=
    before.mono (grows.trans (Nat.le_succ later))
  have completed : ∀ jobId, db.Completed jobId ∨ jobId = job.id → after.Completed jobId := by
    intro jobId isDone
    have row : ∀ old ∈ db.jobs.rows,
        (if old.id = job.id then finishedRow (solo.inputs later).now old else old) ∈
          after.jobs.rows := by
      intro old member
      rw [finished.jobs]
      exact List.mem_map.mpr ⟨old, member, rfl⟩
    rcases isDone with ⟨old, isOld, status⟩ | rfl
    · obtain ⟨member, rfl⟩ := Database.job?_eq_some.mp isOld
      refine ⟨_, Database.job?_eq_some.mpr ⟨row old member, ?_⟩, ?_⟩
      · split <;> rfl
      · split
        · rfl
        · exact status
    · have isRow := row job (Database.job?_eq_some.mp found).1
      rw [if_pos rfl] at isRow
      exact ⟨_, Database.job?_eq_some.mpr ⟨isRow, rfl⟩, rfl⟩
  constructor
  · intro row member
    rw [finished.jobResults] at member
    rcases mem_upserted member with ⟨old, inTable, sameId⟩ | rfl
    · rw [sameId]
      exact kept (stocked.results old inTable)
    · exact own 0
  · intro row member
    rw [finished.objectMetadata, List.mem_append, List.mem_singleton] at member
    rcases member with old | rfl
    · exact kept (stocked.metadata row old)
    · exact own 1
  · intro row member
    rw [finished.auditEvents, List.mem_append, List.mem_singleton] at member
    rcases member with old | rfl
    · exact kept (stocked.audits row old)
    · exact own 2
  · intro row member
    rw [finished.objectMetadata, List.mem_append, List.mem_singleton] at member
    rcases member with old | rfl
    · exact completed _ (.inl (stocked.catalogued row old))
    · exact completed _ (.inr rfl)

end Invariants

/-! ### Steps on the invariant -/

section Steps

variable {solo : Solo} {claimed : List Uuid} {station : Station}

/-- A claim of waiting events. -/
theorem Tidy.claim (tidy : Tidy solo [] station) {batch : List Uuid} (claimToken : Uuid)
    (now : Time) :
    Tidy solo batch { station with
      db := station.db.setEvents batch (claimEventRow claimToken now) (claimEventRow_id _ _) } := by
  refine ⟨tidy.idle, ?_, ?_, ?_, tidy.named, tidy.below, tidy.same, tidy.within, ?_⟩
  · refine Database.forall_setEvents tidy.written fun event member _ => ?_
    have written := tidy.written event member
    exact ⟨written.eventType, written.version, written.payload⟩
  · exact Database.forall_setEvents tidy.eventJobs fun event member _ => tidy.eventJobs event member
  · intro event member publishing
    obtain ⟨old, inTable, rfl⟩ := Database.mem_setEvents.mp member
    by_cases inBatch : old.id ∈ batch
    · rw [if_pos inBatch]
      exact inBatch
    · rw [if_neg inBatch] at publishing
      exact absurd (tidy.publishing old inTable publishing) List.not_mem_nil
  · intro job member unfinished
    rcases tidy.covered job member unfinished with ⟨event, inTable, waiting, names⟩ | message
    · refine .inl ⟨_, Database.mem_setEvents.mpr ⟨event, inTable, rfl⟩, ?_, ?_⟩
      · split
        · simp [claimEventRow]
        · exact waiting
      · split <;> exact names
    · exact .inr message

/-- A claimed event is sent and marked. -/
theorem Tidy.publish {event : ClaimedEvent} {row : OutboxRow} {rest : List Uuid}
    (tidy : Tidy solo (event.id :: rest) station) (held : Held station.db event row)
    {jobId : Uuid} {correlationId : Json}
    (read : readOutboxPayload row.payload = .ok (jobId, correlationId)) (now : Time) :
    Tidy solo rest { station.enqueue (jobMessage jobId correlationId) with
      db := station.db.setEvents [event.id] (publishEventRow now) (publishEventRow_id _) } := by
  obtain ⟨inTable, sameId⟩ := Database.event?_eq_some.mp held.found
  obtain ⟨named, isJob, rowNames⟩ := tidy.eventJobs row inTable
  obtain rfl := readOutboxPayload_names rowNames read
  have other : ∀ message ∈ station.queue, message.id ≠ station.nextMessage :=
    fun message member => (tidy.below message member).ne
  refine ⟨tidy.idle, ?_, ?_, ?_, ?_, ?_, ?_, ?_, ?_⟩
  · refine Database.forall_setEvents tidy.written fun old member _ => ?_
    have written := tidy.written old member
    exact ⟨written.eventType, written.version, written.payload⟩
  · exact Database.forall_setEvents tidy.eventJobs fun old member _ => tidy.eventJobs old member
  · intro after member publishing
    obtain ⟨old, inOld, rfl⟩ := Database.mem_setEvents.mp member
    by_cases isEvent : old.id ∈ [event.id]
    · rw [if_pos isEvent] at publishing
      cases publishing
    · rw [if_neg isEvent] at publishing ⊢
      refine (List.mem_cons.mp (tidy.publishing old inOld publishing)).resolve_left fun same => ?_
      exact isEvent (List.mem_singleton.mpr same)
  · intro message member
    rcases List.mem_append.mp member with old | new
    · exact tidy.named message old
    · rw [List.mem_singleton.mp new]
      exact ⟨jobId, isJob, names_jobMessage jobId correlationId⟩
  · intro message member
    rcases List.mem_append.mp member with old | new
    · exact (tidy.below message old).trans (Nat.lt_succ_self _)
    · rw [List.mem_singleton.mp new]
      exact Nat.lt_succ_self _
  · intro message member twin twinMember sameMessage
    rcases List.mem_append.mp member with old | new <;>
      rcases List.mem_append.mp twinMember with twinOld | twinNew
    · exact tidy.same message old twin twinOld sameMessage
    · rw [List.mem_singleton.mp twinNew] at sameMessage
      exact absurd sameMessage (other message old)
    · rw [List.mem_singleton.mp new] at sameMessage
      exact absurd sameMessage.symm (other twin twinOld)
    · rw [List.mem_singleton.mp new, List.mem_singleton.mp twinNew]
  · intro message member
    change Function.update station.receives station.nextMessage 0 message.id < _
    rcases List.mem_append.mp member with old | new
    · rw [Function.update_of_ne (other message old)]
      exact tidy.within message old
    · rw [List.mem_singleton.mp new, Function.update_self]
      exact solo.receivable
  · intro job member unfinished
    rcases tidy.covered job member unfinished with ⟨old, inOld, waiting, names⟩ |
      ⟨message, queued, names⟩
    · by_cases same : old.id = event.id
      · obtain rfl : old = row :=
          station.db.jobOutbox.eq_of_key inOld inTable (same.trans sameId.symm)
        refine .inr ⟨_, List.mem_append_right _ List.mem_cons_self, ?_⟩
        rw [names.unique rowNames]
        exact names_jobMessage jobId correlationId
      · refine .inl ⟨old, Database.mem_setEvents.mpr ⟨old, inOld, ?_⟩, waiting, names⟩
        exact (if_neg fun isEvent => same (List.mem_singleton.mp isEvent)).symm
    · exact .inr ⟨message, List.mem_append_left _ queued, names⟩

/-- A message of a job that is completed by now is received and deleted. -/
theorem Tidy.deliver {message : Message} {jobId : Uuid} {desk : Desk}
    (tidy : Tidy solo claimed station) (member : message ∈ station.queue)
    (names : Names message.body jobId) (idle : Idle desk.db)
    (jobOutbox : desk.db.jobOutbox = station.db.jobOutbox)
    (sameJobs : jobIds desk.db = jobIds station.db)
    (old : ∀ job ∈ desk.db.jobs.rows, job.status ≠ .completed → job ∈ station.db.jobs.rows)
    (completed : desk.db.Completed jobId)
    (queue : desk.queue = station.queue.filter fun other => other.id ≠ message.id) :
    Tidy solo claimed ((station.count message).follow desk) := by
  have kept {other : Message} : other ∈ desk.queue ↔
      other ∈ station.queue ∧ other.id ≠ message.id := by
    rw [queue, List.mem_filter, decide_eq_true_iff]
  have ofOutbox {P : OutboxRow → Prop} (all : ∀ event ∈ station.db.jobOutbox.rows, P event) :
      ∀ event ∈ desk.db.jobOutbox.rows, P event := by
    rw [jobOutbox]
    exact all
  refine ⟨idle, ofOutbox tidy.written, ofOutbox ?_, ofOutbox tidy.publishing, ?_, ?_, ?_, ?_, ?_⟩
  · intro event inTable
    change ∃ named ∈ jobIds desk.db, _
    rw [sameJobs]
    exact tidy.eventJobs event inTable
  · intro other isKept
    change ∃ named ∈ jobIds desk.db, _
    rw [sameJobs]
    exact tidy.named other (kept.mp isKept).1
  · exact fun other isKept => tidy.below other (kept.mp isKept).1
  · exact fun other isKept twin twinKept =>
      tidy.same other (kept.mp isKept).1 twin (kept.mp twinKept).1
  · intro other isKept
    change Function.update station.receives message.id _ other.id < _
    rw [Function.update_of_ne (kept.mp isKept).2]
    exact tidy.within other (kept.mp isKept).1
  · intro job isJob unfinished
    rcases tidy.covered job (old job isJob unfinished) unfinished with ⟨event, inTable, rest⟩ |
      ⟨other, queued, otherNames⟩
    · refine .inl ⟨event, ?_, rest⟩
      change event ∈ desk.db.jobOutbox.rows
      rw [jobOutbox]
      exact inTable
    · refine .inr ⟨other, kept.mpr ⟨queued, fun same => ?_⟩, otherNames⟩
      rw [tidy.same other queued message member same] at otherNames
      obtain rfl : job.id = jobId := Except.ok.inj (otherNames.symm.trans names)
      obtain ⟨row, found, finished⟩ := completed
      obtain ⟨inTable, sameId⟩ := Database.job?_eq_some.mp found
      obtain rfl : row = job := desk.db.jobs.eq_of_key inTable isJob sameId
      exact unfinished finished

end Steps

/-! ### A dispatch -/

/-- What calls of the worker leave alone, and how many they are. -/
structure Advance (spent : Nat) (before after : Station) : Prop where
  jobs : jobIds after.db = jobIds before.db
  events : after.db.jobOutbox.rows.map OutboxRow.id = before.db.jobOutbox.rows.map OutboxRow.id
  deadLetters : after.deadLetters = before.deadLetters
  grows : before.calls ≤ after.calls
  spent : after.calls ≤ before.calls + spent

theorem Advance.trans {first second : Nat} {before middle after : Station}
    (one : Advance first before middle) (other : Advance second middle after) :
    Advance (first + second) before after where
  jobs := other.jobs.trans one.jobs
  events := other.events.trans one.events
  deadLetters := other.deadLetters.trans one.deadLetters
  grows := one.grows.trans other.grows
  spent := by
    have early := one.spent
    have late := other.spent
    omega

section Dispatch

variable (solo : Solo) {drawn : List Uuid} {station : Station}

/-- A claimed event is sent and marked published. -/
theorem Solo.meaning_dispatchEvent {event : ClaimedEvent} {row : OutboxRow} (idle : Idle station.db)
    (held : Held station.db event row) (written : row.Written) (dispatched : Nat) :
    ∃ jobId correlationId now calls, readOutboxPayload row.payload = .ok (jobId, correlationId) ∧
      station.calls ≤ calls ∧ calls ≤ station.calls + 5 ∧
      Code.meaning solo.handle (dispatchEvent .sqs dispatched event) station =
        (.ok (dispatched + 1), { station.enqueue (jobMessage jobId correlationId) with
          db := station.db.setEvents [event.id] (publishEventRow now) (publishEventRow_id _)
          calls }) := by
  obtain ⟨jobId, correlationId, isPayload⟩ := written.payload
  have read : readOutboxPayload row.payload = .ok (jobId, correlationJson correlationId) := by
    rw [isPayload, readOutboxPayload_outboxPayload]
  have sameType : event.eventType = "job.created" := by rw [held.read]; exact written.eventType
  have sameVersion : event.version = 1 := by rw [held.read]; exact written.version
  have samePayload : event.payload = row.payload := by rw [held.read]; rfl
  have published : ∀ start : Nat, Code.meaning solo.handle (publishEvent .sqs event dispatched)
      { station with calls := start } =
        (.ok (dispatched + 1), { station.enqueue (jobMessage jobId (correlationJson correlationId))
          with
          db := station.db.setEvents [event.id] (publishEventRow (solo.inputs (start + 2)).now)
            (publishEventRow_id _)
          calls := start + 4 }) := by
    intro start
    let recorded : Station := { station with calls := start + 1 }
    let sent : Station := { recorded.enqueue (jobMessage jobId (correlationJson correlationId)) with
      calls := start + 2 }
    let marked : Station := { sent with
      db := station.db.setEvents [event.id] (publishEventRow (solo.inputs (start + 2)).now)
        (publishEventRow_id _)
      calls := start + 3 }
    have attempt : Code.meaning solo.handle (record .workerOutboxDispatch ["attempt"])
        { station with calls := start } = (.ok (), recorded) :=
      solo.handle_record { station with calls := start } idle _ _
    have send : Code.meaning solo.handle (JobPublisher.sqs.publish
        (some (event.id, event.claimToken)) jobId (correlationJson correlationId)) recorded =
        (.ok (), sent) :=
      solo.handle_send recorded idle _ _
    have mark : Code.meaning solo.handle
        (repository (.markOutboxPublished event.id event.claimToken)) sent = (.ok true, marked) :=
      solo.handle_repository sent idle
        (markOutboxPublished_returns (solo.inputs (start + 2)) held.found held.fence)
    have success : Code.meaning solo.handle (record .workerOutboxDispatch ["success"]) marked =
        (.ok (), { marked with calls := start + 4 }) :=
      solo.handle_record marked idle _ _
    unfold publishEvent
    rw [Code.meaning_bind, attempt]
    simp only [sameType, sameVersion, samePayload, ne_eq, not_true_eq_false, or_self, if_false]
    rw [Code.meaning_bind, Code.meaning_ofExcept, read]
    dsimp only
    rw [Code.meaning_bind, send]
    dsimp only
    rw [Code.meaning_bind, mark]
    dsimp only
    rw [if_pos rfl, Code.meaning_bind, success]
    rfl
  unfold dispatchEvent
  by_cases reclaimed : event.attempts > 1
  · rw [if_pos reclaimed, Code.meaning_bind, solo.handle_record station idle]
    dsimp only
    rw [Code.meaning_tryCatch, published (station.calls + 1)]
    exact ⟨jobId, _, _, station.calls + 1 + 4, read, by omega, by omega, rfl⟩
  · rw [if_neg reclaimed, Code.meaning_tryCatch]
    have ran := published station.calls
    rw [show { station with calls := station.calls } = station from rfl] at ran
    rw [ran]
    exact ⟨jobId, _, _, station.calls + 4, read, by omega, by omega, rfl⟩

/-- Dispatching a claimed event turns it into a message. -/
theorem Tidy.dispatchEvent {event : ClaimedEvent} {row : OutboxRow} {rest : List Uuid}
    (tidy : Tidy solo (event.id :: rest) station)
    (stocked : Stocked solo drawn station.calls station.db) (held : Held station.db event row)
    (dispatched : Nat) :
    ∃ after, Code.meaning solo.handle (dispatchEvent .sqs dispatched event) station =
        (.ok (dispatched + 1), after) ∧
      Tidy solo rest after ∧ Stocked solo drawn after.calls after.db ∧ Advance 5 station after ∧
      workLeft after = workLeft station ∧ after.queue.length = station.queue.length + 1 ∧
      ∀ id, id ≠ event.id → after.db.event? id = station.db.event? id := by
  have written := tidy.written row (Database.event?_eq_some.mp held.found).1
  obtain ⟨jobId, correlationId, now, calls, read, grows, spent, ran⟩ :=
    solo.meaning_dispatchEvent tidy.idle held written dispatched
  refine ⟨_, ran, (tidy.publish held read now).atCall calls,
    (stocked.setEvents _ _ _).mono grows, ⟨rfl, ?_, rfl, grows, spent⟩, ?_, ?_, ?_⟩
  · exact Database.map_setEvents fun _ => rfl
  · have waiting : event.id ∈ unpublished station.db := by
      have holds := held.fence
      simp only [eventFence, Truth.holds_and, Truth.holds_eq_some, Option.some.injEq] at holds
      refine mem_unpublished.mpr ⟨row, held.found, ?_⟩
      rw [holds.1]
      decide
    have fewer := List.length_erase_of_mem waiting
    have some := List.length_pos_of_mem waiting
    unfold workLeft
    change (unpublished _).length + (station.queue ++ [_]).length = _
    rw [(unpublished_publish event.id now).length_eq, fewer, List.length_append,
      List.length_singleton]
    omega
  · change (station.queue ++ [_]).length = _
    rw [List.length_append, List.length_singleton]
  · intro id different
    change (station.db.setEvents _ _ _).event? id = _
    rw [Database.event?_setEvents, if_neg (mt List.mem_singleton.mp different)]

/-- Dispatching a batch turns each of its events into a message. -/
theorem Tidy.dispatchAll {events : List ClaimedEvent}
    (tidy : Tidy solo (events.map ClaimedEvent.id) station)
    (stocked : Stocked solo drawn station.calls station.db)
    (held : ∀ event ∈ events, ∃ row, Held station.db event row)
    (distinct : (events.map ClaimedEvent.id).Nodup) (dispatched : Nat) :
    ∃ total after, Code.meaning solo.handle
        (Code.forEach events dispatched (JobPlatform.Runtime.dispatchEvent .sqs)) station =
          (.ok total, after) ∧
      Tidy solo [] after ∧ Stocked solo drawn after.calls after.db ∧
      Advance (5 * events.length) station after ∧ workLeft after = workLeft station ∧
      after.queue.length = station.queue.length + events.length := by
  induction events generalizing station dispatched with
  | nil => exact ⟨_, _, rfl, tidy, stocked, ⟨rfl, rfl, rfl, le_rfl, le_rfl⟩, rfl, rfl⟩
  | cons event rest inductionHypothesis =>
      obtain ⟨row, isHeld⟩ := held event List.mem_cons_self
      obtain ⟨apart, restDistinct⟩ := List.nodup_cons.mp distinct
      obtain ⟨middle, ran, middleTidy, middleStocked, one, sameWork, longer, others⟩ :=
        tidy.dispatchEvent solo stocked isHeld dispatched
      have restHeld : ∀ other ∈ rest, ∃ row, Held middle.db other row := by
        intro other member
        obtain ⟨otherRow, otherHeld⟩ := held other (List.mem_cons_of_mem _ member)
        have different : other.id ≠ event.id :=
          fun same => apart (same ▸ List.mem_map_of_mem member)
        exact ⟨otherRow, (others _ different).trans otherHeld.found, otherHeld.fence,
          otherHeld.read⟩
      obtain ⟨total, after, restRan, afterTidy, afterStocked, advance, stillSame, queue⟩ :=
        inductionHypothesis middleTidy middleStocked restHeld restDistinct (dispatched + 1)
      have spent : 5 + 5 * rest.length = 5 * (event :: rest).length := by
        rw [List.length_cons]
        omega
      refine ⟨total, after, ?_, afterTidy, afterStocked, spent ▸ one.trans advance,
        stillSame.trans sameWork, ?_⟩
      · unfold Code.forEach
        rw [Code.meaning_bind, ran]
        exact restRan
      · rw [queue, longer, List.length_cons]
        omega

theorem Tidy.mono {claimed larger : List Uuid} (tidy : Tidy solo claimed station)
    (subset : claimed ⊆ larger) : Tidy solo larger station :=
  ⟨tidy.idle, tidy.written, tidy.eventJobs,
    fun event member publishing => subset (tidy.publishing event member publishing), tidy.named,
    tidy.below, tidy.same, tidy.within, tidy.covered⟩

theorem not_published_of_claimable {leaseSeconds : Int} {now : Time} {event : OutboxRow}
    (holds : (eventClaimable leaseSeconds now event).Holds) : event.status ≠ .published := by
  intro published
  simp [eventClaimable, published] at holds

/-- An empty batch leaves no unpublished event. -/
theorem Tidy.unpublished_eq_nil (tidy : Tidy solo [] station) {plan : ClaimPlan} {limit : Nat}
    {leaseSeconds : Int} {now : Time} (unlocked : ∀ id, plan.locked id = false)
    (positive : 0 < limit)
    (empty : claimedIds plan limit leaseSeconds now station.db = []) :
    unpublished station.db = [] := by
  refine List.eq_nil_iff_forall_not_mem.mpr fun eventId member => ?_
  obtain ⟨event, found, waiting⟩ := mem_unpublished.mp member
  have holds : (eventClaimable leaseSeconds now event).Holds := by
    have unclaimed : event.status ≠ .publishing := fun publishing =>
      List.not_mem_nil (tidy.publishing event (Database.event?_eq_some.mp found).1 publishing)
    simp only [eventClaimable, Truth.holds_or, Truth.holds_isIn]
    refine .inl ?_
    cases status : event.status <;> simp_all
  have out : eventId ∉ claimedIds plan limit leaseSeconds now station.db := by
    rw [empty]
    exact List.not_mem_nil
  have full := (full_of_unclaimed unlocked found holds out).1
  rw [empty] at full
  exact absurd full positive.ne

/-- One `dispatch_outbox`: messages take the place of events, and none is left unpublished unless
there is a message. -/
theorem Tidy.dispatchOutbox (tidy : Tidy solo [] station)
    (stocked : Stocked solo drawn station.calls station.db)
    (unlocked : ∀ number id, (solo.inputs number).plan.locked id = false) (leaseSeconds : Int) :
    ∃ total after, Code.meaning solo.handle
        (JobPlatform.Runtime.dispatchOutbox (createJobPublisher true true) 10 leaseSeconds)
          station = (.ok total, after) ∧
      Tidy solo [] after ∧ Stocked solo drawn after.calls after.db ∧ Advance 51 station after ∧
      workLeft after = workLeft station ∧ (after.queue = [] → workLeft after = 0) := by
  let inputs := solo.inputs station.calls
  let batch := claimedIds inputs.plan 10 leaseSeconds inputs.now station.db
  let events := returnedEvents inputs.plan batch (inputs.uuid 0) inputs.now station.db
  let claimed : Station := { station with
    db := station.db.setEvents batch (claimEventRow (inputs.uuid 0) inputs.now)
      (claimEventRow_id _ _)
    calls := station.calls + 1 }
  have claims : Code.meaning solo.handle (repository (.claimOutboxEvents 10 leaseSeconds)) station =
      (.ok events, claimed) :=
    solo.handle_repository station tidy.idle
      (claimOutboxEvents_returns inputs station.db leaseSeconds (by decide))
  have present : ∀ id ∈ batch, ∃ row, station.db.event? id = some row :=
    fun id member => (mem_claimedIds member).imp fun _ holds => holds.1
  have inBatch : ∀ id, id ∈ events.map ClaimedEvent.id ↔ id ∈ batch :=
    fun id => mem_returnedIds _ _ _ present
  have distinct : (events.map ClaimedEvent.id).Nodup := nodup_returnedEvents _ _ _ _
  have most : events.length ≤ 10 := by
    have covered := (List.subperm_of_subset distinct fun id => (inBatch id).mp).length_le
    rw [List.length_map] at covered
    refine covered.trans ?_
    have taken : batch = ((ranked inputs.plan leaseSeconds inputs.now station.db).take 10).map
        OutboxRow.id := claimedIds_unlocked (unlocked station.calls)
    rw [taken, List.length_map]
    exact List.length_take_le _ _
  have claimedTidy : Tidy solo (events.map ClaimedEvent.id) claimed :=
    ((tidy.claim (inputs.uuid 0) inputs.now).atCall _).mono solo fun id => (inBatch id).mpr
  have claimedStocked : Stocked solo drawn claimed.calls claimed.db :=
    (stocked.setEvents _ _ _).mono (Nat.le_succ _)
  obtain ⟨total, after, ran, afterTidy, afterStocked, advance, sameWork, queue⟩ :=
    claimedTidy.dispatchAll solo claimedStocked (held_of_claim _ _ _ _ _) distinct 0
  have stillOpen : (unpublished claimed.db).length = (unpublished station.db).length := by
    refine (unpublished_claim fun event member isClaimed => ?_).length_eq
    obtain ⟨row, found, holds⟩ := mem_claimedIds isClaimed
    obtain ⟨inTable, sameId⟩ := Database.event?_eq_some.mp found
    obtain rfl : row = event := station.db.jobOutbox.eq_of_key inTable member sameId
    exact not_published_of_claimable holds
  have work : workLeft after = workLeft station := by
    rw [sameWork]
    unfold workLeft
    rw [stillOpen]
  refine ⟨total, after, ?_, afterTidy, afterStocked, ?_, work, ?_⟩
  · unfold JobPlatform.Runtime.dispatchOutbox
    rw [Code.meaning_bind, claims]
    exact ran
  · have first : Advance 1 station claimed :=
      ⟨rfl, Database.map_setEvents fun _ => rfl, rfl, Nat.le_succ _, le_rfl⟩
    have both := first.trans advance
    refine ⟨both.jobs, both.events, both.deadLetters, both.grows, both.spent.trans ?_⟩
    omega
  · intro empty
    rw [empty, List.length_nil] at queue
    have noEvents : events = [] := List.length_eq_zero_iff.mp (by omega)
    have noBatch : batch = [] := by
      refine List.eq_nil_iff_forall_not_mem.mpr fun id member => ?_
      have returned := (inBatch id).mpr member
      rw [noEvents] at returned
      exact List.not_mem_nil returned
    have noQueue : station.queue.length = 0 := by
      change 0 = station.queue.length + events.length at queue
      omega
    rw [work]
    unfold workLeft
    rw [tidy.unpublished_eq_nil solo (unlocked station.calls) (by decide) noBatch, noQueue]
    rfl

end Dispatch

/-! ### A message -/

section Consume

variable (solo : Solo) {drawn : List Uuid} {station : Station} (store : ArtifactStore)

/-- The ids of the jobs after a completion. -/
theorem Finished.jobIds {store : ArtifactStore} {draws : ReportDraws} {base after : Database}
    {job : JobRow} (finished : Finished store draws base job after) :
    jobIds after = JobPlatform.Runtime.jobIds base := by
  unfold JobPlatform.Runtime.jobIds
  rw [finished.jobs, List.map_map]
  apply List.map_congr_left
  intro row _
  change (if row.id = job.id then _ else row).id = row.id
  split <;> rfl

/-- A completion adds no unfinished job, and its own is completed. -/
theorem Finished.settled {store : ArtifactStore} {draws : ReportDraws} {base after : Database}
    {job : JobRow} (finished : Finished store draws base job after)
    (member : job ∈ base.jobs.rows) :
    (∀ row ∈ after.jobs.rows, row.status ≠ .completed → row ∈ base.jobs.rows) ∧
      after.Completed job.id := by
  constructor
  · intro row isRow unfinished
    rw [finished.jobs] at isRow
    obtain ⟨old, inTable, rfl⟩ := List.mem_map.mp isRow
    split at unfinished
    next => exact absurd rfl unfinished
    next other =>
      rw [if_neg other]
      exact inTable
  · refine ⟨finishedRow draws.inputs.now job, Database.job?_eq_some.mpr ⟨?_, rfl⟩, rfl⟩
    rw [finished.jobs]
    exact List.mem_map.mpr ⟨job, member, if_pos rfl⟩

/-- One `consume_one_message`: the message it receives is deleted, and its job completed. -/
theorem Tidy.consumeOneMessage (config : ConsumerConfig) (tidy : Tidy solo [] station)
    (stocked : Stocked solo drawn station.calls station.db) {limit : Nat}
    (new : solo.New drawn limit) (room : station.calls + 11 ≤ limit) :
    ∃ result after, Code.meaning solo.handle
        (JobPlatform.Runtime.consumeOneMessage store config) station = (.ok result, after) ∧
      Tidy solo [] after ∧ Stocked solo drawn after.calls after.db ∧ Advance 11 station after ∧
      workLeft after ≤ workLeft station ∧
      (station.queue ≠ [] → workLeft after < workLeft station) := by
  by_cases empty : station.queue = []
  · refine ⟨false, { station with calls := station.calls + 1 }, ?_, tidy.atCall _,
      stocked.mono (Nat.le_succ _), ⟨rfl, rfl, rfl, Nat.le_succ _, by simp⟩, le_rfl,
      fun waiting => absurd empty waiting⟩
    rw [consumeOneMessage_eq, Code.meaning_bind, solo.receives_nothing station tidy.idle empty]
    rfl
  obtain ⟨message, member, isPicked⟩ := solo.picked_eq_some empty
  obtain ⟨jobId, isJob, names⟩ := tidy.named message member
  obtain ⟨job, inTable, rfl⟩ := List.mem_map.mp isJob
  have found : station.db.job? job.id = some job := Database.job?_eq_some.mpr ⟨inTable, rfl⟩
  have fewer : (station.queue.filter fun other => other.id ≠ message.id).length <
      station.queue.length :=
    List.length_filter_lt_length_iff_exists.mpr ⟨message, member, by simp⟩
  let desk : Desk := { station.desk with incoming := [message] }
  have deskIdle : Idle desk.db := tidy.idle
  -- What both kinds of delivery give: the job is completed and the message deleted.
  suffices delivers : ∃ after : Desk, Code.meaning solo.toShift.handle
      (JobPlatform.Runtime.consumeOneMessage store config) desk = (.ok true, after) ∧
        Tidy solo [] ((station.count message).follow after) ∧
        Stocked solo drawn after.calls after.db ∧ jobIds after.db = jobIds station.db ∧
        after.db.jobOutbox = station.db.jobOutbox ∧
        after.queue = station.queue.filter (fun other => other.id ≠ message.id) ∧
        station.calls ≤ after.calls ∧ after.calls ≤ station.calls + 11 by
    obtain ⟨after, ran, afterTidy, afterStocked, jobs, jobOutbox, queue, grows, spent⟩ := delivers
    have less : workLeft ((station.count message).follow after) < workLeft station := by
      unfold workLeft unpublished
      change (List.map _ (List.filter _ after.db.jobOutbox.rows)).length + after.queue.length < _
      rw [jobOutbox, queue]
      exact Nat.add_lt_add_left fewer _
    refine ⟨true, _, consume_delivered solo store config tidy.idle isPicked
      (tidy.within message member) names ran, afterTidy, afterStocked,
      ⟨jobs, ?_, rfl, grows, spent⟩, less.le, fun _ => less⟩
    exact congrArg (fun table : Table OutboxRow => table.rows.map OutboxRow.id) jobOutbox
  by_cases finished : job.status = .completed
  · obtain ⟨after, ran, sameDb, _, queue, _, calls⟩ :=
      deliver_completed solo.toShift store config deskIdle rfl names found finished
    have sameDb : after.db = station.db := sameDb
    have calls : after.calls = station.calls + 6 := calls
    have stockedAfter : Stocked solo drawn after.calls after.db := by
      rw [sameDb, calls]
      exact stocked.mono (Nat.le_add_right _ _)
    refine ⟨after, ran, ?_, stockedAfter, by rw [sameDb], by rw [sameDb], queue, by omega, by omega⟩
    refine tidy.deliver member names ?_ (by rw [sameDb]) (by rw [sameDb]) ?_ ?_ queue
    · rw [sameDb]
      exact tidy.idle
    · rw [sameDb]
      exact fun row isRow _ => isRow
    · rw [sameDb]
      exact ⟨job, found, finished⟩
  · have free := stocked.free new (Nat.le_add_right station.calls 6) (by omega) found finished
      (store.objectKey job.id ((solo.inputs (station.calls + 4)).uuid 0))
    obtain ⟨after, ran, isFinished, _, queue, _, calls⟩ :=
      deliver_open solo.toShift store config deskIdle rfl names found finished free
    have isFinished : Finished store ⟨(solo.inputs (station.calls + 4)).uuid 0,
        solo.inputs (station.calls + 6)⟩ station.db job after.db := isFinished
    have calls : after.calls = station.calls + 11 := calls
    have stockedAfter : Stocked solo drawn after.calls after.db :=
      (stocked.finished (Nat.le_add_right station.calls 6) found isFinished).mono (by omega)
    obtain ⟨old, completed⟩ := isFinished.settled inTable
    refine ⟨after, ran, ?_, stockedAfter, isFinished.jobIds, isFinished.jobOutbox, queue, by omega,
      by omega⟩
    exact tidy.deliver member names (isFinished.idle tidy.idle) isFinished.jobOutbox
      isFinished.jobIds old completed queue

end Consume

/-! ### The loop -/

section Loop

variable (solo : Solo) {drawn : List Uuid} {station : Station} (store : ArtifactStore)
  (config : ConsumerConfig) (outboxClaimLeaseSeconds : Int)

/-- The most calls one round makes: a batch of ten events, and a delivery. -/
def callsPerRound : Nat := 62

/-- A round leaves less work, unless none is left. -/
theorem Tidy.idleRound (tidy : Tidy solo [] station)
    (stocked : Stocked solo drawn station.calls station.db) {limit : Nat}
    (new : solo.New drawn limit) (room : station.calls + callsPerRound ≤ limit)
    (unlocked : ∀ number id, (solo.inputs number).plan.locked id = false) :
    ∃ after, Code.meaning solo.handle
        (JobPlatform.Runtime.idleRound store config outboxClaimLeaseSeconds) station =
          (.ok (), after) ∧
      Tidy solo [] after ∧ Stocked solo drawn after.calls after.db ∧
      Advance callsPerRound station after ∧ workLeft after ≤ workLeft station - 1 := by
  obtain ⟨total, middle, dispatched, middleTidy, middleStocked, first, sameWork, drained⟩ :=
    tidy.dispatchOutbox solo stocked unlocked outboxClaimLeaseSeconds
  have fits : middle.calls + 11 ≤ limit := by
    have spent := first.spent
    unfold callsPerRound at room
    omega
  obtain ⟨result, after, consumed, afterTidy, afterStocked, second, atMost, less⟩ :=
    middleTidy.consumeOneMessage solo store config middleStocked new fits
  refine ⟨after, ?_, afterTidy, afterStocked, first.trans second, ?_⟩
  · unfold JobPlatform.Runtime.idleRound
    rw [Code.meaning_bind, dispatched]
    dsimp only
    rw [Code.meaning_bind, consumed]
    rfl
  · by_cases empty : middle.queue = []
    · have none := drained empty
      omega
    · have fewer := less empty
      omega

/-- A run of the loop leaves so much less work as it has rounds. -/
theorem Tidy.runIdleWorker (rounds : Nat) (tidy : Tidy solo [] station)
    (stocked : Stocked solo drawn station.calls station.db) {limit : Nat}
    (new : solo.New drawn limit) (room : station.calls + callsPerRound * rounds ≤ limit)
    (unlocked : ∀ number id, (solo.inputs number).plan.locked id = false) :
    ∃ after, Code.meaning solo.handle
        (JobPlatform.Runtime.runIdleWorker store config outboxClaimLeaseSeconds rounds) station =
          (.ok (), after) ∧
      Tidy solo [] after ∧ Advance (callsPerRound * rounds) station after ∧
      workLeft after ≤ workLeft station - rounds := by
  induction rounds generalizing station with
  | zero => exact ⟨station, rfl, tidy, ⟨rfl, rfl, rfl, le_rfl, le_rfl⟩, le_rfl⟩
  | succ rounds inductionHypothesis =>
      have total : callsPerRound + callsPerRound * rounds = callsPerRound * (rounds + 1) := by ring
      obtain ⟨middle, ran, middleTidy, middleStocked, first, lessWork⟩ :=
        tidy.idleRound solo store config outboxClaimLeaseSeconds stocked new (by omega) unlocked
      have spent := first.spent
      obtain ⟨after, restRan, afterTidy, rest, stillLess⟩ :=
        inductionHypothesis middleTidy middleStocked (by omega)
      refine ⟨after, ?_, afterTidy, total ▸ first.trans rest, by omega⟩
      unfold JobPlatform.Runtime.runIdleWorker
      rw [Code.meaning_bind, ran]
      exact restRan

end Loop

end JobPlatform.Runtime
