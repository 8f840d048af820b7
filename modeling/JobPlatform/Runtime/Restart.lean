import Mathlib.Data.Finset.Order
import Mathlib.Data.Fintype.EquivFin
import JobPlatform.Foundation.Turns
import JobPlatform.Runtime.Drain

/-!
Contract: no reachable state of the platform is a dead end.

Owns:
- `restartedWorker`, one worker among threads that stand still: its calls do not raise, leases have
  run out, and SQS redrives dead letters;
- its turns: a redrive, a `dispatch_outbox`, a `consume_one_message`;
- `every_job_completable`: from every reachable state such a worker can bring all work to its end.

The other threads may hold claims and leases, be stuck in the middle of a call, or be dead.
-/

namespace JobPlatform.Runtime

open JobPlatform.Foundation JobPlatform.Foundation.ThreadSystem JobPlatform.Store
open JobPlatform.Store.Repository

/-- SQS moves a dead letter back to the main queue. -/
def World.redriven (w : World) (message : Message) : World :=
  { w with
    queue := w.queue ++ [message]
    deadLetters := w.deadLetters.filter fun other => other.id ≠ message.id }

/-- What the loop of `run_idle_worker` takes from its settings. -/
structure WorkerSettings where
  store : ArtifactStore
  config : ConsumerConfig
  outboxClaimLeaseSeconds : Int

/-- A worker whose calls do not raise, and the redrive of the dead-letter queue. -/
def restartedWorker (settings : WorkerSettings) : ThreadSystem platform World where
  exec t w call reply after :=
    (∃ value, reply = .ok value) ∧ (jobPlatform true).exec t w call reply after
  start _ w program after := after = w ∧
    (program = Code.task (dispatchOutbox (createJobPublisher true true) 10
        settings.outboxClaimLeaseSeconds) ∨
      program = Code.task (consumeOneMessage settings.store settings.config))
  env w after := ∃ message ∈ w.deadLetters, after = w.redriven message

/-! ### Fresh draws and late times -/

/-- A UUID is a number below `2 ^ 128`. -/
def Uuid.equivFin : Uuid ≃ Fin (2 ^ 128) where
  toFun uuid := ⟨uuid.int, uuid.bounded⟩
  invFun number := ⟨number.val, number.isLt⟩
  left_inv _ := rfl
  right_inv _ := rfl

/-- While there is room, a few new UUIDs can be drawn. -/
theorem exists_fresh (drawn : List Uuid) (count : Nat) (room : drawn.length + count ≤ 2 ^ 128) :
    ∃ draws : Fin count → Uuid, Function.Injective draws ∧ ∀ index, draws index ∉ drawn := by
  classical
  let used : Finset (Fin (2 ^ 128)) := (drawn.map Uuid.equivFin).toFinset
  have few : used.card ≤ drawn.length := by
    simpa using List.toFinset_card_le (drawn.map Uuid.equivFin)
  have free : count ≤ usedᶜ.card := by
    rw [Finset.card_compl, Fintype.card_fin]
    omega
  obtain ⟨chosen, isFree, size⟩ := Finset.exists_subset_card_eq free
  let number := (chosen.equivFinOfCardEq size).symm
  refine ⟨fun index => Uuid.equivFin.symm (number index).val, ?_, fun index member => ?_⟩
  · intro left right same
    exact number.injective (Subtype.ext (Uuid.equivFin.symm.injective same))
  · have isUsed : (number index).val ∈ used := by
      refine List.mem_toFinset.mpr (List.mem_map.mpr ⟨_, member, ?_⟩)
      exact Equiv.apply_symm_apply _ _
    exact Finset.mem_compl.mp (isFree (number index).property) isUsed

/-- While there is room, a transaction can draw what it needs, at any time and with any choices. -/
theorem exists_inputs (drawn : List Uuid) (room : drawn.length + 3 ≤ 2 ^ 128) (now : Time)
    (plan : ClaimPlan) : ∃ inputs : Inputs, inputs.Fresh drawn ∧ inputs.now = now ∧
      inputs.plan = plan := by
  obtain ⟨draws, distinct, new⟩ := exists_fresh drawn 3 room
  exact ⟨⟨draws, now, plan⟩, ⟨distinct, new⟩, rfl, rfl⟩

/-- There is a time at which every lease has run out. -/
theorem exists_late (times : List Time) (leaseSeconds : Int) :
    ∃ now, ∀ time ∈ times, time + interval leaseSeconds < now := by
  obtain ⟨last, bounded⟩ := times.toFinset.exists_le
  refine ⟨last + interval leaseSeconds + 1, fun time member => ?_⟩
  have within : time ≤ last := bounded time (List.mem_toFinset.mpr member)
  exact lt_of_le_of_lt (Int.add_le_add_right within _) (Int.lt_succ _)

/-- No row is locked by another transaction. -/
def unlockedPlan : ClaimPlan := ⟨fun _ => 0, fun _ => false, fun _ => 0⟩

/-! ### Calls -/

section Turns

variable {settings : WorkerSettings} {t : ThreadId} {w : World}

theorem restarted_perform {call : PlatformCall} {value : call.Result} {done : World}
    (performed : w.Perform call (.ok value) done) :
    (restartedWorker settings).Completes t (perform call).run w
      (.ok value) (done.logged t call (.ok value)) :=
  completes_perform ⟨⟨value, rfl⟩, done, performed, rfl⟩

theorem restarted_record (metric : Metric) (labels : List String) :
    (restartedWorker settings).Completes t (record metric labels).run w
      (.ok ()) (w.logged t (.record metric labels) (.ok ())) :=
  restarted_perform .recorded

/-- A method that runs undisturbed. -/
theorem restarted_repository {call : RepoCall} {value : call.Result} {inputs : Inputs}
    {after : Database} (fresh : inputs.Fresh w.drawn)
    (returns : call.run inputs [] w.db = (.ok value, after)) :
    (restartedWorker settings).Completes t (repository call).run w
      (.ok value) (({ w with
        db := after
        drawn := w.drawn ++ List.ofFn inputs.uuid } : World).logged t (.repository call)
          (.ok value)) :=
  restarted_perform (.returned fresh returns)

/-! ### The dispatcher -/

/-- A number of events became messages. Each of them drew three values. -/
structure Shipped (count : Nat) (w after : World) : Prop where
  jobs : after.db.jobs = w.db.jobs
  left : (unpublished after.db).length + count = (unpublished w.db).length
  queued : after.queue.length = w.queue.length + count
  deadLetters : after.deadLetters = w.deadLetters
  drawn : after.drawn.length = w.drawn.length + 3 * count

theorem Shipped.trans {first second : Nat} {middle after : World} (one : Shipped first w middle)
    (other : Shipped second middle after) : Shipped (first + second) w after where
  jobs := other.jobs.trans one.jobs
  left := by
    have early := one.left
    have late := other.left
    omega
  queued := by
    rw [other.queued, one.queued]
    omega
  deadLetters := other.deadLetters.trans one.deadLetters
  drawn := by
    rw [other.drawn, one.drawn]
    omega

variable (settings t)

/-- A claimed event is sent, and marked published. -/
theorem restarted_publishEvent {event : ClaimedEvent} {row : OutboxRow}
    (held : Held w.db event row) (written : row.Written)
    (room : w.drawn.length + 3 ≤ 2 ^ 128) (dispatched : Nat) :
    ∃ now after, (restartedWorker settings).Completes t
        (publishEvent .sqs event dispatched).run w (.ok (dispatched + 1)) after ∧
      after.db = w.db.setEvents [event.id] (publishEventRow now) (publishEventRow_id now) ∧
      after.queue.length = w.queue.length + 1 ∧ after.deadLetters = w.deadLetters ∧
      after.drawn.length = w.drawn.length + 3 := by
  obtain ⟨jobId, correlationId, isPayload⟩ := written.payload
  have read : readOutboxPayload event.payload = .ok (jobId, correlationJson correlationId) := by
    rw [held.read]
    change readOutboxPayload row.payload = _
    rw [isPayload, readOutboxPayload_outboxPayload]
  have supported : ¬ (event.eventType ≠ "job.created" ∨ event.version ≠ 1) := by
    rw [held.read]
    simp [ClaimedEvent.ofRow, written.eventType, written.version]
  obtain ⟨inputs, fresh, _⟩ := exists_inputs w.drawn room 0 unlockedPlan
  refine ⟨inputs.now, ?_⟩
  apply Exists.intro
  constructor
  · unfold publishEvent
    apply completes_bind (restarted_record _ _)
    rw [if_neg supported, read, Code.ofExcept_ok_bind]
    apply completes_bind (restarted_perform (.sent (.ok ())))
    apply completes_bind
    · exact restarted_repository fresh
        (markOutboxPublished_returns inputs held.found held.fence)
    exact completes_bind (restarted_record _ _) completes_pure
  · refine ⟨rfl, List.length_append, rfl, ?_⟩
    change (w.drawn ++ List.ofFn inputs.uuid).length = _
    rw [List.length_append, List.length_ofFn]

/-- Dispatching a claimed event turns it into a message, and leaves the other events alone. -/
theorem restarted_dispatchEvent {event : ClaimedEvent} {row : OutboxRow}
    (held : Held w.db event row) (written : row.Written)
    (room : w.drawn.length + 3 ≤ 2 ^ 128) (dispatched : Nat) :
    ∃ after, (restartedWorker settings).Completes t
        (dispatchEvent .sqs dispatched event).run w (.ok (dispatched + 1)) after ∧
      Shipped 1 w after ∧ ∀ id, id ≠ event.id → after.db.event? id = w.db.event? id := by
  have shipped {before after : World} {now : Time} (db : before.db = w.db)
      (queue : before.queue = w.queue) (deadLetters : before.deadLetters = w.deadLetters)
      (drawn : before.drawn = w.drawn)
      (marked : after.db = before.db.setEvents [event.id] (publishEventRow now)
        (publishEventRow_id now)) (queued : after.queue.length = before.queue.length + 1)
      (dead : after.deadLetters = before.deadLetters)
      (drew : after.drawn.length = before.drawn.length + 3) :
      Shipped 1 w after ∧ ∀ id, id ≠ event.id → after.db.event? id = w.db.event? id := by
    rw [db] at marked
    have waiting : event.id ∈ unpublished w.db := by
      have holds := held.fence
      simp only [eventFence, Truth.holds_and, Truth.holds_eq_some, Option.some.injEq] at holds
      refine mem_unpublished.mpr ⟨row, held.found, ?_⟩
      rw [holds.1]
      decide
    refine ⟨⟨by rw [marked]; rfl, ?_, by rw [queued, queue], dead.trans deadLetters,
      by rw [drew, drawn]⟩, fun id different => ?_⟩
    · rw [marked, (unpublished_publish event.id now).length_eq, List.length_erase_of_mem waiting]
      exact Nat.sub_add_cancel (List.length_pos_of_mem waiting)
    · rw [marked, Database.event?_setEvents, if_neg (mt List.mem_singleton.mp different)]
  unfold dispatchEvent
  by_cases reclaimed : event.attempts > 1
  · let counted := w.logged t (.record .workerOutboxReclaims ["reclaimed"]) (.ok ())
    obtain ⟨now, after, ran, marked, queued, dead, drew⟩ :=
      restarted_publishEvent settings t (w := counted) held written room dispatched
    rw [if_pos reclaimed]
    exact ⟨after, completes_bind (restarted_record _ _) (completes_tryCatch ran),
      shipped rfl rfl rfl rfl marked queued dead drew⟩
  · obtain ⟨now, after, ran, marked, queued, dead, drew⟩ :=
      restarted_publishEvent settings t held written room dispatched
    rw [if_neg reclaimed]
    exact ⟨after, completes_tryCatch ran, shipped rfl rfl rfl rfl marked queued dead drew⟩

/-- Dispatching a batch turns each of its events into a message. -/
theorem restarted_dispatchAll {events : List ClaimedEvent}
    (held : ∀ event ∈ events, ∃ row, Held w.db event row ∧ row.Written)
    (distinct : (events.map ClaimedEvent.id).Nodup)
    (room : w.drawn.length + 3 * events.length ≤ 2 ^ 128) (dispatched : Nat) :
    ∃ total after, (restartedWorker settings).Completes t
        (Code.forEach events dispatched (dispatchEvent .sqs)).run w (.ok total) after ∧
      Shipped events.length w after := by
  induction events generalizing w dispatched with
  | nil => exact ⟨dispatched, w, completes_pure, rfl, rfl, rfl, rfl, rfl⟩
  | cons event rest inductionHypothesis =>
      obtain ⟨row, isHeld, written⟩ := held event List.mem_cons_self
      obtain ⟨apart, restDistinct⟩ := List.nodup_cons.mp distinct
      rw [List.length_cons] at room
      obtain ⟨middle, ran, shipped, others⟩ :=
        restarted_dispatchEvent settings t isHeld written (by omega) dispatched
      have drew := shipped.drawn
      have restHeld : ∀ other ∈ rest, ∃ row, Held middle.db other row ∧ row.Written := by
        intro other member
        obtain ⟨otherRow, otherHeld, otherWritten⟩ := held other (List.mem_cons_of_mem _ member)
        have different : other.id ≠ event.id :=
          fun same => apart (same ▸ List.mem_map_of_mem member)
        exact ⟨otherRow, ⟨(others _ different).trans otherHeld.found, otherHeld.fence,
          otherHeld.read⟩, otherWritten⟩
      obtain ⟨total, after, restRan, restShipped⟩ :=
        inductionHypothesis restHeld restDistinct (by omega) (dispatched + 1)
      have both := shipped.trans restShipped
      rw [Nat.add_comm] at both
      exact ⟨total, after, completes_bind ran restRan, both⟩

/-- One `dispatch_outbox` after all leases turns some events into messages, if any is unpublished. -/
theorem dispatch_turn (shape : w.db.Shape) (written : w.db.Written)
    (waiting : unpublished w.db ≠ [])
    (room : w.drawn.length + 3 + 3 * (unpublished w.db).length ≤ 2 ^ 128) :
    ∃ after count, (restartedWorker settings).Turn t w after ∧ 0 < count ∧
      jobIds after.db = jobIds w.db ∧
      (unpublished after.db).length + count = (unpublished w.db).length ∧
      after.queue.length = w.queue.length + count ∧ after.deadLetters = w.deadLetters ∧
      after.drawn.length = w.drawn.length + 3 + 3 * count := by
  obtain ⟨now, late⟩ := exists_late
    (w.db.jobOutbox.rows.filterMap OutboxRow.lockedAt) settings.outboxClaimLeaseSeconds
  obtain ⟨inputs, fresh, rfl, isPlan⟩ := exists_inputs w.drawn (by omega) now
    unlockedPlan
  have unlocked : ∀ id, inputs.plan.locked id = false := fun id => by rw [isPlan]; rfl
  let batch := claimedIds inputs.plan 10 settings.outboxClaimLeaseSeconds inputs.now w.db
  let events := returnedEvents inputs.plan batch (inputs.uuid 0) inputs.now w.db
  let claimed : World := ({ w with
    db := w.db.setEvents batch (claimEventRow (inputs.uuid 0) inputs.now) (claimEventRow_id _ _)
    drawn := w.drawn ++ List.ofFn inputs.uuid } : World).logged t
      (.repository (.claimOutboxEvents 10 settings.outboxClaimLeaseSeconds)) (.ok events)
  have present : ∀ id ∈ batch, ∃ row, w.db.event? id = some row :=
    fun id member => (mem_claimedIds member).imp fun _ holds => holds.1
  have stillOpen : (unpublished claimed.db).length = (unpublished w.db).length := by
    refine (unpublished_claim fun event member isClaimed => ?_).length_eq
    obtain ⟨row, found, holds⟩ := mem_claimedIds isClaimed
    obtain ⟨inTable, sameId⟩ := Database.event?_eq_some.mp found
    obtain rfl : row = event := w.db.jobOutbox.eq_of_key inTable member sameId
    exact not_published_of_claimable holds
  have nonempty : 0 < events.length := by
    obtain ⟨eventId, member⟩ := List.exists_mem_of_ne_nil _ waiting
    obtain ⟨event, found, isOpen⟩ := mem_unpublished.mp member
    have inTable := (Database.event?_eq_some.mp found).1
    have holds : (eventClaimable settings.outboxClaimLeaseSeconds inputs.now event).Holds := by
      refine (shape.events event inTable).claimable isOpen fun locked isLocked => ?_
      exact late locked (List.mem_filterMap.mpr ⟨event, inTable, isLocked⟩)
    have someId : ∃ id, id ∈ batch := by
      by_cases isBatch : eventId ∈ batch
      · exact ⟨eventId, isBatch⟩
      · have full := (full_of_unclaimed unlocked found holds isBatch).1
        exact List.exists_mem_of_length_pos (by rw [full]; decide)
    obtain ⟨id, inBatch⟩ := someId
    have returned := (mem_returnedIds inputs.plan (inputs.uuid 0) inputs.now present).mpr inBatch
    obtain ⟨event, isReturned, _⟩ := List.mem_map.mp returned
    exact List.length_pos_of_mem isReturned
  have few : events.length ≤ (unpublished w.db).length := by
    have subset : events.map ClaimedEvent.id ⊆ unpublished w.db := by
      intro id member
      obtain ⟨event, found, holds⟩ := mem_claimedIds ((mem_returnedIds _ _ _ present).mp member)
      exact mem_unpublished.mpr ⟨event, found, not_published_of_claimable holds⟩
    have within := (List.subperm_of_subset (nodup_returnedEvents _ _ _ _) subset).length_le
    rwa [List.length_map] at within
  have stillWritten : claimed.db.Written := by
    apply Database.forall_setEvents written
    intro old member _
    have oldWritten := written old member
    exact ⟨oldWritten.eventType, oldWritten.version, oldWritten.payload⟩
  have held : ∀ event ∈ events, ∃ row, Held claimed.db event row ∧ row.Written := by
    intro event member
    obtain ⟨row, isHeld⟩ := held_of_claim _ _ _ _ _ event member
    exact ⟨row, isHeld, stillWritten row (Database.event?_eq_some.mp isHeld.found).1⟩
  have drew : claimed.drawn.length = w.drawn.length + 3 := by
    change (w.drawn ++ List.ofFn inputs.uuid).length = _
    rw [List.length_append, List.length_ofFn]
  obtain ⟨total, after, ran, shipped⟩ := restarted_dispatchAll settings t held
    (nodup_returnedEvents _ _ _ _) (by omega) 0
  have claims : (restartedWorker settings).Completes t
      (repository (.claimOutboxEvents 10 settings.outboxClaimLeaseSeconds)).run w (.ok events)
      claimed :=
    restarted_repository fresh
      (claimOutboxEvents_returns inputs w.db settings.outboxClaimLeaseSeconds (by decide))
  refine ⟨after, events.length, .ran ⟨rfl, .inl rfl⟩
    (completes_task (completes_bind claims ran)), nonempty, ?_, ?_, shipped.queued,
    shipped.deadLetters, by rw [shipped.drawn, drew]⟩
  · exact congrArg (fun jobs : Table JobRow => jobs.rows.map JobRow.id) shipped.jobs
  · rw [shipped.left, stillOpen]

/-! ### The consumer -/

/-- The body of every message in a queue names a job, and rows of reports have drawn ids. -/
structure Consumable (w : World) : Prop where
  shape : w.db.Shape
  reported : w.db.Reported
  recorded : w.Recorded
  named : ∀ message ∈ w.messages, ∃ job ∈ w.db.jobs.rows, Names message.body job.id

/-- Receiving a message that names a job. -/
theorem restarted_receives {message : Message} {jobId : Uuid} (member : message ∈ w.queue)
    (names : Names message.body jobId) :
    (restartedWorker settings).Completes t (tryCatch receiveJob fun _ => pure none).run w
      (.ok (some (jobId, message.id)))
      (w.logged t .receiveMessage (.ok (some ⟨some message.body, message.id⟩))) := by
  have parsed : parseJobMessage (some message.body) = .ok jobId := names
  refine completes_tryCatch (completes_bind (restarted_perform (.received member)) ?_)
  dsimp only
  rw [parsed, Code.ofExcept_ok_bind]
  exact completes_pure

/-- A delivery of a completed job deletes its message. -/
theorem restarted_consume_completed {message : Message} (member : message ∈ w.queue)
    {job : JobRow} (names : Names message.body job.id) (found : w.db.job? job.id = some job)
    (finished : job.status = .completed) (room : w.drawn.length + 6 ≤ 2 ^ 128) :
    ∃ after, (restartedWorker settings).Completes t
        (consumeOneMessage settings.store settings.config).run w (.ok true) after ∧
      after.db = w.db ∧ after.queue = w.queue.filter (fun other => other.id ≠ message.id) ∧
      after.deadLetters = w.deadLetters ∧ after.drawn.length = w.drawn.length + 6 := by
  obtain ⟨first, firstFresh, _⟩ := exists_inputs w.drawn (by omega) 0 unlockedPlan
  obtain ⟨second, secondFresh, _⟩ := exists_inputs (w.drawn ++ List.ofFn first.uuid)
    (by simp; omega) 0 unlockedPlan
  have refused : ∀ row, w.db.job? job.id = some row →
      ¬ (jobClaimable settings.config.processingLeaseSeconds first.now row).Holds := by
    intro row isRow holds
    rw [found] at isRow
    cases isRow
    simp [jobClaimable, finished] at holds
  obtain ⟨view, reads, isJob⟩ := getJob_returns second found
  have seen : view.job.status = .completed := by rw [isJob, finished]
  apply Exists.intro
  constructor
  · unfold consumeOneMessage
    apply completes_bind (restarted_receives settings t member names)
    apply completes_bind
    · unfold claimJob
      apply completes_bind
      · exact restarted_repository firstFresh (markJobProcessing_refuses refused)
      apply completes_bind
      · exact restarted_repository secondFresh reads
      rw [if_pos seen]
      apply completes_bind (restarted_record _ _)
      exact completes_bind (restarted_record _ _) completes_pure
    exact completes_bind (restarted_perform (.deleted (.ok ()))) completes_pure
  · refine ⟨rfl, rfl, rfl, ?_⟩
    change (w.drawn ++ List.ofFn first.uuid ++ List.ofFn second.uuid).length = _
    simp

/-- The contents after a completion under new draws: no report of the job was there. -/
theorem Consumable.free (consumable : Consumable w) {job : JobRow}
    (unfinished : ¬ w.db.Completed job.id) {drawn : List Uuid} (more : w.drawn ⊆ drawn)
    {inputs : Inputs} (fresh : inputs.Fresh drawn) (objectKey : String) :
    FreeFor w.db inputs job.id objectKey where
  result old member same :=
    fresh.new 0 (same ▸ more (consumable.recorded.results old member))
  metadata old member same :=
    fresh.new 1 (same ▸ more (consumable.recorded.metadata old member))
  key old member isJob isKey :=
    ((consumable.reported job.id).2 unfinished).uncatalogued objectKey ⟨old, member, isJob, isKey⟩
  audit old member same :=
    fresh.new 2 (same ▸ more (consumable.recorded.audits old member))

/-- A delivery of an open job after its lease completes it and deletes the message. -/
theorem restarted_consume_open (consumable : Consumable w) {message : Message}
    (member : message ∈ w.queue) {job : JobRow} (names : Names message.body job.id)
    (found : w.db.job? job.id = some job) (unfinished : job.status ≠ .completed)
    (room : w.drawn.length + 7 ≤ 2 ^ 128) :
    ∃ after, (restartedWorker settings).Completes t
        (consumeOneMessage settings.store settings.config).run w (.ok true) after ∧
      jobIds after.db = jobIds w.db ∧ after.db.jobOutbox = w.db.jobOutbox ∧
      after.queue = w.queue.filter (fun other => other.id ≠ message.id) ∧
      after.deadLetters = w.deadLetters ∧ after.drawn.length = w.drawn.length + 7 := by
  obtain ⟨now, late⟩ := exists_late job.processingStartedAt.toList
    settings.config.processingLeaseSeconds
  obtain ⟨first, firstFresh, rfl, _⟩ := exists_inputs w.drawn (by omega) now unlockedPlan
  have drew : (w.drawn ++ List.ofFn first.uuid).length = w.drawn.length + 3 := by simp
  obtain ⟨report, _, newReport⟩ := exists_fresh (w.drawn ++ List.ofFn first.uuid) 1 (by omega)
  obtain ⟨last, lastFresh, _⟩ := exists_inputs (w.drawn ++ List.ofFn first.uuid ++ [report 0])
    (by rw [List.length_append, drew, List.length_singleton]; omega) 0 unlockedPlan
  have claimable : (jobClaimable settings.config.processingLeaseSeconds first.now job).Holds := by
    have shape := consumable.shape.jobs job (Database.job?_eq_some.mp found).1
    exact shape.claimable unfinished fun started isStarted => late started (by simp [isStarted])
  let claimed := w.db.setJob job.id (claimJobRow (first.uuid 0) first.now) (claimJobRow_id _ _)
  have held : claimed.job? job.id = some (claimJobRow (first.uuid 0) first.now job) := by
    simp [claimed, Database.job?_setJob, found]
  have fence : (jobFence (first.uuid 0) (claimJobRow (first.uuid 0) first.now job)).Holds := by
    simp [jobFence, claimJobRow]
  have isOpen : ¬ w.db.Completed job.id := by
    rintro ⟨row, isRow, finished⟩
    rw [found] at isRow
    cases isRow
    exact unfinished finished
  let objectKey := settings.store.objectKey job.id (report 0)
  have free : FreeFor claimed last job.id objectKey := by
    have free := consumable.free isOpen (fun id isDrawn => List.mem_append_left _
      (List.mem_append_left _ isDrawn)) lastFresh objectKey
    exact ⟨free.result, free.metadata, free.key, free.audit⟩
  let rows := reportRows (.ofRow (first.uuid 0) (claimJobRow (first.uuid 0) first.now job))
  obtain ⟨done, returns, completed⟩ := completeJobWithReport_returns
    (reportResult objectKey rows) "text/csv" held fence free
  apply Exists.intro
  constructor
  · unfold consumeOneMessage
    apply completes_bind (restarted_receives settings t member names)
    apply completes_bind
    · unfold claimJob
      apply completes_bind
      · exact restarted_repository firstFresh (markJobProcessing_acquires found claimable)
      exact completes_bind (restarted_record _ _) completes_pure
    unfold consumeClaimed
    apply completes_tryCatch
    apply completes_bind
    · unfold withHeartbeat
      apply completes_bind (restarted_perform .threadStarted)
      apply completes_finally
      · unfold completeClaimedJob
        apply completes_tryCatch
        apply completes_bind
        · unfold ArtifactStore.putCsvReport
          apply completes_bind (restarted_perform (.uuid4 (newReport 0)))
          exact completes_bind (restarted_perform (.stored (.ok ()))) completes_pure
        apply completes_bind
        · exact restarted_repository lastFresh returns
        apply completes_bind (restarted_record _ _)
        exact completes_bind (restarted_record _ _) completes_pure
      · exact restarted_perform .threadStopped
    exact completes_bind (restarted_perform (.deleted (.ok ()))) completes_pure
  · have sameJobs : jobIds done = jobIds w.db := by
      unfold jobIds
      rw [completed.jobs]
      exact (Database.map_setJob (completeJobRow_id last.now)).trans
        (Database.map_setJob (claimJobRow_id (first.uuid 0) first.now))
    refine ⟨sameJobs, completed.jobOutbox, rfl, rfl, ?_⟩
    change (w.drawn ++ List.ofFn first.uuid ++ [report 0] ++ List.ofFn last.uuid).length = _
    simp

/-- One `consume_one_message` after all leases deletes a message. -/
theorem consume_turn (consumable : Consumable w) (waiting : w.queue ≠ [])
    (room : w.drawn.length + 7 ≤ 2 ^ 128) :
    ∃ after, (restartedWorker settings).Turn t w after ∧ jobIds after.db = jobIds w.db ∧
      after.db.jobOutbox = w.db.jobOutbox ∧ after.queue.length < w.queue.length ∧
      after.deadLetters = w.deadLetters ∧ after.drawn.length ≤ w.drawn.length + 7 := by
  obtain ⟨message, member⟩ := List.exists_mem_of_ne_nil _ waiting
  obtain ⟨job, inTable, names⟩ := consumable.named message (List.mem_append_left _ member)
  have found : w.db.job? job.id = some job := Database.job?_eq_some.mpr ⟨inTable, rfl⟩
  have shorter : (w.queue.filter fun other => other.id ≠ message.id).length < w.queue.length :=
    List.length_filter_lt_length_iff_exists.mpr ⟨message, member, by simp⟩
  by_cases finished : job.status = .completed
  · obtain ⟨after, ran, db, queue, deadLetters, drawn⟩ :=
      restarted_consume_completed settings t member names found finished (by omega)
    exact ⟨after, .ran ⟨rfl, .inr rfl⟩ (completes_task ran), by rw [db], by rw [db],
      queue ▸ shorter, deadLetters, by omega⟩
  · obtain ⟨after, ran, jobs, outbox, queue, deadLetters, drawn⟩ :=
      restarted_consume_open settings t consumable member names found finished room
    exact ⟨after, .ran ⟨rfl, .inr rfl⟩ (completes_task ran), jobs, outbox, queue ▸ shorter,
      deadLetters, by omega⟩

end Turns

/-! ### The way out -/

section WayOut

variable {settings : WorkerSettings} {t : ThreadId} {pool : Pool platform World}

/-- The worker is a worker of the platform. -/
theorem step_of_restarted {next : Pool platform World}
    (step : (restartedWorker settings).Step pool next) : (jobPlatform true).Step pool next := by
  refine step.mono (fun called => called.2) ?_ ?_
  · rintro _ _ _ _ ⟨rfl, rfl | rfl⟩
    · exact .dispatchOutbox 10 _
    · exact .consumeOneMessage _ _
  · rintro _ _ ⟨message, member, rfl⟩
    exact .redrive member

theorem reachable_of_turns {after : World}
    (reached : (jobPlatform true).Reachable World.initial pool) (idle : pool.threads t = none)
    (turns : Relation.ReflTransGen ((restartedWorker settings).Turn t) pool.state after) :
    (jobPlatform true).Reachable World.initial ⟨after, pool.threads⟩ :=
  reached.trans ((run_of_turns turns idle).lift id fun _ _ => step_of_restarted)

theorem consumable_of_reachable (reached : (jobPlatform true).Reachable World.initial pool) :
    Consumable pool.state := by
  obtain ⟨sound, _, recorded⟩ := written_of_reachable reached
  refine ⟨sound.consistent.shape, sound.consistent.reported, recorded, fun message member => ?_⟩
  have traced := traced_of_reachable reached
  obtain ⟨u, origin, reply, sent⟩ := traced.queued message member
  obtain ⟨eventId, _, event, _, found, jobId, correlationId, read, isBody⟩ :=
    traced.sent u origin message.body reply sent
  obtain ⟨named, isJob, names⟩ := names_of_aligned sound.consistent.aligned
    (Database.event?_eq_some.mp found).1
  obtain rfl := readOutboxPayload_names names read
  obtain ⟨job, inTable, rfl⟩ := List.mem_map.mp isJob
  refine ⟨job, inTable, ?_⟩
  rw [isBody]
  exact names_jobMessage job.id correlationId

/-- All dead letters are redriven. -/
theorem redrive_all (settings : WorkerSettings) (t : ThreadId) (w : World) :
    ∃ after, Relation.ReflTransGen ((restartedWorker settings).Turn t) w after ∧
      after.db = w.db ∧ after.drawn = w.drawn ∧ after.deadLetters = [] ∧
      after.queue.length ≤ w.messages.length := by
  induction size : w.deadLetters.length using Nat.strong_induction_on generalizing w with
  | _ count inductionHypothesis =>
      cases isDead : w.deadLetters with
      | nil => exact ⟨w, .refl, rfl, rfl, isDead, by simp [World.messages]⟩
      | cons message rest =>
          have member : message ∈ w.deadLetters := by simp [isDead]
          have fewer : (w.redriven message).deadLetters.length < w.deadLetters.length :=
            List.length_filter_lt_length_iff_exists.mpr ⟨message, member, by simp⟩
          obtain ⟨after, turns, db, drawn, empty, queue⟩ :=
            inductionHypothesis _ (size ▸ fewer) (w.redriven message) rfl
          refine ⟨after, .head (.moved ⟨message, member, rfl⟩) turns, db, drawn, empty,
            queue.trans ?_⟩
          have longer : (w.redriven message).queue.length = w.queue.length + 1 :=
            List.length_append
          simp only [World.messages, List.length_append] at *
          omega

variable (settings)

/-- All events are dispatched. -/
theorem dispatch_all (reached : (jobPlatform true).Reachable World.initial pool)
    (idle : pool.threads t = none)
    (room : pool.state.drawn.length + 6 * (unpublished pool.state.db).length ≤ 2 ^ 128) :
    ∃ after, Relation.ReflTransGen ((restartedWorker settings).Turn t) pool.state after ∧
      unpublished after.db = [] ∧ jobIds after.db = jobIds pool.state.db ∧
      after.deadLetters = pool.state.deadLetters ∧
      after.queue.length = pool.state.queue.length + (unpublished pool.state.db).length ∧
      after.drawn.length ≤ pool.state.drawn.length + 6 * (unpublished pool.state.db).length := by
  induction size : (unpublished pool.state.db).length using Nat.strong_induction_on
    generalizing pool with
  | _ count inductionHypothesis =>
      by_cases done : unpublished pool.state.db = []
      · rw [done, List.length_nil] at size
        exact ⟨pool.state, .refl, done, rfl, rfl, by omega, by omega⟩
      · have some := List.length_pos_iff.mpr done
        obtain ⟨middle, batch, turn, positive, jobs, left, queued, dead, drawn⟩ :=
          dispatch_turn settings t (consumable_of_reachable reached).shape
            (written_of_reachable reached).2.1 done (by omega)
        obtain ⟨after, turns, published, sameJobs, sameDead, queue, drew⟩ :=
          inductionHypothesis (unpublished middle.db).length (by omega)
            (reachable_of_turns reached idle (.single turn)) idle (by dsimp only; omega) rfl
        dsimp only at queue drew sameJobs sameDead
        exact ⟨after, .head turn turns, published, sameJobs.trans jobs, sameDead.trans dead,
          by omega, by omega⟩

/-- All messages are consumed. -/
theorem consume_all (reached : (jobPlatform true).Reachable World.initial pool)
    (idle : pool.threads t = none)
    (room : pool.state.drawn.length + 7 * pool.state.queue.length ≤ 2 ^ 128) :
    ∃ after, Relation.ReflTransGen ((restartedWorker settings).Turn t) pool.state after ∧
      after.queue = [] ∧ jobIds after.db = jobIds pool.state.db ∧
      after.db.jobOutbox = pool.state.db.jobOutbox ∧
      after.deadLetters = pool.state.deadLetters := by
  induction size : pool.state.queue.length using Nat.strong_induction_on generalizing pool with
  | _ count inductionHypothesis =>
      by_cases done : pool.state.queue = []
      · exact ⟨pool.state, .refl, done, rfl, rfl, rfl⟩
      · have some := List.length_pos_iff.mpr done
        obtain ⟨middle, turn, jobs, outbox, shorter, dead, drawn⟩ :=
          consume_turn settings t (consumable_of_reachable reached) done (by omega)
        obtain ⟨after, turns, empty, sameJobs, sameOutbox, sameDead⟩ :=
          inductionHypothesis middle.queue.length (size ▸ shorter)
            (reachable_of_turns reached idle (.single turn)) idle (by dsimp only; omega) rfl
        exact ⟨after, .head turn turns, empty, sameJobs.trans jobs, sameOutbox.trans outbox,
          sameDead.trans dead⟩

/-- Where nothing is left to send and no message is left, every job is completed. -/
theorem completed_of_quiet (reached : (jobPlatform true).Reachable World.initial pool)
    (published : unpublished pool.state.db = []) (empty : pool.state.messages = []) :
    ∀ job ∈ pool.state.db.jobs.rows, job.status = .completed := by
  intro job member
  obtain ⟨sound, sent⟩ := publishedSent_of_reachable reached
  obtain ⟨event, inOutbox, names⟩ := sound.consistent.aligned.event_of_job member
  have found : pool.state.db.event? event.id = some event :=
    Database.event?_eq_some.mpr ⟨inOutbox, rfl⟩
  have isPublished : event.status = .published := by
    by_contra waiting
    have isOpen := mem_unpublished.mpr ⟨event, found, waiting⟩
    rw [published] at isOpen
    cases isOpen
  obtain ⟨u, origin, body, inLog, bodyNames⟩ := sent found isPublished names
  have recoverable : pool.state.Recoverable job.id := sound.truthful _ inLog job.id bodyNames
  rcases recoverable with ⟨row, isRow, finished⟩ | ⟨message, inMessages, _⟩
  · have same : pool.state.db.job? job.id = some job :=
      Database.job?_eq_some.mpr ⟨member, rfl⟩
    rw [same] at isRow
    cases isRow
    exact finished
  · rw [empty] at inMessages
    cases inMessages

/-- No reachable state is a dead end. Whatever the other threads hold, and whatever messages are
dead, there is a run in which the dead letters are redriven and a single restarted worker whose calls
do not fail completes every job, publishes every event and empties both queues, while every other
thread stays where it is. The run takes the turns of the worker in an order of its own and reads
`NOW()` when the leases have run out, and there must be UUIDs left for what it draws. -/
theorem every_job_completable (reached : (jobPlatform true).Reachable World.initial pool)
    (room : pool.state.drawn.length + 16 * (pool.state.messages.length +
      (unpublished pool.state.db).length) ≤ 2 ^ 128) :
    ∃ later, Relation.ReflTransGen (restartedWorker settings).Step pool later ∧
      later.threads = pool.threads ∧ jobIds later.state.db = jobIds pool.state.db ∧
      (∀ job ∈ later.state.db.jobs.rows, job.status = .completed) ∧
      (∀ event ∈ later.state.db.jobOutbox.rows, event.status = .published) ∧
      later.state.messages = [] := by
  obtain ⟨t, idle⟩ := exists_idle reached
  obtain ⟨redriven, first, db, drawn, noDead, queue⟩ := redrive_all settings t pool.state
  obtain ⟨sent, second, published, sentJobs, sentDead, sentQueue, sentDrawn⟩ :=
    dispatch_all settings (reachable_of_turns reached idle first) idle
      (by dsimp only; rw [db, drawn]; omega)
  dsimp only at sentQueue sentDrawn sentJobs sentDead
  rw [db] at sentQueue sentDrawn sentJobs
  rw [drawn] at sentDrawn
  have upToSent := first.trans second
  obtain ⟨last, third, empty, lastJobs, lastOutbox, lastDead⟩ :=
    consume_all settings (reachable_of_turns reached idle upToSent) idle
      (by dsimp only; omega)
  dsimp only at lastJobs lastOutbox lastDead
  have whole := upToSent.trans third
  have reachedLast := reachable_of_turns reached idle whole
  have noMessages : last.messages = [] := by
    simp [World.messages, empty, lastDead, sentDead, noDead]
  have allPublished : unpublished last.db = [] := by
    unfold unpublished
    rw [lastOutbox]
    exact published
  refine ⟨⟨last, pool.threads⟩, run_of_turns whole idle, rfl, lastJobs.trans sentJobs,
    completed_of_quiet reachedLast allPublished noMessages, fun event member => ?_, noMessages⟩
  by_contra waiting
  have isOpen := mem_unpublished.mpr
    ⟨event, Database.event?_eq_some.mpr ⟨member, rfl⟩, waiting⟩
  rw [allPublished] at isOpen
  cases isOpen

end WayOut

/-- A worker that died with its claim does not keep its job from completion. -/
theorem every_job_completable_claimed : ∃ pool : Pool platform World,
    (jobPlatform true).Reachable World.initial pool ∧
      (∃ job ∈ pool.state.db.jobs.rows, job.status = .processing) ∧
      ∃ later, Relation.ReflTransGen
          (restartedWorker ⟨⟨"reports"⟩, ⟨120, 60, 30⟩, 120⟩).Step pool later ∧
        later.threads = pool.threads ∧ jobIds later.state.db = jobIds pool.state.db ∧
        (∀ job ∈ later.state.db.jobs.rows, job.status = .completed) ∧
        (∀ event ∈ later.state.db.jobOutbox.rows, event.status = .published) ∧
        later.state.messages = [] := by
  let jobId := (Inputs.numbered 0 0).uuid 0
  have opened : (jobPlatform true).Reachable World.initial _ := .refl
  have created := (opened.start 0 rfl (.createJob "csv_report" (.obj []) none)).call 0 rfl
    ⟨_, .answered (show (Inputs.numbered 0 0).Fresh _ by decide) rfl, rfl⟩
  have claimed := (created.start 1 rfl (.processJob ⟨"reports"⟩ jobId 120)).call 1 rfl
    ⟨_, .answered (show (Inputs.numbered 1 0).Fresh _ by decide) rfl, rfl⟩
  have died := claimed.tail (.stop (t := 1))
  refine ⟨_, died, ⟨_, List.mem_singleton.mpr rfl, rfl⟩, every_job_completable _ died ?_⟩
  change 6 + 16 * (0 + 1) ≤ 2 ^ 128
  norm_num

end JobPlatform.Runtime
