import JobPlatform.Runtime.Redelivery
import JobPlatform.Runtime.Rounds

/-!
Contract: from every reachable state in which nothing is in progress, a worker that is alone and
whose calls do not fail drains the outbox and the queue.

Owns:
- that such a state satisfies the invariants of the rounds;
- `drain`: as many rounds are enough as there are unpublished events and queued messages.
-/

namespace JobPlatform.Runtime

open JobPlatform.Foundation JobPlatform.Store
open JobPlatform.Store.Repository

/-! ### What a reachable state gives -/

section Recorded

variable {inputs : Inputs} {db after : Database}

/-- A report row or an audit after a call was there before, or has an id the call drew. -/
structure RowsFrom (inputs : Inputs) (db after : Database) : Prop where
  results : ∀ row ∈ after.jobResults.rows,
    row ∈ db.jobResults.rows ∨ ∃ index, row.id = inputs.uuid index
  metadata : ∀ row ∈ after.objectMetadata.rows,
    row ∈ db.objectMetadata.rows ∨ ∃ index, row.id = inputs.uuid index
  audits : ∀ row ∈ after.auditEvents.rows,
    row ∈ db.auditEvents.rows ∨ ∃ index, row.id = inputs.uuid index

theorem rowsFrom_of_same (results : after.jobResults = db.jobResults)
    (metadata : after.objectMetadata = db.objectMetadata)
    (audits : after.auditEvents = db.auditEvents) : RowsFrom inputs db after := by
  constructor
  · rw [results]
    exact fun _ member => .inl member
  · rw [metadata]
    exact fun _ member => .inl member
  · rw [audits]
    exact fun _ member => .inl member

/-- A row of a table that got one more is an old one, or the new one. -/
theorem mem_of_append {ρ : Type} {id : ρ → Uuid} {old new : List ρ} {added : ρ}
    (isNew : new = old ++ [added]) (isDrawn : ∃ index, id added = inputs.uuid index) :
    ∀ row ∈ new, row ∈ old ∨ ∃ index, id row = inputs.uuid index := by
  subst isNew
  intro row member
  rcases List.mem_append.mp member with inOld | isAdded
  · exact .inl inOld
  · rw [List.mem_singleton.mp isAdded]
    exact .inr isDrawn

theorem rowsFrom_of_effect {call : RepoCall} {value : call.Result} (reported : db.Reported)
    (effect : Effect inputs db call value after) : RowsFrom inputs db after := by
  cases effect with
  | customerCreated _ audited =>
      exact ⟨fun _ member => .inl member, fun _ member => .inl member,
        mem_of_append (Table.rows_of_insert? audited) ⟨1, rfl⟩⟩
  | jobCreated _ _ audited =>
      exact ⟨fun _ member => .inl member, fun _ member => .inl member,
        mem_of_append (Table.rows_of_insert? audited) ⟨2, rfl⟩⟩
  | eventPublished _ update => cases update <;> exact rowsFrom_of_same rfl rfl rfl
  | eventFailed _ update => cases update <;> exact rowsFrom_of_same rfl rfl rfl
  | jobClaimed _ update => cases update <;> exact rowsFrom_of_same rfl rfl rfl
  | leaseRenewed _ update => cases update <;> exact rowsFrom_of_same rfl rfl rfl
  | jobFailed _ update => cases update <;> exact rowsFrom_of_same rfl rfl rfl
  | jobCompleted found holds completion =>
      have none := (reported _).2 (not_completed_of_fence found holds)
      obtain ⟨results, metadata, audits⟩ := completion.rows none
      exact ⟨mem_of_append results ⟨0, rfl⟩, mem_of_append metadata ⟨1, rfl⟩,
        mem_of_append audits ⟨2, rfl⟩⟩
  | _ => exact rowsFrom_of_same rfl rfl rfl

/-- Report rows and audits have drawn ids. -/
structure World.Recorded (w : World) : Prop where
  results : ∀ row ∈ w.db.jobResults.rows, row.id ∈ w.drawn
  metadata : ∀ row ∈ w.db.objectMetadata.rows, row.id ∈ w.drawn
  audits : ∀ row ∈ w.db.auditEvents.rows, row.id ∈ w.drawn

theorem World.Recorded.perform {w done : World} {call : PlatformCall} {reply : platform.Reply call}
    {t : ThreadId} (recorded : w.Recorded) (reported : w.db.Reported)
    (performed : w.Perform call reply done) : (done.logged t call reply).Recorded := by
  have kept {db : Database} (same : db = w.db) : (∀ row ∈ db.jobResults.rows, row.id ∈ done.drawn) ∧
      (∀ row ∈ db.objectMetadata.rows, row.id ∈ done.drawn) ∧
      ∀ row ∈ db.auditEvents.rows, row.id ∈ done.drawn := by
    subst same
    have grows := performed.drawn_objects.1
    exact ⟨fun row member => grows (recorded.results row member),
      fun row member => grows (recorded.metadata row member),
      fun row member => grows (recorded.audits row member)⟩
  suffices rows : (∀ row ∈ done.db.jobResults.rows, row.id ∈ done.drawn) ∧
      (∀ row ∈ done.db.objectMetadata.rows, row.id ∈ done.drawn) ∧
      ∀ row ∈ done.db.auditEvents.rows, row.id ∈ done.drawn from ⟨rows.1, rows.2.1, rows.2.2⟩
  by_cases same : done.db = w.db
  · exact kept same
  cases call with
  | repository call =>
      obtain ⟨inputs, _, rest, ⟨unchanged, _⟩ | ⟨value, effect, _⟩⟩ := performed.repository_cases
      · exact absurd unchanged same
      have rows := rowsFrom_of_effect reported effect
      have drawn : done.drawn = w.drawn ++ List.ofFn inputs.uuid := congrArg World.drawn rest
      have isDrawn {id : Uuid} (isId : id ∈ w.drawn ∨ ∃ index, id = inputs.uuid index) :
          id ∈ done.drawn := by
        rw [drawn]
        rcases isId with old | ⟨index, rfl⟩
        · exact List.mem_append_left _ old
        · exact List.mem_append_right _ (List.mem_ofFn.mpr ⟨index, rfl⟩)
      exact ⟨fun row member => isDrawn ((rows.results row member).imp_left (recorded.results row)),
        fun row member => isDrawn ((rows.metadata row member).imp_left (recorded.metadata row)),
        fun row member => isDrawn ((rows.audits row member).imp_left (recorded.audits row))⟩
  | _ => cases performed <;> exact absurd rfl same

end Recorded

/-- Every event of a reachable state is as it was written, and its rows have drawn ids. -/
theorem written_of_reachable {pool : Pool platform World}
    (reached : (jobPlatform true).Reachable World.initial pool) :
    pool.state.Sound ∧ pool.state.db.Written ∧ pool.state.Recorded := by
  refine sound_invariant (I := fun w => w.db.Written ∧ w.Recorded) ?_ ?_ ?_ reached
  · refine ⟨Database.written_empty, ?_, ?_, ?_⟩ <;>
      exact fun _ member => absurd member List.not_mem_nil
  · intro t w done call reply sound _ performed _ holds
    exact ⟨performed.keeps Database.Written.effect holds.1,
      holds.2.perform sound.consistent.reported performed⟩
  · intro w after same evolves holds
    refine ⟨same ▸ holds.1, ?_, ?_, ?_⟩
    · exact fun row member => evolves.drawn (holds.2.results row (same ▸ member))
    · exact fun row member => evolves.drawn (holds.2.metadata row (same ▸ member))
    · exact fun row member => evolves.drawn (holds.2.audits row (same ▸ member))

/-- The station of a worker that is alone from now on. `receives` counts the receives so far. -/
def World.station (w : World) (receives : ReceiptHandle → Nat) : Station :=
  ⟨w.db, w.queue, w.deadLetters, w.nextMessage, receives, w.objects, 0⟩

/-- The payload of an event names a job of the database. -/
theorem names_of_aligned {db : Database} (aligned : db.Aligned) {event : OutboxRow}
    (member : event ∈ db.jobOutbox.rows) : ∃ jobId ∈ jobIds db, event.Names jobId := by
  obtain ⟨job, ⟨inTable, names⟩, _⟩ := aligned.bijection.jobOfEvent event member
  exact ⟨job.id, List.mem_map_of_mem inTable, names⟩

/-- A reachable state in which nothing is in progress is tidy. -/
theorem tidy_of_reachable {pool : Pool platform World}
    (reached : (jobPlatform true).Reachable World.initial pool)
    (processing : ∀ job ∈ pool.state.db.jobs.rows, job.status ≠ .processing)
    (publishing : ∀ event ∈ pool.state.db.jobOutbox.rows, event.status ≠ .publishing)
    (deadLetters : pool.state.deadLetters = []) (solo : Solo) {receives : ReceiptHandle → Nat}
    (within : ∀ message ∈ pool.state.queue, receives message.id < solo.maxReceiveCount) :
    Tidy solo [] (pool.state.station receives) := by
  obtain ⟨sound, written, _⟩ := written_of_reachable reached
  have aligned := sound.consistent.aligned
  have numbered := sound.consistent.numbered
  have traced := traced_of_reachable reached
  refine ⟨processing, written, fun event member => names_of_aligned aligned member, ?_, ?_, ?_, ?_,
    within, ?_⟩
  · exact fun event member isPublishing => absurd isPublishing (publishing event member)
  · intro message member
    obtain ⟨t, origin, reply, sent⟩ := traced.queued message (List.mem_append_left _ member)
    obtain ⟨eventId, _, event, _, found, jobId, correlationId, read, isBody⟩ :=
      traced.sent t origin message.body reply sent
    obtain ⟨named, isJob, names⟩ := names_of_aligned aligned
      (Database.event?_eq_some.mp found).1
    obtain rfl := readOutboxPayload_names names read
    refine ⟨jobId, isJob, ?_⟩
    rw [isBody]
    exact names_jobMessage jobId correlationId
  · exact fun message member => numbered.below message (List.mem_append_left _ member)
  · exact fun message member other otherMember => numbered.same message
      (List.mem_append_left _ member) other (List.mem_append_left _ otherMember)
  · intro job member unfinished
    obtain ⟨event, inTable, names, waiting | ⟨message, queued, messageNames⟩⟩ :=
      (no_job_lost reached).1 job member unfinished
    · exact .inl ⟨event, inTable, waiting, names⟩
    · rw [deadLetters, List.append_nil] at queued
      exact .inr ⟨message, queued, messageNames⟩

/-- The report rows of a reachable state. -/
theorem stocked_of_reachable {pool : Pool platform World}
    (reached : (jobPlatform true).Reachable World.initial pool) (solo : Solo) :
    Stocked solo pool.state.drawn 0 pool.state.db := by
  obtain ⟨sound, _, recorded⟩ := written_of_reachable reached
  refine ⟨fun row member => .inl (recorded.results row member),
    fun row member => .inl (recorded.metadata row member),
    fun row member => .inl (recorded.audits row member), ?_⟩
  intro row member
  by_contra unfinished
  have none := (sound.consistent.reported row.jobId).2 unfinished
  exact none.uncatalogued row.objectKey ⟨row, member, rfl, rfl⟩

/-- From every reachable state of the platform in cloud mode in which no job is processed, no event
is being published and no message is dead or at its receive limit: a worker that is alone and whose
calls do not fail completes every job, publishes every event and empties the queue, in as many
rounds as there are unpublished events and queued messages. What `create_job` writes passes the
check of the dispatcher, and what the publisher sends passes that of the consumer, for the same
job. -/
theorem drain (store : ArtifactStore) (config : ConsumerConfig) (outboxClaimLeaseSeconds : Int)
    {pool : Pool platform World} (reached : (jobPlatform true).Reachable World.initial pool)
    (processing : ∀ job ∈ pool.state.db.jobs.rows, job.status ≠ .processing)
    (publishing : ∀ event ∈ pool.state.db.jobOutbox.rows, event.status ≠ .publishing)
    (deadLetters : pool.state.deadLetters = []) (solo : Solo) (receives : ReceiptHandle → Nat)
    (within : ∀ message ∈ pool.state.queue, receives message.id < solo.maxReceiveCount)
    (unlocked : ∀ number id, (solo.inputs number).plan.locked id = false)
    (new : solo.New pool.state.drawn
      (callsPerRound * ((unpublished pool.state.db).length + pool.state.queue.length))) :
    (∃ final, Code.meaning solo.handle
        (runIdleWorker store config outboxClaimLeaseSeconds
          ((unpublished pool.state.db).length + pool.state.queue.length))
        (pool.state.station receives) = (.ok (), final) ∧
      jobIds final.db = jobIds pool.state.db ∧
      (∀ job ∈ final.db.jobs.rows, job.status = .completed) ∧
      final.db.jobOutbox.rows.map OutboxRow.id = pool.state.db.jobOutbox.rows.map OutboxRow.id ∧
      (∀ event ∈ final.db.jobOutbox.rows, event.status = .published) ∧
      final.queue = [] ∧ final.deadLetters = []) ∧
    (∀ jobId correlationId eventId now,
      (newEvent jobId correlationId eventId now).eventType = "job.created" ∧
      (newEvent jobId correlationId eventId now).version = 1 ∧
      readOutboxPayload (newEvent jobId correlationId eventId now).payload =
        .ok (jobId, correlationJson correlationId)) ∧
    ∀ jobId correlationId, parseJobMessage (some (jobMessage jobId correlationId)) = .ok jobId := by
  refine ⟨?_, fun jobId correlationId _ _ => ⟨rfl, rfl,
    readOutboxPayload_outboxPayload jobId correlationId⟩, names_jobMessage⟩
  have tidy := tidy_of_reachable reached processing publishing deadLetters solo within
  have room : (pool.state.station receives).calls + callsPerRound *
      ((unpublished pool.state.db).length + pool.state.queue.length) ≤ callsPerRound *
        ((unpublished pool.state.db).length + pool.state.queue.length) :=
    (Nat.zero_add _).le
  obtain ⟨final, ran, finalTidy, advance, less⟩ := tidy.runIdleWorker solo store config
    outboxClaimLeaseSeconds _ (stocked_of_reachable reached solo) new room unlocked
  have noWork : workLeft final = 0 := by
    change workLeft final ≤ workLeft (pool.state.station receives) -
      workLeft (pool.state.station receives) at less
    omega
  obtain ⟨noEvents, noMessages⟩ := Nat.add_eq_zero_iff.mp noWork
  have noEvents : unpublished final.db = [] := List.length_eq_zero_iff.mp noEvents
  have noMessages : final.queue = [] := List.length_eq_zero_iff.mp noMessages
  have published : ∀ event ∈ final.db.jobOutbox.rows, event.status = .published := by
    intro event member
    by_contra waiting
    have isWaiting : event.id ∈ unpublished final.db :=
      mem_unpublished.mpr ⟨event, Database.event?_eq_some.mpr ⟨member, rfl⟩, waiting⟩
    rw [noEvents] at isWaiting
    exact List.not_mem_nil isWaiting
  refine ⟨final, ran, advance.jobs, ?_, advance.events, published, noMessages,
    advance.deadLetters.trans deadLetters⟩
  intro job member
  by_contra unfinished
  rcases finalTidy.covered job member unfinished with ⟨event, inTable, waiting, _⟩ |
    ⟨message, queued, _⟩
  · exact waiting (published event inTable)
  · rw [noMessages] at queued
    exact List.not_mem_nil queued

/-- A shift with numbered draws, at a queue that gives a message three times at most. -/
def numberedSolo : Solo := ⟨numberedShift, fun _ => 0, 3, by decide⟩

/-- After the first request of the API nothing is in progress. -/
theorem reachable_openStore : ∃ pool : Pool platform World,
    (jobPlatform true).Reachable World.initial pool ∧ pool.state.db = openStore ∧
      pool.state.queue = [] ∧ pool.state.deadLetters = [] ∧
      pool.state.drawn = List.ofFn (Inputs.numbered 0 0).uuid := by
  have fresh : (Inputs.numbered 0 0).Fresh World.initial.drawn := by
    refine ⟨?_, fun _ member => List.not_mem_nil member⟩
    intro left right same
    revert left right
    decide
  have started := ThreadSystem.Reachable.start
    (.refl : (jobPlatform true).Reachable World.initial _) 0 rfl
    (World.Start.createJob "csv_report" (.obj []) none)
  have called := started.call 0 rfl ⟨_, World.Perform.repository fresh [], rfl⟩
  exact ⟨_, called, rfl, rfl, rfl, rfl⟩

theorem numberedSolo_new {limit : Nat} (small : limit ≤ 1000) :
    numberedSolo.New (List.ofFn (Inputs.numbered 0 0).uuid) limit := by
  have value {number : Nat} (bound : number < limit) (index : Fin 3) :
      ((numberedSolo.inputs number).uuid index).int = 3 * (number + 1) + index :=
    numberedShift_value (by omega) index
  constructor
  · intro number bound index member
    obtain ⟨old, isOld⟩ := List.mem_ofFn.mp member
    have equal := congrArg Uuid.int isOld
    rw [value bound] at equal
    change (3 * 0 + old.val) % 2 ^ 128 = _ at equal
    have fits : (3 * 0 + old.val) % 2 ^ 128 = old.val := by
      rw [Nat.mul_zero, Nat.zero_add]
      exact Nat.mod_eq_of_lt (old.isLt.trans (by decide))
    rw [fits] at equal
    omega
  · intro index early late before bound same
    have equal := congrArg Uuid.int same
    rw [value (before.trans bound), value bound] at equal
    omega

theorem drain_openStore : ∃ pool : Pool platform World,
    (jobPlatform true).Reachable World.initial pool ∧ pool.state.db.jobs.rows.length = 1 ∧
      ∃ final, Code.meaning numberedSolo.handle (runIdleWorker ⟨"reports"⟩ ⟨120, 60, 30⟩ 120 1)
          (pool.state.station fun _ => 0) = (.ok (), final) ∧
        (∀ job ∈ final.db.jobs.rows, job.status = .completed) ∧ final.queue = [] := by
  obtain ⟨pool, reached, isStore, queue, deadLetters, drawn⟩ := reachable_openStore
  have processing : ∀ job ∈ pool.state.db.jobs.rows, job.status ≠ .processing := by
    rw [isStore]
    decide
  have publishing : ∀ event ∈ pool.state.db.jobOutbox.rows, event.status ≠ .publishing := by
    rw [isStore]
    decide
  have within : ∀ message ∈ pool.state.queue,
      (fun _ : ReceiptHandle => 0) message.id < numberedSolo.maxReceiveCount := by
    rw [queue]
    exact fun _ member => absurd member List.not_mem_nil
  have one : (unpublished pool.state.db).length + pool.state.queue.length = 1 := by
    rw [isStore, queue]
    decide
  have new : numberedSolo.New pool.state.drawn
      (callsPerRound * ((unpublished pool.state.db).length + pool.state.queue.length)) := by
    rw [one, drawn]
    exact numberedSolo_new (by decide)
  obtain ⟨⟨final, ran, _, completed, _, _, empty, _⟩, _⟩ := drain ⟨"reports"⟩ ⟨120, 60, 30⟩ 120
    reached processing publishing deadLetters numberedSolo (fun _ => 0) within (fun _ _ => rfl) new
  rw [one] at ran
  refine ⟨pool, reached, ?_, final, ran, completed, empty⟩
  rw [isStore]
  rfl

end JobPlatform.Runtime
