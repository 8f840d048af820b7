import JobPlatform.Runtime.Invariants

/-!
Contract: no accepted job is lost in cloud mode.

Owns the invariant that a published event has been sent, and its consequence: an unfinished job has
an unpublished event, or a message that names it. What makes a sent message count for ever is
`Evolves.recoverable`: only messages of completed jobs are deleted.
-/

namespace JobPlatform.Runtime

open JobPlatform.Foundation JobPlatform.Store
open World

namespace World

variable {w after : World} {jobId : Uuid}

/-- A send of a message that names the job has returned. -/
def SendReturned (w : World) (jobId : Uuid) : Prop :=
  ∃ t origin body, (⟨t, .sendMessage origin body, .ok ()⟩ : LogEntry) ∈ w.log ∧ Names body jobId

theorem SendReturned.evolves (sent : w.SendReturned jobId) (evolves : w.Evolves after) :
    after.SendReturned jobId := by
  obtain ⟨t, origin, body, member, names⟩ := sent
  exact ⟨t, origin, body, evolves.log.subset member, names⟩

/-- Every published event has been sent. -/
def PublishedSent (w : World) : Prop :=
  ∀ {eventId event}, w.db.event? eventId = some event → event.status = .published →
    ∀ {jobId}, event.Names jobId → w.SendReturned jobId

end World

/-- An event becomes published only by its mark. -/
theorem published_of_eventChange {inputs : Inputs} {eventId : Uuid} {call : RepoCall}
    {value : call.Result} {before later : Option OutboxRow}
    (change : EventChange inputs eventId call value before later) {event : OutboxRow}
    (found : later = some event) (published : event.status = .published) :
    ∃ old, before = some old ∧ old.payload = event.payload ∧
      (old.status = .published ∨ ∃ claimToken, call = .markOutboxPublished eventId claimToken) := by
  cases change with
  | same => exact ⟨event, found, rfl, .inl published⟩
  | created =>
      cases found
      cases published
  | claimed =>
      cases found
      cases published
  | published =>
      cases found
      exact ⟨_, rfl, rfl, .inr ⟨_, rfl⟩⟩
  | failed =>
      cases found
      cases published

/-- The payload of an event that names a job is read as that job. -/
theorem readOutboxPayload_names {event : OutboxRow} {jobId named : Uuid} {correlationId : Json}
    (names : event.Names jobId)
    (read : readOutboxPayload event.payload = .ok (named, correlationId)) : named = jobId := by
  unfold OutboxRow.Names OutboxRow.jobId? at names
  unfold readOutboxPayload at read
  split at read
  next fields payload =>
    rw [payload] at names
    dsimp only at names
    rw [names] at read
    simp only [Json.asUuid_str] at read
    cases read
    rfl
  next => cases read

theorem names_congr {event old : OutboxRow} {jobId : Uuid} (same : old.payload = event.payload)
    (names : event.Names jobId) : old.Names jobId := by
  unfold OutboxRow.Names OutboxRow.jobId? at names ⊢
  rwa [same]

/-- Before an event is marked published, a send for its job has returned. -/
theorem sent_of_allowed {w : World} {t : ThreadId} {eventId claimToken jobId : Uuid}
    {event : OutboxRow} (truthful : w.Truthful)
    (allowed : Allowed true t w.log (.repository (.markOutboxPublished eventId claimToken)))
    (found : w.db.event? eventId = some event) (names : event.Names jobId) :
    w.SendReturned jobId := by
  obtain ⟨limit, leaseSeconds, events, claimed, named, correlationId, sub, member, rfl, _, read⟩ :=
    allowed
  have batch : eventsClaimed t limit leaseSeconds events ∈ w.log :=
    sub.subset List.mem_cons_self
  obtain ⟨row, isRow, payload⟩ := truthful _ batch claimed member
  rw [found] at isRow
  cases isRow
  rw [← payload] at read
  have isNamed := readOutboxPayload_names names read
  subst isNamed
  have returned : publishReturned t true claimed named correlationId ∈ w.log :=
    sub.subset (List.mem_cons_of_mem _ List.mem_cons_self)
  exact ⟨t, _, _, returned, names_jobMessage named correlationId⟩

/-- In every reachable state of the platform in cloud mode every published event has been sent. -/
theorem publishedSent_of_reachable {pool : Pool platform World}
    (reached : (jobPlatform true).Reachable World.initial pool) :
    pool.state.Sound ∧ pool.state.PublishedSent := by
  refine sound_invariant ?_ ?_ ?_ reached
  · intro eventId event found
    cases found
  · intro t w done call reply sound allowed performed evolves holds eventId event found published
      jobId names
    refine SendReturned.evolves ?_ evolves
    rcases performed.database with same | ⟨repoCall, inputs, value, rfl, _, effect⟩
    · exact holds (same ▸ found) published names
    · obtain ⟨old, isOld, payload, already | ⟨claimToken, rfl⟩⟩ :=
        published_of_eventChange (eventChange_of_effect effect eventId) found published
      · exact holds isOld already (names_congr payload names)
      · exact sent_of_allowed sound.truthful allowed isOld (names_congr payload names)
  · intro w after same evolves holds eventId event found published jobId names
    exact (holds (same ▸ found) published names).evolves evolves

/-- In every reachable state of the platform in cloud mode: a job that is not completed has an
unpublished event or a message that names it; a message about to be deleted names a completed job;
and a published event has been sent. -/
theorem no_job_lost {pool : Pool platform World}
    (reached : (jobPlatform true).Reachable World.initial pool) :
    (∀ job ∈ pool.state.db.jobs.rows, job.status ≠ .completed →
      ∃ event ∈ pool.state.db.jobOutbox.rows, event.Names job.id ∧
        (event.status ≠ .published ∨
          ∃ m ∈ pool.state.queue ++ pool.state.deadLetters, Names m.body job.id)) ∧
    (∀ t receiptHandle rest,
      pool.threads t = some (.call (.deleteMessage receiptHandle) rest) →
        ∀ m ∈ pool.state.queue, m.id = receiptHandle →
          ∀ jobId, Names m.body jobId → pool.state.db.Completed jobId) ∧
    (∀ event ∈ pool.state.db.jobOutbox.rows, event.status = .published →
      ∀ jobId, event.Names jobId → pool.state.SendReturned jobId) := by
  obtain ⟨sound, sent⟩ := publishedSent_of_reachable reached
  have found : ∀ event ∈ pool.state.db.jobOutbox.rows,
      pool.state.db.event? event.id = some event :=
    fun event member => Database.event?_eq_some.mpr ⟨member, rfl⟩
  refine ⟨?_, ?_, ?_⟩
  · intro job member unfinished
    obtain ⟨event, inOutbox, names⟩ := sound.consistent.aligned.event_of_job member
    refine ⟨event, inOutbox, names, ?_⟩
    by_cases published : event.status = .published
    · obtain ⟨t, origin, body, inLog, bodyNames⟩ := sent (found event inOutbox) published names
      have recoverable : pool.state.Recoverable job.id :=
        sound.truthful _ inLog job.id bodyNames
      rcases recoverable with ⟨other, isOther, finished⟩ | message
      · have same : pool.state.db.job? job.id = some job :=
          Database.job?_eq_some.mpr ⟨member, rfl⟩
        rw [same] at isOther
        cases isOther
        exact absurd finished unfinished
      · exact .inr message
    · exact .inl published
  · intro t receiptHandle rest running m inQueue isHandle jobId names
    exact sound.truthful.settled (allowed_of_reachable reached running)
      (List.mem_append_left _ inQueue) isHandle names
  · intro event inOutbox published jobId names
    exact sent (found event inOutbox) published names

/-- The job of a worker that died has a message, since its event is published. -/
theorem no_job_lost_processing : ∃ pool : Pool platform World,
    (jobPlatform true).Reachable World.initial pool ∧
      (∃ job ∈ pool.state.db.jobs.rows, job.status = .completed) ∧
      ∃ job ∈ pool.state.db.jobs.rows, job.status = .processing ∧
        ∃ m ∈ pool.state.queue ++ pool.state.deadLetters, Names m.body job.id := by
  obtain ⟨pool, reached, completed, ⟨job, member, processing⟩, published⟩ := reachable_processing
  obtain ⟨event, inOutbox, _, waiting | message⟩ :=
    (no_job_lost reached).1 job member (by simp [processing])
  · exact absurd (published event inOutbox) waiting
  · exact ⟨pool, reached, completed, job, member, processing, message⟩

end JobPlatform.Runtime
