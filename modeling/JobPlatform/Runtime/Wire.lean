import JobPlatform.Runtime.Drain
import JobPlatform.Store.JsonRoundTrip

/-!
Contract: job messages as the text that SQS carries.

Owns:
- `parseJobText`, the part of `SqsJobConsumer.receive_job` that reads the text of a body;
- `text_received`: whatever the correlation ids are, every message in flight is printable ASCII, and
  the worker reads from its text the job it was sent for.
-/

namespace JobPlatform.Runtime

open JobPlatform.Foundation JobPlatform.Store

/-- `receive_job` from `json.loads(message["Body"])` on. -/
def parseJobText (F : FloatText) (text : String) : Except Exn Uuid :=
  parseJobMessage (Json.loads F text)

/-- The message of a job has a text, for every correlation id. -/
theorem readable_jobMessage (F : FloatText) (jobId : Uuid) (correlationId : Option String) :
    Json.Readable F (jobMessage jobId (correlationJson correlationId)) := by
  have version : (1 : Int).natAbs < 10 ^ maxStrDigits :=
    Nat.one_lt_pow (by decide) (by decide)
  have base : ∀ field ∈ [("version", Json.int 1), ("event_type", Json.str "job.created"),
      ("job_id", Json.str jobId.str)], Json.Readable F field.2 := by
    intro field member
    simp only [List.mem_cons, List.not_mem_nil, or_false] at member
    rcases member with rfl | rfl | rfl
    · exact .int version
    · exact .str _
    · exact .str _
  have correlation : Json.Readable F (correlationJson correlationId) := by
    unfold correlationJson
    cases requestCorrelation correlationId with
    | none => exact .null
    | some text => exact .str text
  unfold jobMessage
  split
  · refine .obj (by simp) (List.forall_mem_append.mpr ⟨base, ?_⟩)
    exact List.forall_mem_singleton.mpr correlation
  · exact .obj (by simp) base

/-- In every reachable state of the platform in cloud mode: the text of every message that was sent,
is queued or is dead, is printable ASCII and reads as that message, and `receive_job` gets from it a
job of the database. -/
theorem text_received (F : FloatText) {pool : Pool platform World}
    (reached : (jobPlatform true).Reachable World.initial pool) {body : Json}
    (sent : WasSent pool.state.log body ∨ ∃ message ∈ pool.state.messages, message.body = body) :
    (∀ char ∈ (Json.dumps F body).toList, Json.Printable char) ∧
      Json.loads F (Json.dumps F body) = some body ∧
      ∃ job ∈ pool.state.db.jobs.rows, parseJobText F (Json.dumps F body) = .ok job.id := by
  obtain ⟨sound, written, _⟩ := written_of_reachable reached
  have traced := traced_of_reachable reached
  have wasSent : WasSent pool.state.log body := by
    rcases sent with sent | ⟨message, member, rfl⟩
    · exact sent
    · exact traced.queued message member
  obtain ⟨t, origin, reply, inLog⟩ := wasSent
  obtain ⟨eventId, _, event, _, found, jobId, correlationId, read, rfl⟩ :=
    traced.sent t origin body reply inLog
  have member := (Database.event?_eq_some.mp found).1
  -- the payload is the one `create_job` wrote, so the correlation id is a string or absent
  obtain ⟨namedId, requested, isPayload⟩ := (written event member).payload
  rw [isPayload, readOutboxPayload_outboxPayload] at read
  obtain ⟨rfl, rfl⟩ := Prod.mk.inj (Except.ok.inj read)
  obtain ⟨job, ⟨inTable, namesJob⟩, _⟩ := sound.consistent.aligned.bijection.jobOfEvent event member
  have sameJob : job.id = namedId := by
    have names : event.Names namedId := by
      have new := newEvent_names namedId requested eventId 0
      unfold OutboxRow.Names OutboxRow.jobId? at new ⊢
      rw [isPayload]
      exact new
    exact namesJob.unique names
  have readable := readable_jobMessage F namedId requested
  have readBack := Json.loads_dumps readable
  refine ⟨Json.printable_dumps readable, readBack, job, inTable, ?_⟩
  unfold parseJobText
  rw [readBack, sameJob]
  exact names_jobMessage namedId (correlationJson requested)

/-- The text of zero, which is the only float here. -/
def zeroText : FloatText := ⟨fun _ => ['0', '.', '0'], fun _ => 0⟩

/-- A message that was sent is read. -/
theorem text_received_sent : ∃ (pool : Pool platform World) (body : Json),
    (jobPlatform true).Reachable World.initial pool ∧ WasSent pool.state.log body ∧
      Json.loads zeroText (Json.dumps zeroText body) = some body := by
  obtain ⟨pool, reached, t, jobType, payload, job, body, created, u, eventId, claimToken, reply, event,
    sent, found, names⟩ := reachable_sent
  have wasSent : WasSent pool.state.log body := ⟨u, _, reply, sent⟩
  exact ⟨pool, body, reached, wasSent, (text_received zeroText reached (.inl wasSent)).2.1⟩

end JobPlatform.Runtime
