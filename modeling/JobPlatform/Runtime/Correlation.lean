import JobPlatform.Runtime.Recovery

/-!
Contract: what of a request survives the way to the worker: the job id, and the correlation id.

Owns:
- the round trip of the pair through the outbox payload and the message;
- `courier`, the discipline of the senders: what is sent is the message of a claimed event;
- what `receive_job` leaves of the pair, for every message of a job.

Does not own logging: the worker's records get their context from what is recovered here.
-/

namespace JobPlatform.Runtime

open JobPlatform.Foundation JobPlatform.Foundation.ThreadSystem JobPlatform.Store
open JobPlatform.Store.Repository (ClaimedEvent ClaimedJob newJob newEvent outboxPayload)

/-! ### The pair at each hop -/

/-- The non-empty correlation id of a request. -/
def requestCorrelation (correlationId : Option String) : Option String :=
  correlationId.filter (· ≠ "")

/-- The correlation id as a JSON value: what `payload.get("correlation_id")` gives. -/
def correlationJson (correlationId : Option String) : Json :=
  (requestCorrelation correlationId).elim .null .str

/-- What identifies a job in the worker's records. -/
structure JobContext where
  jobId : Uuid
  correlationId : Option String
deriving DecidableEq

/-- What the worker has of a message once `receive_job` returned `(UUID, ReceiptHandle)`. Neither
component is the correlation id, and nothing else reads the message. -/
def jobContext (message : Uuid × ReceiptHandle) : JobContext := ⟨message.1, none⟩

/-- What the consuming worker recovers of a delivery. -/
def recovered (delivery : Delivery) : Except Exn JobContext :=
  (parseJobMessage delivery.body).map fun jobId => jobContext (jobId, delivery.receiptHandle)

@[simp] theorem requestCorrelation_none : requestCorrelation none = none := rfl

@[simp] theorem requestCorrelation_empty : requestCorrelation (some "") = none := rfl

theorem requestCorrelation_some {text : String} (present : text ≠ "") :
    requestCorrelation (some text) = some text := by
  simp [requestCorrelation, Option.filter, present]

/-- The dispatcher reads from the payload the pair the API wrote into it. -/
theorem readOutboxPayload_outboxPayload (jobId : Uuid) (correlationId : Option String) :
    readOutboxPayload (outboxPayload jobId correlationId) =
      .ok (jobId, correlationJson correlationId) := by
  unfold correlationJson
  cases correlationId with
  | none => simp [outboxPayload, readOutboxPayload, Json.field?, getField]
  | some text =>
      by_cases present : text ≠ ""
      · rw [requestCorrelation_some present]
        simp [outboxPayload, readOutboxPayload, Json.field?, getField, present]
      · obtain rfl := not_not.mp present
        simp [outboxPayload, readOutboxPayload, Json.field?, getField]

/-- The message carries the pair. -/
theorem jobMessage_fields (jobId : Uuid) (correlationId : Option String) :
    ∃ fields, jobMessage jobId (correlationJson correlationId) = .obj fields ∧
      Json.field? "job_id" fields = some (.str jobId.str) ∧
      getField "correlation_id" fields = correlationJson correlationId := by
  unfold jobMessage correlationJson
  cases correlationId with
  | none => simp [Json.truthy, Json.field?, getField]
  | some text =>
      by_cases present : text ≠ ""
      · rw [requestCorrelation_some present]
        simp [Json.truthy, Json.field?, getField, present]
      · obtain rfl := not_not.mp present
        simp [Json.truthy, Json.field?, getField]

/-- The worker recovers the job id of a message, and no correlation id. -/
theorem recovered_jobMessage (jobId : Uuid) (correlationId : Json) (receiptHandle : ReceiptHandle) :
    recovered ⟨some (jobMessage jobId correlationId), receiptHandle⟩ = .ok ⟨jobId, none⟩ := by
  have names : parseJobMessage (some (jobMessage jobId correlationId)) = .ok jobId :=
    names_jobMessage jobId correlationId
  unfold recovered
  rw [names]
  rfl

/-! ### What is sent -/

/-- The body is the message of an event, as its payload says. -/
def BodyOf (payload body : Json) : Prop :=
  ∃ jobId correlationId, readOutboxPayload payload = .ok (jobId, correlationId) ∧
    body = jobMessage jobId correlationId

/-- The body is sent for the event with this id. -/
def SentFor (db : Database) (origin : Option (Uuid × Uuid)) (body : Json) : Prop :=
  ∃ eventId claimToken event, origin = some (eventId, claimToken) ∧
    db.event? eventId = some event ∧ BodyOf event.payload body

/-- What a thread may send. -/
def MaySend (w : World) : PlatformCall → Prop
  | .sendMessage origin body => SentFor w.db origin body
  | _ => True

/-- Every event is still there with its payload. -/
def PayloadsKept (w after : World) : Prop :=
  ∀ eventId event, w.db.event? eventId = some event →
    ∃ later, after.db.event? eventId = some later ∧ later.payload = event.payload

section Payloads

variable {w after : World}

theorem PayloadsKept.refl (w : World) : PayloadsKept w w :=
  fun _ event found => ⟨event, found, rfl⟩

theorem PayloadsKept.trans {later : World} (first : PayloadsKept w after)
    (second : PayloadsKept after later) : PayloadsKept w later := by
  intro eventId event found
  obtain ⟨middle, isMiddle, samePayload⟩ := first eventId event found
  obtain ⟨last, isLast, stillSame⟩ := second eventId middle isMiddle
  exact ⟨last, isLast, stillSame.trans samePayload⟩

theorem payloadsKept_of_db (same : after.db = w.db) : PayloadsKept w after :=
  fun _ event found => ⟨event, same ▸ found, rfl⟩

theorem payloadsKept_of_perform {call : PlatformCall} {reply : platform.Reply call}
    (performed : w.Perform call reply after) : PayloadsKept w after := by
  rcases performed.database with same | ⟨_, _, _, _, _, effect⟩
  · exact payloadsKept_of_db same
  · intro eventId event found
    exact World.payload_of_eventChange (eventChange_of_effect effect eventId) found

theorem SentFor.kept {origin : Option (Uuid × Uuid)} {body : Json}
    (sent : SentFor w.db origin body) (kept : PayloadsKept w after) :
    SentFor after.db origin body := by
  obtain ⟨eventId, claimToken, event, isOrigin, found, isBody⟩ := sent
  obtain ⟨later, isLater, same⟩ := kept eventId event found
  exact ⟨eventId, claimToken, later, isOrigin, isLater, same ▸ isBody⟩

end Payloads

/-- The discipline of the senders: only messages of events are sent, and events keep their
payload. -/
def courier : Discipline (jobPlatform true) :=
  .ofOrder (fun _ => True) (fun _ w call => MaySend w call) PayloadsKept PayloadsKept.refl
    PayloadsKept.trans
    (by
      rintro t w call reply after _ _ ⟨done, performed, rfl⟩
      have kept := payloadsKept_of_perform performed
      exact ⟨trivial, kept⟩)
    (fun _ moved => ⟨trivial, payloadsKept_of_db (World.Env.db_eq moved)⟩)

section Programs

/-- A call that is not a send. -/
def Silent (call : PlatformCall) : Prop := ∀ w, MaySend w call

theorem silent_repository (call : RepoCall) : Code.Only Silent (repository call) :=
  Code.only_perform fun _ => trivial

/-- A worker that holds a message sends nothing. -/
theorem silent_of_inner {α : Type} {code : Run α} (inner : Code.Only Inner code) :
    Code.Only Silent code := by
  refine inner.mono fun call holds w => ?_
  cases call with
  | sendMessage => exact holds.elim
  | _ => trivial

theorem consumeOneMessage_silent (store : ArtifactStore) (config : ConsumerConfig) :
    Code.Only Silent (consumeOneMessage store config) := by
  have received : Code.Only Silent receiveJob :=
    receiveJob_only.mono fun call isReceive => isReceive ▸ fun _ => trivial
  unfold consumeOneMessage
  refine (received.tryCatch fun _ => Code.only_pure _).bind fun message => ?_
  match message with
  | none => trivial
  | some (jobId, receiptHandle) =>
      refine (silent_of_inner (claimJob_inner _ _)).bind fun outcome => ?_
      match outcome with
      | .claimed job => exact silent_of_inner (consumeClaimed_inner store config _ _ job)
      | .status .completed => trivial
      | .status .inProgressNotOwned => trivial
      | .status .duplicateCompleted =>
          exact (Code.only_perform fun _ => trivial).bind fun _ => trivial

theorem processJob_silent (store : ArtifactStore) (jobId : Uuid) (leaseSeconds : Int) :
    Code.Only Silent (processJob store jobId leaseSeconds) := by
  unfold processJob
  refine (silent_of_inner (claimJob_inner _ _)).bind fun outcome => ?_
  match outcome with
  | .status status => trivial
  | .claimed job =>
      refine (silent_of_inner (completeClaimedJob_inner store job)).tryCatch fun error => ?_
      cases error with
      | lostJobClaimError => trivial
      | _ => exact (silent_repository _).bind fun _ => trivial

theorem HeartbeatCall.silent (call : PlatformCall) (beats : HeartbeatCall call) : Silent call := by
  intro w
  cases beats <;> trivial

theorem createJob_silent (jobType : String) (payload : PyJson) (correlationId : Option String) :
    Code.Only Silent (ApplicationService.createJob (createJobPublisher true false) jobType payload
      correlationId) := by
  unfold ApplicationService.createJob ApplicationService.insertJob
  refine Code.Only.bind ?_ fun _ => trivial
  refine (silent_repository _).tryCatch fun error => ?_
  cases error with
  | typeError => exact silent_repository _
  | _ => trivial

/-- The call sends nothing but messages of the events. -/
def SendsOf (events : List ClaimedEvent) : PlatformCall → Prop
  | .sendMessage origin body =>
      ∃ event ∈ events, origin = some (event.id, event.claimToken) ∧ BodyOf event.payload body
  | _ => True

/-- A dispatcher sends the message of the event it dispatches. -/
theorem dispatchEvent_sends {events : List ClaimedEvent} {event : ClaimedEvent}
    (member : event ∈ events) (dispatched : Nat) :
    Code.Only (SendsOf events) (dispatchEvent (createJobPublisher true true) dispatched event) := by
  have recorded (metric : Metric) (labels : List String) :
      Code.Only (SendsOf events) (record metric labels) := Code.only_perform trivial
  have published : Code.Only (SendsOf events)
      (publishEvent (createJobPublisher true true) event dispatched) := by
    unfold publishEvent
    refine (recorded _ _).bind fun _ => ?_
    split
    · exact Code.only_throw _
    · cases read : readOutboxPayload event.payload with
      | error error =>
          rw [Code.ofExcept_error_bind]
          exact Code.only_throw _
      | ok pair =>
          obtain ⟨jobId, correlationId⟩ := pair
          rw [Code.ofExcept_ok_bind]
          have sent : Code.Only (SendsOf events) (JobPublisher.sqs.publish
              (some (event.id, event.claimToken)) jobId correlationId) :=
            Code.only_perform ⟨event, member, rfl, jobId, correlationId, read, rfl⟩
          refine sent.bind fun _ => (Code.only_perform trivial).bind fun marked => ?_
          cases marked with
          | true => exact (recorded _ _).bind fun _ => Code.only_pure _
          | false => exact Code.only_pure _
  have caught : Code.Only (SendsOf events)
      (tryCatch (publishEvent (createJobPublisher true true) event dispatched) fun error => do
        record .workerOutboxDispatch ["failure"]
        let _ ← repository (.markOutboxFailed event.id event.claimToken error.typeName)
        return dispatched) :=
    published.tryCatch fun error => (recorded _ _).bind fun _ =>
      (Code.only_perform trivial).bind fun _ => Code.only_pure _
  unfold dispatchEvent
  split
  · exact (recorded _ _).bind fun _ => caught
  · exact caught

theorem courier_own {t : ThreadId} {s after : World} {call : PlatformCall}
    {reply : platform.Reply call} (_ : courier.inv s) (_ : courier.pre t s call)
    (called : (jobPlatform true).exec t s call reply after) : courier.rely t s after := by
  obtain ⟨done, performed, rfl⟩ := called
  have kept := payloadsKept_of_perform performed
  exact kept

theorem safe_of_silent {α : Type} {code : Run α} (silent : Code.Only Silent code) (t : ThreadId)
    (w : World) : courier.Safe t code.task (fun _ _ => True) w :=
  Discipline.Safe.ofOnly (A := fun _ => True) (fun _ _ => trivial) courier_own
    (fun {s} {_} _ _ free => free s) silent.task trivial

/-- A dispatcher sends messages of events of the outbox. -/
theorem dispatchOutbox_safe (limit leaseSeconds : Int) (t : ThreadId) (w : World) :
    courier.Safe t (dispatchOutbox (createJobPublisher true true) limit leaseSeconds).task
      (fun _ _ => True) w := by
  suffices safe : courier.SafeCode t (dispatchOutbox (createJobPublisher true true) limit
      leaseSeconds) (fun _ _ => True) w from Discipline.safe_task safe
  unfold dispatchOutbox
  refine Discipline.safe_bind (Discipline.safe_perform fun before _ _ => ⟨trivial, ?_⟩)
  rintro reply after ⟨done, performed, rfl⟩ _
  cases reply with
  | error error => trivial
  | ok events =>
      obtain ⟨inputs, _, _, effect⟩ := performed.effect
      refine Discipline.Safe.ofOnly (A := fun s : World => ∀ event ∈ events, ∃ row,
        s.db.event? event.id = some row ∧ row.payload = event.payload) ?_ courier_own ?_
        (Code.only_forEach (fun event member => dispatchEvent_sends member) 0)
        (fun event member => World.rows_of_batch effect member)
      · intro s later kept rows event member
        obtain ⟨row, found, same⟩ := rows event member
        obtain ⟨next, isNext, stillSame⟩ := kept event.id row found
        exact ⟨next, isNext, stillSame.trans same⟩
      · intro s call _ rows sends
        cases call with
        | sendMessage origin body =>
            obtain ⟨event, member, isOrigin, isBody⟩ := sends
            obtain ⟨row, found, same⟩ := rows event member
            exact ⟨event.id, event.claimToken, row, isOrigin, found, same ▸ isBody⟩
        | _ => trivial

/-- Every program of the platform in cloud mode sends only messages of events. -/
theorem courier_starts : courier.Starts := by
  intro t w program after _ started
  have started : w.Start true program after := started
  refine ⟨trivial, fun _ _ => ?_, ?_⟩
  · refine payloadsKept_of_db ?_
    cases started <;> rfl
  · cases started with
    | createJob jobType payload correlationId =>
        exact safe_of_silent (createJob_silent jobType payload correlationId) t _
    | createCustomer => exact safe_of_silent (silent_repository _) t _
    | getJob => exact safe_of_silent (silent_repository _) t _
    | dispatchOutbox limit leaseSeconds => exact dispatchOutbox_safe limit leaseSeconds t _
    | consumeOneMessage store config =>
        exact safe_of_silent (consumeOneMessage_silent store config) t _
    | processJob store jobId leaseSeconds =>
        exact safe_of_silent (processJob_silent store jobId leaseSeconds) t _
    | @heartbeat index thread _ _ fuel =>
        exact safe_of_silent
          ((heartbeat_only thread.arguments index fuel).mono HeartbeatCall.silent) t _

end Programs

/-! ### What is received -/

/-- The body was sent. -/
def WasSent (log : List LogEntry) (body : Json) : Prop :=
  ∃ t origin reply, (⟨t, .sendMessage origin body, reply⟩ : LogEntry) ∈ log

/-- What the log and the queues have in common: messages and deliveries were sent, what was sent is
the message of an event, and a created job has an event with its pair. -/
structure Traced (w : World) : Prop where
  queued : ∀ m ∈ w.messages, WasSent w.log m.body
  received : ∀ t delivery, (⟨t, .receiveMessage, .ok (some delivery)⟩ : LogEntry) ∈ w.log →
    ∃ body, delivery.body = some body ∧ WasSent w.log body
  sent : ∀ t origin body reply, (⟨t, .sendMessage origin body, reply⟩ : LogEntry) ∈ w.log →
    SentFor w.db origin body
  created : ∀ t jobType payload correlationId job,
    (⟨t, .repository (.createJob jobType payload correlationId), .ok job⟩ : LogEntry) ∈ w.log →
      ∃ eventId event, w.db.event? eventId = some event ∧
        event.payload = outboxPayload job.id correlationId

section Traced

variable {w after : World}

theorem WasSent.longer {log longer : List LogEntry} {body : Json} (sent : WasSent log body)
    (grows : log ⊆ longer) : WasSent longer body := by
  obtain ⟨t, origin, reply, member⟩ := sent
  exact ⟨t, origin, reply, grows member⟩

theorem traced_initial : Traced World.initial :=
  ⟨fun _ member => absurd member List.not_mem_nil, fun _ _ member => absurd member List.not_mem_nil,
    fun _ _ _ _ member => absurd member List.not_mem_nil,
    fun _ _ _ _ _ member => absurd member List.not_mem_nil⟩

/-- A step without a call. -/
theorem Traced.quiet (traced : Traced w) (log : after.log = w.log) (db : after.db = w.db)
    (messages : ∀ m ∈ after.messages, ∃ old ∈ w.messages, m.body = old.body) : Traced after := by
  constructor
  · intro m member
    obtain ⟨old, inOld, same⟩ := messages m member
    rw [log, same]
    exact traced.queued old inOld
  · rw [log]
    exact traced.received
  · rw [log, db]
    exact traced.sent
  · rw [log, db]
    exact traced.created

/-- A message after a call was there before it, or the call sent it. -/
theorem World.Perform.message_origin {call : PlatformCall} {reply : platform.Reply call}
    (performed : w.Perform call reply after) {m : Message} (member : m ∈ after.messages) :
    m ∈ w.messages ∨ ∃ origin, call = .sendMessage origin m.body := by
  cases performed with
  | sent =>
      rcases World.mem_messages_enqueue.mp member with old | rfl
      · exact .inl old
      · exact .inr ⟨_, rfl⟩
  | deleted =>
      refine .inl ?_
      rcases List.mem_append.mp member with inQueue | inDeadLetters
      · exact List.mem_append_left _ (List.mem_of_mem_filter inQueue)
      · exact List.mem_append_right _ inDeadLetters
  | _ => exact .inl member

/-- Whatever SQS does by itself, a message has the body of an earlier one. -/
theorem World.Env.message_body (moved : w.Env after) {m : Message} (member : m ∈ after.messages) :
    ∃ old ∈ w.messages, m.body = old.body := by
  have same {other : Message} (inQueue : other ∈ w.queue) :
      ∃ old ∈ w.messages, other.body = old.body :=
    ⟨other, List.mem_append_left _ inQueue, rfl⟩
  have sameDead {other : Message} (inDeadLetters : other ∈ w.deadLetters) :
      ∃ old ∈ w.messages, other.body = old.body :=
    ⟨other, List.mem_append_right _ inDeadLetters, rfl⟩
  cases moved with
  | @duplicate original inQueue =>
      rcases World.mem_messages_enqueue.mp member with old | rfl
      · exact ⟨m, old, rfl⟩
      · exact ⟨original, List.mem_append_left _ inQueue, rfl⟩
  | reorder perm =>
      rcases List.mem_append.mp member with inQueue | inDeadLetters
      · exact same (perm.mem_iff.mp inQueue)
      · exact sameDead inDeadLetters
  | deadLetter isQueued =>
      simp only [World.messages, List.mem_append, List.mem_filter, List.mem_singleton] at member
      rcases member with ⟨inQueue, _⟩ | inDeadLetters | rfl
      · exact same inQueue
      · exact sameDead inDeadLetters
      · exact same isQueued
  | redrive isDead =>
      simp only [World.messages, List.mem_append, List.mem_filter, List.mem_singleton] at member
      rcases member with (inQueue | rfl) | ⟨inDeadLetters, _⟩
      · exact same inQueue
      · exact sameDead isDead
      · exact sameDead inDeadLetters

/-- The event of a job that was just created has its pair. -/
theorem payload_of_creation {inputs : Inputs} {db later : Database} {jobType : String}
    {payload : PyJson} {correlationId : Option String} {job : JobRow}
    (effect : Effect inputs db (.createJob jobType payload correlationId) job later) :
    ∃ eventId event, later.event? eventId = some event ∧
      event.payload = outboxPayload job.id correlationId := by
  cases effect with
  | jobCreated _ queued _ =>
      let event := newEvent (inputs.uuid 0) correlationId (inputs.uuid 1) inputs.now
      refine ⟨inputs.uuid 1, event, ?_, rfl⟩
      change Table.find? _ _ = some event
      rw [Table.find?_insert? queued]
      exact if_pos rfl

/-- One more call. -/
theorem Traced.perform (traced : Traced w) {t : ThreadId} {call : PlatformCall}
    {reply : platform.Reply call} (may : MaySend w call) (performed : w.Perform call reply after) :
    Traced (after.logged t call reply) := by
  have kept := payloadsKept_of_perform performed
  have log : (after.logged t call reply).log = w.log ++ [⟨t, call, reply⟩] :=
    congrArg (· ++ _) performed.log_eq
  have grows : w.log ⊆ (after.logged t call reply).log := log ▸ List.subset_append_left _ _
  have own : (⟨t, call, reply⟩ : LogEntry) ∈ (after.logged t call reply).log := log ▸ mem_snoc _ _
  constructor
  · intro m member
    rcases performed.message_origin member with old | ⟨origin, rfl⟩
    · exact (traced.queued m old).longer grows
    · exact ⟨t, origin, reply, own⟩
  · intro u delivery member
    rw [log] at member
    rcases List.mem_append.mp member with old | new
    · obtain ⟨body, isBody, sent⟩ := traced.received u delivery old
      exact ⟨body, isBody, sent.longer grows⟩
    · cases List.mem_singleton.mp new
      cases performed with
      | @received message isQueued =>
          exact ⟨message.body, rfl,
            (traced.queued message (List.mem_append_left _ isQueued)).longer grows⟩
  · intro u origin body sentReply member
    rw [log] at member
    rcases List.mem_append.mp member with old | new
    · exact (traced.sent u origin body sentReply old).kept kept
    · cases List.mem_singleton.mp new
      exact SentFor.kept may kept
  · intro u jobType payload correlationId job member
    rw [log] at member
    rcases List.mem_append.mp member with old | new
    · obtain ⟨eventId, event, found, same⟩ := traced.created u jobType payload correlationId job old
      obtain ⟨later, isLater, stillSame⟩ := kept eventId event found
      exact ⟨eventId, later, isLater, stillSame.trans same⟩
    · cases List.mem_singleton.mp new
      obtain ⟨_, _, _, effect⟩ := performed.effect
      exact payload_of_creation effect

theorem traced_of_reachable {pool : Pool platform World}
    (reached : (jobPlatform true).Reachable World.initial pool) : Traced pool.state := by
  refine Discipline.invariant_of_reachable courier_starts trivial traced_initial ?_ ?_ ?_ reached
  · rintro t w call reply after traced may ⟨done, performed, rfl⟩
    exact traced.perform may performed
  · intro t w program after traced started
    have started : w.Start true program after := started
    have same : after.log = w.log ∧ after.db = w.db ∧ after.messages = w.messages := by
      cases started <;> exact ⟨rfl, rfl, rfl⟩
    obtain ⟨log, db, messages⟩ := same
    exact traced.quiet log db fun m member => ⟨m, messages ▸ member, rfl⟩
  · intro w after traced moved
    have moved : w.Env after := moved
    exact traced.quiet moved.log_eq moved.db_eq fun m member => moved.message_body member

end Traced

/-! ### The pair at the worker -/

/-- The message was sent for the event of the job. -/
def MessageOf (w : World) (jobId : Uuid) (body : Json) : Prop :=
  ∃ t eventId claimToken reply event,
    (⟨t, .sendMessage (some (eventId, claimToken)) body, reply⟩ : LogEntry) ∈ w.log ∧
      w.db.event? eventId = some event ∧ event.Names jobId

/-- A created job and its messages: each carries the pair of the request. -/
theorem body_of_message {pool : Pool platform World}
    (reached : (jobPlatform true).Reachable World.initial pool) {t : ThreadId} {jobType : String}
    {payload : PyJson} {correlationId : Option String} {job : JobRow}
    (created : (⟨t, .repository (.createJob jobType payload correlationId), .ok job⟩ : LogEntry) ∈
      pool.state.log) {body : Json} (isMessage : MessageOf pool.state job.id body) :
    body = jobMessage job.id (correlationJson correlationId) := by
  have traced := traced_of_reachable reached
  have bijection := (sound_of_reachable reached).consistent.aligned.bijection
  obtain ⟨u, eventId, claimToken, reply, event, sent, found, names⟩ := isMessage
  obtain ⟨createdId, own, isOwn, isPayload⟩ := traced.created t jobType payload correlationId job
    created
  have ownNames : own.Names job.id := by
    have new := newEvent_names job.id correlationId createdId 0
    unfold OutboxRow.Names OutboxRow.jobId? at new ⊢
    rw [isPayload]
    exact new
  have member := (Database.event?_eq_some.mp found).1
  obtain ⟨row, ⟨inJobs, namesRow⟩, _⟩ := bijection.jobOfEvent event member
  have sameId : row.id = job.id := namesRow.unique names
  have sameEvent : event = own := (bijection.eventOfJob row inJobs).unique ⟨member, namesRow⟩
    ⟨(Database.event?_eq_some.mp isOwn).1, sameId ▸ ownNames⟩
  obtain ⟨otherId, token, row', isOrigin, isRow, jobId, correlation, read, rfl⟩ :=
    traced.sent u _ body reply sent
  cases isOrigin
  rw [found] at isRow
  cases isRow
  rw [sameEvent, isPayload, readOutboxPayload_outboxPayload] at read
  cases read
  rfl

/-- The program makes one call and, once that returned, another. -/
def Opens {α : Type} (program : Program platform α) (first second : PlatformCall)
    (value : first.Result) : Prop :=
  ∃ rest later, program = .call first rest ∧ rest (.ok value) = .call second later

theorem Opens.bind {α β : Type} {program : Program platform α} {first second : PlatformCall}
    {value : first.Result} (opens : Opens program first second value) (next : α → Program platform β) :
    Opens (program >>= next) first second value := by
  obtain ⟨rest, later, rfl, isSecond⟩ := opens
  refine ⟨_, fun reply => later reply >>= next, rfl, ?_⟩
  show rest (.ok value) >>= next = _
  rw [isSecond]
  rfl

/-- A dispatcher first records its attempt and then sends the message of the event. -/
theorem publishEvent_opens (jobId eventId claimToken : Uuid) (correlationId : Option String) :
    Opens (publishEvent .sqs ⟨eventId, "job.created", 1, outboxPayload jobId correlationId, 1,
      claimToken⟩ 0).run (.record .workerOutboxDispatch ["attempt"])
        (.sendMessage (some (eventId, claimToken))
          (jobMessage jobId (correlationJson correlationId))) () := by
  unfold publishEvent
  rw [readOutboxPayload_outboxPayload]
  exact ⟨_, _, rfl, rfl⟩

/-- A request with a correlation id, and its message. -/
theorem reachable_sent : ∃ pool : Pool platform World,
    (jobPlatform true).Reachable World.initial pool ∧ ∃ t jobType payload job body,
      (⟨t, .repository (.createJob jobType payload (some "request-1")), .ok job⟩ : LogEntry) ∈
        pool.state.log ∧ MessageOf pool.state job.id body := by
  have fresh : (Inputs.numbered 0 0).Fresh World.initial.drawn := by
    refine ⟨?_, fun _ member => List.not_mem_nil member⟩
    intro left right same
    revert left right
    decide
  have started := ThreadSystem.Reachable.start
    (.refl : (jobPlatform true).Reachable World.initial _) 0 rfl
    (World.Start.createJob "csv_report" (.obj []) (some "request-1"))
  have called := started.call 0 rfl ⟨_, World.Perform.repository fresh [], rfl⟩
  have dispatching := called.start 1 rfl (World.Start.dispatchOutbox 10 120)
  have later : (Inputs.numbered 1 0).Fresh (List.ofFn (Inputs.numbered 0 0).uuid) := by
    refine ⟨?_, by decide⟩
    intro left right same
    revert left right
    decide
  have claimed := dispatching.call 1 rfl ⟨_, World.Perform.repository later [], rfl⟩
  let event : ClaimedEvent := ⟨Uuid.ofInt 1, "job.created", 1,
    outboxPayload (Uuid.ofInt 0) (some "request-1"), 1, Uuid.ofInt 3⟩
  have opens : Opens (Code.task (S := platform) (Code.forEach [event] 0 (dispatchEvent .sqs)))
      (.record .workerOutboxDispatch ["attempt"])
      (.sendMessage (some (Uuid.ofInt 1, Uuid.ofInt 3))
        (jobMessage (Uuid.ofInt 0) (correlationJson (some "request-1")))) () :=
    (((publishEvent_opens _ _ _ _).bind _).bind _).bind _
  obtain ⟨rest, last, isFirst, isSecond⟩ := opens
  have recorded := claimed.call 1 (congrArg some isFirst) ⟨_, World.Perform.recorded, rfl⟩
  have sent := recorded.call 1 (congrArg some isSecond) ⟨_, World.Perform.sent (.ok ()), rfl⟩
  refine ⟨_, sent, 0, "csv_report", .obj [], newJob "csv_report" (.obj []) (Uuid.ofInt 0) 0,
    jobMessage (Uuid.ofInt 0) (correlationJson (some "request-1")), .head _, ?_⟩
  have names := newEvent_names (Uuid.ofInt 0) (some "request-1") (Uuid.ofInt 1) 0
  exact ⟨1, Uuid.ofInt 1, Uuid.ofInt 3, .ok (), _, .tail _ (.tail _ (.tail _ (.head _))), rfl, names⟩

/-- In every reachable state of the platform in cloud mode: a message of a created job carries the
job id and the correlation id of the request, every delivery is such a message, and the worker
recovers the pair from it exactly when the request carried no correlation id. `receive_job` returns
the job id and the receipt handle, and drops the correlation id. -/
theorem correlation_recovered_iff {pool : Pool platform World}
    (reached : (jobPlatform true).Reachable World.initial pool) {t : ThreadId} {jobType : String}
    {payload : PyJson} {correlationId : Option String} {job : JobRow}
    (created : (⟨t, .repository (.createJob jobType payload correlationId), .ok job⟩ : LogEntry) ∈
      pool.state.log) :
    (∀ body, MessageOf pool.state job.id body → ∀ receiptHandle,
      recovered ⟨some body, receiptHandle⟩ = .ok ⟨job.id, requestCorrelation correlationId⟩ ↔
        requestCorrelation correlationId = none) ∧
    (∀ body, MessageOf pool.state job.id body → ∃ fields, body = .obj fields ∧
      Json.field? "job_id" fields = some (.str job.id.str) ∧
      getField "correlation_id" fields = correlationJson correlationId) ∧
    ∀ consumer delivery,
      (⟨consumer, .receiveMessage, .ok (some delivery)⟩ : LogEntry) ∈ pool.state.log →
        ∃ body jobId, delivery.body = some body ∧ MessageOf pool.state jobId body ∧
          Names body jobId := by
  refine ⟨?_, ?_, ?_⟩
  · intro body isMessage receiptHandle
    rw [body_of_message reached created isMessage, recovered_jobMessage]
    constructor
    · intro same
      cases requested : requestCorrelation correlationId with
      | none => rfl
      | some text =>
          rw [requested] at same
          cases same
    · intro none
      rw [none]
  · intro body isMessage
    rw [body_of_message reached created isMessage]
    exact jobMessage_fields job.id correlationId
  · intro consumer delivery received
    have traced := traced_of_reachable reached
    obtain ⟨body, isBody, u, origin, reply, sent⟩ := traced.received consumer delivery received
    obtain ⟨eventId, claimToken, event, rfl, found, jobId, correlation, read, rfl⟩ :=
      traced.sent u origin body reply sent
    obtain ⟨row, ⟨_, namesRow⟩, _⟩ := (sound_of_reachable reached).consistent.aligned.bijection.jobOfEvent
      event (Database.event?_eq_some.mp found).1
    have names : event.Names jobId := readOutboxPayload_names namesRow read ▸ namesRow
    exact ⟨_, jobId, isBody, ⟨u, eventId, claimToken, reply, event, sent, found, names⟩,
      names_jobMessage jobId correlation⟩

theorem correlation_recovered_iff_sent : ∃ pool : Pool platform World,
    (jobPlatform true).Reachable World.initial pool ∧ ∃ job body,
      MessageOf pool.state job body ∧ ∀ receiptHandle,
        recovered ⟨some body, receiptHandle⟩ = .ok ⟨job, requestCorrelation (some "request-1")⟩ ↔
          requestCorrelation (some "request-1") = none := by
  obtain ⟨pool, reached, t, jobType, payload, job, body, created, isMessage⟩ := reachable_sent
  exact ⟨pool, reached, job.id, body, isMessage,
    (correlation_recovered_iff reached created).1 body isMessage⟩

/-- A request with a correlation id of which the worker recovers none. -/
theorem correlation_dropped : ∃ pool : Pool platform World,
    (jobPlatform true).Reachable World.initial pool ∧ ∃ t jobType payload job body,
      (⟨t, .repository (.createJob jobType payload (some "request-1")), .ok job⟩ : LogEntry) ∈
        pool.state.log ∧ MessageOf pool.state job.id body ∧ ∀ receiptHandle,
          recovered ⟨some body, receiptHandle⟩ ≠
            .ok ⟨job.id, requestCorrelation (some "request-1")⟩ := by
  obtain ⟨pool, reached, t, jobType, payload, job, body, created, isMessage⟩ := reachable_sent
  refine ⟨pool, reached, t, jobType, payload, job, body, created, isMessage, ?_⟩
  intro receiptHandle
  rw [body_of_message reached created isMessage, recovered_jobMessage]
  simp [requestCorrelation, Option.filter]

end JobPlatform.Runtime
