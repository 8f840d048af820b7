import JobPlatform.Runtime.Protocol

/-!
Contract: what every step of the platform keeps.

Owns:
- the inversion of `Perform` for repository calls and for messages;
- `Consistent`, the invariants of the database and the queues that need no argument about the
  programs;
- `Evolves`, what is never undone, and `Truthful`: what the log says of the past still holds;
- `step_of_perform`, the rule for what every step keeps, and `sound_invariant`, the rule for
  invariants of every reachable state.
-/

namespace JobPlatform.Runtime

open JobPlatform.Foundation JobPlatform.Store
open JobPlatform.Store.Repository (ClaimedJob ClaimedEvent JobView)

namespace World

variable {w after : World}

/-! ### Repository calls -/

/-- What a repository call did to the world: nothing but an error, or its effect, of which the
caller may or may not hear. -/
theorem Perform.repository_cases {call : RepoCall} {reply : platform.Reply (.repository call)}
    (performed : w.Perform (.repository call) reply after) :
    ∃ inputs : Inputs, inputs.Fresh w.drawn ∧
      after = { w with db := after.db, drawn := w.drawn ++ List.ofFn inputs.uuid } ∧
      ((after.db = w.db ∧ ∃ error, reply = .error error) ∨
        ∃ value, Effect inputs w.db call value after.db ∧
          (reply = .ok value ∨ ∃ error, reply = .error error)) := by
  cases performed with
  | @repository _ inputs fresh faults =>
      refine ⟨inputs, fresh, rfl, ?_⟩
      rcases Request.outcome ⟨call, inputs, faults⟩ w.db with
        ⟨error, raised, unchanged⟩ | ⟨value, returned, effect⟩
      · exact .inl ⟨unchanged, error, raised⟩
      · exact .inr ⟨value, effect, .inl returned⟩
  | @unanswered _ inputs fresh faults error =>
      refine ⟨inputs, fresh, rfl, ?_⟩
      rcases Request.outcome ⟨call, inputs, faults⟩ w.db with
        ⟨_, _, unchanged⟩ | ⟨value, _, effect⟩
      · exact .inl ⟨unchanged, error, rfl⟩
      · exact .inr ⟨value, effect, .inr ⟨error, rfl⟩⟩

/-- A repository call that returned had its effect. -/
theorem Perform.effect {call : RepoCall} {value : call.Result}
    (performed : w.Perform (.repository call) (.ok value) after) :
    ∃ inputs : Inputs, inputs.Fresh w.drawn ∧
      after = { w with db := after.db, drawn := w.drawn ++ List.ofFn inputs.uuid } ∧
      Effect inputs w.db call value after.db := by
  obtain ⟨inputs, fresh, rest, outcome⟩ := performed.repository_cases
  refine ⟨inputs, fresh, rest, ?_⟩
  rcases outcome with ⟨_, error, isError⟩ | ⟨done, effect, isValue | ⟨error, isError⟩⟩
  · cases isError
  · cases isValue
    exact effect
  · cases isError

/-- Only repository calls change the database. -/
theorem Perform.database {call : PlatformCall} {reply : platform.Reply call}
    (performed : w.Perform call reply after) :
    after.db = w.db ∨ ∃ (repoCall : RepoCall) (inputs : Inputs) (value : repoCall.Result),
      call = .repository repoCall ∧ inputs.Fresh w.drawn ∧
        Effect inputs w.db repoCall value after.db := by
  cases call with
  | repository repoCall =>
      obtain ⟨inputs, fresh, _, ⟨same, _⟩ | ⟨value, effect, _⟩⟩ := performed.repository_cases
      · exact .inl same
      · exact .inr ⟨repoCall, inputs, value, rfl, fresh, effect⟩
  | _ => cases performed <;> exact .inl rfl

/-- A database invariant every effect keeps is kept by every call. -/
theorem Perform.keeps {P : Database → Prop} {call : PlatformCall} {reply : platform.Reply call}
    (performed : w.Perform call reply after)
    (keeps : ∀ {inputs contents call value later}, P contents →
      Effect inputs contents call value later → P later) (holds : P w.db) : P after.db := by
  rcases performed.database with same | ⟨_, _, _, _, _, effect⟩
  · rw [same]
    exact holds
  · exact keeps holds effect

/-! ### Messages -/

/-- Message ids are handed out in order and name one message each. -/
structure Numbered (w : World) : Prop where
  below : ∀ m ∈ w.messages, m.id < w.nextMessage
  same : ∀ m ∈ w.messages, ∀ other ∈ w.messages, m.id = other.id → m = other

/-- The messages of a world are those of an earlier one, except for at most one new message. -/
def MessagesFrom (w after : World) : Prop :=
  (after.nextMessage = w.nextMessage ∧ ∀ m ∈ after.messages, m ∈ w.messages) ∨
    ∃ body, after.nextMessage = w.nextMessage + 1 ∧
      ∀ m ∈ after.messages, m ∈ w.messages ∨ m = ⟨w.nextMessage, body⟩

theorem mem_messages_enqueue {body : Json} {m : Message} :
    m ∈ (w.enqueue body).messages ↔ m ∈ w.messages ∨ m = ⟨w.nextMessage, body⟩ := by
  simp only [messages, enqueue, List.mem_append, List.mem_singleton]
  tauto

theorem messagesFrom_enqueue (body : Json) : w.MessagesFrom (w.enqueue body) :=
  .inr ⟨body, rfl, fun _ member => mem_messages_enqueue.mp member⟩

theorem Perform.messagesFrom {call : PlatformCall} {reply : platform.Reply call}
    (performed : w.Perform call reply after) : w.MessagesFrom after := by
  cases performed with
  | sent => exact messagesFrom_enqueue _
  | deleted =>
      refine .inl ⟨rfl, fun m member => ?_⟩
      rcases List.mem_append.mp member with inQueue | inDeadLetters
      · exact List.mem_append_left _ (List.mem_of_mem_filter inQueue)
      · exact List.mem_append_right _ inDeadLetters
  | _ => exact .inl ⟨rfl, fun _ member => member⟩

theorem Env.messagesFrom (moved : w.Env after) : w.MessagesFrom after := by
  cases moved with
  | duplicate => exact messagesFrom_enqueue _
  | reorder same =>
      refine .inl ⟨rfl, fun m member => ?_⟩
      rcases List.mem_append.mp member with inQueue | inDeadLetters
      · exact List.mem_append_left _ (same.mem_iff.mp inQueue)
      · exact List.mem_append_right _ inDeadLetters
  | @deadLetter moved isQueued =>
      refine .inl ⟨rfl, fun m member => ?_⟩
      simp only [messages, List.mem_append, List.mem_filter, List.mem_singleton] at member ⊢
      rcases member with ⟨inQueue, _⟩ | inDeadLetters | rfl
      · exact .inl inQueue
      · exact .inr inDeadLetters
      · exact .inl isQueued
  | @redrive moved isDead =>
      refine .inl ⟨rfl, fun m member => ?_⟩
      simp only [messages, List.mem_append, List.mem_filter, List.mem_singleton] at member ⊢
      rcases member with (inQueue | rfl) | ⟨inDeadLetters, _⟩
      · exact .inl inQueue
      · exact .inr isDead
      · exact .inr inDeadLetters

theorem Numbered.from (numbered : w.Numbered) (step : w.MessagesFrom after) : after.Numbered := by
  rcases step with ⟨next, old⟩ | ⟨body, next, old⟩
  · constructor
    · intro m member
      rw [next]
      exact numbered.below m (old m member)
    · intro m member other otherIn sameId
      exact numbered.same m (old m member) other (old other otherIn) sameId
  · constructor
    · intro m member
      rw [next]
      rcases old m member with inOld | rfl
      · exact (numbered.below m inOld).trans (Nat.lt_succ_self _)
      · exact Nat.lt_succ_self _
    · intro m member other otherIn sameId
      rcases old m member with inOld | rfl <;> rcases old other otherIn with otherOld | rfl
      · exact numbered.same m inOld other otherOld sameId
      · exact absurd (numbered.below m inOld) (by simp [sameId])
      · exact absurd (numbered.below other otherOld) (by simp [← sameId])
      · rfl

/-- Only a deletion loses a message. -/
theorem Perform.mem_messages {call : PlatformCall} {reply : platform.Reply call}
    (performed : w.Perform call reply after) {m : Message} (member : m ∈ w.messages) :
    m ∈ after.messages ∨ call = .deleteMessage m.id := by
  cases performed with
  | sent => exact .inl (mem_messages_enqueue.mpr (.inl member))
  | @deleted receiptHandle =>
      by_cases isTarget : m.id = receiptHandle
      · exact .inr (by rw [isTarget])
      · refine .inl ?_
        rcases List.mem_append.mp member with inQueue | inDeadLetters
        · exact List.mem_append_left _ (List.mem_filter.mpr ⟨inQueue, by simpa using isTarget⟩)
        · exact List.mem_append_right _ inDeadLetters
  | _ => exact .inl member

/-- SQS by itself loses no message. -/
theorem Env.mem_messages (numbered : w.Numbered) (moved : w.Env after) {m : Message}
    (member : m ∈ w.messages) : m ∈ after.messages := by
  cases moved with
  | duplicate => exact mem_messages_enqueue.mpr (.inl member)
  | reorder same =>
      rcases List.mem_append.mp member with inQueue | inDeadLetters
      · exact List.mem_append_left _ (same.mem_iff.mpr inQueue)
      · exact List.mem_append_right _ inDeadLetters
  | @deadLetter moved isQueued =>
      by_cases isMoved : m.id = moved.id
      · have same := numbered.same m member moved (List.mem_append_left _ isQueued) isMoved
        simp [messages, same]
      · simp only [messages, List.mem_append, List.mem_filter, List.mem_singleton] at member ⊢
        rcases member with inQueue | inDeadLetters
        · exact .inl ⟨inQueue, by simpa using isMoved⟩
        · exact .inr (.inl inDeadLetters)
  | @redrive moved isDead =>
      by_cases isMoved : m.id = moved.id
      · have same := numbered.same m member moved (List.mem_append_right _ isDead) isMoved
        simp [messages, same]
      · simp only [messages, List.mem_append, List.mem_filter, List.mem_singleton] at member ⊢
        rcases member with inQueue | inDeadLetters
        · exact .inl (.inl inQueue)
        · exact .inr ⟨inDeadLetters, by simpa using isMoved⟩

/-! ### The invariant -/

/-- What every step keeps, whatever the programs do. -/
structure Consistent (w : World) : Prop where
  shape : w.db.Shape
  aligned : w.db.Aligned
  reported : w.db.Reported
  numbered : w.Numbered

theorem consistent_initial : initial.Consistent where
  shape := Database.shape_empty
  aligned := Database.aligned_empty
  reported := Database.reported_empty
  numbered := ⟨by simp [initial, messages], by simp [initial, messages]⟩

theorem Consistent.perform (consistent : w.Consistent) {call : PlatformCall}
    {reply : platform.Reply call} (performed : w.Perform call reply after) : after.Consistent where
  shape := performed.keeps Database.Shape.effect consistent.shape
  aligned := performed.keeps Database.Aligned.effect consistent.aligned
  reported := performed.keeps Database.Reported.effect consistent.reported
  numbered := consistent.numbered.from performed.messagesFrom

theorem Env.db_eq (moved : w.Env after) : after.db = w.db := by
  cases moved <;> rfl

theorem Consistent.env (consistent : w.Consistent) (moved : w.Env after) : after.Consistent := by
  constructor
  · rw [moved.db_eq]
    exact consistent.shape
  · rw [moved.db_eq]
    exact consistent.aligned
  · rw [moved.db_eq]
    exact consistent.reported
  · exact consistent.numbered.from moved.messagesFrom

/-! ### What is never undone -/

/-- The job is completed, or a message in the main queue or in the DLQ names it. -/
def Recoverable (w : World) (jobId : Uuid) : Prop :=
  w.db.Completed jobId ∨ ∃ m ∈ w.messages, Names m.body jobId

/-- The log, the drawn values and the objects only grow; completed jobs stay completed and
recoverable ones recoverable; events keep their payload; a message with an old id is an old
message; and a row under an old token was under it before, with the same attempts. -/
structure Evolves (w after : World) : Prop where
  log : w.log <+: after.log
  drawn : w.drawn ⊆ after.drawn
  objects : w.objects ⊆ after.objects
  completed : ∀ {jobId}, w.db.Completed jobId → after.db.Completed jobId
  recoverable : ∀ {jobId}, w.Recoverable jobId → after.Recoverable jobId
  events : ∀ {eventId event}, w.db.event? eventId = some event →
    ∃ later, after.db.event? eventId = some later ∧ later.payload = event.payload
  next : w.nextMessage ≤ after.nextMessage
  messages : ∀ {m}, m ∈ after.messages → m.id < w.nextMessage → m ∈ w.messages
  tokens : ∀ {jobId row token}, token ∈ w.drawn → after.db.job? jobId = some row →
    row.processingToken = some token → ∃ old, w.db.job? jobId = some old ∧
      old.processingToken = some token ∧ old.attempts = row.attempts

theorem payload_of_eventChange {inputs : Inputs} {eventId : Uuid} {call : RepoCall}
    {value : call.Result} {before later : Option OutboxRow}
    (change : EventChange inputs eventId call value before later) {event : OutboxRow}
    (found : before = some event) :
    ∃ row, later = some row ∧ row.payload = event.payload := by
  cases change with
  | same => exact ⟨event, found, rfl⟩
  | created => cases found
  | claimed =>
      cases found
      exact ⟨_, rfl, rfl⟩
  | published =>
      cases found
      exact ⟨_, rfl, rfl⟩
  | failed =>
      cases found
      exact ⟨_, rfl, rfl⟩

theorem token_of_jobChange {inputs : Inputs} {jobId : Uuid} {call : RepoCall}
    {value : call.Result} {before later : Option JobRow}
    (change : JobChange inputs jobId call value before later) {row : JobRow} {token : Uuid}
    (old : inputs.uuid 0 ≠ token) (found : later = some row)
    (isToken : row.processingToken = some token) :
    ∃ old, before = some old ∧ old.processingToken = some token ∧ old.attempts = row.attempts := by
  cases change with
  | same => exact ⟨row, found, isToken, rfl⟩
  | created =>
      cases found
      cases isToken
  | claimed =>
      cases found
      exact absurd (Option.some.inj isToken) old
  | renewed =>
      cases found
      exact ⟨_, rfl, isToken, rfl⟩
  | completed =>
      cases found
      cases isToken
  | failed =>
      cases found
      cases isToken

/-- The messages of a step: old ids are old messages, and ids only grow. -/
theorem MessagesFrom.later (step : w.MessagesFrom after) :
    w.nextMessage ≤ after.nextMessage ∧
      ∀ {m}, m ∈ after.messages → m.id < w.nextMessage → m ∈ w.messages := by
  rcases step with ⟨next, old⟩ | ⟨body, next, old⟩
  · exact ⟨next.ge, fun member _ => old _ member⟩
  · refine ⟨next ▸ Nat.le_succ _, fun member below => ?_⟩
    rcases old _ member with inOld | rfl
    · exact inOld
    · exact absurd below (lt_irrefl _)

theorem Perform.drawn_objects {call : PlatformCall} {reply : platform.Reply call}
    (performed : w.Perform call reply after) :
    w.drawn ⊆ after.drawn ∧ w.objects ⊆ after.objects := by
  cases performed with
  | repository => exact ⟨List.subset_append_left _ _, List.Subset.refl _⟩
  | unanswered => exact ⟨List.subset_append_left _ _, List.Subset.refl _⟩
  | uuid4 => exact ⟨List.subset_append_left _ _, List.Subset.refl _⟩
  | stored => exact ⟨List.Subset.refl _, List.subset_append_left _ _⟩
  | _ => exact ⟨List.Subset.refl _, List.Subset.refl _⟩

/-- A call undoes nothing, if the messages it deletes name completed jobs. -/
theorem Perform.evolves {t : ThreadId} {call : PlatformCall} {reply : platform.Reply call}
    (performed : w.Perform call reply after)
    (settled : ∀ m ∈ w.messages, call = .deleteMessage m.id →
      ∀ {jobId}, Names m.body jobId → w.db.Completed jobId) :
    w.Evolves (after.logged t call reply) := by
  have stays : ∀ {jobId}, w.db.Completed jobId → after.db.Completed jobId := by
    intro jobId completed
    rcases performed.database with same | ⟨_, _, _, _, _, effect⟩
    · exact same ▸ completed
    · exact completed.effect effect
  constructor
  · change w.log <+: after.log ++ _
    rw [performed.log_eq]
    exact List.prefix_append _ _
  · exact performed.drawn_objects.1
  · exact performed.drawn_objects.2
  · exact stays
  · rintro jobId (completed | ⟨m, member, names⟩)
    · exact .inl (stays completed)
    · rcases performed.mem_messages member with kept | deleted
      · exact .inr ⟨m, kept, names⟩
      · exact .inl (stays (settled m member deleted names))
  · intro eventId event found
    rcases performed.database with same | ⟨_, _, _, _, _, effect⟩
    · exact ⟨event, same ▸ found, rfl⟩
    · exact payload_of_eventChange (eventChange_of_effect effect _) found
  · exact performed.messagesFrom.later.1
  · exact performed.messagesFrom.later.2
  · intro jobId row token old found isToken
    rcases performed.database with same | ⟨_, inputs, _, _, fresh, effect⟩
    · exact ⟨row, same ▸ found, isToken, rfl⟩
    · refine token_of_jobChange (jobChange_of_effect effect jobId) ?_ found isToken
      rintro rfl
      exact fresh.new 0 old

/-- What SQS does by itself undoes nothing. -/
theorem Env.evolves (numbered : w.Numbered) (moved : w.Env after) : w.Evolves after := by
  have frame : after.db = w.db ∧ after.log = w.log ∧ after.drawn = w.drawn ∧
      after.objects = w.objects := by
    cases moved <;> exact ⟨rfl, rfl, rfl, rfl⟩
  obtain ⟨db, log, drawn, objects⟩ := frame
  constructor
  · exact log ▸ List.prefix_rfl
  · exact drawn ▸ List.Subset.refl _
  · exact objects ▸ List.Subset.refl _
  · exact db ▸ id
  · rintro jobId (completed | ⟨m, member, names⟩)
    · exact .inl (db ▸ completed)
    · exact .inr ⟨m, moved.mem_messages numbered member, names⟩
  · exact fun found => ⟨_, db ▸ found, rfl⟩
  · exact moved.messagesFrom.later.1
  · exact moved.messagesFrom.later.2
  · exact fun _ found isToken => ⟨_, db ▸ found, isToken, rfl⟩

/-- Starting a program undoes nothing. -/
theorem Start.evolves {isCloud : Bool} {program : Program platform Unit}
    (started : w.Start isCloud program after) : w.Evolves after := by
  cases started <;>
    exact ⟨List.prefix_rfl, List.Subset.refl _, List.Subset.refl _, id, id,
      fun found => ⟨_, found, rfl⟩, le_rfl, fun member _ => member,
      fun _ found isToken => ⟨_, found, isToken, rfl⟩⟩

/-! ### The log tells the truth -/

/-- What a reply says that still holds. -/
def ReplyHolds (w : World) : (call : PlatformCall) → platform.Reply call → Prop
  | .repository (.markJobProcessing jobId _), .ok (some job) =>
      job.id = jobId ∧ job.processingToken ∈ w.drawn ∧
        ∀ row, w.db.job? jobId = some row → row.processingToken = some job.processingToken →
          row.attempts = job.attempts
  | .repository (.getJob jobId), .ok view => view.job.status = .completed → w.db.Completed jobId
  | .repository (.completeJobWithReport jobId ..), .ok _ => w.db.Completed jobId
  | .repository (.claimOutboxEvents ..), .ok events => ∀ event ∈ events,
      ∃ row, w.db.event? event.id = some row ∧ row.payload = event.payload
  | .sendMessage _ body, .ok _ => ∀ jobId, Names body jobId → w.Recoverable jobId
  | .receiveMessage, .ok (some delivery) => delivery.receiptHandle < w.nextMessage ∧
      ∀ m ∈ w.messages, m.id = delivery.receiptHandle → delivery.body = some m.body
  | .putObject objectKey rows, .ok _ => (objectKey, rows) ∈ w.objects
  | _, _ => True

/-- Every entry of the log holds. -/
def Truthful (w : World) : Prop := ∀ entry ∈ w.log, w.ReplyHolds entry.call entry.reply

/-- What holds is never undone. -/
theorem ReplyHolds.evolves {call : PlatformCall} {reply : platform.Reply call}
    (holds : w.ReplyHolds call reply) (evolves : w.Evolves after) : after.ReplyHolds call reply := by
  unfold ReplyHolds at holds ⊢
  split
  next jobId _ job =>
    obtain ⟨isJob, drawn, attempts⟩ := holds
    refine ⟨isJob, evolves.drawn drawn, fun row found isToken => ?_⟩
    obtain ⟨old, isOld, oldToken, same⟩ := evolves.tokens drawn found isToken
    rw [← same]
    exact attempts old isOld oldToken
  next => exact fun completed => evolves.completed (holds completed)
  next => exact evolves.completed holds
  next =>
    intro event member
    obtain ⟨row, found, same⟩ := holds event member
    obtain ⟨later, isLater, kept⟩ := evolves.events found
    exact ⟨later, isLater, kept.trans same⟩
  next => exact fun jobId names => evolves.recoverable (holds jobId names)
  next =>
    obtain ⟨below, same⟩ := holds
    refine ⟨lt_of_lt_of_le below evolves.next, fun m member isHandle => ?_⟩
    exact same m (evolves.messages member (isHandle ▸ below)) isHandle
  next => exact evolves.objects holds
  next => trivial

/-- The read of a job sees its row. -/
theorem row_of_read {inputs : Inputs} {db later : Database} {jobId : Uuid} {view : JobView}
    (effect : Effect inputs db (.getJob jobId) view later) : later.job? jobId = some view.job := by
  cases effect with
  | jobRead found =>
      have member := List.mem_of_head? found
      simp only [Repository.jobViews, List.mem_flatMap, List.mem_map, List.mem_filter,
        decide_eq_true_eq] at member
      obtain ⟨job, ⟨inTable, isId⟩, _, _, _, _, rfl⟩ := member
      exact Database.job?_eq_some.mpr ⟨inTable, isId⟩

/-- The read of a job sees its status. -/
theorem completed_of_read {inputs : Inputs} {db later : Database} {jobId : Uuid} {view : JobView}
    (effect : Effect inputs db (.getJob jobId) view later)
    (completed : view.job.status = .completed) : later.Completed jobId :=
  ⟨view.job, row_of_read effect, completed⟩

/-- A granted claim is the job that was asked for, under the drawn token. -/
theorem row_of_grant {inputs : Inputs} {db later : Database} {jobId : Uuid} {leaseSeconds : Int}
    {job : ClaimedJob}
    (effect : Effect inputs db (.markJobProcessing jobId leaseSeconds) (some job) later) :
    job.id = jobId ∧ job.processingToken = inputs.uuid 0 ∧
      ∃ row, later.job? jobId = some row ∧ row.attempts = job.attempts := by
  cases effect with
  | jobClaimed isValue update =>
      cases update with
      | @hit row found =>
          cases isValue
          refine ⟨(Database.job?_eq_some.mp found).2, rfl, _, ?_, rfl⟩
          rw [Database.job?_setJob, if_pos rfl, found]
          rfl
      | miss => cases isValue

/-- A completion that returned left the job completed. -/
theorem completed_of_completion {inputs : Inputs} {db later : Database} {jobId token : Uuid}
    {result : Json} {objectKey objectType : String} {value : Unit}
    (effect : Effect inputs db (.completeJobWithReport jobId token result objectKey objectType)
      value later) : later.Completed jobId := by
  cases effect with
  | @jobCompleted _ _ _ _ _ row _ found _ completion =>
      refine ⟨Repository.completeJobRow inputs.now row, ?_, rfl⟩
      rw [job?_eq_of_jobs completion.jobs, Database.job?_setJob, if_pos rfl, found]
      rfl

/-- A claim returns rows of the outbox. -/
theorem rows_of_batch {inputs : Inputs} {db later : Database} {limit leaseSeconds : Int}
    {events : List ClaimedEvent}
    (effect : Effect inputs db (.claimOutboxEvents limit leaseSeconds) events later)
    {event : ClaimedEvent} (member : event ∈ events) :
    ∃ row, later.event? event.id = some row ∧ row.payload = event.payload := by
  cases effect with
  | eventsClaimed _ _ isEvents =>
      subst isEvents
      obtain ⟨row, inTable, inBatch, rfl⟩ := mem_returnedEvents.mp member
      have found : db.event? row.id = some row := Database.event?_eq_some.mpr ⟨inTable, rfl⟩
      refine ⟨Repository.claimEventRow (inputs.uuid 0) inputs.now row, ?_, rfl⟩
      change (db.setEvents _ _ _).event? row.id = _
      rw [Database.event?_setEvents, if_pos inBatch, found]
      rfl

/-- The reply of a call holds right after it. -/
theorem Perform.replyHolds {t : ThreadId} {call : PlatformCall} {reply : platform.Reply call}
    (consistent : w.Consistent) (performed : w.Perform call reply after) :
    (after.logged t call reply).ReplyHolds call reply := by
  unfold ReplyHolds
  split
  next jobId leaseSeconds job =>
    obtain ⟨inputs, _, rest, effect⟩ := performed.effect
    obtain ⟨isJob, isToken, row, found, attempts⟩ := row_of_grant effect
    refine ⟨isJob, ?_, fun other isOther _ => ?_⟩
    · change job.processingToken ∈ after.drawn
      rw [rest, isToken]
      exact List.mem_append_right _ (List.mem_ofFn.mpr ⟨0, rfl⟩)
    · change after.db.job? jobId = some other at isOther
      rw [found] at isOther
      cases isOther
      exact attempts
  next =>
    obtain ⟨_, _, _, effect⟩ := performed.effect
    exact completed_of_read effect
  next =>
    obtain ⟨_, _, _, effect⟩ := performed.effect
    exact completed_of_completion effect
  next =>
    obtain ⟨_, _, _, effect⟩ := performed.effect
    exact fun event member => rows_of_batch effect member
  next =>
    cases performed
    exact fun jobId names => .inr ⟨_, mem_messages_enqueue.mpr (.inr rfl), names⟩
  next =>
    cases performed with
    | @received message member =>
        have inMessages : message ∈ w.messages := List.mem_append_left _ member
        refine ⟨consistent.numbered.below message inMessages, fun m isMessage sameHandle => ?_⟩
        rw [consistent.numbered.same m isMessage message inMessages sameHandle]
  next =>
    cases performed
    exact List.mem_append_right _ List.mem_cons_self
  next => trivial

/-! ### Soundness -/

/-- The invariant of the platform. -/
structure Sound (w : World) : Prop where
  consistent : w.Consistent
  truthful : w.Truthful

theorem sound_initial : initial.Sound :=
  ⟨consistent_initial, fun _ member => absurd member List.not_mem_nil⟩

/-- A message that the protocol allows to be deleted names a completed job. -/
theorem Truthful.settled {isCloud : Bool} {t : ThreadId} {receiptHandle : ReceiptHandle}
    (truthful : w.Truthful) (allowed : Allowed isCloud t w.log (.deleteMessage receiptHandle))
    {m : Message} (member : m ∈ w.messages) (isHandle : m.id = receiptHandle) {jobId : Uuid}
    (names : Names m.body jobId) : w.db.Completed jobId := by
  obtain ⟨named, ⟨body, received, parsed⟩, done⟩ := allowed
  have isBody := (truthful _ received).2 m member isHandle
  change body = some m.body at isBody
  rw [isBody] at parsed
  rw [Names, parsed] at names
  cases names
  rcases done with ⟨view, seen, completed⟩ | ⟨leaseSeconds, job, key, type, isGranted, completion⟩
  · exact truthful _ seen completed
  · have isJob : job.id = jobId := (truthful _ isGranted).1
    have completed : w.db.Completed job.id := truthful _ completion
    rwa [isJob] at completed

/-- A call the protocol allows undoes nothing and keeps the invariant. -/
theorem Sound.perform {isCloud : Bool} {t : ThreadId} {call : PlatformCall}
    {reply : platform.Reply call} (sound : w.Sound) (allowed : Allowed isCloud t w.log call)
    (performed : w.Perform call reply after) :
    (after.logged t call reply).Sound ∧ w.Evolves (after.logged t call reply) := by
  have evolves : w.Evolves (after.logged t call reply) := by
    refine performed.evolves ?_
    rintro m member rfl jobId names
    exact sound.truthful.settled allowed member rfl names
  have kept := sound.consistent.perform performed
  refine ⟨⟨⟨kept.shape, kept.aligned, kept.reported, ⟨kept.numbered.below, kept.numbered.same⟩⟩,
    ?_⟩, evolves⟩
  intro entry member
  change entry ∈ after.log ++ _ at member
  rw [performed.log_eq] at member
  rcases List.mem_append.mp member with old | new
  · exact (sound.truthful entry old).evolves evolves
  · rw [List.mem_singleton.mp new]
    exact performed.replyHolds sound.consistent

theorem Sound.evolves (sound : w.Sound) (evolves : w.Evolves after) (consistent : after.Consistent)
    (sameLog : after.log = w.log) : after.Sound := by
  refine ⟨consistent, fun entry member => ?_⟩
  rw [sameLog] at member
  exact (sound.truthful entry member).evolves evolves

end World

open World

section Steps

variable {isCloud : Bool} {pool next later : Pool platform World} {P : World → Prop}

/-- What every call keeps of the database and the drawn values, every step keeps. -/
theorem step_of_perform (step : (jobPlatform isCloud).Step pool next)
    (perform : ∀ {w done} {call : PlatformCall} {reply : platform.Reply call} (t : ThreadId),
      w.Perform call reply done → P w → P (done.logged t call reply))
    (quiet : ∀ {w after : World}, after.db = w.db → after.drawn = w.drawn → P w → P after)
    (holds : P pool.state) : P next.state := by
  cases step with
  | start _ started =>
      have started : pool.state.Start isCloud _ _ := started
      refine quiet ?_ ?_ holds <;> cases started <;> rfl
  | call _ called =>
      obtain ⟨done, performed, rfl⟩ := called
      exact perform _ performed holds
  | stop => exact holds
  | env moved =>
      have moved : pool.state.Env _ := moved
      refine quiet ?_ ?_ holds <;> cases moved <;> rfl

/-- What every step keeps, every run keeps. -/
theorem steps_keep
    (keeps : ∀ {before after : Pool platform World}, (jobPlatform isCloud).Step before after →
      P before.state → P after.state)
    (steps : Relation.ReflTransGen (jobPlatform isCloud).Step pool later) (holds : P pool.state) :
    P later.state := by
  induction steps with
  | refl => exact holds
  | tail _ step inductionHypothesis => exact keeps step inductionHypothesis

end Steps

/-- An invariant of the database and the log that every call allowed in a sound world keeps holds,
with soundness, in every reachable state. -/
theorem sound_invariant {isCloud : Bool} {I : World → Prop} (first : I initial)
    (exec : ∀ {t w done} {call : PlatformCall} {reply : platform.Reply call}, Sound w →
      Allowed isCloud t w.log call → w.Perform call reply done →
        w.Evolves (done.logged t call reply) → I w → I (done.logged t call reply))
    (quiet : ∀ {w after}, after.db = w.db → w.Evolves after → I w → I after)
    {pool : Pool platform World}
    (reached : (jobPlatform isCloud).Reachable World.initial pool) :
    pool.state.Sound ∧ I pool.state := by
  refine ThreadSystem.Discipline.invariant_of_reachable (protocol_starts isCloud) trivial
    (I := fun w => w.Sound ∧ I w) ⟨sound_initial, first⟩ ?_ ?_ ?_ reached
  · rintro t w call reply after ⟨sound, holds⟩ allowed ⟨done, performed, rfl⟩
    obtain ⟨soundAfter, evolves⟩ := sound.perform allowed performed
    exact ⟨soundAfter, exec sound allowed performed evolves holds⟩
  · rintro t w program after ⟨sound, holds⟩ started
    have started : w.Start isCloud program after := started
    have same : after.db = w.db ∧ after.log = w.log ∧ after.messages = w.messages ∧
        after.nextMessage = w.nextMessage := by
      cases started <;> exact ⟨rfl, rfl, rfl, rfl⟩
    obtain ⟨db, log, messages, next⟩ := same
    refine ⟨sound.evolves started.evolves ?_ log, quiet db started.evolves holds⟩
    refine ⟨db ▸ sound.consistent.shape, db ▸ sound.consistent.aligned,
      db ▸ sound.consistent.reported, ?_, ?_⟩
    · rw [messages, next]
      exact sound.consistent.numbered.below
    · rw [messages]
      exact sound.consistent.numbered.same
  · rintro w after ⟨sound, holds⟩ moved
    have moved : w.Env after := moved
    have evolves := moved.evolves sound.consistent.numbered
    exact ⟨sound.evolves evolves (sound.consistent.env moved) moved.log_eq,
      quiet moved.db_eq evolves holds⟩

/-- Every reachable world is sound. -/
theorem sound_of_reachable {isCloud : Bool} {pool : Pool platform World}
    (reached : (jobPlatform isCloud).Reachable World.initial pool) : pool.state.Sound :=
  (sound_invariant (I := fun _ => True) trivial (fun _ _ _ _ _ => trivial)
    (fun _ _ _ => trivial) reached).1

/-- A pool with two jobs, whose events are published: one is completed and its message deleted, the
other was claimed by a worker that died. -/
theorem reachable_processing : ∃ pool : Pool platform World,
    (jobPlatform true).Reachable World.initial pool ∧
      (∃ job ∈ pool.state.db.jobs.rows, job.status = .completed) ∧
      (∃ job ∈ pool.state.db.jobs.rows, job.status = .processing) ∧
      ∀ event ∈ pool.state.db.jobOutbox.rows, event.status = .published := by
  have opened : (jobPlatform true).Reachable World.initial _ := .refl
  have first := (opened.start 0 rfl (.createJob "csv_report" (.obj []) none)).call 0 rfl
    ⟨_, .answered (show (Inputs.numbered 0 0).Fresh _ by decide) rfl, rfl⟩
  have second := (first.start 1 rfl (.createJob "export" (.obj []) none)).call 1 rfl
    ⟨_, .answered (show (Inputs.numbered 1 0).Fresh _ by decide) rfl, rfl⟩
  have dispatching := (second.start 2 rfl (.dispatchOutbox 10 120)).call 2 rfl
    ⟨_, .answered (show (Inputs.numbered 2 0).Fresh _ by decide) rfl, rfl⟩
  have firstSent := (dispatching.call 2 rfl ⟨_, .recorded, rfl⟩).call 2 rfl
    ⟨_, .sent (.ok ()), rfl⟩
  have firstMarked := (firstSent.call 2 rfl
    ⟨_, .answered (show (Inputs.numbered 3 0).Fresh _ by decide) rfl, rfl⟩).call 2 rfl
      ⟨_, .recorded, rfl⟩
  have secondSent := (firstMarked.call 2 rfl ⟨_, .recorded, rfl⟩).call 2 rfl
    ⟨_, .sent (.ok ()), rfl⟩
  have secondMarked := secondSent.call 2 rfl
    ⟨_, .answered (show (Inputs.numbered 4 0).Fresh _ by decide) rfl, rfl⟩
  have received := (secondMarked.start 3 rfl
    (.consumeOneMessage ⟨"reports"⟩ ⟨120, 60, 30⟩)).call 3 rfl ⟨_, .received (.head _), rfl⟩
  have claimed := received.call 3 rfl
    ⟨_, .answered (show (Inputs.numbered 5 0).Fresh _ by decide) rfl, rfl⟩
  have stored := (((claimed.call 3 rfl ⟨_, .recorded, rfl⟩).call 3 rfl
    ⟨_, .threadStarted, rfl⟩).call 3 rfl
      ⟨_, .uuid4 (show (Inputs.numbered 6 0).uuid 0 ∉ _ by decide), rfl⟩).call 3 rfl
        ⟨_, .stored (.ok ()), rfl⟩
  have completed := stored.call 3 rfl
    ⟨_, .answered (show (Inputs.numbered 7 0).Fresh _ by decide) rfl, rfl⟩
  have finished := (((completed.call 3 rfl ⟨_, .recorded, rfl⟩).call 3 rfl
    ⟨_, .recorded, rfl⟩).call 3 rfl ⟨_, .threadStopped, rfl⟩).call 3 rfl
      ⟨_, .deleted (.ok ()), rfl⟩
  have taken := ((finished.start 4 rfl
    (.consumeOneMessage ⟨"reports"⟩ ⟨120, 60, 30⟩)).call 4 rfl ⟨_, .received (.head _), rfl⟩).call 4
      rfl ⟨_, .answered (show (Inputs.numbered 8 0).Fresh _ by decide) rfl, rfl⟩
  have died := taken.tail (.stop (t := 4))
  refine ⟨_, died, ⟨_, .head _, rfl⟩, ⟨_, .tail _ (.head _), rfl⟩, ?_⟩
  intro event member
  rcases List.mem_cons.mp member with rfl | member
  · rfl
  · rw [List.mem_singleton.mp member]
    rfl
end JobPlatform.Runtime
