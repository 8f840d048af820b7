import JobPlatform.Runtime.World

/-!
Contract: what a thread has done, by the log, before it makes each of its calls.

Owns:
- `Allowed`: before a completion, the thread was granted the claim and stored the report; before a
  publication mark, it claimed the event and its publisher returned; before a deletion, it received
  the message and then saw the job completed, or completed it;
- that every program of the platform keeps to this in any interleaving.

Does not own what these calls did to the world.
-/

namespace JobPlatform.Runtime

open JobPlatform.Foundation JobPlatform.Foundation.ThreadSystem JobPlatform.Store
open JobPlatform.Store.Repository (ClaimedJob ClaimedEvent JobView)

/-! ### Log entries -/

section Entries

variable (t : ThreadId)

/-- `mark_job_processing` granted a claim. -/
def granted (jobId : Uuid) (leaseSeconds : Int) (job : ClaimedJob) : LogEntry :=
  ⟨t, .repository (.markJobProcessing jobId leaseSeconds), .ok (some job)⟩

/-- `get_job` returned a row. -/
def jobSeen (jobId : Uuid) (view : JobView) : LogEntry :=
  ⟨t, .repository (.getJob jobId), .ok view⟩

/-- `complete_job_with_report` was called. -/
def completionOf (job : ClaimedJob) (objectKey objectType : String)
    (reply : Except Exn Unit) : LogEntry :=
  ⟨t, .repository (.completeJobWithReport job.id job.processingToken
    (reportResult objectKey (reportRows job)) objectKey objectType), reply⟩

/-- A report was stored. -/
def reportStored (objectKey : String) (rows : ReportRows) : LogEntry :=
  ⟨t, .putObject objectKey rows, .ok ()⟩

/-- `claim_outbox_events` returned a batch. -/
def eventsClaimed (limit leaseSeconds : Int) (events : List ClaimedEvent) : LogEntry :=
  ⟨t, .repository (.claimOutboxEvents limit leaseSeconds), .ok events⟩

/-- The publisher of a dispatcher returned. -/
def publishReturned (isCloud : Bool) (event : ClaimedEvent) (jobId : Uuid) (correlationId : Json) :
    LogEntry :=
  if isCloud then
    ⟨t, .sendMessage (some (event.id, event.claimToken)) (jobMessage jobId correlationId), .ok ()⟩
  else ⟨t, .appendPublished jobId correlationId, .ok ()⟩

/-- A message was received. -/
def messageReceived (body : Option Json) (receiptHandle : ReceiptHandle) : LogEntry :=
  ⟨t, .receiveMessage, .ok (some ⟨body, receiptHandle⟩)⟩

end Entries

/-! ### The protocol -/

/-- The thread received the message with this handle, and it names the job. -/
def ReceivedFor (t : ThreadId) (log : List LogEntry) (receiptHandle : ReceiptHandle)
    (jobId : Uuid) : Prop :=
  ∃ body, messageReceived t body receiptHandle ∈ log ∧ parseJobMessage body = .ok jobId

/-- The thread saw the job completed. -/
def SawCompleted (t : ThreadId) (log : List LogEntry) (jobId : Uuid) : Prop :=
  ∃ view, jobSeen t jobId view ∈ log ∧ view.job.status = .completed

/-- The thread was granted the claim of the job and completed it. -/
def DidComplete (t : ThreadId) (log : List LogEntry) (jobId : Uuid) : Prop :=
  ∃ leaseSeconds job objectKey objectType, granted t jobId leaseSeconds job ∈ log ∧
    completionOf t job objectKey objectType (.ok ()) ∈ log

/-- What a thread has done before each call. -/
def Allowed (isCloud : Bool) (t : ThreadId) (log : List LogEntry) : PlatformCall → Prop
  | .deleteMessage receiptHandle => ∃ jobId, ReceivedFor t log receiptHandle jobId ∧
      (SawCompleted t log jobId ∨ DidComplete t log jobId)
  | .repository (.markOutboxPublished eventId claimToken) =>
      ∃ limit leaseSeconds events event jobId correlationId,
        [eventsClaimed t limit leaseSeconds events,
          publishReturned t isCloud event jobId correlationId].Sublist log ∧
        event ∈ events ∧ event.id = eventId ∧ event.claimToken = claimToken ∧
        readOutboxPayload event.payload = .ok (jobId, correlationId)
  | .repository (.completeJobWithReport jobId processingToken result objectKey _) =>
      ∃ asked leaseSeconds job,
        [granted t asked leaseSeconds job, reportStored t objectKey (reportRows job)].Sublist log ∧
        job.id = jobId ∧ job.processingToken = processingToken ∧
        result = reportResult objectKey (reportRows job)
  | _ => True

/-- The discipline: calls are allowed by the log, and the log only grows. -/
def protocol (isCloud : Bool) : Discipline (jobPlatform isCloud) :=
  .ofOrder (fun _ => True) (fun t w call => Allowed isCloud t w.log call)
    (fun w after => w.log <+: after.log) (fun _ => List.prefix_rfl) List.IsPrefix.trans
    (by
      rintro t w call reply after _ _ ⟨done, performed, rfl⟩
      exact ⟨trivial, performed.log_eq ▸ List.prefix_append _ _⟩)
    (fun _ moved => ⟨trivial, moved.log_eq ▸ List.prefix_rfl⟩)

/-! ### Rules for code -/

section Rules

variable {isCloud : Bool} {t : ThreadId} {w : World} {α : Type}

/-- `post` of the value and the log, if the code returns. -/
def OnReturn (post : α → List LogEntry → Prop) : Except Exn α → List LogEntry → Prop
  | .ok value, log => post value log
  | .error _, _ => True

/-- From `w` on, the code follows the protocol, and ends in `post` if it returns. -/
def Follows (isCloud : Bool) (t : ThreadId) (code : Run α) (post : α → List LogEntry → Prop)
    (w : World) : Prop :=
  (protocol isCloud).SafeCode t code (fun result s => OnReturn post result s.log) w

/-- An assertion a longer log keeps. -/
def Lasting (A : List LogEntry → Prop) : Prop := ∀ {log longer}, log <+: longer → A log → A longer

theorem lasting_true : Lasting fun _ => True := fun _ _ => trivial

theorem lasting_sublist (entries : List LogEntry) : Lasting entries.Sublist :=
  fun grows sub => sub.trans grows.sublist

theorem lasting_mem (entry : LogEntry) : Lasting (entry ∈ ·) := fun grows member =>
  grows.subset member

theorem sublist_snoc {entries log : List LogEntry} (sub : entries.Sublist log) (entry : LogEntry) :
    (entries ++ [entry]).Sublist (log ++ [entry]) :=
  sub.append (List.Sublist.refl _)

theorem mem_snoc (log : List LogEntry) (entry : LogEntry) : entry ∈ log ++ [entry] := by simp

theorem protocol_own {call : PlatformCall} {s after : World} {reply : platform.Reply call}
    (_ : (protocol isCloud).inv s) (_ : (protocol isCloud).pre t s call)
    (called : (jobPlatform isCloud).exec t s call reply after) :
    (protocol isCloud).rely t s after := by
  obtain ⟨done, performed, rfl⟩ := called
  change s.log <+: done.log ++ _
  rw [performed.log_eq]
  exact List.prefix_append _ _

theorem follows_pure {value : α} {post : α → List LogEntry → Prop} (holds : post value w.log) :
    Follows isCloud t (pure value) post w := holds

theorem follows_throw {error : Exn} {post : α → List LogEntry → Prop} :
    Follows isCloud t (throw error) post w := trivial

theorem Follows.mono {code : Run α} {post weaker : α → List LogEntry → Prop}
    (safe : Follows isCloud t code post w) (implies : ∀ value log, post value log → weaker value log) :
    Follows isCloud t code weaker w := by
  refine Discipline.SafeCode.mono safe ?_
  intro result s reached
  cases result with
  | ok value => exact implies value s.log reached
  | error error => trivial

/-- A lasting assertion can be carried past any code. -/
theorem Follows.frame {A : List LogEntry → Prop} (lasting : Lasting A) {code : Run α}
    {post : α → List LogEntry → Prop} (safe : Follows isCloud t code post w) (holds : A w.log) :
    Follows isCloud t code (fun value log => post value log ∧ A log) w := by
  have stable : ∀ {s s' : World}, (protocol isCloud).rely t s s' → A s.log → A s'.log := lasting
  refine Discipline.SafeCode.mono (Discipline.Safe.frame stable protocol_own safe holds) ?_
  rintro result s ⟨reached, still⟩
  cases result with
  | ok value => exact ⟨reached, still⟩
  | error error => trivial

/-- A call under a lasting assertion: afterwards the log ends with it. -/
theorem follows_call {A : List LogEntry → Prop} {call : PlatformCall}
    {post : call.Result → List LogEntry → Prop} (lasting : Lasting A) (holds : A w.log)
    (allowed : ∀ log, A log → Allowed isCloud t log call)
    (next : ∀ log value, A log → post value (log ++ [⟨t, call, .ok value⟩])) :
    Follows isCloud t (perform call) post w := by
  have stable : ∀ {s s' : World}, (protocol isCloud).rely t s s' → A s.log → A s'.log := lasting
  refine Discipline.safe_call stable protocol_own holds (fun _ => allowed _) ?_
  rintro s reply s' _ still ⟨done, performed, rfl⟩ _ _
  cases reply with
  | error error => trivial
  | ok value =>
      change post value (done.log ++ _)
      rw [performed.log_eq]
      exact next s.log value still

/-- A call the protocol does not restrict. -/
theorem follows_free {call : PlatformCall} (free : ∀ log, Allowed isCloud t log call) :
    Follows isCloud t (perform call) (fun _ _ => True) w :=
  follows_call lasting_true trivial (fun log _ => free log) fun _ _ _ => trivial

theorem follows_bind {β : Type} {code : Run α} {next : α → Run β}
    {middle : α → List LogEntry → Prop} {post : β → List LogEntry → Prop}
    (first : Follows isCloud t code middle w)
    (rest : ∀ value s, middle value s.log → Follows isCloud t (next value) post s) :
    Follows isCloud t (code >>= next) post w := by
  refine Discipline.safe_bind (Discipline.SafeCode.mono first ?_)
  intro result s reached
  cases result with
  | ok value => exact rest value s reached
  | error error => trivial

theorem follows_ofExcept {result : Except Exn α} {A : List LogEntry → Prop} (holds : A w.log) :
    Follows isCloud t (Code.ofExcept result) (fun value log => result = .ok value ∧ A log) w := by
  change OnReturn _ result w.log
  cases result with
  | ok value => exact ⟨rfl, holds⟩
  | error error => trivial

theorem follows_tryCatch {code : Run α} {handle : Exn → Run α} {post : α → List LogEntry → Prop}
    (first : Follows isCloud t code post w)
    (raised : ∀ error s, Follows isCloud t (handle error) post s) :
    Follows isCloud t (tryCatch code handle) post w := by
  refine Discipline.safe_tryCatch (Discipline.SafeCode.mono first ?_)
  intro result s reached
  cases result with
  | ok value => exact reached
  | error error => exact raised error s

/-- Recording a metric restricts nothing. -/
theorem follows_record {A : List LogEntry → Prop} (lasting : Lasting A) {metric : Metric}
    {labels : List String} {next : Unit → Run α} {post : α → List LogEntry → Prop}
    (holds : A w.log) (continued : ∀ s : World, A s.log → Follows isCloud t (next ()) post s) :
    Follows isCloud t (record metric labels >>= next) post w := by
  have recorded : Follows isCloud t (record metric labels) (fun _ log => A log) w :=
    follows_call lasting holds (fun _ _ => trivial) fun log _ still =>
      lasting (List.prefix_append _ _) still
  exact follows_bind recorded fun _ s still => continued s still

end Rules

section Programs

variable {isCloud : Bool} {t : ThreadId} {w : World}

/-! ### The dispatcher -/

/-- The thread claimed the event, in the batch of an earlier claim. -/
def ClaimedBy (t : ThreadId) (event : ClaimedEvent) (log : List LogEntry) : Prop :=
  ∃ limit leaseSeconds events, [eventsClaimed t limit leaseSeconds events].Sublist log ∧
    event ∈ events

theorem lasting_claimedBy (event : ClaimedEvent) : Lasting (ClaimedBy t event) := by
  rintro log longer grows ⟨limit, leaseSeconds, events, sub, member⟩
  exact ⟨limit, leaseSeconds, events, lasting_sublist _ grows sub, member⟩

/-- The publisher of a dispatcher makes one call and returns what it returns. -/
theorem publish_follows {event : ClaimedEvent} {jobId : Uuid} {correlationId : Json}
    (claimed : ClaimedBy t event w.log) :
    Follows isCloud t ((createJobPublisher isCloud true).publish (some (event.id, event.claimToken))
      jobId correlationId) (fun _ log =>
        ∃ limit leaseSeconds events, event ∈ events ∧
          [eventsClaimed t limit leaseSeconds events,
            publishReturned t isCloud event jobId correlationId].Sublist log) w := by
  cases isCloud with
  | true =>
      refine follows_call (lasting_claimedBy event) claimed (fun _ _ => trivial) ?_
      rintro log _ ⟨limit, leaseSeconds, events, sub, member⟩
      exact ⟨limit, leaseSeconds, events, member, sublist_snoc sub _⟩
  | false =>
      refine follows_call (lasting_claimedBy event) claimed (fun _ _ => trivial) ?_
      rintro log _ ⟨limit, leaseSeconds, events, sub, member⟩
      exact ⟨limit, leaseSeconds, events, member, sublist_snoc sub _⟩

theorem publishEvent_follows {event : ClaimedEvent} {dispatched : Nat}
    (claimed : ClaimedBy t event w.log) :
    Follows isCloud t (publishEvent (createJobPublisher isCloud true) event dispatched)
      (fun _ _ => True) w := by
  unfold publishEvent
  refine follows_record (lasting_claimedBy event) claimed fun s claimed => ?_
  split
  · exact follows_throw
  · refine follows_bind (follows_ofExcept claimed) ?_
    rintro ⟨jobId, correlationId⟩ s ⟨read, claimed⟩
    refine follows_bind (publish_follows claimed) ?_
    rintro _ s ⟨limit, leaseSeconds, events, member, sub⟩
    have marked : Follows isCloud t
        (repository (.markOutboxPublished event.id event.claimToken)) (fun _ _ => True) s := by
      refine follows_call (lasting_sublist _) sub ?_ fun _ _ _ => trivial
      intro log sub
      exact ⟨limit, leaseSeconds, events, event, jobId, correlationId, sub, member, rfl, rfl, read⟩
    refine follows_bind marked fun marked s _ => ?_
    cases marked with
    | false => exact follows_pure trivial
    | true => exact follows_record lasting_true trivial fun _ _ => follows_pure trivial

theorem dispatchEvent_follows {event : ClaimedEvent} {dispatched : Nat}
    (claimed : ClaimedBy t event w.log) :
    Follows isCloud t (dispatchEvent (createJobPublisher isCloud true) dispatched event)
      (fun _ _ => True) w := by
  have body : ∀ s : World, ClaimedBy t event s.log → Follows isCloud t
      (tryCatch (publishEvent (createJobPublisher isCloud true) event dispatched) fun error => do
        record .workerOutboxDispatch ["failure"]
        let _ ← repository (.markOutboxFailed event.id event.claimToken error.typeName)
        return dispatched) (fun _ _ => True) s := by
    intro s claimed
    refine follows_tryCatch (publishEvent_follows claimed) fun error s => ?_
    refine follows_record lasting_true trivial fun s _ => ?_
    exact follows_bind (follows_free fun _ => trivial) fun _ _ _ => follows_pure trivial
  unfold dispatchEvent
  split
  · exact follows_record (lasting_claimedBy event) claimed body
  · exact body w claimed

theorem dispatchOutbox_follows (limit leaseSeconds : Int) :
    Follows isCloud t (dispatchOutbox (createJobPublisher isCloud true) limit leaseSeconds)
      (fun _ _ => True) w := by
  have batch : Follows isCloud t (repository (.claimOutboxEvents limit leaseSeconds))
      (fun events log => ∀ event ∈ events, ClaimedBy t event log) w := by
    refine follows_call lasting_true trivial (fun _ _ => trivial) ?_
    intro log events _ event member
    exact ⟨limit, leaseSeconds, events, sublist_snoc (List.nil_sublist _) _, member⟩
  unfold dispatchOutbox
  refine follows_bind batch fun events s claimed => ?_
  refine Discipline.safe_forEach (fun rest _ s => ∀ event ∈ rest, ClaimedBy t event s.log) ?_
    (fun _ _ _ => trivial) claimed
  intro event rest dispatched s all
  have others : Lasting fun log => ∀ event ∈ rest, ClaimedBy t event log :=
    fun grows still event member => lasting_claimedBy event grows (still event member)
  refine Discipline.SafeCode.mono ((dispatchEvent_follows (all event List.mem_cons_self)).frame
    others fun event member => all event (List.mem_cons_of_mem _ member)) ?_
  intro result s still
  cases result with
  | error error => trivial
  | ok value => exact still.2

/-! ### The consumer -/

/-- `claim_job` returns a claim it was granted, or a status it has seen. -/
theorem claimJob_follows (jobId : Uuid) (leaseSeconds : Int) :
    Follows isCloud t (claimJob jobId leaseSeconds) (fun outcome log =>
      match outcome with
      | .claimed job => granted t jobId leaseSeconds job ∈ log
      | .status .duplicateCompleted => SawCompleted t log jobId
      | .status _ => True) w := by
  have asked : Follows isCloud t (repository (.markJobProcessing jobId leaseSeconds))
      (fun claimed log => ∀ job, claimed = some job → granted t jobId leaseSeconds job ∈ log)
      w := by
    refine follows_call lasting_true trivial (fun _ _ => trivial) ?_
    rintro log _ _ job rfl
    exact mem_snoc _ _
  have seen : ∀ s, Follows isCloud t (repository (.getJob jobId))
      (fun view log => jobSeen t jobId view ∈ log) s := fun s =>
    follows_call lasting_true trivial (fun _ _ => trivial) fun log _ _ => mem_snoc _ _
  unfold claimJob
  refine follows_bind asked fun claimed s isGranted => ?_
  cases claimed with
  | some job =>
      exact follows_record (lasting_mem _) (isGranted job rfl) fun s member => follows_pure member
  | none =>
      refine follows_bind (seen s) fun view s isSeen => ?_
      split
      next completed =>
        refine follows_record (lasting_mem _) isSeen fun s member => ?_
        exact follows_record (lasting_mem _) member fun s member =>
          follows_pure ⟨view, member, completed⟩
      next => exact follows_record lasting_true trivial fun s _ => follows_pure trivial

/-- `put_csv_report` returns the key under which it stored the rows. -/
theorem putCsvReport_follows {store : ArtifactStore} {jobId : Uuid} {rows : ReportRows}
    {entry : LogEntry} (before : [entry].Sublist w.log) :
    Follows isCloud t (store.putCsvReport jobId rows) (fun returned log =>
      [entry, reportStored t returned.1 rows].Sublist log) w := by
  have drawn : Follows isCloud t (perform .uuid4) (fun _ log => [entry].Sublist log) w :=
    follows_call (lasting_sublist _) before (fun _ _ => trivial) fun log _ sub =>
      sub.trans (List.sublist_append_left _ _)
  unfold ArtifactStore.putCsvReport
  refine follows_bind drawn fun reportId s before => ?_
  have stored : Follows isCloud t (perform (.putObject (store.objectKey jobId reportId) rows))
      (fun _ log => [entry, reportStored t (store.objectKey jobId reportId) rows].Sublist log) s :=
    follows_call (lasting_sublist _) before (fun _ _ => trivial) fun log _ sub =>
      sublist_snoc sub _
  exact follows_bind stored fun _ s sub => follows_pure sub

theorem lasting_didComplete (jobId : Uuid) : Lasting fun log => DidComplete t log jobId := by
  rintro log longer grows ⟨leaseSeconds, job, key, type, isGranted, isCompletion⟩
  exact ⟨leaseSeconds, job, key, type, grows.subset isGranted, grows.subset isCompletion⟩

/-- When the processing of a granted claim returns, the thread has completed the job. -/
theorem completeClaimedJob_follows (store : ArtifactStore) {jobId : Uuid} {leaseSeconds : Int}
    {job : ClaimedJob} (isGranted : granted t jobId leaseSeconds job ∈ w.log) :
    Follows isCloud t (completeClaimedJob store job) (fun _ log => DidComplete t log jobId) w := by
  have grant : [granted t jobId leaseSeconds job].Sublist w.log :=
    List.singleton_sublist.mpr isGranted
  unfold completeClaimedJob
  refine follows_tryCatch ?_ ?_
  · refine follows_bind (putCsvReport_follows grant) ?_
    rintro ⟨objectKey, objectType⟩ s sub
    have completed : Follows isCloud t (repository (.completeJobWithReport job.id
        job.processingToken (reportResult objectKey (reportRows job)) objectKey objectType))
        (fun _ log => DidComplete t log jobId) s := by
      refine follows_call (lasting_sublist _) sub ?_ ?_
      · intro log sub
        exact ⟨jobId, leaseSeconds, job, sub, rfl, rfl, rfl⟩
      · intro log _ sub
        refine ⟨leaseSeconds, job, objectKey, objectType, ?_, mem_snoc _ _⟩
        exact List.mem_append_left _ (sub.subset List.mem_cons_self)
    refine follows_bind completed fun _ s completed => ?_
    refine follows_record (lasting_didComplete jobId) completed fun s completed => ?_
    exact follows_record (lasting_didComplete jobId) completed fun s completed =>
      follows_pure completed
  · intro error s
    refine follows_record lasting_true trivial fun s _ => ?_
    exact follows_record lasting_true trivial fun s _ => follows_throw

/-- The heartbeat around the processing makes no restricted call. -/
theorem withHeartbeat_follows {α : Type} {heartbeat : VisibilityHeartbeat} {body : Run α}
    {A : List LogEntry → Prop} {post : List LogEntry → Prop} (lasting : Lasting A) (holds : A w.log)
    (keeps : Lasting post)
    (safe : ∀ s : World, A s.log → Follows isCloud t body (fun _ log => post log) s) :
    Follows isCloud t (withHeartbeat heartbeat body) (fun _ log => post log) w := by
  unfold withHeartbeat
  have started : Follows isCloud t (perform (.startThread heartbeat)) (fun _ log => A log) w :=
    follows_call lasting holds (fun _ _ => trivial) fun log _ still =>
      lasting (List.prefix_append _ _) still
  refine follows_bind started fun thread s still => ?_
  refine Discipline.safe_finally (Discipline.SafeCode.mono (safe s still) ?_)
  intro result s reached
  have stopped : Follows isCloud t (perform (.stopThread thread))
      (fun _ log => OnReturn (fun _ => post) result log) s := by
    have stays : Lasting fun log => OnReturn (fun _ => post) result log := by
      intro log longer grows still
      cases result with
      | ok value => exact keeps grows still
      | error error => trivial
    exact follows_call stays reached (fun _ _ => trivial) fun log _ still =>
      stays (List.prefix_append _ _) still
  refine Discipline.SafeCode.mono stopped ?_
  intro cleaned s still
  cases cleaned with
  | ok value => exact still
  | error error => trivial

theorem consumeClaimed_follows (store : ArtifactStore) (config : ConsumerConfig) {jobId : Uuid}
    {receiptHandle : ReceiptHandle} {job : ClaimedJob} {leaseSeconds : Int}
    (received : ReceivedFor t w.log receiptHandle jobId)
    (isGranted : granted t jobId leaseSeconds job ∈ w.log) :
    Follows isCloud t (consumeClaimed store config jobId receiptHandle job) (fun _ _ => True)
      w := by
  have lastingReceived : Lasting fun log => ReceivedFor t log receiptHandle jobId := by
    rintro log longer grows ⟨body, member, parsed⟩
    exact ⟨body, grows.subset member, parsed⟩
  have processed : Follows isCloud t (withHeartbeat ⟨jobId, job.processingToken, receiptHandle,
      config.visibilityTimeoutSeconds, config.visibilityHeartbeatSeconds⟩
        (completeClaimedJob store job)) (fun _ log => DidComplete t log jobId) w :=
    withHeartbeat_follows (lasting_mem _) isGranted (lasting_didComplete jobId)
      fun s isGranted => completeClaimedJob_follows store isGranted
  have lasting : Lasting fun log => DidComplete t log jobId ∧ ReceivedFor t log receiptHandle jobId :=
    fun grows still => ⟨lasting_didComplete jobId grows still.1, lastingReceived grows still.2⟩
  unfold consumeClaimed
  refine follows_tryCatch ?_ ?_
  · refine follows_bind (processed.frame lastingReceived received) fun _ s still => ?_
    have deleted : Follows isCloud t (perform (.deleteMessage receiptHandle)) (fun _ _ => True) s :=
      follows_call lasting still (fun log still => ⟨jobId, still.2, .inr still.1⟩)
        fun _ _ _ => trivial
    exact follows_bind deleted fun _ _ _ => follows_pure trivial
  · intro error s
    split
    · exact follows_pure trivial
    · exact follows_bind (follows_free fun _ => trivial) fun _ _ _ => follows_pure trivial

/-- A received message names the job that is read from it. -/
theorem receiveJob_follows :
    Follows isCloud t receiveJob (fun message log => ∀ jobId receiptHandle,
      message = some (jobId, receiptHandle) → ReceivedFor t log receiptHandle jobId) w := by
  have received : Follows isCloud t (perform .receiveMessage) (fun delivery log =>
      ∀ body receiptHandle, delivery = some ⟨body, receiptHandle⟩ →
        messageReceived t body receiptHandle ∈ log) w := by
    refine follows_call lasting_true trivial (fun _ _ => trivial) ?_
    rintro log _ _ body receiptHandle rfl
    exact mem_snoc _ _
  unfold receiveJob
  refine follows_bind received fun delivery s isReceived => ?_
  cases delivery with
  | none => exact follows_pure fun _ _ impossible => by cases impossible
  | some delivery =>
      refine follows_bind (follows_ofExcept (isReceived _ _ rfl)) ?_
      rintro jobId s ⟨parsed, member⟩
      refine follows_pure ?_
      rintro _ _ ⟨⟩
      exact ⟨delivery.body, member, parsed⟩

theorem consumeOneMessage_follows (store : ArtifactStore) (config : ConsumerConfig) :
    Follows isCloud t (consumeOneMessage store config) (fun _ _ => True) w := by
  unfold consumeOneMessage
  refine follows_bind (follows_tryCatch receiveJob_follows fun _ s =>
    follows_pure fun _ _ impossible => by cases impossible) fun message s received => ?_
  cases message with
  | none => exact follows_pure trivial
  | some message =>
      obtain ⟨jobId, receiptHandle⟩ := message
      have lasting : Lasting fun log => ReceivedFor t log receiptHandle jobId := by
        rintro log longer grows ⟨body, member, parsed⟩
        exact ⟨body, grows.subset member, parsed⟩
      refine follows_bind ((claimJob_follows jobId config.processingLeaseSeconds).frame lasting
        (received jobId receiptHandle rfl)) ?_
      rintro outcome s ⟨claim, received⟩
      match outcome with
      | .claimed job => exact consumeClaimed_follows store config received claim
      | .status .completed => exact follows_throw
      | .status .inProgressNotOwned => exact follows_pure trivial
      | .status .duplicateCompleted =>
          have settled : Lasting fun log => ReceivedFor t log receiptHandle jobId ∧
              SawCompleted t log jobId := by
            rintro log longer grows ⟨received, view, member, completed⟩
            exact ⟨lasting grows received, view, grows.subset member, completed⟩
          have deleted : Follows isCloud t (perform (.deleteMessage receiptHandle))
              (fun _ _ => True) s :=
            follows_call settled ⟨received, claim⟩
              (fun log still => ⟨jobId, still.1, .inl still.2⟩) fun _ _ _ => trivial
          exact follows_bind deleted fun _ _ _ => follows_pure trivial

/-! ### The other programs -/

theorem processJob_follows (store : ArtifactStore) (jobId : Uuid) (leaseSeconds : Int) :
    Follows isCloud t (processJob store jobId leaseSeconds) (fun _ _ => True) w := by
  unfold processJob
  refine follows_bind (claimJob_follows jobId leaseSeconds) fun outcome s claim => ?_
  match outcome with
  | .status status => exact follows_pure trivial
  | .claimed job =>
      refine follows_tryCatch ((completeClaimedJob_follows store claim).mono fun _ _ _ => trivial) ?_
      intro error s
      split
      · exact follows_throw
      · exact follows_bind (follows_free fun _ => trivial) fun _ _ _ => follows_throw

theorem heartbeat_follows (heartbeat : VisibilityHeartbeat) (thread fuel : Nat) :
    Follows isCloud t (heartbeat.run thread fuel) (fun _ _ => True) w := by
  induction fuel generalizing w with
  | zero => exact follows_pure trivial
  | succ fuel inductionHypothesis =>
      unfold VisibilityHeartbeat.run
      refine follows_bind (follows_free fun _ => trivial) fun stopped s _ => ?_
      split
      · exact follows_pure trivial
      · refine follows_bind (follows_free fun _ => trivial) fun leaseRenewed s _ => ?_
        split
        · exact follows_free fun _ => trivial
        · refine follows_bind (follows_tryCatch (follows_free fun _ => trivial) fun _ s =>
            follows_free fun _ => trivial) fun _ s _ => inductionHypothesis

theorem createJob_follows (jobType : String) (payload : PyJson) (correlationId : Option String) :
    Follows isCloud t (ApplicationService.createJob (createJobPublisher isCloud false) jobType
      payload correlationId) (fun _ _ => True) w := by
  unfold ApplicationService.createJob ApplicationService.insertJob
  refine follows_bind (follows_tryCatch (follows_free fun _ => trivial) fun error s => ?_)
    fun job s _ => ?_
  · split
    · exact follows_free fun _ => trivial
    · exact follows_throw
  · have published : Follows isCloud t ((createJobPublisher isCloud false).publish none job.id
        (correlationId.elim .null .str)) (fun _ _ => True) s := by
      cases isCloud with
      | true => exact follows_pure trivial
      | false => exact follows_free fun _ => trivial
    exact follows_bind published fun _ _ _ => follows_pure trivial

end Programs

/-- Every program of the platform follows the protocol. -/
theorem protocol_starts (isCloud : Bool) : (protocol isCloud).Starts := by
  intro t w program after _ started
  refine ⟨trivial, fun _ _ => ?_, ?_⟩
  · cases started <;> exact List.prefix_rfl
  · cases started with
    | createJob jobType payload correlationId =>
        exact Discipline.safe_task (createJob_follows jobType payload correlationId)
    | createCustomer => exact Discipline.safe_task (follows_free fun _ => trivial)
    | getJob => exact Discipline.safe_task (follows_free fun _ => trivial)
    | dispatchOutbox limit leaseSeconds =>
        exact Discipline.safe_task (dispatchOutbox_follows limit leaseSeconds)
    | consumeOneMessage store config =>
        exact Discipline.safe_task (consumeOneMessage_follows store config)
    | processJob store jobId leaseSeconds =>
        exact Discipline.safe_task (processJob_follows store jobId leaseSeconds)
    | @heartbeat index thread _ _ fuel =>
        exact Discipline.safe_task (heartbeat_follows thread.arguments index fuel)

/-- In every reachable pool the next call of each thread is allowed by its log. -/
theorem allowed_of_reachable {isCloud : Bool} {pool : Pool platform World}
    (reached : (jobPlatform isCloud).Reachable World.initial pool) {t : ThreadId}
    {call : PlatformCall} {rest : platform.Reply call → Program platform Unit}
    (running : pool.threads t = some (.call call rest)) :
    Allowed isCloud t pool.state.log call :=
  ((protocol isCloud).keeps_of_reachable (protocol_starts isCloud) trivial reached).pre running

end JobPlatform.Runtime
