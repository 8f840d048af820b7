import JobPlatform.Foundation.FencedLease
import JobPlatform.Store.Shape

/-!
Contract: fencing of the job claim and of the outbox claim.

Owns:
- the refinement of each row to a fenced lease: `jobRun` and `eventRun` show that along any run of
  repository transactions every job, and every outbox event, is a run of that lease;
- refusal: a call that presents a token which is not current changes nothing and says so.

The results use the freshness of `uuid4()` values. They do not need `NOW()` to be monotone.
-/

namespace JobPlatform.Store

open JobPlatform.Foundation
open Repository

/-! ### Runs by position -/

/-- The database before the request at position `i`. -/
def snapshot (requests : List Request) (i : Nat) : Database := committed .empty (requests.take i)

theorem snapshot_shape (requests : List Request) (i : Nat) : (snapshot requests i).Shape :=
  shape_of_committed _

theorem snapshot_succ {requests : List Request} {i : Nat} {request : Request}
    (isRequest : requests[i]? = some request) :
    snapshot requests (i + 1) = request.after (snapshot requests i) := by
  unfold snapshot
  rw [List.take_add_one, isRequest, Option.toList_some, committed_append]
  rfl

theorem snapshot_end {requests : List Request} {i : Nat} (atEnd : requests[i]? = none) :
    snapshot requests (i + 1) = snapshot requests i := by
  unfold snapshot
  have past : requests.length ≤ i := List.getElem?_eq_none_iff.mp atEnd
  rw [List.take_of_length_le past, List.take_of_length_le (past.trans i.le_succ)]

/-- Two requests of a run that draw a common value are one. -/
theorem FreshDraws.position_eq {requests : List Request} (fresh : FreshDraws requests)
    {i k : Nat} {one other : Request} (isOne : requests[i]? = some one)
    (isOther : requests[k]? = some other) {a b : Fin 3}
    (common : one.inputs.uuid a = other.inputs.uuid b) : i = k := by
  obtain ⟨_, apart⟩ := List.nodup_flatMap.mp fresh
  have drawn : ∀ (request : Request) (c : Fin 3), request.inputs.uuid c ∈ request.drawn :=
    fun request c => List.mem_ofFn.mpr ⟨c, rfl⟩
  obtain ⟨inOne, rfl⟩ := List.getElem?_eq_some_iff.mp isOne
  obtain ⟨inOther, rfl⟩ := List.getElem?_eq_some_iff.mp isOther
  rcases Nat.lt_trichotomy i k with before | same | after
  · exact absurd (common ▸ drawn _ b)
      (List.pairwise_iff_getElem.mp apart i k inOne inOther before (drawn _ a))
  · exact same
  · exact absurd (common ▸ drawn _ a)
      (List.pairwise_iff_getElem.mp apart k i inOther inOne after (drawn _ b))

/-! ### The refinement -/

/-- What a row keeps about its claim, and how each call acts on it. -/
structure Leased where
  claim : Database → Option (Claim Uuid Time)
  action : Time → (call : RepoCall) → call.Result → LeaseAction Uuid Time
  start : claim .empty = none
  step : ∀ {inputs : Inputs} {db after : Database} {call : RepoCall} {value : call.Result},
    db.Shape → Effect inputs db call value after →
      LeaseStep (claim db) (action inputs.now call value) (claim after)
  issue : ∀ {inputs : Inputs} {db after : Database} {call : RepoCall} {value : call.Result}
    {token : Uuid} {now lease : Time}, Effect inputs db call value after →
      action inputs.now call value = .claim token now lease → token = inputs.uuid 0
  attempts : Database → Nat
  unattempted : attempts .empty = 0
  count : ∀ {inputs : Inputs} {db after : Database} {call : RepoCall} {value : call.Result},
    Effect inputs db call value after →
      attempts after = attempts db + (action inputs.now call value).issued.toList.length

namespace Leased

variable (leased : Leased)

/-- What a request does to the claim: nothing when it raises. -/
def act (request : Request) (db : Database) : LeaseAction Uuid Time :=
  match request.reply db with
  | .ok value => leased.action request.inputs.now request.call value
  | .error _ => .idle

theorem act_of_ok {request : Request} {db : Database} {value : request.call.Result}
    (returned : request.reply db = .ok value) :
    leased.act request db = leased.action request.inputs.now request.call value := by
  unfold act
  rw [returned]

theorem act_of_error {request : Request} {db : Database} {error : Exn}
    (raised : request.reply db = .error error) : leased.act request db = .idle := by
  unfold act
  rw [raised]

theorem act_step (request : Request) {db : Database} (shape : db.Shape) :
    LeaseStep (leased.claim db) (leased.act request db) (leased.claim (request.after db)) := by
  rcases request.outcome db with ⟨error, raised, unchanged⟩ | ⟨value, returned, effect⟩
  · rw [leased.act_of_error raised, unchanged]
    exact .idle
  · rw [leased.act_of_ok returned]
    exact leased.step shape effect

theorem act_issue {request : Request} {db : Database} {token : Uuid} {now lease : Time}
    (issue : leased.act request db = .claim token now lease) : token = request.inputs.uuid 0 := by
  rcases request.outcome db with ⟨error, raised, _⟩ | ⟨value, returned, effect⟩
  · rw [leased.act_of_error raised] at issue
    cases issue
  · rw [leased.act_of_ok returned] at issue
    exact leased.issue effect issue

theorem act_count (request : Request) (db : Database) :
    leased.attempts (request.after db) =
      leased.attempts db + (leased.act request db).issued.toList.length := by
  rcases request.outcome db with ⟨error, raised, unchanged⟩ | ⟨value, returned, effect⟩
  · rw [leased.act_of_error raised, unchanged]
    rfl
  · rw [leased.act_of_ok returned]
    exact leased.count effect

/-- What the request at a position does to the claim. -/
def actAt (requests : List Request) (i : Nat) : LeaseAction Uuid Time :=
  match requests[i]? with
  | some request => leased.act request (snapshot requests i)
  | none => .idle

theorem actAt_of_some {requests : List Request} {i : Nat} {request : Request}
    (isRequest : requests[i]? = some request) :
    leased.actAt requests i = leased.act request (snapshot requests i) := by
  unfold actAt
  rw [isRequest]

theorem request_of_actAt {requests : List Request} {i : Nat} {action : LeaseAction Uuid Time}
    (acts : leased.actAt requests i = action) (busy : action ≠ .idle) :
    ∃ request, requests[i]? = some request ∧
      leased.act request (snapshot requests i) = action := by
  unfold actAt at acts
  split at acts
  next request isRequest => exact ⟨request, isRequest, acts⟩
  next => exact absurd acts.symm busy

/-- Along a run of repository transactions the row is a run of a fenced lease. -/
def run {requests : List Request} (fresh : FreshDraws requests) : LeaseRun Uuid Time where
  state i := leased.claim (snapshot requests i)
  action := leased.actAt requests
  start := leased.start
  step i := by
    cases isRequest : requests[i]? with
    | some request =>
        rw [leased.actAt_of_some isRequest, snapshot_succ isRequest]
        exact leased.act_step request (snapshot_shape requests i)
    | none =>
        rw [snapshot_end isRequest]
        unfold actAt
        rw [isRequest]
        exact .idle
  issued_once := by
    intro i k token now lease now' lease' issue again
    obtain ⟨one, isOne, oneActs⟩ := leased.request_of_actAt issue (by simp)
    obtain ⟨other, isOther, otherActs⟩ := leased.request_of_actAt again (by simp)
    exact fresh.position_eq isOne isOther
      ((leased.act_issue oneActs).symm.trans (leased.act_issue otherActs))

/-- The attempts a row counts are the tokens issued for it. -/
theorem attempts_eq {requests : List Request} (fresh : FreshDraws requests) (i : Nat) :
    leased.attempts (snapshot requests i) = ((leased.run fresh).issuedBefore i).length := by
  induction i with
  | zero => exact leased.unattempted
  | succ i inductionHypothesis =>
      rw [LeaseRun.issuedBefore_succ, List.length_append, ← inductionHypothesis]
      change _ = _ + (leased.actAt requests i).issued.toList.length
      cases isRequest : requests[i]? with
      | some request =>
          rw [leased.actAt_of_some isRequest, snapshot_succ isRequest]
          exact leased.act_count request _
      | none =>
          rw [snapshot_end isRequest, actAt, isRequest]
          rfl

end Leased

/-! ### Jobs -/

/-- The claim a job row records. -/
def JobRow.claim (job : JobRow) : Option (Claim Uuid Time) :=
  match job.processingToken, job.processingStartedAt with
  | some token, some since => some ⟨token, since⟩
  | _, _ => none

/-- What a call that returned did to the claim of a job. -/
def jobAction (jobId : Uuid) (now : Time) :
    (call : RepoCall) → call.Result → LeaseAction Uuid Time
  | .markJobProcessing id leaseSeconds, some claimed =>
      if id = jobId then .claim claimed.processingToken now (interval leaseSeconds) else .idle
  | .renewJobProcessingLease id token, true => if id = jobId then .renew token now else .idle
  | .completeJobWithReport id token .., _ => if id = jobId then .finish token else .idle
  | .failJob id token _, true => if id = jobId then .finish token else .idle
  | _, _ => .idle

theorem jobAction_idle {jobId : Uuid} {now : Time} {call : RepoCall} {value : call.Result}
    (idle : ¬ ActsOnJob jobId call value) : jobAction jobId now call value = .idle := by
  unfold jobAction
  split <;> simp_all [ActsOnJob]

/-- A fenced row of the right shape is under the presented token. -/
theorem claim_of_jobFence {job : JobRow} (shape : job.Shape) {token : Uuid}
    (holds : (jobFence token job).Holds) : ∃ since, job.claim = some ⟨token, since⟩ := by
  simp only [jobFence, Truth.holds_and, Truth.holds_eq_some] at holds
  obtain ⟨since, isSince⟩ :=
    Option.ne_none_iff_exists'.mp (shape.started.mp (by simp [holds.2]))
  exact ⟨since, by simp [JobRow.claim, holds.2, isSince]⟩

/-- A row that may be claimed has no claim younger than the lease. -/
theorem expired_of_jobClaimable {job : JobRow} (shape : job.Shape) {leaseSeconds : Int}
    {now : Time} (holds : (jobClaimable leaseSeconds now job).Holds) {claim : Claim Uuid Time}
    (current : job.claim = some claim) : claim.since < now - interval leaseSeconds := by
  unfold JobRow.claim at current
  split at current
  next token since isToken isSince =>
    cases current
    have processing : job.status = .processing := shape.token.mpr (by simp [isToken])
    simpa [jobClaimable, processing, isSince] using holds
  next => cases current

theorem leaseStep_of_jobChange {inputs : Inputs} {jobId : Uuid} {call : RepoCall}
    {value : call.Result} {before after : Option JobRow}
    (change : JobChange inputs jobId call value before after)
    (shape : ∀ job, before = some job → job.Shape) :
    LeaseStep (before.bind JobRow.claim) (jobAction jobId inputs.now call value)
      (after.bind JobRow.claim) := by
  cases change with
  | same idle =>
      rw [jobAction_idle idle]
      exact .idle
  | created => exact .idle
  | @claimed _ old holds =>
      rw [jobAction, if_pos rfl]
      exact .claim fun claim current => expired_of_jobClaimable (shape old rfl) holds current
  | @renewed token old holds =>
      obtain ⟨since, isClaim⟩ := claim_of_jobFence (shape old rfl) holds
      simp only [jobFence, Truth.holds_and, Truth.holds_eq_some] at holds
      have renewed : (renewJobRow inputs.now old).claim = some ⟨token, inputs.now⟩ := by
        simp [JobRow.claim, renewJobRow, holds.2]
      simp only [Option.bind_some, isClaim, renewed, jobAction, if_true]
      exact .renew
  | @completed token _ _ _ old holds =>
      obtain ⟨since, isClaim⟩ := claim_of_jobFence (shape old rfl) holds
      simp only [Option.bind_some, isClaim, jobAction, if_true]
      exact .finish
  | @failed token _ old holds =>
      obtain ⟨since, isClaim⟩ := claim_of_jobFence (shape old rfl) holds
      simp only [Option.bind_some, isClaim, jobAction, if_true]
      exact .finish

theorem issue_of_jobChange {inputs : Inputs} {jobId : Uuid} {call : RepoCall}
    {value : call.Result} {before after : Option JobRow}
    (change : JobChange inputs jobId call value before after) {token : Uuid} {now lease : Time}
    (issue : jobAction jobId inputs.now call value = .claim token now lease) :
    token = inputs.uuid 0 := by
  cases change with
  | same idle =>
      rw [jobAction_idle idle] at issue
      cases issue
  | created => cases issue
  | claimed =>
      rw [jobAction, if_pos rfl] at issue
      cases issue
      rfl
  | renewed =>
      rw [jobAction, if_pos rfl] at issue
      cases issue
  | completed =>
      rw [jobAction, if_pos rfl] at issue
      cases issue
  | failed =>
      rw [jobAction, if_pos rfl] at issue
      cases issue

/-- The attempts of a row that may be missing. -/
def jobAttempts (job : Option JobRow) : Nat := job.elim 0 JobRow.attempts

theorem count_of_jobChange {inputs : Inputs} {jobId : Uuid} {call : RepoCall}
    {value : call.Result} {before after : Option JobRow}
    (change : JobChange inputs jobId call value before after) :
    jobAttempts after =
      jobAttempts before + (jobAction jobId inputs.now call value).issued.toList.length := by
  cases change with
  | same idle =>
      rw [jobAction_idle idle]
      rfl
  | created => rfl
  | claimed =>
      rw [jobAction, if_pos rfl]
      rfl
  | renewed =>
      rw [jobAction, if_pos rfl]
      rfl
  | completed =>
      rw [jobAction, if_pos rfl]
      rfl
  | failed =>
      rw [jobAction, if_pos rfl]
      rfl

/-- The claim of a job as a fenced lease. -/
def jobLease (jobId : Uuid) : Leased where
  claim db := (db.job? jobId).bind JobRow.claim
  action := jobAction jobId
  start := rfl
  step shape effect :=
    leaseStep_of_jobChange (jobChange_of_effect effect jobId) fun job found =>
      shape.jobs job (Database.job?_eq_some.mp found).1
  issue effect := issue_of_jobChange (jobChange_of_effect effect jobId)
  attempts db := jobAttempts (db.job? jobId)
  unattempted := rfl
  count effect := count_of_jobChange (jobChange_of_effect effect jobId)

/-! ### Events -/

/-- The claim an outbox row records. -/
def OutboxRow.claim (event : OutboxRow) : Option (Claim Uuid Time) :=
  match event.claimToken, event.lockedAt with
  | some token, some since => some ⟨token, since⟩
  | _, _ => none

/-- What a call that returned did to the claim of an event. -/
def eventAction (eventId : Uuid) (now : Time) :
    (call : RepoCall) → call.Result → LeaseAction Uuid Time
  | .claimOutboxEvents _ leaseSeconds, events =>
      match events.find? fun event => event.id = eventId with
      | some event => .claim event.claimToken now (interval leaseSeconds)
      | none => .idle
  | .markOutboxPublished id token, true => if id = eventId then .finish token else .idle
  | .markOutboxFailed id token _, true => if id = eventId then .finish token else .idle
  | _, _ => .idle

theorem eventAction_idle {eventId : Uuid} {now : Time} {call : RepoCall} {value : call.Result}
    (idle : ¬ ActsOnEvent eventId call value) : eventAction eventId now call value = .idle := by
  cases call with
  | claimOutboxEvents =>
      have absent : List.find? (fun event : ClaimedEvent => decide (event.id = eventId)) value =
          none := by
        rw [List.find?_eq_none]
        intro event member isId
        exact idle ⟨event, member, of_decide_eq_true isId⟩
      simp only [eventAction, absent]
  | _ =>
      unfold eventAction
      split <;> simp_all [ActsOnEvent]

/-- A batch that returns an event issues the token of its row. -/
theorem eventAction_claim {inputs : Inputs} {eventId : Uuid} {limit leaseSeconds : Int}
    {events : List ClaimedEvent} {event : OutboxRow}
    (returned : ∀ claimed : ClaimedEvent, claimed.id = eventId ∧ claimed ∈ events ↔
      claimed = .ofRow (inputs.uuid 0) (claimEventRow (inputs.uuid 0) inputs.now event)) :
    eventAction eventId inputs.now (.claimOutboxEvents limit leaseSeconds) events =
      .claim (inputs.uuid 0) inputs.now (interval leaseSeconds) := by
  obtain ⟨isId, member⟩ := (returned _).mpr rfl
  cases found : events.find? fun claimed => decide (claimed.id = eventId) with
  | none => exact absurd isId (by simpa using List.find?_eq_none.mp found _ member)
  | some claimed =>
      have isRow := (returned claimed).mp
        ⟨by simpa using List.find?_some found, List.mem_of_find?_eq_some found⟩
      simp only [eventAction, found, isRow]
      rfl

/-- A fenced event of the right shape is under the presented token. -/
theorem claim_of_eventFence {event : OutboxRow} (shape : event.Shape) {token : Uuid}
    (holds : (eventFence token event).Holds) : ∃ since, event.claim = some ⟨token, since⟩ := by
  simp only [eventFence, Truth.holds_and, Truth.holds_eq_some] at holds
  obtain ⟨since, isSince⟩ :=
    Option.ne_none_iff_exists'.mp (shape.locked.mp (by simp [holds.2]))
  exact ⟨since, by simp [OutboxRow.claim, holds.2, isSince]⟩

/-- An event that may be claimed has no claim younger than the lease. -/
theorem expired_of_eventClaimable {event : OutboxRow} (shape : event.Shape) {leaseSeconds : Int}
    {now : Time} (holds : (eventClaimable leaseSeconds now event).Holds)
    {claim : Claim Uuid Time} (current : event.claim = some claim) :
    claim.since < now - interval leaseSeconds := by
  unfold OutboxRow.claim at current
  split at current
  next token since isToken isSince =>
    cases current
    have publishing : event.status = .publishing := shape.token.mpr (by simp [isToken])
    simpa [eventClaimable, publishing, isSince] using holds
  next => cases current

theorem leaseStep_of_eventChange {inputs : Inputs} {eventId : Uuid} {call : RepoCall}
    {value : call.Result} {before after : Option OutboxRow}
    (change : EventChange inputs eventId call value before after)
    (shape : ∀ event, before = some event → event.Shape) :
    LeaseStep (before.bind OutboxRow.claim) (eventAction eventId inputs.now call value)
      (after.bind OutboxRow.claim) := by
  cases change with
  | same idle =>
      rw [eventAction_idle idle]
      exact .idle
  | created => exact .idle
  | @claimed _ leaseSeconds events old holds returned =>
      rw [eventAction_claim returned]
      exact .claim fun claim current => expired_of_eventClaimable (shape old rfl) holds current
  | @published token old holds =>
      obtain ⟨since, isClaim⟩ := claim_of_eventFence (shape old rfl) holds
      simp only [Option.bind_some, isClaim, eventAction, if_true]
      exact .finish
  | @failed token _ old holds =>
      obtain ⟨since, isClaim⟩ := claim_of_eventFence (shape old rfl) holds
      simp only [Option.bind_some, isClaim, eventAction, if_true]
      exact .finish

theorem issue_of_eventChange {inputs : Inputs} {eventId : Uuid} {call : RepoCall}
    {value : call.Result} {before after : Option OutboxRow}
    (change : EventChange inputs eventId call value before after) {token : Uuid}
    {now lease : Time} (issue : eventAction eventId inputs.now call value = .claim token now lease) :
    token = inputs.uuid 0 := by
  cases change with
  | same idle =>
      rw [eventAction_idle idle] at issue
      cases issue
  | created => cases issue
  | claimed _ returned =>
      rw [eventAction_claim returned] at issue
      cases issue
      rfl
  | published =>
      rw [eventAction, if_pos rfl] at issue
      cases issue
  | failed =>
      rw [eventAction, if_pos rfl] at issue
      cases issue

/-- The attempts of a row that may be missing. -/
def eventAttempts (event : Option OutboxRow) : Nat := event.elim 0 OutboxRow.attempts

theorem count_of_eventChange {inputs : Inputs} {eventId : Uuid} {call : RepoCall}
    {value : call.Result} {before after : Option OutboxRow}
    (change : EventChange inputs eventId call value before after) :
    eventAttempts after =
      eventAttempts before + (eventAction eventId inputs.now call value).issued.toList.length := by
  cases change with
  | same idle =>
      rw [eventAction_idle idle]
      rfl
  | created => rfl
  | claimed _ returned =>
      rw [eventAction_claim returned]
      rfl
  | published =>
      rw [eventAction, if_pos rfl]
      rfl
  | failed =>
      rw [eventAction, if_pos rfl]
      rfl

/-- The claim of an outbox event as a fenced lease. -/
def eventLease (eventId : Uuid) : Leased where
  claim db := (db.event? eventId).bind OutboxRow.claim
  action := eventAction eventId
  start := rfl
  step shape effect :=
    leaseStep_of_eventChange (eventChange_of_effect effect eventId) fun event found =>
      shape.events event (Database.event?_eq_some.mp found).1
  issue effect := issue_of_eventChange (eventChange_of_effect effect eventId)
  attempts db := eventAttempts (db.event? eventId)
  unattempted := rfl
  count effect := count_of_eventChange (eventChange_of_effect effect eventId)

/-! ### Refusal -/

/-- The call presents a token for the job. -/
def PresentsJobToken (jobId token : Uuid) : RepoCall → Prop
  | .renewJobProcessingLease id processingToken => id = jobId ∧ processingToken = token
  | .completeJobWithReport id processingToken .. => id = jobId ∧ processingToken = token
  | .failJob id processingToken _ => id = jobId ∧ processingToken = token
  | _ => False

/-- The call presents a token for the event. -/
def PresentsEventToken (eventId token : Uuid) : RepoCall → Prop
  | .markOutboxPublished id claimToken => id = eventId ∧ claimToken = token
  | .markOutboxFailed id claimToken _ => id = eventId ∧ claimToken = token
  | _ => False

/-- The reply says that the claim was not current: `False`, or `LostJobClaimError`. -/
def ReportsLostClaim : (call : RepoCall) → Except Exn call.Result → Prop
  | .renewJobProcessingLease .., reply => reply = .ok false
  | .completeJobWithReport .., reply => reply = .error .lostJobClaimError
  | .failJob .., reply => reply = .ok false
  | .markOutboxPublished .., reply => reply = .ok false
  | .markOutboxFailed .., reply => reply = .ok false
  | _, _ => False

/-- The request changes nothing and reports the lost claim, unless a statement of its own failed;
then it changes nothing and raises that failure. -/
structure Refused (request : Request) (db : Database) : Prop where
  unchanged : request.after db = db
  reported : ReportsLostClaim request.call (request.reply db) ∨
    ∃ fault, some fault ∈ request.faults ∧ request.reply db = .error fault

/-- The two ways a refused request ends. -/
private theorem refused_of_cases {request : Request} {db : Database}
    {expected : Except Exn request.call.Result} (reports : ReportsLostClaim request.call expected)
    (cases : (∃ fault, some fault ∈ request.faults ∧
        request.call.run request.inputs request.faults db = (.error fault, db)) ∨
      request.call.run request.inputs request.faults db = (expected, db)) :
    Refused request db := by
  rcases cases with ⟨fault, member, failed⟩ | lost
  · exact ⟨congrArg Prod.snd failed, .inr ⟨fault, member, congrArg Prod.fst failed⟩⟩
  · have isReply : request.reply db = expected := congrArg Prod.fst lost
    exact ⟨congrArg Prod.snd lost, .inl (isReply ▸ reports)⟩

theorem updateJob_stale {db : Database} {jobId : Uuid} {clause : JobRow → Truth}
    (stale : ∀ job, db.job? jobId = some job → ¬ (clause job).Holds) (set : JobRow → JobRow)
    (fixed : ∀ row, (set row).id = row.id) :
    updateJob jobId clause set fixed db = .ok ([], db) := by
  obtain ⟨row, after, updated, update⟩ := updateJob_spec db jobId clause set fixed
  cases update with
  | hit found holds => exact absurd holds (stale _ found)
  | miss => exact updated

theorem updateEvent_stale {db : Database} {eventId : Uuid} {clause : OutboxRow → Truth}
    (stale : ∀ event, db.event? eventId = some event → ¬ (clause event).Holds)
    (set : OutboxRow → OutboxRow) (fixed : ∀ row, (set row).id = row.id) :
    updateEvent eventId clause set fixed db = .ok ([], db) := by
  obtain ⟨row, after, updated, update⟩ := updateEvent_spec db eventId clause set fixed
  cases update with
  | hit found holds => exact absurd holds (stale _ found)
  | miss => exact updated

/-- A call that presents a token the job is not under is refused. -/
theorem refused_of_stale_job {request : Request} {db : Database} {jobId token : Uuid}
    (presents : PresentsJobToken jobId token request.call)
    (stale : ∀ job, db.job? jobId = some job → job.processingToken ≠ some token) :
    Refused request db := by
  have unfenced : ∀ job, db.job? jobId = some job → ¬ (jobFence token job).Holds := by
    intro job found holds
    simp only [jobFence, Truth.holds_and, Truth.holds_eq_some] at holds
    exact stale job found holds.2
  obtain ⟨call, inputs, faults⟩ := request
  cases call with
  | renewJobProcessingLease id processingToken =>
      obtain ⟨rfl, rfl⟩ := presents
      exact refused_of_cases rfl (Txn.commit_lone (updateJob_stale unfenced _ _) faults)
  | completeJobWithReport id processingToken =>
      obtain ⟨rfl, rfl⟩ := presents
      exact refused_of_cases rfl (Txn.commit_raise (updateJob_stale unfenced _ _) rfl faults)
  | failJob id processingToken error =>
      obtain ⟨rfl, rfl⟩ := presents
      exact refused_of_cases rfl (Txn.commit_lone (updateJob_stale unfenced _ _) faults)
  | _ => exact presents.elim

/-- A call that presents a token the event is not under is refused. -/
theorem refused_of_stale_event {request : Request} {db : Database} {eventId token : Uuid}
    (presents : PresentsEventToken eventId token request.call)
    (stale : ∀ event, db.event? eventId = some event → event.claimToken ≠ some token) :
    Refused request db := by
  have unfenced : ∀ event, db.event? eventId = some event → ¬ (eventFence token event).Holds := by
    intro event found holds
    simp only [eventFence, Truth.holds_and, Truth.holds_eq_some] at holds
    exact stale event found holds.2
  obtain ⟨call, inputs, faults⟩ := request
  cases call with
  | markOutboxPublished id claimToken =>
      obtain ⟨rfl, rfl⟩ := presents
      exact refused_of_cases rfl (Txn.commit_lone (updateEvent_stale unfenced _ _) faults)
  | markOutboxFailed id claimToken error =>
      obtain ⟨rfl, rfl⟩ := presents
      exact refused_of_cases rfl (Txn.commit_lone (updateEvent_stale unfenced _ _) faults)
  | _ => exact presents.elim

/-! ### The guarantees -/

/-- The `processing_token` of a job. -/
def jobToken (jobId : Uuid) (db : Database) : Option Uuid :=
  (db.job? jobId).bind JobRow.processingToken

/-- The `claim_token` of an event. -/
def eventToken (eventId : Uuid) (db : Database) : Option Uuid :=
  (db.event? eventId).bind OutboxRow.claimToken

theorem heldUnder_job {job : Option JobRow} (shape : ∀ row, job = some row → row.Shape)
    {token : Uuid} :
    HeldUnder (job.bind JobRow.claim) token ↔ job.bind JobRow.processingToken = some token := by
  unfold HeldUnder
  cases job with
  | none => simp
  | some row =>
      cases isToken : row.processingToken with
      | none => simp [JobRow.claim, isToken]
      | some current =>
          obtain ⟨since, isSince⟩ :=
            Option.ne_none_iff_exists'.mp ((shape row rfl).started.mp (by simp [isToken]))
          simp [JobRow.claim, isToken, isSince]

theorem heldUnder_event {event : Option OutboxRow} (shape : ∀ row, event = some row → row.Shape)
    {token : Uuid} :
    HeldUnder (event.bind OutboxRow.claim) token ↔
      event.bind OutboxRow.claimToken = some token := by
  unfold HeldUnder
  cases event with
  | none => simp
  | some row =>
      cases isToken : row.claimToken with
      | none => simp [OutboxRow.claim, isToken]
      | some current =>
          obtain ⟨since, isSince⟩ :=
            Option.ne_none_iff_exists'.mp ((shape row rfl).locked.mp (by simp [isToken]))
          simp [OutboxRow.claim, isToken, isSince]

/-- What a run guarantees about the claims on one row. `token` is the row's token column,
`presents` says which calls present a token for the row, and `action` what the request at each
position did to the claim, read off its reply. -/
structure Fenced (requests : List Request) (token : Database → Option Uuid)
    (presents : Uuid → RepoCall → Prop) (action : Nat → LeaseAction Uuid Time)
    (attempts : Database → Nat) : Prop where
  /-- Once a token is no longer current, every later call presenting it is refused. -/
  refused : ∀ {stale i k m request}, token (snapshot requests i) = some stale → i ≤ k →
    token (snapshot requests k) ≠ some stale → k ≤ m → requests[m]? = some request →
      presents stale request.call → Refused request (snapshot requests m)
  /-- A claim ends at most once. -/
  ends_once : ∀ {ended i k},
    token (snapshot requests i) = some ended → token (snapshot requests (i + 1)) ≠ some ended →
    token (snapshot requests k) = some ended → token (snapshot requests (k + 1)) ≠ some ended →
      i = k
  /-- A claim ends by its own finalisation, or displaced by a newer claim. -/
  ends_by : ∀ {ended i},
    token (snapshot requests i) = some ended → token (snapshot requests (i + 1)) ≠ some ended →
      action i = .finish ended ∨ ∃ newer now lease, action i = .claim newer now lease ∧
        newer ≠ ended ∧ token (snapshot requests (i + 1)) = some newer
  /-- A current claim is displaced only when the time exceeds its last claim or renewal by more
  than the lease of the displacing caller. -/
  displaced : ∀ {current i newer now lease}, token (snapshot requests i) = some current →
    action i = .claim newer now lease →
      ∃ k < i, ∃ since, (action k).Touches current since ∧
        (∀ m, k < m → m < i → ∀ time, ¬ (action m).Touches current time) ∧ since + lease < now
  /-- The attempts of the row are the tokens issued for it, no two of them equal. -/
  attempts_issued : ∀ i, attempts (snapshot requests i) =
    ((List.range i).filterMap fun k => (action k).issued).length
  issued_distinct : ∀ i, ((List.range i).filterMap fun k => (action k).issued).Nodup

/-- A leased row is fenced, when the token column is the token of its claim and stale calls are
refused. -/
theorem Leased.fenced (leased : Leased) {requests : List Request} (fresh : FreshDraws requests)
    {token : Database → Option Uuid} {presents : Uuid → RepoCall → Prop}
    (current : ∀ {db : Database} {held : Uuid}, db.Shape →
      (HeldUnder (leased.claim db) held ↔ token db = some held))
    (refuses : ∀ {request : Request} {db : Database} {stale : Uuid}, presents stale request.call →
      token db ≠ some stale → Refused request db) :
    Fenced requests token presents (leased.actAt requests) leased.attempts := by
  have held : ∀ {i : Nat} {t : Uuid}, HeldUnder ((leased.run fresh).state i) t ↔
      token (snapshot requests i) = some t := current (snapshot_shape requests _)
  have ends : ∀ {t : Uuid} {i : Nat}, token (snapshot requests i) = some t →
      token (snapshot requests (i + 1)) ≠ some t → (leased.run fresh).EndsAt t i :=
    fun isCurrent isLost => ⟨held.mpr isCurrent, fun still => isLost (held.mp still)⟩
  constructor
  · intro stale i k m request isCurrent later isLost further _ presented
    refine refuses presented fun again => ?_
    exact LeaseRun.never_returns (held.mpr isCurrent) later (fun still => isLost (held.mp still))
      further (held.mpr again)
  · intro ended i k atOne afterOne atOther afterOther
    exact LeaseRun.ends_once (ends atOne afterOne) (ends atOther afterOther)
  · intro ended i isCurrent isLost
    rcases LeaseRun.ends_by (ends isCurrent isLost) with
      finished | ⟨claim, newer, now, lease, _, _, displaced, isNewer, _⟩
    · exact .inl finished
    · have becomes : token (snapshot requests (i + 1)) = some newer :=
        held.mp ⟨⟨newer, now⟩, isNewer, rfl⟩
      refine .inr ⟨newer, now, lease, displaced, ?_, becomes⟩
      rintro rfl
      exact isLost becomes
  · intro held' i newer now lease isCurrent claims
    obtain ⟨claim, isClaim, rfl⟩ := held.mpr isCurrent
    obtain ⟨k, earlier, touches, last⟩ := LeaseRun.last_touch isClaim
    have step := (leased.run fresh).step i
    have action : (leased.run fresh).action i = .claim newer now lease := claims
    rw [action] at step
    exact ⟨k, earlier, claim.since, touches, last, lt_sub_iff_add_lt.mp (step.expired isClaim)⟩
  · exact leased.attempts_eq fresh
  · intro i
    have distinct : ((leased.run fresh).issuedBefore i).Nodup := LeaseRun.nodup_issuedBefore i
    exact distinct

/-- Every job and every outbox event is fenced along every run. -/
theorem fencing (requests : List Request) (fresh : FreshDraws requests) :
    (∀ jobId, Fenced requests (jobToken jobId) (PresentsJobToken jobId)
      ((jobLease jobId).actAt requests) fun db => jobAttempts (db.job? jobId)) ∧
    ∀ eventId, Fenced requests (eventToken eventId) (PresentsEventToken eventId)
      ((eventLease eventId).actAt requests) fun db => eventAttempts (db.event? eventId) := by
  constructor
  · intro jobId
    refine (jobLease jobId).fenced fresh (fun shape => heldUnder_job fun job found =>
      shape.jobs job (Database.job?_eq_some.mp found).1) fun presents stale => ?_
    refine refused_of_stale_job presents fun job found isToken => stale ?_
    simp [jobToken, found, isToken]
  · intro eventId
    refine (eventLease eventId).fenced fresh (fun shape => heldUnder_event fun event found =>
      shape.events event (Database.event?_eq_some.mp found).1) fun presents stale => ?_
    refine refused_of_stale_event presents fun event found isToken => stale ?_
    simp [eventToken, found, isToken]

/-- A run in which a second worker displaces the first after the lease, and the first then fails
to complete. -/
def reclaimRun : List Request :=
  let jobId := (Inputs.numbered 0 0).uuid 0
  let token (number : Nat) := (Inputs.numbered number 0).uuid 0
  [⟨.createJob "csv_report" (.obj []) none, .numbered 0 0, []⟩,
    ⟨.markJobProcessing jobId 120, .numbered 1 (interval 1), []⟩,
    ⟨.markJobProcessing jobId 120, .numbered 2 (interval 122), []⟩,
    ⟨.completeJobWithReport jobId (token 1) .null "reports/a.csv" "text/csv",
      .numbered 3 (interval 123), []⟩,
    ⟨.completeJobWithReport jobId (token 2) .null "reports/b.csv" "text/csv",
      .numbered 4 (interval 124), []⟩]

theorem fencing_reclaimRun :
    FreshDraws reclaimRun ∧ Fenced reclaimRun (jobToken (Uuid.ofInt 0))
      (PresentsJobToken (Uuid.ofInt 0)) ((jobLease (Uuid.ofInt 0)).actAt reclaimRun)
      fun db => jobAttempts (db.job? (Uuid.ofInt 0)) := by
  have fresh : FreshDraws reclaimRun := by
    unfold FreshDraws
    decide
  exact ⟨fresh, (fencing reclaimRun fresh).1 (Uuid.ofInt 0)⟩

end JobPlatform.Store
