import JobPlatform.Runtime.Worker
import JobPlatform.Store.Ranking
import JobPlatform.Store.Undisturbed

/-!
Contract: one round of a dispatcher that is alone with the outbox.

Owns:
- `loneWorker`, the calls of a dispatcher that nothing disturbs but the refusal of some sends;
- `round_settles`: one `dispatch_outbox` publishes or fails each event of its batch, and touches no
  other.
-/

namespace JobPlatform.Runtime

open JobPlatform.Foundation JobPlatform.Store
open JobPlatform.Store.Repository

/-- The event can be dispatched: it is supported and readable, and its send is not refused. -/
def Dispatchable (refuses : Uuid → Bool) (event : OutboxRow) : Prop :=
  event.eventType = "job.created" ∧ event.version = 1 ∧
    (readOutboxPayload event.payload).isOk = true ∧ refuses event.id = false

instance (refuses : Uuid → Bool) : DecidablePred (Dispatchable refuses) := fun _ =>
  inferInstanceAs (Decidable (_ ∧ _))

/-- The calls of a dispatcher whose transactions all run: the state is the database and the number
of transactions so far, and `inputs` says what each of them draws. A dispatcher makes no other
calls than these. -/
def loneWorker (refuses : Uuid → Bool) (inputs : Nat → Inputs) :
    (call : PlatformCall) → Database × Nat → platform.Reply call × (Database × Nat)
  | .repository call, (db, number) =>
      let (reply, after) := call.run (inputs number) [] db
      (reply, after, number + 1)
  | .sendMessage origin _, state =>
      if origin.any fun event => refuses event.1 then (.error (.other "ClientError"), state)
      else (.ok (), state)
  | .record .., state => (.ok (), state)
  | _, state => (.error (.other "NotImplementedError"), state)

/-- One `dispatch_outbox` of a worker in cloud mode. -/
def round (refuses : Uuid → Bool) (inputs : Nat → Inputs) (limit leaseSeconds : Int)
    (state : Database × Nat) : Database × Nat :=
  (Code.meaning (loneWorker refuses inputs)
    (dispatchOutbox (createJobPublisher true true) limit leaseSeconds) state).2

/-- What no dispatcher changes of an event. -/
structure SameEvent (before after : OutboxRow) : Prop where
  id : after.id = before.id
  eventType : after.eventType = before.eventType
  version : after.version = before.version
  payload : after.payload = before.payload
  createdAt : after.createdAt = before.createdAt

/-- What a round makes of an event of its batch. -/
structure Settled (refuses : Uuid → Bool) (before after : OutboxRow) : Prop where
  same : SameEvent before after
  status : after.status = if Dispatchable refuses before then .published else .failed
  unlocked : after.lockedAt = none

/-! ### One event -/

section Round

variable (refuses : Uuid → Bool) (inputs : Nat → Inputs) {db : Database} (number : Nat)

@[simp] theorem meaning_record (metric : Metric) (labels : List String) (state : Database × Nat) :
    Code.meaning (loneWorker refuses inputs) (record metric labels) state = (.ok (), state) := rfl

theorem meaning_of_returns {call : RepoCall} {reply : Except Exn call.Result} {after : Database}
    (returns : call.run (inputs number) [] db = (reply, after)) :
    Code.meaning (loneWorker refuses inputs) (repository call) (db, number) =
      (reply, after, number + 1) :=
  congrArg (fun result => (result.1, result.2, number + 1)) returns

/-- The event as its claim returned it: the row is claimed under the token of the event. -/
structure Held (db : Database) (event : ClaimedEvent) (row : OutboxRow) : Prop where
  found : db.event? event.id = some row
  fence : (eventFence event.claimToken row).Holds
  read : event = .ofRow event.claimToken row

variable {event : ClaimedEvent} {row : OutboxRow}

/-- An event that can be dispatched is sent and marked. -/
theorem meaning_publishEvent_ok (held : Held db event row) (can : Dispatchable refuses row)
    (dispatched : Nat) :
    Code.meaning (loneWorker refuses inputs) (publishEvent .sqs event dispatched) (db, number) =
      (.ok (dispatched + 1), db.setEvents [event.id] (publishEventRow (inputs number).now)
        (publishEventRow_id (inputs number).now), number + 1) := by
  obtain ⟨eventType, version, readable, accepted⟩ := can
  have sameType : event.eventType = "job.created" := by rw [held.read]; exact eventType
  have sameVersion : event.version = 1 := by rw [held.read]; exact version
  have samePayload : event.payload = row.payload := by rw [held.read]; rfl
  have sameId : event.id = row.id := by rw [held.read]; rfl
  unfold publishEvent
  simp only [Code.meaning_bind, meaning_record, sameType, sameVersion, samePayload, ne_eq,
    not_true_eq_false, or_self, if_false]
  cases isRead : readOutboxPayload row.payload with
  | error error =>
      rw [isRead] at readable
      cases readable
  | ok payload =>
      obtain ⟨jobId, correlationId⟩ := payload
      have accepted : refuses event.id = false := sameId ▸ accepted
      have sent : Code.meaning (loneWorker refuses inputs) (JobPublisher.sqs.publish
          (some (event.id, event.claimToken)) jobId correlationId) (db, number) =
          (.ok (), db, number) := by
        change (if refuses event.id then _ else _) = _
        rw [accepted]
        rfl
      have marked := meaning_of_returns refuses inputs number
        (markOutboxPublished_returns (inputs number) held.found held.fence)
      simp only [Code.meaning_ofExcept, sent, marked]
      rfl

/-- An event that cannot be dispatched raises before it is marked. -/
theorem meaning_publishEvent_error (held : Held db event row) (cannot : ¬ Dispatchable refuses row)
    (dispatched : Nat) :
    ∃ error, Code.meaning (loneWorker refuses inputs) (publishEvent .sqs event dispatched)
      (db, number) = (.error error, db, number) := by
  have sameType : event.eventType = row.eventType := by rw [held.read]; rfl
  have sameVersion : event.version = row.version := by rw [held.read]; rfl
  have samePayload : event.payload = row.payload := by rw [held.read]; rfl
  have sameId : event.id = row.id := by rw [held.read]; rfl
  unfold publishEvent
  simp only [Code.meaning_bind, meaning_record, sameType, sameVersion, samePayload]
  by_cases supported : row.eventType ≠ "job.created" ∨ row.version ≠ 1
  · rw [if_pos supported]
    exact ⟨.valueError, rfl⟩
  · rw [if_neg supported]
    cases isRead : readOutboxPayload row.payload with
    | error error =>
        exact ⟨error, by simp only [Code.meaning_bind, Code.meaning_ofExcept]⟩
    | ok payload =>
        obtain ⟨jobId, correlationId⟩ := payload
        have refused : refuses event.id = true := by
          rw [sameId]
          by_contra accepted
          apply cannot
          simp only [not_or, not_not] at supported
          exact ⟨supported.1, supported.2, by rw [isRead]; rfl, by simpa using accepted⟩
        have raised : Code.meaning (loneWorker refuses inputs) (JobPublisher.sqs.publish
            (some (event.id, event.claimToken)) jobId correlationId) (db, number) =
            (.error (.other "ClientError"), db, number) := by
          change (if refuses event.id then _ else _) = _
          rw [refused]
          rfl
        exact ⟨.other "ClientError", by
          simp only [Code.meaning_bind, Code.meaning_ofExcept, raised]⟩

/-- The metric of a reclaimed event changes nothing. -/
theorem meaning_dispatchEvent (dispatched : Nat) (state : Database × Nat) :
    Code.meaning (loneWorker refuses inputs) (dispatchEvent .sqs dispatched event) state =
      Code.meaning (loneWorker refuses inputs)
        (tryCatch (publishEvent .sqs event dispatched) fun error => do
          record .workerOutboxDispatch ["failure"]
          let _ ← repository (.markOutboxFailed event.id event.claimToken error.typeName)
          return dispatched) state := by
  unfold dispatchEvent
  by_cases reclaimed : event.attempts > 1
  · rw [if_pos reclaimed]
    rfl
  · rw [if_neg reclaimed]

/-- Dispatching one event settles it and touches no other. -/
theorem settles (held : Held db event row) (dispatched : Nat) :
    ∃ total after later, Code.meaning (loneWorker refuses inputs)
        (dispatchEvent .sqs dispatched event) (db, number) = (.ok total, after, later) ∧
      (∀ id, id ≠ event.id → after.event? id = db.event? id) ∧
      ∃ new, after.event? event.id = some new ∧ Settled refuses row new := by
  have other (set : OutboxRow → OutboxRow) (fixed : ∀ row, (set row).id = row.id) :
      (∀ id, id ≠ event.id → (db.setEvents [event.id] set fixed).event? id = db.event? id) ∧
        (db.setEvents [event.id] set fixed).event? event.id = some (set row) := by
    constructor
    · intro id different
      simp [Database.event?_setEvents, different]
    · simp [Database.event?_setEvents, held.found]
  rw [meaning_dispatchEvent, Code.meaning_tryCatch]
  by_cases can : Dispatchable refuses row
  · rw [meaning_publishEvent_ok refuses inputs number held can]
    obtain ⟨others, own⟩ := other (publishEventRow (inputs number).now) (publishEventRow_id _)
    exact ⟨_, _, _, rfl, others, _, own, ⟨rfl, rfl, rfl, rfl, rfl⟩, by simp [can, publishEventRow], rfl⟩
  · obtain ⟨error, raised⟩ := meaning_publishEvent_error refuses inputs number held
      can dispatched
    rw [raised]
    obtain ⟨others, own⟩ := other (failEventRow error.typeName (inputs number).now)
      (failEventRow_id _ _)
    have marked := meaning_of_returns refuses inputs number
      (markOutboxFailed_returns (inputs number) error.typeName held.found
        held.fence)
    simp only [Code.meaning_bind, meaning_record, marked]
    exact ⟨_, _, _, rfl, others, _, own, ⟨rfl, rfl, rfl, rfl, rfl⟩, by simp [can, failEventRow], rfl⟩

/-- Dispatching a batch settles every event of it and touches no other. -/
theorem settles_all {events : List ClaimedEvent} (held : ∀ event ∈ events, ∃ row, Held db event row)
    (distinct : (events.map ClaimedEvent.id).Nodup) (dispatched : Nat) :
    ∃ total after later, Code.meaning (loneWorker refuses inputs)
        (Code.forEach events dispatched (dispatchEvent .sqs)) (db, number) =
          (.ok total, after, later) ∧
      (∀ id, id ∉ events.map ClaimedEvent.id → after.event? id = db.event? id) ∧
      ∀ event ∈ events, ∃ row new, db.event? event.id = some row ∧
        after.event? event.id = some new ∧ Settled refuses row new := by
  induction events generalizing db number dispatched with
  | nil => exact ⟨_, _, _, rfl, fun _ _ => rfl, by simp⟩
  | cons event rest inductionHypothesis =>
      obtain ⟨row, isHeld⟩ := held event List.mem_cons_self
      obtain ⟨apart, restDistinct⟩ := List.nodup_cons.mp distinct
      obtain ⟨total, middle, next, ran, others, new, isNew, settled⟩ :=
        settles refuses inputs number isHeld dispatched
      have different : ∀ other ∈ rest, other.id ≠ event.id := by
        intro other member same
        exact apart (same ▸ List.mem_map_of_mem member)
      have restHeld : ∀ other ∈ rest, ∃ row, Held middle other row := by
        intro other member
        obtain ⟨otherRow, otherHeld⟩ := held other (List.mem_cons_of_mem _ member)
        exact ⟨otherRow, (others _ (different other member)).trans otherHeld.found,
          otherHeld.fence, otherHeld.read⟩
      obtain ⟨sum, after, later, restRan, restOthers, restSettled⟩ :=
        inductionHypothesis next restHeld restDistinct total
      refine ⟨sum, after, later, ?_, ?_, ?_⟩
      · unfold Code.forEach
        rw [Code.meaning_bind, ran]
        exact restRan
      · intro id outside
        simp only [List.map_cons, List.mem_cons, not_or] at outside
        rw [restOthers id outside.2, others id outside.1]
      · intro other member
        rcases List.mem_cons.mp member with rfl | inRest
        · exact ⟨row, new, isHeld.found, (restOthers _ apart).trans isNew, settled⟩
        · obtain ⟨otherRow, otherNew, found, isOther, otherSettled⟩ := restSettled other inRest
          exact ⟨otherRow, otherNew, (others _ (different other inRest)) ▸ found, isOther,
            otherSettled⟩

/-- Every event of a claimed batch is held under the token of the claim. -/
theorem held_of_claim (plan : ClaimPlan) (batch : List Uuid) (claimToken : Uuid) (now : Time)
    (db : Database) : ∀ event ∈ returnedEvents plan batch claimToken now db,
      ∃ row, Held (db.setEvents batch (claimEventRow claimToken now) (claimEventRow_id _ _)) event
        row := by
  intro event returned
  obtain ⟨row, member, inBatch, rfl⟩ := mem_returnedEvents.mp returned
  have found : db.event? row.id = some row := Database.event?_eq_some.mpr ⟨member, rfl⟩
  refine ⟨claimEventRow claimToken now row, ?_, ?_, rfl⟩
  · rw [Database.event?_setEvents]
    simp [ClaimedEvent.ofRow, inBatch, found]
  · simp [eventFence, claimEventRow, ClaimedEvent.ofRow]

/-- A claim returns the events of its batch. -/
theorem mem_returnedIds (plan : ClaimPlan) (claimToken : Uuid) (now : Time) {batch : List Uuid}
    (present : ∀ id ∈ batch, ∃ row, db.event? id = some row) {eventId : Uuid} :
    eventId ∈ (returnedEvents plan batch claimToken now db).map ClaimedEvent.id ↔
      eventId ∈ batch := by
  constructor
  · intro member
    obtain ⟨event, returned, rfl⟩ := List.mem_map.mp member
    obtain ⟨row, _, inBatch, rfl⟩ := mem_returnedEvents.mp returned
    exact inBatch
  · intro member
    obtain ⟨row, found⟩ := present eventId member
    obtain ⟨inTable, rfl⟩ := Database.event?_eq_some.mp found
    exact List.mem_map_of_mem (mem_returnedEvents.mpr ⟨row, inTable, member, rfl⟩)

/-- The batch of the round that draws its inputs from `number` on. -/
def batchOf (inputs : Inputs) (limit leaseSeconds : Int) (db : Database) : List Uuid :=
  claimedIds inputs.plan limit.toNat leaseSeconds inputs.now db

/-- A round settles the events of its batch and touches no other. -/
theorem round_settles (db : Database) (limit leaseSeconds : Int) :
    ∃ after later, round refuses inputs limit leaseSeconds (db, number) = (after, later) ∧
      (∀ id, id ∉ batchOf (inputs number) limit leaseSeconds db → after.event? id = db.event? id) ∧
      ∀ id ∈ batchOf (inputs number) limit leaseSeconds db, ∃ row new, db.event? id = some row ∧
        after.event? id = some new ∧ Settled refuses row new := by
  unfold round dispatchOutbox batchOf
  rw [Code.meaning_bind]
  rcases lt_or_ge limit 0 with negative | nonneg
  · have raised := meaning_of_returns refuses inputs number
      (claimOutboxEvents_raises (inputs number) db leaseSeconds negative)
    rw [raised]
    refine ⟨db, number + 1, rfl, fun _ _ => rfl, ?_⟩
    simp [claimedIds, Int.toNat_of_nonpos negative.le]
  · have claimed := meaning_of_returns refuses inputs number
      (claimOutboxEvents_returns (inputs number) db leaseSeconds nonneg)
    rw [claimed]
    set batch := claimedIds (inputs number).plan limit.toNat leaseSeconds (inputs number).now db
    have held := held_of_claim (inputs number).plan batch ((inputs number).uuid 0)
      (inputs number).now db
    obtain ⟨total, after, later, ran, others, settled⟩ := settles_all refuses
      inputs (number + 1) held (nodup_returnedEvents _ _ _ _) 0
    have present : ∀ id ∈ batch, ∃ row, db.event? id = some row :=
      fun id member => (mem_claimedIds member).imp fun _ holds => holds.1
    have inBatch : ∀ id, id ∈ (returnedEvents (inputs number).plan batch ((inputs number).uuid 0)
        (inputs number).now db).map ClaimedEvent.id ↔ id ∈ batch :=
      fun id => mem_returnedIds _ _ _ present
    refine ⟨after, later, congrArg Prod.snd ran, ?_, ?_⟩
    · intro id outside
      rw [others id (mt (inBatch id).mp outside), Database.event?_setEvents, if_neg outside]
    · intro id member
      obtain ⟨event, returned, rfl⟩ := List.mem_map.mp ((inBatch id).mpr member)
      obtain ⟨claimedRow, new, isClaimed, isNew, result⟩ := settled event returned
      rw [Database.event?_setEvents, if_pos member] at isClaimed
      obtain ⟨row, found, rfl⟩ := Option.map_eq_some_iff.mp isClaimed
      exact ⟨row, new, found, isNew, ⟨result.same.id, result.same.eventType, result.same.version,
        result.same.payload, result.same.createdAt⟩, result.status, result.unlocked⟩

end Round

end JobPlatform.Runtime
