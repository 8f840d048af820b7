import JobPlatform.Foundation.RowLocks
import JobPlatform.Store.Ranking
import JobPlatform.Store.Undisturbed

/-!
Contract: the outbox methods of `Repository`, step by step.

Owns:
- `OutboxStatement`, the three statements of a dispatcher, and `outboxUpdates`, what each of them
  selects and assigns;
- `OutboxStatement.atomic`: what commits is what the method would do in one step on the rows at the
  commit, with the locked rows skipped.
-/

namespace JobPlatform.Store

open JobPlatform.Foundation
open Repository

/-- The statements that update `job_outbox`, with their arguments. -/
inductive OutboxStatement where
  | claimOutboxEvents (limit leaseSeconds : Int) (claimToken : Uuid)
  | markOutboxPublished (eventId claimToken : Uuid)
  | markOutboxFailed (eventId claimToken : Uuid) (error : String)
deriving DecidableEq

namespace OutboxStatement

/-- The token the statement sets or presents. -/
def token : OutboxStatement → Uuid
  | claimOutboxEvents _ _ claimToken => claimToken
  | markOutboxPublished _ claimToken => claimToken
  | markOutboxFailed _ claimToken _ => claimToken

/-- The `WHERE` clause. -/
def clause : OutboxStatement → Time → OutboxRow → Truth
  | claimOutboxEvents _ leaseSeconds _, now, event => eventClaimable leaseSeconds now event
  | markOutboxPublished eventId claimToken, _, event =>
      (Truth.eq (some event.id) (some eventId)).and (eventFence claimToken event)
  | markOutboxFailed eventId claimToken _, _, event =>
      (Truth.eq (some event.id) (some eventId)).and (eventFence claimToken event)

/-- `SET`. -/
def set : OutboxStatement → Time → OutboxRow → OutboxRow
  | claimOutboxEvents _ _ claimToken, now, event => claimEventRow claimToken now event
  | markOutboxPublished .., now, event => publishEventRow now event
  | markOutboxFailed _ _ error, now, event => failEventRow error now event

@[simp] theorem set_id (statement : OutboxStatement) (now : Time) (event : OutboxRow) :
    (statement.set now event).id = event.id := by
  cases statement <;> rfl

end OutboxStatement

/-- The statements on `job_outbox`. Only the claim has `ORDER BY created_at`, `LIMIT` and
`SKIP LOCKED`, and PostgreSQL refuses a negative `LIMIT`. -/
def outboxUpdates : Updates OutboxStatement Uuid OutboxRow Time where
  key := OutboxRow.id
  clause := OutboxStatement.clause
  set := OutboxStatement.set
  fixed := OutboxStatement.set_id
  before
    | .claimOutboxEvents .., left, right => left.createdAt ≤ right.createdAt
    | _, _, _ => True
  limit
    | .claimOutboxEvents limit _ _ => some limit.toNat
    | _ => none
  skips
    | .claimOutboxEvents .. => True
    | _ => False
  accepts
    | .claimOutboxEvents limit _ _ => 0 ≤ limit
    | _ => True

/-- The statement is a mark: it names an event and presents a token. -/
def OutboxStatement.Marks (statement : OutboxStatement) (eventId claimToken : Uuid) : Prop :=
  statement = markOutboxPublished eventId claimToken ∨
    ∃ error, statement = markOutboxFailed eventId claimToken error

section Rows

variable {statement : OutboxStatement} {now : Time} {event : OutboxRow}

theorem OutboxStatement.Marks.isToken {eventId claimToken : Uuid}
    (marks : statement.Marks eventId claimToken) : statement.token = claimToken := by
  rcases marks with rfl | ⟨error, rfl⟩
  · rfl
  · rfl

theorem OutboxStatement.Marks.eventId_eq {one other claimToken token : Uuid}
    (marks : statement.Marks one claimToken) (also : statement.Marks other token) :
    one = other := by
  rcases marks with rfl | ⟨error, rfl⟩
  · rcases also with same | ⟨error, same⟩
    · cases same
      rfl
    · cases same
  · rcases also with same | ⟨error, same⟩
    · cases same
    · cases same
      rfl

/-- A mark selects the event it names, under its token. -/
theorem OutboxStatement.Marks.fenced {eventId claimToken : Uuid}
    (marks : statement.Marks eventId claimToken) (holds : (statement.clause now event).Holds) :
    event.id = eventId ∧ (eventFence claimToken event).Holds := by
  rcases marks with rfl | ⟨error, rfl⟩
  · simpa [OutboxStatement.clause] using holds
  · simpa [OutboxStatement.clause] using holds

/-- A statement is a claim or a mark. -/
theorem OutboxStatement.cases (statement : OutboxStatement) :
    (∃ limit leaseSeconds claimToken,
      statement = .claimOutboxEvents limit leaseSeconds claimToken) ∨
      ∃ eventId, statement.Marks eventId statement.token := by
  cases statement with
  | claimOutboxEvents limit leaseSeconds claimToken => exact .inl ⟨_, _, _, rfl⟩
  | markOutboxPublished eventId claimToken => exact .inr ⟨eventId, .inl rfl⟩
  | markOutboxFailed eventId claimToken error => exact .inr ⟨eventId, .inr ⟨error, rfl⟩⟩

/-- No statement selects a published event. -/
theorem OutboxStatement.unpublished (holds : (statement.clause now event).Holds) :
    event.status ≠ .published := by
  intro published
  rcases statement.cases with ⟨limit, leaseSeconds, claimToken, rfl⟩ | ⟨eventId, marks⟩
  · simp [OutboxStatement.clause, eventClaimable, published] at holds
  · have fenced := (marks.fenced holds).2
    simp [eventFence, published] at fenced

/-- Every statement keeps the shape of the events it selects. -/
theorem OutboxRow.Shape.set (shape : event.Shape) (holds : (statement.clause now event).Holds) :
    (statement.set now event).Shape := by
  have noTime : event.publishedAt = none := by
    by_contra present
    exact OutboxStatement.unpublished holds (shape.published.mpr present)
  cases statement with
  | claimOutboxEvents =>
      constructor <;> simp [OutboxStatement.set, claimEventRow, noTime]
  | markOutboxPublished => constructor <;> simp [OutboxStatement.set, publishEventRow]
  | markOutboxFailed => constructor <;> simp [OutboxStatement.set, failEventRow, noTime]

end Rows

section Atomic

variable {db : Database} {before after : Uuid → Option OutboxRow} {replaced : List OutboxRow}
  {now : Time}

/-- The choices under which the method claims exactly the given events. -/
def claimingOnly (batch : List Uuid) : ClaimPlan := ⟨fun _ => 0, fun id => id ∉ batch, fun _ => 0⟩

theorem mem_claimedIds_claimingOnly {batch : List Uuid} {limit : Nat} {leaseSeconds : Int}
    (within : batch.length ≤ limit) (claimable : ∀ eventId ∈ batch, ∃ event,
      db.event? eventId = some event ∧ (eventClaimable leaseSeconds now event).Holds)
    (eventId : Uuid) :
    eventId ∈ claimedIds (claimingOnly batch) limit leaseSeconds now db ↔ eventId ∈ batch := by
  obtain ⟨free, isFree⟩ : ∃ free, free = (ranked (claimingOnly batch) leaseSeconds now db).filter
    fun event => !(claimingOnly batch).locked event.id := ⟨_, rfl⟩
  have mem_free (event : OutboxRow) : event ∈ free ↔
      event ∈ ranked (claimingOnly batch) leaseSeconds now db ∧ event.id ∈ batch := by
    simp [isFree, claimingOnly]
  have distinct : (free.map OutboxRow.id).Nodup := by
    rw [isFree]
    exact (nodup_ranked _).sublist (List.filter_sublist.map _)
  have subset : free.map OutboxRow.id ⊆ batch := by
    intro id member
    obtain ⟨event, inFree, rfl⟩ := List.mem_map.mp member
    exact ((mem_free event).mp inFree).2
  have fewer : free.length ≤ batch.length := by
    have shorter := (List.subperm_of_subset distinct subset).length_le
    rwa [List.length_map] at shorter
  have isClaimed : claimedIds (claimingOnly batch) limit leaseSeconds now db =
      (free.take limit).map OutboxRow.id := by
    rw [isFree]
    rfl
  rw [isClaimed, List.take_of_length_le (Nat.le_trans fewer within)]
  refine ⟨fun member => subset member, fun member => ?_⟩
  obtain ⟨event, found, holds⟩ := claimable eventId member
  obtain ⟨inTable, rfl⟩ := Database.event?_eq_some.mp found
  have inFree := (mem_free event).mpr ⟨(mem_ranked _).mpr ⟨inTable, holds⟩, member⟩
  exact List.mem_map.mpr ⟨event, inFree, rfl⟩

/-- A claim that commits is `claim_outbox_events` on the rows at the commit, when every event
outside the batch is locked. -/
theorem claimOutboxEvents_atomic {limit leaseSeconds : Int} {claimToken : Uuid}
    (nonneg : 0 ≤ limit) (same : ∀ eventId, db.event? eventId = before eventId)
    (update : AtomicUpdate outboxUpdates (.claimOutboxEvents limit leaseSeconds claimToken) now
      replaced before after) {inputs : Inputs} (isToken : inputs.uuid 0 = claimToken)
    (isNow : inputs.now = now) (isPlan : inputs.plan = claimingOnly (replaced.map OutboxRow.id)) :
    ∃ events done, (RepoCall.claimOutboxEvents limit leaseSeconds).run inputs [] db =
      (.ok events, done) ∧ ∀ eventId, done.event? eventId = after eventId := by
  refine ⟨_, _, claimOutboxEvents_returns inputs db leaseSeconds nonneg, fun eventId => ?_⟩
  subst isToken isNow
  have within : (replaced.map OutboxRow.id).length ≤ limit.toNat := by
    rw [List.length_map]
    exact update.within _ rfl
  have claimable : ∀ id ∈ replaced.map OutboxRow.id, ∃ event, db.event? id = some event ∧
      (eventClaimable leaseSeconds inputs.now event).Holds := by
    intro id member
    obtain ⟨row, inReplaced, rfl⟩ := List.mem_map.mp member
    exact ⟨row, (same row.id).trans (update.found row inReplaced), update.holds row inReplaced⟩
  have isBatch := mem_claimedIds_claimingOnly within claimable eventId
  rw [Database.event?_setEvents, isPlan, if_congr isBatch rfl rfl, same]
  by_cases member : eventId ∈ replaced.map OutboxRow.id
  · obtain ⟨row, inReplaced, rfl⟩ := List.mem_map.mp member
    have found : before row.id = some row := update.found row inReplaced
    rw [if_pos member, found]
    exact (update.set row inReplaced).symm
  · rw [if_neg member]
    exact (update.other eventId member).symm

/-- A mark has replaced nothing, or the one event it names, under its token. -/
theorem OutboxStatement.Marks.single {statement : OutboxStatement} {eventId claimToken : Uuid}
    (marks : statement.Marks eventId claimToken)
    (update : AtomicUpdate outboxUpdates statement now replaced before after) :
    (replaced = [] ∧ after = before) ∨
      ∃ event, replaced = [event] ∧ event.id = eventId ∧ (eventFence claimToken event).Holds := by
  have named : ∀ event ∈ replaced, event.id = eventId ∧ (eventFence claimToken event).Holds := by
    intro event member
    exact marks.fenced (update.holds event member)
  match replaced, update, named with
  | [], update, _ => exact .inl ⟨rfl, funext fun key => update.other key List.not_mem_nil⟩
  | [event], _, named => exact .inr ⟨event, rfl, named event List.mem_cons_self⟩
  | one :: other :: rest, update, named =>
      have sameId : one.id = other.id :=
        (named one (by simp)).1.trans (named other (by simp)).1.symm
      have distinct : (one.id :: other.id :: rest.map OutboxRow.id).Nodup := update.distinct
      simp [sameId] at distinct

/-- A mark that replaced its event assigned to it in one step. -/
theorem event?_marked {statement : OutboxStatement} {event : OutboxRow}
    (same : ∀ eventId, db.event? eventId = before eventId)
    (update : AtomicUpdate outboxUpdates statement now [event] before after) (eventId : Uuid) :
    (db.setEvents [event.id] (statement.set now) (statement.set_id now)).event?
      eventId = after eventId := by
  rw [Database.event?_setEvents, same]
  by_cases isEvent : eventId = event.id
  · subst isEvent
    have found : before event.id = some event := update.found event List.mem_cons_self
    rw [if_pos List.mem_cons_self, found]
    exact (update.set event List.mem_cons_self).symm
  · have absent : eventId ∉ [event.id] := by simpa using isEvent
    rw [if_neg absent]
    exact (update.other eventId absent).symm

/-- A mark that commits a new version is `mark_outbox_published` on the rows at the commit. -/
theorem markOutboxPublished_atomic {eventId claimToken : Uuid} (marked : replaced ≠ [])
    (same : ∀ eventId, db.event? eventId = before eventId)
    (update : AtomicUpdate outboxUpdates (.markOutboxPublished eventId claimToken) now replaced
      before after) {inputs : Inputs} (isNow : inputs.now = now) :
    ∃ done, (RepoCall.markOutboxPublished eventId claimToken).run inputs [] db = (.ok true, done) ∧
      ∀ eventId, done.event? eventId = after eventId := by
  subst isNow
  rcases OutboxStatement.Marks.single (.inl rfl) update with
    ⟨none, _⟩ | ⟨event, rfl, rfl, fenced⟩
  · exact absurd none marked
  · have found := (same event.id).trans (update.found event List.mem_cons_self)
    exact ⟨_, markOutboxPublished_returns inputs found fenced, event?_marked same update⟩

/-- A mark that commits a new version is `mark_outbox_failed` on the rows at the commit. -/
theorem markOutboxFailed_atomic {eventId claimToken : Uuid} {error : String}
    (marked : replaced ≠ []) (same : ∀ eventId, db.event? eventId = before eventId)
    (update : AtomicUpdate outboxUpdates (.markOutboxFailed eventId claimToken error) now replaced
      before after) {inputs : Inputs} (isNow : inputs.now = now) :
    ∃ done, (RepoCall.markOutboxFailed eventId claimToken error).run inputs [] db =
      (.ok true, done) ∧ ∀ eventId, done.event? eventId = after eventId := by
  subst isNow
  rcases OutboxStatement.Marks.single (.inr ⟨error, rfl⟩) update with
    ⟨none, _⟩ | ⟨event, rfl, rfl, fenced⟩
  · exact absurd none marked
  · have found := (same event.id).trans (update.found event List.mem_cons_self)
    exact ⟨_, markOutboxFailed_returns inputs error found fenced, event?_marked same update⟩

/-- The repository method of the statement. -/
def OutboxStatement.call : OutboxStatement → RepoCall
  | claimOutboxEvents limit leaseSeconds _ => .claimOutboxEvents limit leaseSeconds
  | markOutboxPublished eventId claimToken => .markOutboxPublished eventId claimToken
  | markOutboxFailed eventId claimToken error => .markOutboxFailed eventId claimToken error

/-- A commit that replaces a version is the method of its statement, in one step on the rows at the
commit. -/
theorem OutboxStatement.atomic {statement : OutboxStatement} (effective : replaced ≠ [])
    (same : ∀ eventId, db.event? eventId = before eventId)
    (update : AtomicUpdate outboxUpdates statement now replaced before after) {inputs : Inputs}
    (isToken : inputs.uuid 0 = statement.token) (isNow : inputs.now = now)
    (isPlan : inputs.plan = claimingOnly (replaced.map OutboxRow.id)) :
    ∃ result done, statement.call.run inputs [] db = (.ok result, done) ∧
      ∀ eventId, done.event? eventId = after eventId := by
  cases statement with
  | claimOutboxEvents limit leaseSeconds claimToken =>
      have nonneg : 0 ≤ limit := by
        have within : replaced.length ≤ limit.toNat := update.within _ rfl
        have nonempty := List.length_pos_iff.mpr effective
        omega
      exact claimOutboxEvents_atomic nonneg same update isToken isNow isPlan
  | markOutboxPublished =>
      obtain ⟨done, returns, rows⟩ := markOutboxPublished_atomic effective same update isNow
      exact ⟨true, done, returns, rows⟩
  | markOutboxFailed =>
      obtain ⟨done, returns, rows⟩ := markOutboxFailed_atomic effective same update isNow
      exact ⟨true, done, returns, rows⟩

end Atomic

end JobPlatform.Store
