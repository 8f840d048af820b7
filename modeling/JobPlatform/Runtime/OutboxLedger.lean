import JobPlatform.Runtime.OutboxSteps
import JobPlatform.Store.Fencing

/-!
Contract: what the history of an outbox says of its rows.

Owns:
- `claimOf` and `claimTokens`, the claim an event is under and the tokens it was ever claimed under;
- `Recorded`, the rows agree with the history; `Accounted`, every send belongs to a claim, and every
  published event was sent; `Orderly`, what holds in runs in which no lease expires and nothing
  fails;
- the step of each: an atomic update of the outbox keeps it.

Does not own the dispatchers, or which of them may do what.
-/

namespace JobPlatform.Runtime

open JobPlatform.Foundation JobPlatform.Store
open JobPlatform.Store.Repository (newEvent claimEventRow publishEventRow failEventRow eventFence
  eventClaimable)

/-! ### The history of an event -/

/-- The claim a statement leaves its events under. -/
def claimBy (now : Time) : OutboxStatement → Option (Claim Uuid Time)
  | .claimOutboxEvents _ _ claimToken => some ⟨claimToken, now⟩
  | _ => none

/-- The claim the event is under after an entry. -/
def claimAfter (eventId : Uuid) (claim : Option (Claim Uuid Time)) :
    CommitEntry OutboxStatement OutboxRow Time → Option (Claim Uuid Time)
  | .committed statement now replaced =>
      if eventId ∈ replaced.map OutboxRow.id then claimBy now statement else claim
  | .raised _ => claim

/-- The current claim of the event: the last one, unless it was marked. -/
def claimOf (history : OutboxHistory) (eventId : Uuid) : Option (Claim Uuid Time) :=
  history.foldl (claimAfter eventId) none

/-- The token under which the entry claims the event. -/
def claimToken? (eventId : Uuid) : CommitEntry OutboxStatement OutboxRow Time → Option Uuid
  | .committed (.claimOutboxEvents _ _ claimToken) _ replaced =>
      if eventId ∈ replaced.map OutboxRow.id then some claimToken else none
  | _ => none

/-- The tokens of all claims of the event. -/
def claimTokens (history : OutboxHistory) (eventId : Uuid) : List Uuid :=
  history.filterMap (claimToken? eventId)

/-- A mark of the event under the token has committed. -/
def MarkedUnder (history : OutboxHistory) (eventId claimToken : Uuid) : Prop :=
  ∃ statement now replaced, .committed statement now replaced ∈ history ∧
    statement.Marks eventId claimToken ∧ replaced ≠ []

/-- The entry takes an event from a current claim only if the lease it asks for has run out. -/
def TakesOver (before : OutboxHistory) : CommitEntry OutboxStatement OutboxRow Time → Prop
  | .committed (.claimOutboxEvents _ leaseSeconds _) now replaced =>
      ∀ event ∈ replaced, ∀ claim, claimOf before event.id = some claim →
        event.claim = some claim ∧ claim.since < now - interval leaseSeconds
  | _ => True

/-- No claim found the lease it asks for run out. -/
def LeasesHold (history : OutboxHistory) : Prop :=
  ∀ limit leaseSeconds claimToken now replaced,
    .committed (.claimOutboxEvents limit leaseSeconds claimToken) now replaced ∈ history →
    ∀ event ∈ replaced, ∀ since, event.lockedAt = some since → now - interval leaseSeconds ≤ since

/-- No send and no step of a mark raised. -/
def NothingFails (history : OutboxHistory) (unsent : List (Uuid × Uuid)) : Prop :=
  unsent = [] ∧ ∀ statement, .raised statement ∈ history →
    ∀ eventId claimToken, ¬ statement.Marks eventId claimToken

section History

variable {history more : OutboxHistory} {statement : OutboxStatement} {now : Time}
  {replaced : List OutboxRow} {eventId claimToken : Uuid} {unsent : List (Uuid × Uuid)}

theorem claimOf_snoc (entry : CommitEntry OutboxStatement OutboxRow Time) :
    claimOf (history ++ [entry]) eventId = claimAfter eventId (claimOf history eventId) entry := by
  simp [claimOf]

theorem claimTokens_append : claimTokens (history ++ more) eventId =
    claimTokens history eventId ++ claimTokens more eventId := List.filterMap_append

theorem claimTokens_snoc (entry : CommitEntry OutboxStatement OutboxRow Time) :
    claimTokens (history ++ [entry]) eventId =
      claimTokens history eventId ++ (claimToken? eventId entry).toList := by
  rw [claimTokens_append]
  unfold claimTokens
  cases isToken : claimToken? eventId entry <;> simp [isToken]

theorem mem_claimTokens : claimToken ∈ claimTokens history eventId ↔
    ∃ limit leaseSeconds now replaced,
      .committed (.claimOutboxEvents limit leaseSeconds claimToken) now replaced ∈ history ∧
        eventId ∈ replaced.map OutboxRow.id := by
  unfold claimTokens
  rw [List.mem_filterMap]
  constructor
  · rintro ⟨entry, member, isToken⟩
    unfold claimToken? at isToken
    split at isToken
    next limit leaseSeconds token now replaced =>
      split at isToken
      next inReplaced =>
        cases isToken
        exact ⟨limit, leaseSeconds, now, replaced, member, inReplaced⟩
      next => cases isToken
    next => cases isToken
  · rintro ⟨limit, leaseSeconds, now, replaced, member, inReplaced⟩
    exact ⟨_, member, if_pos inReplaced⟩

theorem MarkedUnder.append (marked : MarkedUnder history eventId claimToken) (more : OutboxHistory) :
    MarkedUnder (history ++ more) eventId claimToken := by
  obtain ⟨statement, now, replaced, member, marks, some⟩ := marked
  exact ⟨statement, now, replaced, List.mem_append_left _ member, marks, some⟩

theorem LeasesHold.left (hold : LeasesHold (history ++ more)) : LeasesHold history :=
  fun _ _ _ _ _ member => hold _ _ _ _ _ (List.mem_append_left _ member)

theorem NothingFails.left (fine : NothingFails (history ++ more) unsent) :
    NothingFails history unsent :=
  ⟨fine.1, fun _ member => fine.2 _ (List.mem_append_left _ member)⟩

/-- An answer that was lost says nothing of any event. -/
theorem claimTokens_lost (lost : ∀ entry ∈ more, entry = .raised statement) (eventId : Uuid) :
    claimTokens (history ++ more) eventId = claimTokens history eventId := by
  have none : claimTokens more eventId = [] := by
    unfold claimTokens
    rw [List.filterMap_eq_nil_iff]
    intro entry member
    rw [lost entry member]
    rfl
  rw [claimTokens_append, none, List.append_nil]

theorem claimOf_lost (lost : ∀ entry ∈ more, entry = .raised statement) (eventId : Uuid) :
    claimOf (history ++ more) eventId = claimOf history eventId := by
  induction more using List.reverseRecOn with
  | nil => rw [List.append_nil]
  | append_singleton before entry inductionHypothesis =>
      rw [← List.append_assoc, claimOf_snoc, lost entry (by simp)]
      exact inductionHypothesis fun entry member => lost entry (List.mem_append_left _ member)

end History

/-! ### Rows and history -/

/-- The rows have their shape, and count and record the claims of the history. -/
structure Recorded (latest : Uuid → Option OutboxRow) (history : OutboxHistory) : Prop where
  shape : ∀ {eventId event}, latest eventId = some event → event.Shape
  attempts : ∀ eventId, eventAttempts (latest eventId) = (claimTokens history eventId).length
  current : ∀ eventId, (latest eventId).bind OutboxRow.claim = claimOf history eventId
  spaced : ∀ {before entry}, before ++ [entry] <+: history → TakesOver before entry

section Recorded

variable {latest after : Uuid → Option OutboxRow} {history more : OutboxHistory}
  {statement : OutboxStatement} {now : Time} {replaced : List OutboxRow}

theorem claim_set (statement : OutboxStatement) (now : Time) (event : OutboxRow) :
    (statement.set now event).claim = claimBy now statement := by
  cases statement <;> rfl

/-- A claim takes an event that is under a claim only after the lease it asks for. -/
theorem Recorded.expired (recorded : Recorded latest history) {limit leaseSeconds : Int}
    {claimToken : Uuid} (update : AtomicUpdate outboxUpdates
      (.claimOutboxEvents limit leaseSeconds claimToken) now replaced latest after)
    {event : OutboxRow} (member : event ∈ replaced) {claim : Claim Uuid Time}
    (current : claimOf history event.id = some claim) :
    event.claim = some claim ∧ claim.since < now - interval leaseSeconds := by
  have found : latest event.id = some event := update.found event member
  have isClaim : event.claim = some claim := by
    rw [← recorded.current, found] at current
    exact current
  exact ⟨isClaim,
    expired_of_eventClaimable (recorded.shape found) (update.holds event member) isClaim⟩

/-- What the statement does to an event is what its entry says of the event. -/
theorem Recorded.commit (recorded : Recorded latest history)
    (update : AtomicUpdate outboxUpdates statement now replaced latest after) :
    Recorded after (history ++ [.committed statement now replaced]) := by
  refine ⟨fun {eventId event} found => ?_, fun eventId => ?_, fun eventId => ?_,
    fun {before entry} isPart => ?_⟩
  · by_cases member : eventId ∈ replaced.map OutboxRow.id
    · obtain ⟨old, inReplaced, rfl⟩ := List.mem_map.mp member
      cases (update.set old inReplaced).symm.trans found
      exact (recorded.shape (update.found old inReplaced)).set (update.holds old inReplaced)
    · rw [update.other eventId member] at found
      exact recorded.shape found
  · rw [claimTokens_snoc, List.length_append, ← recorded.attempts]
    by_cases member : eventId ∈ replaced.map OutboxRow.id
    · obtain ⟨old, inReplaced, rfl⟩ := List.mem_map.mp member
      have found : latest old.id = some old := update.found old inReplaced
      have isNew : after old.id = some (statement.set now old) := update.set old inReplaced
      rw [found, isNew]
      cases statement with
      | claimOutboxEvents =>
          simp only [claimToken?, if_pos member]
          rfl
      | markOutboxPublished => rfl
      | markOutboxFailed => rfl
    · rw [update.other eventId member]
      cases statement with
      | claimOutboxEvents =>
          simp only [claimToken?, if_neg member]
          rfl
      | markOutboxPublished => rfl
      | markOutboxFailed => rfl
  · rw [claimOf_snoc, ← recorded.current]
    unfold claimAfter
    dsimp only
    by_cases member : eventId ∈ replaced.map OutboxRow.id
    · obtain ⟨old, inReplaced, rfl⟩ := List.mem_map.mp member
      have isNew : after old.id = some (statement.set now old) := update.set old inReplaced
      rw [if_pos member, isNew]
      exact claim_set statement now old
    · rw [if_neg member, update.other eventId member]
  · rcases List.prefix_concat_iff.mp isPart with same | old
    · obtain ⟨rfl, isEntry⟩ := List.append_inj' same rfl
      cases isEntry
      cases statement with
      | claimOutboxEvents =>
          intro event member claim current
          exact recorded.expired update member current
      | markOutboxPublished => trivial
      | markOutboxFailed => trivial
    · exact recorded.spaced old

theorem Recorded.lose (recorded : Recorded latest history)
    (lost : ∀ entry ∈ more, entry = .raised statement) : Recorded latest (history ++ more) where
  shape := recorded.shape
  attempts eventId := by rw [claimTokens_lost lost, recorded.attempts]
  current eventId := by rw [claimOf_lost lost, recorded.current]
  spaced {before entry} isPart := by
    induction more using List.reverseRecOn with
    | nil => exact recorded.spaced (by rwa [List.append_nil] at isPart)
    | append_singleton first last inductionHypothesis =>
        rw [← List.append_assoc] at isPart
        rcases List.prefix_concat_iff.mp isPart with same | old
        · obtain ⟨_, isEntry⟩ := List.append_inj' same rfl
          cases isEntry
          rw [lost entry (by simp)]
          trivial
        · exact inductionHypothesis (fun entry member => lost entry (List.mem_append_left _ member))
            old

/-- A new event has no claims. -/
theorem Recorded.created (recorded : Recorded latest history) {eventId : Uuid}
    (new : latest eventId = none) (jobId : Uuid) (correlationId : Option String) (now : Time) :
    Recorded (Function.update latest eventId (some (newEvent jobId correlationId eventId now)))
      history := by
  refine ⟨fun {other event} found => ?_, fun other => ?_, fun other => ?_, recorded.spaced⟩
  · rw [Function.update_apply] at found
    split at found
    · cases found
      constructor <;> simp [newEvent]
    · exact recorded.shape found
  · rw [← recorded.attempts, Function.update_apply]
    split
    next same =>
      rw [same, new]
      rfl
    next => rfl
  · rw [← recorded.current, Function.update_apply]
    split
    next same =>
      rw [same, new]
      rfl
    next => rfl

/-- A published event is under no claim. -/
theorem Recorded.unclaimed (recorded : Recorded latest history) {eventId : Uuid}
    {event : OutboxRow} (found : latest eventId = some event)
    (published : event.status = .published) : claimOf history eventId = none := by
  have shape := recorded.shape found
  have noToken : event.claimToken = none := by
    by_contra present
    have publishing := shape.token.mpr present
    rw [published] at publishing
    cases publishing
  rw [← recorded.current, found]
  simp [OutboxRow.claim, noToken]

/-- A mark ends the claim whose token it presents. -/
theorem Recorded.marked (recorded : Recorded latest history)
    (update : AtomicUpdate outboxUpdates statement now replaced latest after)
    {eventId claimToken : Uuid} (marks : statement.Marks eventId claimToken) {event : OutboxRow}
    (member : event ∈ replaced) :
    event.id = eventId ∧ ∃ since, claimOf history eventId = some ⟨claimToken, since⟩ := by
  obtain ⟨rfl, fenced⟩ := marks.fenced (update.holds event member)
  have found : latest event.id = some event := update.found event member
  obtain ⟨since, isClaim⟩ := claim_of_eventFence (recorded.shape found) fenced
  exact ⟨rfl, since, by rw [← recorded.current, found]; exact isClaim⟩

/-- While leases hold, a claim takes only events that are under no claim. -/
theorem Recorded.free (recorded : Recorded latest history) {limit leaseSeconds : Int}
    {claimToken : Uuid} (update : AtomicUpdate outboxUpdates
      (.claimOutboxEvents limit leaseSeconds claimToken) now replaced latest after)
    (hold : LeasesHold (history ++
      [.committed (.claimOutboxEvents limit leaseSeconds claimToken) now replaced]))
    {event : OutboxRow} (member : event ∈ replaced) : claimOf history event.id = none := by
  cases current : claimOf history event.id with
  | none => rfl
  | some claim =>
      obtain ⟨isClaim, expired⟩ := recorded.expired update member current
      have locked : event.lockedAt = some claim.since := by
        unfold OutboxRow.claim at isClaim
        split at isClaim
        next isSince =>
          cases isClaim
          exact isSince
        next => cases isClaim
      have holds := hold limit leaseSeconds claimToken now replaced (by simp) event member _ locked
      exact absurd expired (not_lt.mpr holds)

end Recorded

/-! ### Sends -/

/-- Every send belongs to one claim of its event, and every published event was sent. -/
structure Accounted (latest : Uuid → Option OutboxRow) (history : OutboxHistory)
    (sent unsent : List (Uuid × Uuid)) : Prop where
  once : sent.Nodup
  claimed : ∀ {eventId claimToken}, (eventId, claimToken) ∈ sent ∨ (eventId, claimToken) ∈ unsent →
    claimToken ∈ claimTokens history eventId
  published : ∀ {eventId event}, latest eventId = some event → event.status = .published →
    ∃ claimToken, (eventId, claimToken) ∈ sent

/-- In a run in which no lease runs out and nothing fails, an event stays under the claim of its
send until it is published, and has one send. -/
structure Orderly (latest : Uuid → Option OutboxRow) (history : OutboxHistory)
    (sent unsent : List (Uuid × Uuid)) : Prop where
  held : LeasesHold history → ∀ {eventId claimToken}, claimToken ∈ claimTokens history eventId →
    ¬ MarkedUnder history eventId claimToken →
      ∃ since, claimOf history eventId = some ⟨claimToken, since⟩
  kept : LeasesHold history → NothingFails history unsent → ∀ {eventId claimToken},
    (eventId, claimToken) ∈ sent →
      (∃ event, latest eventId = some event ∧ event.status = .published) ∨
        ∃ since, claimOf history eventId = some ⟨claimToken, since⟩
  single : LeasesHold history → NothingFails history unsent → ∀ {eventId claimToken other},
    (eventId, claimToken) ∈ sent → (eventId, other) ∈ sent → claimToken = other

section Sends

variable {latest after : Uuid → Option OutboxRow} {history more : OutboxHistory}
  {sent unsent : List (Uuid × Uuid)} {statement : OutboxStatement} {now : Time}
  {replaced : List OutboxRow} {eventId claimToken : Uuid}

/-- An event has no more sends than claims. -/
theorem Accounted.sends_le (accounted : Accounted latest history sent unsent) (eventId : Uuid) :
    (sent.filter fun send => send.1 = eventId).length ≤ (claimTokens history eventId).length := by
  have distinct : ((sent.filter fun send => send.1 = eventId).map Prod.snd).Nodup := by
    refine (accounted.once.filter _).map_on ?_
    rintro ⟨one, token⟩ inOne ⟨other, _⟩ inOther rfl
    have isOne : one = eventId := by simpa using (List.mem_filter.mp inOne).2
    have isOther : other = eventId := by simpa using (List.mem_filter.mp inOther).2
    rw [isOne, isOther]
  have subset : (sent.filter fun send => send.1 = eventId).map Prod.snd ⊆
      claimTokens history eventId := by
    intro token member
    obtain ⟨⟨id, _⟩, inSent, rfl⟩ := List.mem_map.mp member
    obtain ⟨isSent, isEvent⟩ := List.mem_filter.mp inSent
    have same : id = eventId := by simpa using isEvent
    exact same ▸ accounted.claimed (.inl isSent)
  have fewer := (List.subperm_of_subset distinct subset).length_le
  rwa [List.length_map] at fewer

/-- A commit accounts for its events if an event that it publishes was sent. -/
theorem Accounted.commit (accounted : Accounted latest history sent unsent)
    (update : AtomicUpdate outboxUpdates statement now replaced latest after)
    (backed : ∀ eventId claimToken, statement = .markOutboxPublished eventId claimToken →
      (eventId, claimToken) ∈ sent) :
    Accounted after (history ++ [.committed statement now replaced]) sent unsent where
  once := accounted.once
  claimed tried := by
    rw [claimTokens_append]
    exact List.mem_append_left _ (accounted.claimed tried)
  published {eventId event} found published := by
    by_cases member : eventId ∈ replaced.map OutboxRow.id
    · obtain ⟨old, inReplaced, rfl⟩ := List.mem_map.mp member
      cases (update.set old inReplaced).symm.trans found
      cases statement with
      | claimOutboxEvents => cases published
      | markOutboxFailed => cases published
      | markOutboxPublished eventId claimToken =>
          have holds : ((OutboxStatement.markOutboxPublished eventId claimToken).clause now
            old).Holds := update.holds old inReplaced
          obtain ⟨isEvent, _⟩ := OutboxStatement.Marks.fenced (.inl rfl) holds
          have isSent := backed eventId claimToken rfl
          rw [← isEvent] at isSent
          exact ⟨claimToken, isSent⟩
    · rw [update.other eventId member] at found
      exact accounted.published found published

theorem Accounted.lose (accounted : Accounted latest history sent unsent)
    (lost : ∀ entry ∈ more, entry = .raised statement) :
    Accounted latest (history ++ more) sent unsent where
  once := accounted.once
  claimed tried := by
    rw [claimTokens_lost lost]
    exact accounted.claimed tried
  published := accounted.published

theorem Accounted.send (accounted : Accounted latest history sent unsent)
    (isClaim : claimToken ∈ claimTokens history eventId) (new : (eventId, claimToken) ∉ sent) :
    Accounted latest history (sent ++ [(eventId, claimToken)]) unsent where
  once := by
    refine List.nodup_append.mpr ⟨accounted.once, List.nodup_singleton _, ?_⟩
    intro one inSent other isNew same
    rw [same, List.mem_singleton.mp isNew] at inSent
    exact new inSent
  claimed {id token} tried := by
    rcases tried with isSent | isUnsent
    · rcases List.mem_append.mp isSent with old | isNew
      · exact accounted.claimed (.inl old)
      · cases List.mem_singleton.mp isNew
        exact isClaim
    · exact accounted.claimed (.inr isUnsent)
  published found isPublished := by
    obtain ⟨token, isSent⟩ := accounted.published found isPublished
    exact ⟨token, List.mem_append_left _ isSent⟩

theorem Accounted.fail (accounted : Accounted latest history sent unsent)
    (isClaim : claimToken ∈ claimTokens history eventId) :
    Accounted latest history sent (unsent ++ [(eventId, claimToken)]) where
  once := accounted.once
  claimed {id token} tried := by
    rcases tried with isSent | isUnsent
    · exact accounted.claimed (.inl isSent)
    · rcases List.mem_append.mp isUnsent with old | isNew
      · exact accounted.claimed (.inr old)
      · cases List.mem_singleton.mp isNew
        exact isClaim
  published := accounted.published

/-- A new event is not published. -/
theorem Accounted.created (accounted : Accounted latest history sent unsent) (eventId jobId : Uuid)
    (correlationId : Option String) (now : Time) :
    Accounted (Function.update latest eventId (some (newEvent jobId correlationId eventId now)))
      history sent unsent where
  once := accounted.once
  claimed := accounted.claimed
  published {other event} found published := by
    rw [Function.update_apply] at found
    split at found
    · cases found
      cases published
    · exact accounted.published found published

/-- A commit keeps the order if a failed event was not sent, or its publication raised. -/
theorem Orderly.commit (orderly : Orderly latest history sent unsent)
    (recorded : Recorded latest history)
    (update : AtomicUpdate outboxUpdates statement now replaced latest after)
    (honest : ∀ eventId claimToken error, statement = .markOutboxFailed eventId claimToken error →
      (eventId, claimToken) ∈ sent →
        .raised (.markOutboxPublished eventId claimToken) ∈ history) :
    Orderly after (history ++ [.committed statement now replaced]) sent unsent where
  held hold {eventId claimToken} isClaim unmarked := by
    have before : claimToken ∈ claimTokens history eventId →
        ∃ since, claimOf history eventId = some ⟨claimToken, since⟩ :=
      fun isOld => orderly.held hold.left isOld fun marked => unmarked (marked.append _)
    rw [claimOf_snoc]
    unfold claimAfter
    dsimp only
    rw [claimTokens_snoc, List.mem_append] at isClaim
    by_cases member : eventId ∈ replaced.map OutboxRow.id
    · rw [if_pos member]
      obtain ⟨event, inReplaced, rfl⟩ := List.mem_map.mp member
      rcases statement.cases with ⟨limit, leaseSeconds, token, rfl⟩ | ⟨eventId, marks⟩
      · rcases isClaim with isOld | isNew
        · obtain ⟨since, current⟩ := before isOld
          cases (recorded.free update hold inReplaced).symm.trans current
        · simp only [claimToken?, if_pos member, Option.toList_some, List.mem_singleton] at isNew
          subst isNew
          exact ⟨now, rfl⟩
      · -- the mark ended the claim, which is the only one that was not marked before
        obtain ⟨rfl, since, current⟩ := recorded.marked update marks inReplaced
        have isOld : claimToken ∈ claimTokens history event.id := by
          rcases isClaim with isOld | isNew
          · exact isOld
          · rcases marks with isMark | ⟨error, isMark⟩
            · rw [isMark] at isNew
              cases isNew
            · rw [isMark] at isNew
              cases isNew
        obtain ⟨_, same⟩ := before isOld
        cases current.symm.trans same
        exact absurd ⟨statement, now, replaced, by simp, marks, List.ne_nil_of_mem inReplaced⟩
          unmarked
    · rw [if_neg member]
      rcases isClaim with isOld | isNew
      · exact before isOld
      · cases statement with
        | claimOutboxEvents => simp [claimToken?, member] at isNew
        | markOutboxPublished => cases isNew
        | markOutboxFailed => cases isNew
  kept hold fine {eventId claimToken} isSent := by
    have before := orderly.kept hold.left fine.left isSent
    rw [claimOf_snoc]
    unfold claimAfter
    dsimp only
    by_cases member : eventId ∈ replaced.map OutboxRow.id
    · obtain ⟨event, inReplaced, rfl⟩ := List.mem_map.mp member
      have found : latest event.id = some event := update.found event inReplaced
      have isNew : after event.id = some (statement.set now event) := update.set event inReplaced
      have unpublished := OutboxStatement.unpublished (update.holds event inReplaced)
      obtain ⟨since, current⟩ : ∃ since, claimOf history event.id = some ⟨claimToken, since⟩ := by
        rcases before with ⟨other, isOther, published⟩ | current
        · cases found.symm.trans isOther
          exact absurd published unpublished
        · exact current
      cases statement with
      | claimOutboxEvents limit leaseSeconds token =>
          cases (recorded.free update hold inReplaced).symm.trans current
      | markOutboxPublished => exact .inl ⟨_, isNew, rfl⟩
      | markOutboxFailed eventId token error =>
          obtain ⟨rfl, _, same⟩ := recorded.marked update (.inr ⟨error, rfl⟩) inReplaced
          cases current.symm.trans same
          have raised := honest event.id claimToken error rfl isSent
          exact absurd (.inl rfl)
            (fine.2 _ (List.mem_append_left _ raised) event.id claimToken)
    · rw [if_neg member, update.other eventId member]
      exact before
  single hold fine := orderly.single hold.left fine.left

theorem Orderly.lose (orderly : Orderly latest history sent unsent)
    (lost : ∀ entry ∈ more, entry = .raised statement) :
    Orderly latest (history ++ more) sent unsent where
  held hold {eventId claimToken} isClaim unmarked := by
    rw [claimTokens_lost lost] at isClaim
    rw [claimOf_lost lost]
    exact orderly.held hold.left isClaim fun marked => unmarked (marked.append more)
  kept hold fine {eventId claimToken} isSent := by
    rw [claimOf_lost lost]
    exact orderly.kept hold.left fine.left isSent
  single hold fine := orderly.single hold.left fine.left

/-- A send under a claim that was not marked is the first of its event. -/
theorem Orderly.send (orderly : Orderly latest history sent unsent)
    (recorded : Recorded latest history) (isClaim : claimToken ∈ claimTokens history eventId)
    (unmarked : ¬ MarkedUnder history eventId claimToken) (new : (eventId, claimToken) ∉ sent) :
    Orderly latest history (sent ++ [(eventId, claimToken)]) unsent := by
  have first : LeasesHold history → NothingFails history unsent →
      ∀ token, (eventId, token) ∉ sent := by
    intro hold fine token isSent
    obtain ⟨since, current⟩ := orderly.held hold isClaim unmarked
    rcases orderly.kept hold fine isSent with ⟨event, found, published⟩ | ⟨_, same⟩
    · cases (recorded.unclaimed found published).symm.trans current
    · cases current.symm.trans same
      exact new isSent
  refine ⟨orderly.held, fun hold fine {id token} isSent => ?_,
    fun hold fine {id token other} isSent isOther => ?_⟩
  · rcases List.mem_append.mp isSent with old | isNew
    · exact orderly.kept hold fine old
    · cases List.mem_singleton.mp isNew
      exact .inr (orderly.held hold isClaim unmarked)
  · rcases List.mem_append.mp isSent with old | isNew
    · rcases List.mem_append.mp isOther with also | isNew
      · exact orderly.single hold fine old also
      · cases List.mem_singleton.mp isNew
        exact absurd old (first hold fine token)
    · cases List.mem_singleton.mp isNew
      rcases List.mem_append.mp isOther with also | isNew
      · exact absurd also (first hold fine other)
      · cases List.mem_singleton.mp isNew
        rfl

/-- After a send that raised, the run is none in which nothing fails. -/
theorem Orderly.fail (orderly : Orderly latest history sent unsent) (send : Uuid × Uuid) :
    Orderly latest history sent (unsent ++ [send]) where
  held := orderly.held
  kept _ fine := absurd fine.1 (by simp)
  single _ fine := absurd fine.1 (by simp)

theorem Orderly.created (orderly : Orderly latest history sent unsent) {eventId : Uuid}
    (new : latest eventId = none) (event : OutboxRow) :
    Orderly (Function.update latest eventId (some event)) history sent unsent where
  held := orderly.held
  kept hold fine {other token} isSent := by
    rcases orderly.kept hold fine isSent with ⟨row, found, published⟩ | current
    · refine .inl ⟨row, ?_, published⟩
      rw [Function.update_of_ne]
      · exact found
      · rintro rfl
        cases new.symm.trans found
    · exact .inr current
  single := orderly.single

end Sends

end JobPlatform.Runtime
