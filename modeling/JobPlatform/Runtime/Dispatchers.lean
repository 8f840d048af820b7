import JobPlatform.Foundation.Expansion
import JobPlatform.Runtime.OutboxDuties

/-!
Contract: any number of dispatchers of one outbox.

Owns:
- the safety of `dispatch_outbox`, statement by statement, and `starts`: every dispatcher keeps the
  discipline;
- what holds in every reachable pool of the claims, the sends and the published events.
-/

namespace JobPlatform.Runtime

open JobPlatform.Foundation JobPlatform.Foundation.ThreadSystem JobPlatform.Store
open JobPlatform.Store.Repository (ClaimedEvent)

namespace OutboxWorld

/-! ### One transaction -/

/-- A statement under a token of the thread raised. -/
def Raised (t : ThreadId) (w : OutboxWorld) (statement : OutboxStatement) : Prop :=
  (t, statement.token) ∈ w.drawn ∧ .raised statement ∈ w.history

section Transaction

variable {w : OutboxWorld} {t : ThreadId} {statement : OutboxStatement}

theorem Entitled.quiet {versions : Versions OutboxStatement Uuid OutboxRow Time}
    (entitled : w.Entitled t statement) (same : versions.history = w.versions.history) :
    ({ w with versions } : OutboxWorld).Entitled t statement := by
  cases statement with
  | claimOutboxEvents =>
      refine ⟨entitled.1, fun statement now replaced member => ?_⟩
      change _ ∈ versions.history at member
      rw [same] at member
      exact entitled.2 statement now replaced member
  | markOutboxPublished => exact entitled
  | markOutboxFailed =>
      refine ⟨entitled.1, fun sent => ?_⟩
      change _ ∈ versions.history
      rw [same]
      exact entitled.2 sent

/-- A step of a transaction is answered, or raises. -/
theorem sql_safe (call : RowCall OutboxStatement Uuid)
    {post : Except Exn (call.Result OutboxRow) → OutboxWorld → Prop}
    (entitled : w.Entitled t call.statement)
    (answered : ∀ {before value versions}, Later t w before → before.Consistent →
      before.Entitled t call.statement →
      outboxUpdates.Exec Exn t before.versions call (.ok value) versions →
      post (.ok value) { before with versions })
    (raised : ∀ {error after}, after.Raised t call.statement → post (.error error) after) :
    duties.SafeCode t (Stepwise.sql call) post w := by
  refine Discipline.safe_perform fun before later consistent => ?_
  have still := entitled.later later
  refine ⟨still, fun reply after performed _ => ?_⟩
  cases performed with
  | @sql _ _ versions ran =>
      cases reply with
      | ok value => exact answered later consistent still ran
      | error error => exact raised ⟨still.own, ran.mem_raised⟩

/-- The thread stays entitled until it commits. -/
theorem quiet_safe (call : RowCall OutboxStatement Uuid)
    {post : Except Exn (call.Result OutboxRow) → OutboxWorld → Prop}
    (entitled : w.Entitled t call.statement) (uncommitted : ∀ statement, call ≠ .commit statement)
    (answered : ∀ {value after}, after.Entitled t call.statement → post (.ok value) after)
    (raised : ∀ {error after}, after.Raised t call.statement → post (.error error) after) :
    duties.SafeCode t (Stepwise.sql call) post w := by
  apply sql_safe call entitled _ raised
  intro before value versions _ _ still ran
  exact answered (still.quiet (ran.quiet uncommitted))

theorem lockRows_safe {post : Except Exn Unit → OutboxWorld → Prop} (bound : Nat)
    (keys : List Uuid) (entitled : w.Entitled t statement)
    (answered : ∀ {after}, after.Entitled t statement → post (.ok ()) after)
    (raised : ∀ {error after}, after.Raised t statement → post (.error error) after) :
    duties.SafeCode t (Updates.lockRows Stepwise.sql statement bound keys) post w := by
  induction keys generalizing w bound with
  | nil => cases bound <;> exact Discipline.safe_pure (answered entitled)
  | cons key rest inductionHypothesis =>
      cases bound with
      | zero => exact Discipline.safe_pure (answered entitled)
      | succ bound =>
          apply Discipline.safe_bind
          refine quiet_safe (.lock statement key) entitled nofun ?_ raised
          intro holds after still
          cases holds
          · exact inductionHypothesis (bound + 1) still
          · exact inductionHypothesis bound still

/-- A transaction ends in its commit, or a step of it raises. -/
theorem transaction_safe {post : Except Exn (List OutboxRow) → OutboxWorld → Prop}
    (entitled : w.Entitled t statement)
    (committed : ∀ {before : OutboxWorld} {session}, before.Consistent →
      before.Entitled t statement → before.versions.sessions t = some session → session.statement = statement →
      post (.ok session.written)
        { before with versions := before.versions.commit outboxUpdates t session })
    (raised : ∀ {error after}, after.Raised t statement → post (.error error) after) :
    duties.SafeCode t (outboxUpdates.transaction Stepwise.sql statement) post w := by
  apply Discipline.safe_bind
  refine quiet_safe (.begin statement) entitled nofun (fun begun => ?_) raised
  apply Discipline.safe_bind
  refine quiet_safe (.select statement) begun nofun (fun selected => ?_) raised
  apply Discipline.safe_bind
  refine lockRows_safe _ _ selected (fun isLocked => ?_) raised
  apply Discipline.safe_bind
  refine sql_safe (.write statement) isLocked (fun _ _ still ran => ?_) raised
  obtain ⟨session, isOpen, rfl⟩ := ran.written_of_write
  apply Discipline.safe_bind
  refine sql_safe (.commit statement) (still.quiet (ran.quiet nofun)) ?_ raised
  intro before _ versions later consistent entitled ran
  obtain ⟨own, isOwn, isStatement, rfl⟩ := ran.eq_of_commit
  -- only the server ends the transaction of the thread
  have same : own = session := by
    rcases later.session with same | ended
    · exact Option.some.inj (isOwn.symm.trans (same.trans isOpen))
    · cases isOwn.symm.trans ended
  subst same
  exact Discipline.safe_pure (committed consistent entitled isOwn isStatement)

end Transaction

/-! ### The repository methods -/

section Methods

variable {w after : OutboxWorld} {t : ThreadId} {statement : OutboxStatement}

/-- A batch of events that the thread has claimed and not yet tried. -/
def Batch (t : ThreadId) (w : OutboxWorld) (events : List ClaimedEvent) : Prop :=
  (events.map ClaimedEvent.id).Nodup ∧
    ∀ event ∈ events, w.Pending t event.id event.claimToken

/-- What a claim returns is claimed under a token that is used for the first time. -/
theorem batch_of_commit {limit leaseSeconds : Int} {claimToken : Uuid}
    {session : Session OutboxStatement Uuid OutboxRow Time} (consistent : w.Consistent)
    (entitled : w.Entitled t (.claimOutboxEvents limit leaseSeconds claimToken))
    (isOpen : w.versions.sessions t = some session)
    (isClaim : session.statement = .claimOutboxEvents limit leaseSeconds claimToken) :
    Batch t { w with versions := w.versions.commit outboxUpdates t session }
      (session.written.map (ClaimedEvent.ofRow claimToken)) := by
  obtain ⟨own, unused⟩ := entitled
  have isIds : (session.written.map (ClaimedEvent.ofRow claimToken)).map ClaimedEvent.id =
      session.written.map OutboxRow.id := by
    rw [List.map_map]
    rfl
  have isHistory : (w.versions.commit outboxUpdates t session).history = w.history ++
      [.committed (.claimOutboxEvents limit leaseSeconds claimToken) session.now
        (w.versions.replaced outboxUpdates session)] := by
    rw [← isClaim]
    rfl
  have isNew : .committed (.claimOutboxEvents limit leaseSeconds claimToken) session.now
      (w.versions.replaced outboxUpdates session) ∈
        (w.versions.commit outboxUpdates t session).history := by
    rw [isHistory]
    exact List.mem_append_right _ List.mem_cons_self
  -- nothing was sent under the token, and nothing marked
  have untried (eventId : Uuid) : claimToken ∉ claimTokens w.history eventId := by
    intro member
    obtain ⟨_, _, _, _, isOld, _⟩ := mem_claimTokens.mp member
    exact unused _ _ _ isOld rfl
  refine ⟨?_, fun event member => ?_⟩
  · rw [isIds]
    exact (consistent.sound.valid isOpen).once
  · obtain ⟨row, isWritten, rfl⟩ := List.mem_map.mp member
    have isReplaced : row.id ∈ (w.versions.replaced outboxUpdates session).map OutboxRow.id := by
      have sameKeys := consistent.sound.map_key_replaced isOpen
      exact sameKeys ▸ List.mem_map.mpr ⟨row, isWritten, rfl⟩
    refine ⟨own, ?_, ?_, ?_, ?_⟩
    · exact mem_claimTokens.mpr ⟨limit, leaseSeconds, session.now, _, isNew, isReplaced⟩
    · exact fun isSent => untried _ (consistent.accounted.claimed (.inl isSent))
    · exact fun isUnsent => untried _ (consistent.accounted.claimed (.inr isUnsent))
    · rintro ⟨statement, now, replaced, member, marks, _⟩
      change _ ∈ (w.versions.commit outboxUpdates t session).history at member
      rw [isHistory] at member
      rcases List.mem_append.mp member with old | new
      · exact unused _ _ _ old marks.isToken
      · cases List.mem_singleton.mp new
        rcases marks with isMark | ⟨error, isMark⟩
        · cases isMark
        · cases isMark

theorem claimOutboxEvents_safe (limit leaseSeconds : Int) :
    duties.SafeCode t (Stepwise.claimOutboxEvents limit leaseSeconds)
      (Discipline.Returns fun events s => Batch t s events) w := by
  apply Discipline.safe_bind
  refine Discipline.safe_perform fun before _ consistent => ⟨trivial, fun reply _ drew _ => ?_⟩
  cases drew with
  | @drew token fresh =>
      have entitled : ({ before with drawn := before.drawn ++ [(t, token)] } :
          OutboxWorld).Entitled t (.claimOutboxEvents limit leaseSeconds token) := by
        refine ⟨List.mem_append_right _ List.mem_cons_self, ?_⟩
        rintro statement now replaced member rfl
        exact fresh (consistent.owned _ member)
      apply Discipline.safe_bind
      refine transaction_safe entitled (fun consistent still isOpen isClaim => ?_) nofun
      exact Discipline.returns_pure (batch_of_commit consistent still isOpen isClaim)

theorem markOutbox_safe {post : Except Exn Bool → OutboxWorld → Prop}
    (entitled : w.Entitled t statement) (answered : ∀ marked after, post (.ok marked) after)
    (raised : ∀ {error after}, after.Raised t statement → post (.error error) after) :
    duties.SafeCode t (Stepwise.markOutbox statement) post w := by
  apply Discipline.safe_bind
  exact transaction_safe entitled (fun _ _ _ _ => Discipline.safe_pure (answered _ _)) raised

end Methods

/-! ### One event -/

/-- The calls of an iteration of `dispatch_outbox`. -/
def EventCall (eventId claimToken : Uuid) : PlatformCall → Prop
  | .repository (.markOutboxPublished id token) => id = eventId ∧ token = claimToken
  | .repository (.markOutboxFailed id token _) => id = eventId ∧ token = claimToken
  | .sendMessage origin _ => origin = some (eventId, claimToken)
  | .record .. => True
  | _ => False

/-- The steps of an iteration. -/
def EventStep (eventId claimToken : Uuid) : WireCall → Prop
  | .sql call => call.statement.Marks eventId claimToken
  | .platform (.sendMessage origin _) => origin = some (eventId, claimToken)
  | .platform (.record ..) => True
  | _ => False

theorem markOutbox_steps {statement : OutboxStatement} {eventId claimToken : Uuid}
    (marks : statement.Marks eventId claimToken) :
    Code.Only (EventStep eventId claimToken) (Stepwise.markOutbox statement) := by
  refine Code.Only.bind (outboxUpdates.transaction_only _ ?_) fun rows => Code.only_pure _
  rintro call rfl
  exact Code.only_perform marks

/-- The steps of the calls of an iteration. -/
theorem statements_steps {eventId claimToken : Uuid} (call : PlatformCall)
    (isEvent : EventCall eventId claimToken call) :
    Program.Only (EventStep eventId claimToken) (Stepwise.statements call) := by
  cases call with
  | repository call =>
      cases call with
      | markOutboxPublished =>
          obtain ⟨rfl, rfl⟩ := isEvent
          exact markOutbox_steps (.inl rfl)
      | markOutboxFailed =>
          obtain ⟨rfl, rfl⟩ := isEvent
          exact markOutbox_steps (.inr ⟨_, rfl⟩)
      | _ => exact isEvent.elim
  | sendMessage origin messageBody =>
      cases isEvent
      exact Code.only_perform (S := wire) (c := .platform (.sendMessage _ messageBody)) rfl
  | record metric labels =>
      exact Code.only_perform (S := wire) (c := .platform (.record metric labels)) trivial
  | _ => exact isEvent.elim

theorem publishEvent_calls (event : ClaimedEvent) (dispatched : Nat) :
    Code.Only (EventCall event.id event.claimToken) (publishEvent .sqs event dispatched) := by
  unfold publishEvent
  refine Code.Only.bind (Code.only_perform trivial) fun _ => ?_
  split
  · exact Code.only_throw _
  · refine Code.Only.bind (Code.only_ofExcept _) fun named => ?_
    refine Code.Only.bind (Code.only_perform rfl) fun _ => ?_
    refine Code.Only.bind (Code.only_perform ⟨rfl, rfl⟩) fun marked => ?_
    cases marked with
    | true => exact Code.Only.bind (Code.only_perform trivial) fun _ => Code.only_pure _
    | false => exact Code.only_pure _

theorem dispatchEvent_calls (event : ClaimedEvent) (dispatched : Nat) :
    Code.Only (EventCall event.id event.claimToken) (dispatchEvent .sqs dispatched event) := by
  have dispatching : Code.Only (EventCall event.id event.claimToken)
      (tryCatch (publishEvent .sqs event dispatched) fun error => do
        record .workerOutboxDispatch ["failure"]
        let _ ← repository (.markOutboxFailed event.id event.claimToken error.typeName)
        return dispatched) := by
    refine (publishEvent_calls event dispatched).tryCatch fun error => ?_
    refine Code.Only.bind (Code.only_perform trivial) fun _ => ?_
    exact Code.Only.bind (Code.only_perform ⟨rfl, rfl⟩) fun _ => Code.only_pure _
  unfold dispatchEvent
  split
  · exact Code.Only.bind (Code.only_perform trivial) fun _ => dispatching
  · exact dispatching

section Event

variable {w after : OutboxWorld} {t : ThreadId}

/-- The steps for one event leave the others of the batch alone. -/
theorem Pending.frame {eventId other claimToken token : Uuid}
    (pending : w.Pending t eventId claimToken) {c : WireCall} {reply : wire.Reply c}
    (step : EventStep other token c) (apart : other ≠ eventId)
    (performed : w.Perform t c reply after) : after.Pending t eventId claimToken := by
  cases performed with
  | drew => exact step.elim
  | @sql call _ versions ran =>
      obtain ⟨more, isHistory, added⟩ := ran.grows
      have marked : call.statement.Marks other token := step
      refine ⟨pending.own, ?_, pending.unsent, pending.untried, ?_⟩
      · change claimToken ∈ claimTokens versions.history eventId
        rw [isHistory, claimTokens_append]
        exact List.mem_append_left _ pending.claimed
      · rintro ⟨statement, now, replaced, member, marks, some⟩
        change _ ∈ versions.history at member
        rw [isHistory] at member
        rcases List.mem_append.mp member with old | new
        · exact pending.unmarked ⟨statement, now, replaced, old, marks, some⟩
        · have same : statement = call.statement := added _ new
          exact apart (marked.eventId_eq (same ▸ marks))
  | sent =>
      cases step
      refine ⟨pending.own, pending.claimed, fun isSent => ?_, pending.untried, pending.unmarked⟩
      rcases List.mem_append.mp isSent with old | new
      · exact pending.unsent old
      · cases List.mem_singleton.mp new
        exact apart rfl
  | unsent error =>
      cases step
      refine ⟨pending.own, pending.claimed, pending.unsent, fun isUnsent => ?_, pending.unmarked⟩
      rcases List.mem_append.mp isUnsent with old | new
      · exact pending.untried old
      · cases List.mem_singleton.mp new
        exact apart rfl
  | recorded => exact pending

/-- The thread may mark the event as failed. -/
def MayFail (t : ThreadId) (w : OutboxWorld) (event : ClaimedEvent) : Prop :=
  ∀ error, w.Entitled t (.markOutboxFailed event.id event.claimToken error)

theorem Pending.mayFail {event : ClaimedEvent}
    (pending : w.Pending t event.id event.claimToken) : w.MayFail t event :=
  fun _ => ⟨pending.own, fun isSent => absurd isSent pending.unsent⟩

theorem Raised.mayFail {event : ClaimedEvent}
    (raised : w.Raised t (.markOutboxPublished event.id event.claimToken)) : w.MayFail t event :=
  fun _ => ⟨raised.1, fun _ => raised.2⟩

theorem record_safe {metric : Metric} {labels : List String}
    {post : Except Exn Unit → OutboxWorld → Prop}
    (answered : ∀ {after}, Later t w after → post (.ok ()) after) :
    duties.SafeVia Stepwise.statements t (record metric labels) post w := by
  apply Discipline.via_perform
  refine Discipline.safe_perform fun before later _ => ⟨trivial, fun reply _ recorded _ => ?_⟩
  cases recorded
  exact answered later

/-- A send of a pending event returns, or raises. -/
theorem send_safe {event : ClaimedEvent} {messageBody : Json}
    {post : Except Exn Unit → OutboxWorld → Prop}
    (pending : w.Pending t event.id event.claimToken)
    (answered : ∀ {after}, after.Entitled t (.markOutboxPublished event.id event.claimToken) →
      post (.ok ()) after)
    (raised : ∀ {error after}, after.MayFail t event → post (.error error) after) :
    duties.SafeVia Stepwise.statements t
      (perform (.sendMessage (some (event.id, event.claimToken)) messageBody)) post w := by
  apply Discipline.via_perform
  refine Discipline.safe_perform fun before later _ => ?_
  have still := pending.later later
  refine ⟨⟨_, _, rfl, still⟩, fun reply _ performed _ => ?_⟩
  cases performed with
  | sent => exact answered ⟨still.own, List.mem_append_right _ List.mem_cons_self⟩
  | unsent error => exact raised fun _ => ⟨still.own, fun isSent => absurd isSent still.unsent⟩

/-- If the body of the `try` raises, the thread may mark the event as failed. -/
theorem publishEvent_safe {event : ClaimedEvent} (dispatched : Nat)
    (pending : w.Pending t event.id event.claimToken) :
    duties.SafeVia Stepwise.statements t (publishEvent .sqs event dispatched)
      (fun result s => ∀ error, result = .error error → s.MayFail t event) w := by
  unfold publishEvent
  apply Discipline.via_bind
  apply record_safe
  intro attempted later
  have still := pending.later later
  dsimp only
  split
  · apply Discipline.via_throw
    exact fun _ _ => still.mayFail
  · apply Discipline.via_bind
    apply Discipline.via_ofExcept
    cases readOutboxPayload event.payload with
    | error => exact fun _ _ => still.mayFail
    | ok payload =>
        apply Discipline.via_bind
        apply send_safe still
        · intro published entitled
          apply Discipline.via_bind
          apply Discipline.via_perform
          refine markOutbox_safe entitled (fun marked after => ?_) fun raised _ _ => raised.mayFail
          cases marked with
          | true =>
              apply Discipline.via_bind
              apply record_safe
              exact fun _ => Discipline.via_pure nofun
          | false => exact Discipline.via_pure nofun
        · exact fun mayFail _ _ => mayFail

theorem dispatchEvent_safe {event : ClaimedEvent} (dispatched : Nat)
    (pending : w.Pending t event.id event.claimToken) :
    duties.SafeVia Stepwise.statements t (dispatchEvent .sqs dispatched event)
      (fun _ _ => True) w := by
  have dispatching {before : OutboxWorld} (pending : before.Pending t event.id event.claimToken) :
      duties.SafeVia Stepwise.statements t
        (tryCatch (publishEvent .sqs event dispatched) fun error => do
          record .workerOutboxDispatch ["failure"]
          let _ ← repository (.markOutboxFailed event.id event.claimToken error.typeName)
          return dispatched) (fun _ _ => True) before := by
    apply Discipline.via_tryCatch
    refine (publishEvent_safe dispatched pending).mono fun result s mayFail => ?_
    cases result with
    | ok value => trivial
    | error error =>
        apply Discipline.via_bind
        apply record_safe
        intro failed later
        apply Discipline.via_bind
        apply Discipline.via_perform
        refine markOutbox_safe ((mayFail error rfl _).later later) (fun marked after => ?_)
          fun _ => trivial
        exact Discipline.via_pure trivial
  unfold dispatchEvent
  split
  · apply Discipline.via_bind
    apply record_safe
    exact fun later => dispatching (pending.later later)
  · exact dispatching pending

/-- An iteration takes a batch to the rest of it. -/
theorem dispatchEvent_batch {event : ClaimedEvent} {rest : List ClaimedEvent} (dispatched : Nat)
    (batch : Batch t w (event :: rest)) :
    duties.SafeVia Stepwise.statements t (dispatchEvent .sqs dispatched event)
      (fun _ s => Batch t s rest) w := by
  obtain ⟨distinct, pending⟩ := batch
  rw [List.map_cons, List.nodup_cons] at distinct
  have steps := Program.Only.expand (dispatchEvent_calls event dispatched) statements_steps
  have safe := dispatchEvent_safe dispatched (pending event List.mem_cons_self)
  refine (safe.frame_only (A := fun s => ∀ other ∈ rest, s.Pending t other.id other.claimToken)
    ?_ ?_ steps fun other member => pending other (List.mem_cons_of_mem _ member)).mono
      fun _ _ holds => ⟨distinct.2, holds.2⟩
  · exact fun later holds other member => (holds other member).later later
  · intro before c reply after _ _ step performed holds other member
    refine (holds other member).frame step (fun same => distinct.1 ?_) performed
    exact List.mem_map.mpr ⟨other, member, same.symm⟩

end Event

theorem dispatchOutbox_safe {t : ThreadId} {w : OutboxWorld} (limit leaseSeconds : Int) :
    duties.SafeVia Stepwise.statements t (dispatchOutbox .sqs limit leaseSeconds)
      (fun _ _ => True) w := by
  apply Discipline.via_bind
  apply Discipline.via_perform
  refine Discipline.SafeCode.mono (claimOutboxEvents_safe limit leaseSeconds)
    fun result s batch => ?_
  cases result with
  | error error => trivial
  | ok events =>
      refine Discipline.via_forEach (fun rest _ s => Batch t s rest) ?_
        (fun _ _ _ => trivial) (batch events rfl)
      intro event rest dispatched s batch
      refine (dispatchEvent_batch dispatched batch).mono fun result s left => ?_
      cases result with
      | ok next => exact left
      | error error => trivial

/-- Every dispatcher keeps the discipline. -/
theorem starts : duties.Starts := by
  rintro t w program after consistent ⟨rfl, limit, leaseSeconds, rfl⟩
  refine ⟨consistent, fun u _ => Later.refl u after, ?_⟩
  exact Discipline.via_task (dispatchOutbox_safe limit leaseSeconds)

end OutboxWorld

end JobPlatform.Runtime
