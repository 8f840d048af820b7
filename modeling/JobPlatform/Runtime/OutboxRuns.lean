import JobPlatform.Runtime.Dispatchers

/-!
Contract: what any number of dispatchers do to the events of an outbox, in any interleaving.

Owns:
- `ClaimsApart`, `SendsCounted` and `SentOnce`, which hold in every reachable pool, and
  `commit_atomic`: every commit there is a repository method on the rows at the commit;
- `PublishedStays`, which holds of every pool that a reachable one leads to;
- `outbox_dispatch`, the four properties together, and two dispatchers whose claims overlap.
-/

namespace JobPlatform.Runtime

open JobPlatform.Foundation JobPlatform.Foundation.ThreadSystem JobPlatform.Store
open JobPlatform.Store.Repository (claimEventRow eventClaimable newEvent publishEventRow)

/-- The entry ends the claim the event is under: it is a mark of it. -/
def EndsClaim (eventId : Uuid) : CommitEntry OutboxStatement OutboxRow Time → Prop
  | .committed statement _ replaced =>
      eventId ∈ replaced.map OutboxRow.id ∧ ∃ named token, statement.Marks named token
  | .raised _ => False

/-- An event stays under a claim until a mark ends it. -/
theorem claimOf_of_claimed {before between : OutboxHistory} {limit leaseSeconds : Int}
    {claimToken eventId : Uuid} {now : Time} {replaced : List OutboxRow}
    (claimed : eventId ∈ replaced.map OutboxRow.id)
    (unmarked : ∀ entry ∈ between, ¬ EndsClaim eventId entry) :
    ∃ claim, claimOf (before ++ .committed (.claimOutboxEvents limit leaseSeconds claimToken) now
      replaced :: between) eventId = some claim := by
  induction between using List.reverseRecOn with
  | nil =>
      rw [claimOf_snoc]
      exact ⟨_, if_pos claimed⟩
  | append_singleton earlier entry inductionHypothesis =>
      obtain ⟨claim, current⟩ := inductionHypothesis fun entry member =>
        unmarked entry (List.mem_append_left _ member)
      rw [← List.cons_append, ← List.append_assoc, claimOf_snoc]
      cases entry with
      | raised => exact ⟨claim, current⟩
      | committed statement now replaced =>
          unfold claimAfter
          dsimp only
          split
          next inReplaced =>
            rcases statement.cases with ⟨limit, leaseSeconds, token, rfl⟩ | ⟨named, marks⟩
            · exact ⟨_, rfl⟩
            · have ends : EndsClaim eventId (.committed statement now replaced) :=
                ⟨inReplaced, named, _, marks⟩
              exact absurd ends (unmarked _ (by simp))
          next => exact ⟨claim, current⟩

namespace OutboxWorld

/-- The number of sends of the event that returned. -/
def sends (w : OutboxWorld) (eventId : Uuid) : Nat :=
  (w.sent.filter fun send => send.1 = eventId).length

/-- Claims exclude each other. Transactions in progress have chosen different events, and the events
a statement returns are those its commit replaces. A claim takes an event from a current one only
after the lease it asks for, so it shares no other event with an earlier batch unless a mark of the
event came between. -/
structure ClaimsApart (w : OutboxWorld) : Prop where
  chosen : ∀ {t u left right}, t ≠ u → w.versions.sessions t = some left →
    w.versions.sessions u = some right → left.chosen.Disjoint right.chosen
  returned : ∀ {t session}, w.versions.sessions t = some session →
    session.written.map OutboxRow.id =
      (w.versions.replaced outboxUpdates session).map OutboxRow.id
  expired : ∀ {before limit leaseSeconds claimToken now replaced},
    before ++ [.committed (.claimOutboxEvents limit leaseSeconds claimToken) now replaced] <+:
      w.history →
    ∀ event ∈ replaced, ∀ claim, claimOf before event.id = some claim →
      event.claim = some claim ∧ claim.since < now - interval leaseSeconds
  disjoint : ∀ {before between : OutboxHistory} {limit leaseSeconds claimToken since batch}
    {laterLimit laterLease laterToken now replaced},
    before ++ .committed (.claimOutboxEvents limit leaseSeconds claimToken) since batch ::
        between ++ [.committed (.claimOutboxEvents laterLimit laterLease laterToken) now replaced]
      <+: w.history →
    ∀ event ∈ replaced, event.id ∈ batch.map OutboxRow.id →
      (∀ entry ∈ between, ¬ EndsClaim event.id entry) →
        ∃ claim, event.claim = some claim ∧ claim.since < now - interval laterLease

/-- Every event has at most as many sends as attempts, and a published event has one at least. -/
structure SendsCounted (w : OutboxWorld) : Prop where
  atMost : ∀ eventId, w.sends eventId ≤ eventAttempts (w.event? eventId)
  atLeast : ∀ {eventId event}, w.event? eventId = some event → event.status = .published →
    1 ≤ w.sends eventId

/-- If no lease ran out and nothing failed, no event was sent twice, and a published event once. -/
def SentOnce (w : OutboxWorld) : Prop :=
  LeasesHold w.history → NothingFails w.history w.unsent → ∀ eventId, w.sends eventId ≤ 1 ∧
    ∀ event, w.event? eventId = some event → event.status = .published → w.sends eventId = 1

/-- The event is as it was, and no statement has claimed or marked it since. -/
structure Kept (w after : OutboxWorld) (eventId : Uuid) (event : OutboxRow) : Prop where
  row : after.event? eventId = some event
  untouched : ∃ more, after.history = w.history ++ more ∧
    ∀ statement now replaced, .committed statement now replaced ∈ more →
      eventId ∉ replaced.map OutboxRow.id

/-- A published event is kept, and every send of it, before or after, is under a claim that it had
when it was published. -/
structure PublishedStays (w after : OutboxWorld) (eventId : Uuid) (event : OutboxRow) : Prop
    extends Kept w after eventId event where
  sends : ∀ claimToken, (eventId, claimToken) ∈ after.sent →
    claimToken ∈ claimTokens w.history eventId

section Runs

variable {w after : OutboxWorld}

theorem Consistent.claimsApart (consistent : w.Consistent) : w.ClaimsApart where
  chosen {t u left right} apart isLeft isRight key inLeft inRight := by
    have locked := ((consistent.sound.valid isLeft).chosen key inLeft).1
    have also := ((consistent.sound.valid isRight).chosen key inRight).1
    exact apart (consistent.sound.exclusive isLeft isRight locked also)
  returned isOpen := (consistent.sound.map_key_replaced isOpen).symm
  expired isPart := consistent.recorded.spaced isPart
  disjoint isPart event member shared unmarked := by
    obtain ⟨claim, current⟩ := claimOf_of_claimed shared unmarked
    exact ⟨claim, consistent.recorded.spaced isPart event member claim current⟩

theorem Consistent.sendsCounted (consistent : w.Consistent) : w.SendsCounted where
  atMost eventId := by
    have counted := consistent.accounted.sends_le eventId
    rwa [← consistent.recorded.attempts] at counted
  atLeast {eventId event} found published := by
    obtain ⟨claimToken, isSent⟩ := consistent.accounted.published found published
    exact List.length_pos_of_mem (List.mem_filter.mpr ⟨isSent, by simp⟩)

theorem Consistent.sentOnce (consistent : w.Consistent) : w.SentOnce := by
  intro hold fine eventId
  have once : w.sends eventId ≤ 1 := by
    unfold sends
    cases isSends : w.sent.filter fun send => send.1 = eventId with
    | nil => exact Nat.zero_le 1
    | cons first rest =>
        obtain ⟨named, token⟩ := first
        have member {send : Uuid × Uuid} (inSends : send ∈ (named, token) :: rest) :
            send ∈ w.sent ∧ send.1 = eventId := by
          rw [← isSends] at inSends
          simpa using List.mem_filter.mp inSends
        obtain ⟨isFirst, sameEvent⟩ := member List.mem_cons_self
        -- every send of the event is the first one
        have subset : (named, token) :: rest ⊆ [(named, token)] := by
          rintro ⟨other, claimToken⟩ inSends
          obtain ⟨isSent, isEvent⟩ := member inSends
          have same : other = named := isEvent.trans sameEvent.symm
          subst same
          rw [consistent.orderly.single hold fine isSent isFirst]
          exact List.mem_cons_self
        have distinct : ((named, token) :: rest).Nodup :=
          isSends ▸ consistent.accounted.once.filter _
        exact (List.subperm_of_subset distinct subset).length_le
  refine ⟨once, fun event found published => ?_⟩
  exact Nat.le_antisymm once (consistent.sendsCounted.atLeast found published)

/-- A commit that replaces a version is one repository method on the rows at the commit. -/
theorem Consistent.commit_atomic (consistent : w.Consistent) {t : ThreadId}
    {session : Session OutboxStatement Uuid OutboxRow Time}
    (isOpen : w.versions.sessions t = some session)
    (effective : w.versions.replaced outboxUpdates session ≠ []) {db : Database}
    (same : ∀ eventId, db.event? eventId = w.event? eventId) {inputs : Inputs}
    (isToken : inputs.uuid 0 = session.statement.token) (isNow : inputs.now = session.now)
    (isPlan : inputs.plan = claimingOnly
      ((w.versions.replaced outboxUpdates session).map OutboxRow.id)) :
    ∃ result done, session.statement.call.run inputs [] db = (.ok result, done) ∧
      ∀ eventId, done.event? eventId =
        (w.versions.commit outboxUpdates t session).latest eventId :=
  OutboxStatement.atomic effective same (consistent.sound.atomic isOpen) isToken isNow isPlan

/-! ### Published events -/

variable {eventId : Uuid} {event : OutboxRow}

theorem Kept.refl (found : w.event? eventId = some event) : Kept w w eventId event :=
  ⟨found, [], (List.append_nil _).symm, nofun⟩

theorem Kept.trans {last : OutboxWorld} (first : Kept w after eventId event)
    (second : Kept after last eventId event) : Kept w last eventId event := by
  obtain ⟨more, isHistory, untouched⟩ := first.untouched
  obtain ⟨further, isLast, stillUntouched⟩ := second.untouched
  refine ⟨second.row, more ++ further, by rw [isLast, isHistory, List.append_assoc], ?_⟩
  intro statement now replaced member
  rcases List.mem_append.mp member with early | late
  · exact untouched statement now replaced early
  · exact stillUntouched statement now replaced late

/-- No call changes a published event. -/
theorem Kept.perform (consistent : w.Consistent) (found : w.event? eventId = some event)
    (published : event.status = .published) {t : ThreadId} {c : WireCall} {reply : wire.Reply c}
    (performed : w.Perform t c reply after) : Kept w after eventId event := by
  cases performed with
  | @sql call _ versions ran =>
      cases ran.outcome consistent.sound with
      | quiet rows history =>
          refine ⟨?_, [], ?_, nofun⟩
          · exact (congrFun rows eventId).trans found
          · exact history.trans (List.append_nil _).symm
      | raised error rows history =>
          refine ⟨(congrFun rows eventId).trans found, _, history, ?_⟩
          intro statement now replaced member
          cases List.mem_singleton.mp member
      | @committed session _ isOpen update history =>
          obtain ⟨lost, isHistory, isLost⟩ := history
          have untouched : eventId ∉
              (w.versions.replaced outboxUpdates session).map OutboxRow.id := by
            intro member
            obtain ⟨old, inReplaced, rfl⟩ := List.mem_map.mp member
            cases found.symm.trans (update.found old inReplaced)
            exact OutboxStatement.unpublished (update.holds event inReplaced) published
          refine ⟨(update.other eventId untouched).trans found, _, isHistory, ?_⟩
          intro statement now replaced member
          rcases List.mem_cons.mp member with isCommit | isRaised
          · cases isCommit
            exact untouched
          · cases isLost _ isRaised
  | _ => exact ⟨found, [], (List.append_nil _).symm, nofun⟩

theorem Kept.env (found : w.event? eventId = some event) (moved : w.Env after) :
    Kept w after eventId event := by
  cases moved with
  | @created other jobId correlationId now new =>
      refine ⟨?_, [], (List.append_nil _).symm, nofun⟩
      refine (Function.update_of_ne ?_ _ _).trans found
      rintro rfl
      cases new.symm.trans found
  | disconnected t => exact ⟨found, [], (List.append_nil _).symm, nofun⟩

theorem Kept.step {pool next : Pool wire OutboxWorld} (consistent : pool.state.Consistent)
    (found : pool.state.event? eventId = some event) (published : event.status = .published)
    (step : dispatchers.Step pool next) : Kept pool.state next.state eventId event := by
  cases step with
  | start idle started =>
      obtain ⟨rfl, _⟩ := started
      exact .refl found
  | call running called => exact .perform consistent found published called
  | stop => exact .refl found
  | env moved => exact .env found moved

end Runs

/-! ### Reachable pools -/

section Reachable

variable {pool next : Pool wire OutboxWorld}

theorem consistent_of_reachable (reached : dispatchers.Reachable initial pool) :
    pool.state.Consistent :=
  (duties.keeps_of_reachable starts consistent_initial reached).1

/-- No run changes a published event. -/
theorem kept_of_run (reached : dispatchers.Reachable initial pool)
    (run : Relation.ReflTransGen dispatchers.Step pool next) {eventId : Uuid} {event : OutboxRow}
    (found : pool.state.event? eventId = some event) (published : event.status = .published) :
    Kept pool.state next.state eventId event := by
  induction run with
  | refl => exact .refl found
  | tail before step kept =>
      have consistent := consistent_of_reachable (reached.trans before)
      exact kept.trans (.step consistent kept.row published step)

theorem publishedStays_of_run (reached : dispatchers.Reachable initial pool)
    (run : Relation.ReflTransGen dispatchers.Step pool next) {eventId : Uuid} {event : OutboxRow}
    (found : pool.state.event? eventId = some event) (published : event.status = .published) :
    PublishedStays pool.state next.state eventId event := by
  have kept := kept_of_run reached run found published
  refine ⟨kept, fun claimToken isSent => ?_⟩
  obtain ⟨more, isHistory, untouched⟩ := kept.untouched
  have claimed := (consistent_of_reachable (reached.trans run)).accounted.claimed (.inl isSent)
  change claimToken ∈ claimTokens next.state.history eventId at claimed
  rw [isHistory, claimTokens_append] at claimed
  rcases List.mem_append.mp claimed with old | new
  · exact old
  · obtain ⟨_, _, now, replaced, member, inReplaced⟩ := mem_claimTokens.mp new
    exact absurd inReplaced (untouched _ now replaced member)

end Reachable

end OutboxWorld

open OutboxWorld

/-- Claims exclude each other, sends are counted by attempts, and a published event stays as it is,
however the statements of the dispatchers are interleaved. -/
theorem outbox_dispatch {pool : Pool wire OutboxWorld}
    (reached : dispatchers.Reachable OutboxWorld.initial pool) :
    pool.state.ClaimsApart ∧ pool.state.SendsCounted ∧ pool.state.SentOnce ∧
      ∀ next, Relation.ReflTransGen dispatchers.Step pool next → ∀ eventId event,
        pool.state.event? eventId = some event → event.status = .published →
          PublishedStays pool.state next.state eventId event := by
  have consistent := consistent_of_reachable reached
  refine ⟨consistent.claimsApart, consistent.sendsCounted, consistent.sentOnce, ?_⟩
  intro next run eventId event found published
  exact publishedStays_of_run reached run found published

/-! ### Two dispatchers of one event -/

/-- The event of a new job. -/
def freshEvent : OutboxRow := newEvent (Uuid.ofInt 1) none (Uuid.ofInt 0) 0

/-- A claim under this token. -/
def claiming (token : Uuid) : Session OutboxStatement Uuid OutboxRow Time :=
  ⟨.claimOutboxEvents 10 120 token, 0, [], [], []⟩

/-- The mark of the first claim. -/
def marking : Session OutboxStatement Uuid OutboxRow Time :=
  ⟨.markOutboxPublished (Uuid.ofInt 0) (Uuid.ofInt 2), 0, [], [], []⟩

/-- Two dispatchers select the event before either locks it. The second finds the row locked, and
ends with an empty batch; the first publishes the event. -/
theorem dispatchers_overlap : ∃ pool : Pool wire OutboxWorld,
    dispatchers.Reachable OutboxWorld.initial pool ∧ pool.threads 1 = some (.done ()) ∧
      pool.state.sent = [(Uuid.ofInt 0, Uuid.ofInt 2)] ∧
      pool.state.event? (Uuid.ofInt 0) =
        some (publishEventRow 0 (claimEventRow (Uuid.ofInt 2) 0 freshEvent)) := by
  let first := claiming (Uuid.ofInt 2)
  let second := claiming (Uuid.ofInt 3)
  let claimed := claimEventRow (Uuid.ofInt 2) 0 freshEvent
  let published := publishEventRow 0 claimed
  have only (eventId : Uuid) : Function.update (fun _ => none) freshEvent.id (some freshEvent) eventId =
      if eventId = freshEvent.id then some freshEvent else none := Function.update_apply _ _ _ _
  have onlyClaimed (eventId : Uuid) : ([claimed].find? fun new => new.id = eventId).or
      (Function.update (fun _ => none) freshEvent.id (some freshEvent) eventId) =
        if eventId = claimed.id then some claimed else none := by
    by_cases isEvent : claimed.id = eventId
    · simp [isEvent]
    · have other : eventId ≠ freshEvent.id := fun same => isEvent same.symm
      simp [isEvent, Ne.symm isEvent, Function.update_of_ne other]
  have claimable : (eventClaimable 120 0 freshEvent).Holds := by decide
  have fenced : (marking.statement.clause 0 claimed).Holds := by decide
  have ten : ∀ bound, some (10 : Nat) = some bound → 0 < bound := by
    rintro _ ⟨⟩
    decide
  have unlimited : ∀ bound, (none : Option Nat) = some bound → 0 < bound := by
    intro bound isBound
    cases isBound
  have created : dispatchers.Reachable OutboxWorld.initial _ :=
    .tail .refl (.env (.created (Uuid.ofInt 1) none 0 (rfl : initial.event? (Uuid.ofInt 0) = none)))
  have started := (created.start 0 rfl ⟨rfl, 10, 120, rfl⟩).start 1 rfl ⟨rfl, 10, 120, rfl⟩
  have drawn := started.call 0 rfl (OutboxWorld.Perform.drew (show Uuid.ofInt 2 ∉ [] by decide))
    |>.call 1 rfl (OutboxWorld.Perform.drew (show Uuid.ofInt 3 ∉ [Uuid.ofInt 2] by decide))
  have selected := drawn.call 0 rfl (.sql (.began 0 rfl))
    |>.call 1 rfl (.sql (.began 0 rfl))
    |>.call 0 rfl (.sql (.select_only first rfl (show (0 : Int) ≤ 10 by decide) only claimable))
    |>.call 1 rfl (.sql (.select_only second rfl (show (0 : Int) ≤ 10 by decide) only claimable))
  have free : ∀ u other, Function.update (Function.update (fun _ => none) 0 (some first)) 1
      (some second) u = some other → freshEvent.id ∉ other.locked := by
    intro u other isOther
    rw [Function.update_apply, Function.update_apply] at isOther
    split_ifs at isOther <;> cases isOther <;> exact List.not_mem_nil
  have busy : freshEvent.id ∈ (first.lock freshEvent.id true).locked := List.mem_cons_self
  have skipped := selected.call 0 rfl (.sql (.lock_free first rfl free ten rfl claimable))
    |>.call 1 rfl (.sql (.skip_busy second rfl trivial rfl (show 0 ≠ 1 by decide) busy))
  have unclaimed := skipped.call 1 rfl (.sql (.write_rows second [] rfl (.refl _) (List.forall_mem_nil _)))
    |>.call 1 rfl (.sql (.commit_rows second rfl))
  have committed := unclaimed.call 0 rfl (.sql (.write_rows (first.lock freshEvent.id true) [claimed]
      rfl (.refl _) (List.forall_mem_singleton.mpr ⟨freshEvent, rfl, rfl⟩)))
    |>.call 0 rfl
      (.sql (.commit_rows { first.lock freshEvent.id true with written := [claimed] } rfl))
  have sent := committed.call 0 rfl .recorded |>.call 0 rfl .sent
  have found := sent.call 0 rfl (.sql (.began 0 rfl))
    |>.call 0 rfl (.sql (.select_only marking rfl trivial onlyClaimed fenced))
  have unlocked := found.call 0 rfl (.sql (.lock_free marking rfl (by
    intro u other isOther
    simp [Versions.setSession, Versions.commit, Function.update_apply] at isOther
    split_ifs at isOther
    · cases isOther
      exact List.not_mem_nil
    · cases isOther) unlimited rfl fenced))
  have marked := unlocked.call 0 rfl (.sql (.write_rows (marking.lock claimed.id true) [published] rfl
      (.refl _) (List.forall_mem_singleton.mpr ⟨claimed, rfl, rfl⟩)))
    |>.call 0 rfl
      (.sql (.commit_rows { marking.lock claimed.id true with written := [published] } rfl))
  exact ⟨_, marked.call 0 rfl .recorded, rfl, rfl, rfl⟩

/-- The event of overlapping claims, and its one send. -/
theorem outbox_dispatch_overlapping : ∃ pool : Pool wire OutboxWorld,
    dispatchers.Reachable OutboxWorld.initial pool ∧ pool.threads 1 = some (.done ()) ∧
      pool.state.sends (Uuid.ofInt 0) = 1 ∧
      1 ≤ eventAttempts (pool.state.event? (Uuid.ofInt 0)) ∧ ∃ event,
        pool.state.PublishedStays pool.state (Uuid.ofInt 0) event ∧ event.status = .published := by
  obtain ⟨pool, reached, ended, isSent, found⟩ := dispatchers_overlap
  have once : pool.state.sends (Uuid.ofInt 0) = 1 := by
    unfold sends
    rw [isSent]
    rfl
  obtain ⟨_, counted, _, stays⟩ := outbox_dispatch reached
  exact ⟨pool, reached, ended, once, once ▸ counted.atMost _, _, stays pool .refl _ _ found rfl, rfl⟩

end JobPlatform.Runtime
