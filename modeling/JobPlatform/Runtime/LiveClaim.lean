import JobPlatform.Runtime.TimedRuns
import JobPlatform.Store.Held

/-!
Contract: a worker whose heartbeat comes in time loses neither its claim nor its message.

Owns:
- `OnTime`, a hand whose last renewal and last extension are at most a heartbeat and some slack
  ago, and `Margin`, what the settings must leave for it;
- `Kept`, the invariant of such a hand: its message is hidden and its job is held;
- `live_claim_kept`: every claim of its job is refused, its message is not visible, and its
  completion does not report a lost claim, whatever the other workers do.
-/

namespace JobPlatform.Runtime

open JobPlatform.Foundation JobPlatform.Store
open JobPlatform.Store.Repository (ClaimedJob)

/-- The job is completed and the message not yet deleted. -/
def Stage.isCompleted : Stage → Bool
  | .completed _ => true
  | _ => false

/-- The last extension, and before the completion the last renewal, are at most a heartbeat and the
slack ago. Both count from the receipt. -/
def Hand.OnTime (setup : Setup) (slack now : Time) (hand : Hand) : Prop :=
  (hand.stage.isCompleted ∨
    now ≤ hand.renewedAt + (interval setup.visibilityHeartbeatSeconds + slack)) ∧
    now ≤ hand.extendedAt + (interval setup.visibilityHeartbeatSeconds + slack)

instance (setup : Setup) (slack now : Time) (hand : Hand) :
    Decidable (hand.OnTime setup slack now) :=
  inferInstanceAs (Decidable (_ ∧ _))

/-- A heartbeat and the slack fit into the lease and into the visibility timeout, which is also the
default of the queue. -/
structure Setup.Margin (setup : Setup) (slack : Time) : Prop where
  heartbeat : 0 ≤ interval setup.visibilityHeartbeatSeconds + slack
  lease : interval setup.visibilityHeartbeatSeconds + slack ≤ interval setup.processingLeaseSeconds
  visibility : interval setup.visibilityHeartbeatSeconds + slack <
    interval setup.visibilityTimeoutSeconds
  queue : setup.queueVisibilitySeconds = setup.visibilityTimeoutSeconds

/-- Settings that pass the validator leave a margin without slack. -/
theorem margin_of_valid {setup : Setup}
    (valid : validateRuntimeIntervals setup.toConsumerConfig = .ok ())
    (positive : 0 < setup.visibilityHeartbeatSeconds)
    (queue : setup.queueVisibilitySeconds = setup.visibilityTimeoutSeconds) : setup.Margin 0 := by
  unfold validateRuntimeIntervals at valid
  split at valid
  · cases valid
  split at valid
  · cases valid
  next visibility lease =>
    refine ⟨?_, ?_, ?_, queue⟩
    · show (0 : Int) ≤ setup.visibilityHeartbeatSeconds * 1000000 + 0
      omega
    · show setup.visibilityHeartbeatSeconds * 1000000 + (0 : Int) ≤
        setup.processingLeaseSeconds * 1000000
      omega
    · show setup.visibilityHeartbeatSeconds * 1000000 + (0 : Int) <
        setup.visibilityTimeoutSeconds * 1000000
      omega

namespace TimedWorld

/-- The worker is on time after the step. -/
def Punctual (setup : Setup) (slack : Time) (worker : Nat) (_ : TimedWorld) (_ : TimedEvent)
    (after : TimedWorld) : Prop :=
  ∀ hand ∈ after.hand? worker, hand.OnTime setup slack after.now

instance (setup : Setup) (slack : Time) (worker : Nat) (world : TimedWorld) (event : TimedEvent)
    (after : TimedWorld) : Decidable (world.Punctual setup slack worker event after) :=
  inferInstanceAs (Decidable (∀ hand ∈ after.hand? worker, hand.OnTime setup slack after.now))

/-- The message of the hand is hidden for the visibility timeout after the last extension. -/
def Hides (world : TimedWorld) (setup : Setup) (hand : Hand) : Prop :=
  ∀ entry ∈ world.queue, entry.id = hand.receiptHandle →
    hand.extendedAt + interval setup.visibilityTimeoutSeconds ≤ entry.visibleAt

/-- The job of the hand is held since the last renewal. -/
def Holds (world : TimedWorld) (hand : Hand) : Prop :=
  ∀ job, hand.stage = .processing job →
    world.db.Held hand.jobId job.processingToken hand.renewedAt

/-- What an on-time worker keeps. -/
structure Kept (world : TimedWorld) (setup : Setup) (slack : Time) (hand : Hand) : Prop where
  onTime : hand.OnTime setup slack world.now
  hides : world.Hides setup hand
  holds : world.Holds hand

section Steps

variable {world after : TimedWorld} {setup : Setup} {slack : Time} {worker : Nat} {hand : Hand}
  {event : TimedEvent}

/-- While a message is hidden nobody else receives it, and an extension only hides it longer. -/
theorem Hides.moves (hides : world.Hides setup hand) (sound : hand.Sound world)
    (present : world.now < hand.extendedAt + interval setup.visibilityTimeoutSeconds)
    (moves : world.Moves setup event after) : after.Hides setup hand := by
  have extended : ∀ handle, (world.adjust handle fun entry => { entry with
      visibleAt := world.now + interval setup.visibilityTimeoutSeconds }).Hides setup hand := by
    intro handle entry member isHandle
    obtain ⟨old, inQueue, same, ⟨_, rfl⟩ | ⟨_, rfl⟩⟩ := mem_adjust (by intro _; rfl) member
    · exact Int.add_le_add_right sound.extendedAt _
    · exact hides entry inQueue isHandle
  cases moves with
  | passed => exact hides
  | sent =>
      intro entry member isHandle
      rcases List.mem_append.mp member with old | new
      · exact hides entry old isHandle
      · rw [List.mem_singleton.mp new] at isHandle
        exact absurd isHandle (Nat.ne_of_gt sound.receipt)
  | committed => exact hides
  | received found idle visible within =>
      obtain ⟨inQueue, rfl⟩ := entry?_eq_some found
      intro other member isHandle
      obtain ⟨old, isOld, same, ⟨isEntry, rfl⟩ | ⟨_, rfl⟩⟩ := mem_adjust (by intro _; rfl) member
      · have hidden := hides _ inQueue (isEntry.symm.trans isHandle)
        exact absurd (present.trans_le hidden) (not_lt.mpr visible)
      · exact hides other isOld isHandle
  | deadLettered => exact fun entry member => hides entry (mem_remove.mp member).1
  | worked holds acts =>
      cases acts with
      | extended => exact extended _
      | deleted => exact fun entry member => hides entry (mem_remove.mp member).1
      | _ => exact hides

variable {jobId token : Uuid} {since : Time}

/-- A transaction leaves a held job, unless it ends the claim or comes after the lease. -/
theorem held_of_request (held : world.db.Held jobId token since) (present : since ≤ world.now)
    {call : RepoCall} (inputs : Inputs) (faults : Faults Exn)
    (unfinished : ¬ Finishes jobId token call)
    (within : ∀ leaseSeconds, call = .markJobProcessing jobId leaseSeconds →
      world.now ≤ since + interval leaseSeconds) :
    ((world.request call inputs faults).after world.db).Held jobId token since := by
  rcases (world.request call inputs faults).outcome world.db with
    ⟨_, _, unchanged⟩ | ⟨_, _, effect⟩
  · rwa [unchanged]
  · exact held.effect effect present unfinished within

/-- Within its lease a held job is left alone by every client, and by every worker that does not
have its token. -/
theorem held_of_moves (held : world.db.Held jobId token since) (present : since ≤ world.now)
    (within : world.now ≤ since + interval setup.processingLeaseSeconds)
    (foreign : ∀ other otherHand job call, event = .work other call →
      world.hand? other = some otherHand → otherHand.stage.claim? = some job →
        job.processingToken ≠ token)
    (moves : world.Moves setup event after) : after.db.Held jobId token since := by
  cases moves with
  | passed => exact held
  | sent => exact held
  | @committed call _ _ client =>
      refine held_of_request held present _ _ ?_ ?_
      · cases call <;> first | exact id | cases client
      · rintro leaseSeconds rfl
        cases client
  | received => exact held
  | deadLettered => exact held
  | @worked other otherHand _ _ holds acts =>
      have own : ∀ job, otherHand.stage.claim? = some job → job.processingToken ≠ token :=
        fun job => foreign other otherHand job _ rfl holds
      cases acts with
      | acquired =>
          refine held_of_request held present _ _ id ?_
          rintro leaseSeconds ⟨⟩
          exact within
      | refused =>
          refine held_of_request held present _ _ id ?_
          rintro leaseSeconds ⟨⟩
          exact within
      | duplicate => exact held_of_request held present _ _ id fun _ => nofun
      | inProgress => exact held_of_request held present _ _ id fun _ => nofun
      | renewed => exact held_of_request held present _ _ id fun _ => nofun
      | extended => exact held
      | @completed _ _ _ job stage =>
          refine held_of_request held present _ _ ?_ fun _ => nofun
          exact fun finishes => own job (by rw [stage]; rfl) finishes.2
      | @failed _ _ job _ _ stage =>
          refine held_of_request held present _ _ ?_ fun _ => nofun
          exact fun finishes => own job (by rw [stage]; rfl) finishes.2
      | deleted => exact held
      | troubled => exact held

/-- While an on-time worker processes its job, the lease has not run out. -/
theorem Kept.within (kept : world.Kept setup slack hand) (margin : setup.Margin slack)
    {job : ClaimedJob} (stage : hand.stage = .processing job) :
    world.now ≤ hand.renewedAt + interval setup.processingLeaseSeconds := by
  have renewal : world.now ≤
      hand.renewedAt + (interval setup.visibilityHeartbeatSeconds + slack) := by
    rcases kept.onTime.1 with isCompleted | renewal
    · rw [stage] at isCompleted
      cases isCompleted
    · exact renewal
  exact renewal.trans (Int.add_le_add_left margin.lease _)

/-- A hand that is left alone stays kept. -/
theorem Kept.bystander (kept : world.Kept setup slack hand) (margin : setup.Margin slack)
    (sound : world.Sound) (holds : world.hand? worker = some hand)
    (foreign : ∀ call, event ≠ .work worker call) (onTime : hand.OnTime setup slack after.now)
    (moves : world.Moves setup event after) : after.Kept setup slack hand where
  onTime := onTime
  hides := by
    have present : world.now < hand.extendedAt + interval setup.visibilityTimeoutSeconds :=
      lt_of_le_of_lt kept.onTime.2 (Int.add_lt_add_left margin.visibility _)
    exact kept.hides.moves (sound.hands holds) present moves
  holds := by
    intro job stage
    have claim : hand.stage.claim? = some job := by
      rw [stage]
      rfl
    refine held_of_moves (kept.holds job stage) (sound.hands holds).renewedAt
      (kept.within margin stage) ?_ moves
    rintro other otherHand otherJob call rfl otherHolds otherClaim same
    exact foreign call (by rw [sound.apart otherHolds holds otherClaim claim same])

/-- The worker's own call keeps what it keeps. -/
theorem Kept.acts (kept : world.Kept setup slack hand) (sound : world.Sound)
    (holds : world.hand? worker = some hand) {call : WorkerCall}
    (acts : world.Acts setup worker hand call after) {next : Hand}
    (isNext : after.hand? worker = some next) (onTime : next.OnTime setup slack after.now) :
    after.Kept setup slack next := by
  have own := sound.hands holds
  cases acts with
  | acquired stage fresh granted =>
      cases eq_of_setHand isNext
      refine ⟨onTime, kept.hides, ?_⟩
      rintro job ⟨⟩
      exact (Database.Held.of_claim (Request.effect granted)).mono own.renewedAt
  | refused =>
      cases eq_of_setHand isNext
      exact ⟨onTime, kept.hides, fun _ => nofun⟩
  | duplicate =>
      cases eq_of_setHand isNext
      exact ⟨onTime, kept.hides, fun _ => nofun⟩
  | inProgress => cases eq_of_setHand isNext
  | renewed claim fresh returned =>
      cases eq_of_setHand isNext
      refine ⟨onTime, kept.hides, fun job stage => ?_⟩
      have same : hand.stage = .processing job := stage
      rw [same] at claim
      cases claim
      exact Database.Held.of_renewal (Request.effect returned)
  | extended =>
      cases eq_of_setHand isNext
      refine ⟨onTime, fun entry member isHandle => ?_, kept.holds⟩
      obtain ⟨old, inQueue, same, ⟨_, rfl⟩ | ⟨other, rfl⟩⟩ := mem_adjust (by intro _; rfl) member
      · exact le_refl _
      · exact absurd isHandle other
  | completed =>
      cases eq_of_setHand isNext
      exact ⟨onTime, kept.hides, fun _ => nofun⟩
  | failed => cases eq_of_setHand isNext
  | deleted => cases eq_of_setHand isNext
  | troubled trouble keeps =>
      have retains := keeps next (eq_of_setHand isNext)
      refine ⟨onTime, fun entry member isHandle => ?_, fun job stage => ?_⟩
      · rw [retains.extendedAt]
        exact kept.hides entry member (isHandle.trans retains.receiptHandle)
      · rw [retains.jobId, retains.renewedAt]
        rcases retains.stage with same | ⟨_, _, _, _, isFailing⟩
        · exact kept.holds job (same.symm.trans stage)
        · rw [isFailing] at stage
          cases stage

/-- A message that was just received. -/
theorem kept_of_receipt {entry : QueuedMessage} (margin : setup.Margin slack)
    (holds : (world.deliver setup worker entry.toMessage).hand? worker = some hand) :
    (world.deliver setup worker entry.toMessage).Kept setup slack hand := by
  have isReceipt := eq_of_setHand holds
  unfold receipt at isReceipt
  split at isReceipt
  · cases isReceipt
    have soon := Int.le_add_of_nonneg_right (a := world.now) margin.heartbeat
    refine ⟨⟨.inr soon, soon⟩, fun other member isHandle => ?_, fun _ => nofun⟩
    obtain ⟨old, inQueue, same, ⟨_, rfl⟩ | ⟨apart, rfl⟩⟩ := mem_adjust (by intro _; rfl) member
    · show world.now + interval setup.visibilityTimeoutSeconds ≤
        world.now + interval setup.queueVisibilitySeconds
      rw [margin.queue]
    · exact absurd isHandle apart
  · cases isReceipt

/-- A worker that is on time keeps its claim and its message. -/
theorem kept_of_moves (margin : setup.Margin slack) (sound : world.Sound)
    (kept : ∀ hand, world.hand? worker = some hand → world.Kept setup slack hand)
    (moves : world.Moves setup event after)
    (onTime : world.Punctual setup slack worker event after) :
    ∀ hand, after.hand? worker = some hand → after.Kept setup slack hand := by
  intro hand holds
  have alone : world.hand? worker = some hand → (∀ call, event ≠ .work worker call) →
      after.Kept setup slack hand := fun held foreign =>
    (kept hand held).bystander margin sound held foreign (onTime hand holds) moves
  cases moves with
  | passed => exact alone holds fun _ => nofun
  | sent => exact alone holds fun _ => nofun
  | committed => exact alone holds fun _ => nofun
  | deadLettered => exact alone holds fun _ => nofun
  | @received other _ entry =>
      by_cases own : worker = other
      · subst own
        exact kept_of_receipt margin holds
      · rcases hand?_setHand holds with ⟨same, _⟩ | ⟨_, held⟩
        · exact absurd same own
        · exact alone held fun _ => nofun
  | @worked other otherHand call _ otherHolds acts =>
      by_cases own : worker = other
      · subst own
        exact (kept otherHand otherHolds).acts sound otherHolds acts holds (onTime hand holds)
      · refine alone ?_ fun call => ?_
        · rw [← acts.hand?_of_ne own]
          exact holds
        · rintro ⟨⟩
          exact own rfl

end Steps

/-- A worker that receives a message and is on time from then on, with any slack that the settings
leave, keeps its claim and its message, however long it works and whatever the others do: every
claim of its job is refused, its message is not visible until it is deleted, and its completion
does not report a lost claim. -/
theorem live_claim_kept {setup : Setup} {slack : Time} (margin : setup.Margin slack)
    {workers worker : Nat} {start : Time} {receiptHandle : ReceiptHandle}
    {before received world : TimedWorld}
    (ran : Run setup Anything (opening workers start) before)
    (receives : before.step setup (.receive worker receiptHandle) = some received)
    (onTime : Run setup (Punctual setup slack worker) received world) {hand : Hand}
    (holds : world.hand? worker = some hand) :
    (∀ job, hand.stage = .processing job ∨ hand.stage = .completed job →
      ∀ inputs faults claimed,
        (world.request (.markJobProcessing hand.jobId setup.processingLeaseSeconds) inputs
          faults).reply world.db ≠ .ok (some claimed)) ∧
    (∀ entry ∈ world.queue, entry.id = hand.receiptHandle → world.now < entry.visibleAt) ∧
    (∀ job, hand.stage = .processing job →
      ∀ reportId inputs faults, some .lostJobClaimError ∉ faults →
        (world.completeRequest setup job reportId inputs faults).reply world.db ≠
          .error .lostJobClaimError) := by
  have sound : received.Sound := (sound_of_run ran).moves (moves_of_step receives)
  have soundNow : world.Sound := onTime.keeps sound fun sound moves _ => sound.moves moves
  have first : ∀ hand, received.hand? worker = some hand → received.Kept setup slack hand := by
    intro hand held
    cases moves_of_step receives with
    | received => exact kept_of_receipt margin held
  have kept : world.Kept setup slack hand := by
    have both := onTime.keeps (P := fun world => world.Sound ∧
      ∀ hand, world.hand? worker = some hand → world.Kept setup slack hand) ⟨sound, first⟩
      fun both moves onTime => ⟨both.1.moves moves, kept_of_moves margin both.1 both.2 moves onTime⟩
    exact both.2 hand holds
  have own := soundNow.hands holds
  refine ⟨?_, fun entry member isHandle => ?_, ?_⟩
  · rintro job (stage | stage) inputs faults claimed granted
    · have within := kept.within margin stage
      cases (kept.holds job stage).unclaimed within (Request.effect granted)
    · cases (own.settled (.inr ⟨job, stage⟩)).unclaimed (Request.effect granted)
  · exact lt_of_le_of_lt kept.onTime.2
      ((Int.add_lt_add_left margin.visibility _).trans_le (kept.hides entry member isHandle))
  · intro job stage reportId inputs faults clean
    have isId := (own.claim job (by rw [stage]; rfl)).1
    have held := kept.holds job stage
    rw [← isId] at held
    exact held.completes clean

/-- A job and two messages that name it. -/
def twoMessages : List TimedEvent :=
  [.commit (.createJob "csv_report" (.obj []) none) (.numbered 0 0) [],
    .send (jobMessage (Uuid.ofInt 0) .null), .send (jobMessage (Uuid.ofInt 0) .null)]

/-- A heartbeat of the worker, drawing the given inputs. -/
def tick (worker number : Nat) (now : Time) : List TimedEvent :=
  [.pass now, .work worker (.renew (.numbered number 0) []), .work worker (.extend true)]

/-- The deployed settings, after two heartbeats and a duplicate. -/
theorem live_claim_kept_deployed : ∃ (world : TimedWorld) (hand : Hand),
    (world.now = interval 60 ∧ world.hand? 0 = some hand ∧ ∃ job, hand.stage = .processing job) ∧
    (∀ inputs faults claimed,
      (world.request (.markJobProcessing hand.jobId 120) inputs faults).reply world.db ≠
        .ok (some claimed)) ∧
    (∀ entry ∈ world.queue, entry.id = hand.receiptHandle → world.now < entry.visibleAt) := by
  have runs : ((play deployed Anything twoMessages (opening 2 0)).bind fun before =>
      (before.step deployed (.receive 0 0)).bind fun received =>
        (play deployed (Punctual deployed 0 0)
          (.work 0 (.claim (.numbered 1 0) []) :: tick 0 2 (interval 30) ++
            [.receive 1 1, .work 1 (.claim (.numbered 3 0) []),
              .work 1 (.read (.numbered 4 0) [])] ++
            tick 0 5 (interval 60)) received).bind fun world =>
              (require (world.now = interval 60) world).bind fun world =>
                (world.hand? 0).bind fun hand => hand.stage.processing?).isSome := by
    decide +kernel
  obtain ⟨job, runs⟩ := Option.isSome_iff_exists.mp runs
  obtain ⟨before, first, runs⟩ := Option.bind_eq_some_iff.mp runs
  obtain ⟨received, receives, runs⟩ := Option.bind_eq_some_iff.mp runs
  obtain ⟨world, rest, runs⟩ := Option.bind_eq_some_iff.mp runs
  obtain ⟨_, isNow, runs⟩ := Option.bind_eq_some_iff.mp runs
  obtain ⟨atMinute, rfl⟩ := require_eq_some.mp isNow
  obtain ⟨hand, holds, runs⟩ := Option.bind_eq_some_iff.mp runs
  have stage := Stage.processing?_eq_some.mp runs
  have margin : deployed.Margin 0 := margin_of_valid rfl (by decide) rfl
  obtain ⟨refused, hidden, _⟩ :=
    live_claim_kept margin (run_of_play first) receives (run_of_play rest) holds
  exact ⟨world, hand, ⟨atMinute, holds, job, stage⟩, refused job (.inl stage), hidden⟩

end TimedWorld

end JobPlatform.Runtime
