import JobPlatform.Runtime.LiveClaim

/-!
Contract: when the job of a crashed worker is claimed again before its message is dead-lettered.

Owns:
- `Prompt`, the runs in which SQS and the workers act on one message at once and without failures;
- `Awaits`, what is left of the deliveries of a message whose job is held by nobody;
- `crashed_job_recovered`: if the last delivery comes after the lease, the message stays in the main
  queue until the job is claimed again, and its last delivery claims the job;
- `crashed_job_stranded`: under the deployed settings a worker that crashes right after its claim
  leaves a job that no delivery reclaims.
-/

namespace JobPlatform.Runtime

open JobPlatform.Foundation JobPlatform.Store
open JobPlatform.Store.Repository (ClaimedJob jobClaimable)

namespace TimedWorld

/-- A visible message is handed out before time passes, and whoever received it claims its job, or
reads it, before time passes and without a failing call. -/
def Prompt (setup : Setup) (receiptHandle : ReceiptHandle) (world : TimedWorld) :
    TimedEvent → Prop
  | .pass later =>
      (∀ entry ∈ world.queue, entry.id = receiptHandle → later ≤ entry.visibleAt) ∧
        ∀ held ∈ world.hands, ∀ hand ∈ held, hand.receiptHandle = receiptHandle →
          hand.stage.claim? = none → later ≤ world.now
  | .work worker call => ∀ hand ∈ world.hand? worker, hand.receiptHandle = receiptHandle →
      hand.stage.claim? = none → ¬ world.Troubled setup hand call
  | _ => True

instance (setup : Setup) (receiptHandle : ReceiptHandle) (world : TimedWorld)
    (event : TimedEvent) : Decidable (Prompt setup receiptHandle world event) := by
  unfold Prompt
  split <;> infer_instance

/-- What is left of the deliveries of a message. The last one comes after the lease, and if it has
come, a worker is about to claim the job. -/
structure Awaits (world : TimedWorld) (setup : Setup) (jobId : Uuid) (started : Time)
    (entry : QueuedMessage) : Prop where
  names : Names entry.body jobId
  early : entry.receives < setup.maxReceiveCount →
    started + interval setup.processingLeaseSeconds < entry.visibleAt +
      ((setup.maxReceiveCount : Int) - entry.receives - 1) * interval setup.queueVisibilitySeconds
  late : setup.maxReceiveCount ≤ entry.receives →
    started + interval setup.processingLeaseSeconds < world.now ∧
      ∃ worker hand, world.hand? worker = some hand ∧ hand.receiptHandle = entry.id ∧
        hand.stage = .received
  hands : ∀ {worker hand}, world.hand? worker = some hand → hand.receiptHandle = entry.id →
    world.now < entry.visibleAt ∧ hand.heartbeat = .waiting ∧
      (hand.stage = .received ∨
        hand.stage = .refused ∧ entry.receives < setup.maxReceiveCount)

/-- No worker has the token, and while the job is under it, its message awaits delivery. -/
structure Recovering (world : TimedWorld) (setup : Setup) (receiptHandle : ReceiptHandle)
    (jobId token : Uuid) (started : Time) : Prop where
  drawn : token ∈ world.drawn
  unowned : ∀ {worker hand job}, world.hand? worker = some hand →
    hand.stage.claim? = some job → job.processingToken ≠ token
  awaits : world.db.HeldSince jobId token started →
    ∃ entry ∈ world.queue, entry.id = receiptHandle ∧ world.Awaits setup jobId started entry

section Steps

variable {world after : TimedWorld} {setup : Setup} {receiptHandle : ReceiptHandle}
  {jobId token : Uuid} {started : Time} {event : TimedEvent} {entry : QueuedMessage}
  {worker : Nat} {hand : Hand}

/-- A transaction that neither issued nor renewed the token found the claim as it is. -/
theorem heldSince_of_request {call : RepoCall} {inputs : Inputs} {faults : Faults Exn}
    (held : ((world.request call inputs faults).after world.db).HeldSince jobId token started)
    (fresh : inputs.Fresh world.drawn) (drawn : token ∈ world.drawn)
    (foreign : call ≠ .renewJobProcessingLease jobId token) :
    world.db.HeldSince jobId token started := by
  rcases (world.request call inputs faults).outcome world.db with
    ⟨_, _, unchanged⟩ | ⟨_, _, effect⟩
  · rwa [unchanged] at held
  · refine held.before effect ?_ foreign
    rintro rfl
    exact fresh.new 0 drawn

/-- The claim of a crashed worker is older than any step after the crash. -/
theorem Recovering.before (recovering : world.Recovering setup receiptHandle jobId token started)
    (moves : world.Moves setup event after) (held : after.db.HeldSince jobId token started) :
    world.db.HeldSince jobId token started := by
  cases moves with
  | passed => exact held
  | sent => exact held
  | committed client fresh =>
      refine heldSince_of_request held fresh recovering.drawn ?_
      rintro rfl
      cases client
  | received => exact held
  | deadLettered => exact held
  | worked holds acts =>
      cases acts with
      | acquired _ fresh => exact heldSince_of_request held fresh recovering.drawn nofun
      | refused _ fresh => exact heldSince_of_request held fresh recovering.drawn nofun
      | duplicate _ fresh => exact heldSince_of_request held fresh recovering.drawn nofun
      | inProgress _ fresh => exact heldSince_of_request held fresh recovering.drawn nofun
      | renewed claim fresh =>
          refine heldSince_of_request held fresh recovering.drawn fun isRenewal => ?_
          cases isRenewal
          exact recovering.unowned holds claim rfl
      | extended => exact held
      | completed _ fresh => exact heldSince_of_request held fresh recovering.drawn nofun
      | failed _ fresh => exact heldSince_of_request held fresh recovering.drawn nofun
      | deleted => exact held
      | troubled => exact held

/-- A claim a worker has after its call it had before, or it is new. -/
theorem Acts.claim {call : WorkerCall} (acts : world.Acts setup worker hand call after)
    {kept : Hand} (holds : after.hand? worker = some kept) {job : ClaimedJob}
    (claim : kept.stage.claim? = some job) :
    hand.stage.claim? = some job ∨ job.processingToken ∉ world.drawn := by
  cases acts with
  | acquired stage fresh granted =>
      cases eq_of_setHand holds
      cases claim
      obtain ⟨_, isToken, _⟩ := World.row_of_grant (Request.effect granted)
      rw [isToken]
      exact .inr (fresh.new 0)
  | refused =>
      cases eq_of_setHand holds
      cases claim
  | duplicate =>
      cases eq_of_setHand holds
      cases claim
  | inProgress => cases eq_of_setHand holds
  | renewed =>
      cases eq_of_setHand holds
      exact .inl claim
  | extended =>
      cases eq_of_setHand holds
      exact .inl claim
  | completed stage =>
      cases eq_of_setHand holds
      cases claim
      exact .inl (by rw [stage]; rfl)
  | failed => cases eq_of_setHand holds
  | deleted => cases eq_of_setHand holds
  | troubled _ keeps => exact .inl ((keeps kept (eq_of_setHand holds)).claim claim)

/-- No worker comes to have the token. -/
theorem Recovering.unowned_of_moves
    (recovering : world.Recovering setup receiptHandle jobId token started)
    (moves : world.Moves setup event after) {job : ClaimedJob}
    (holds : after.hand? worker = some hand) (claim : hand.stage.claim? = some job) :
    job.processingToken ≠ token := by
  cases moves with
  | passed => exact recovering.unowned holds claim
  | sent => exact recovering.unowned holds claim
  | committed => exact recovering.unowned holds claim
  | received =>
      rcases hand?_setHand holds with ⟨_, isReceipt⟩ | ⟨_, held⟩
      · unfold receipt at isReceipt
        split at isReceipt <;> cases isReceipt
        cases claim
      · exact recovering.unowned held claim
  | deadLettered => exact recovering.unowned holds claim
  | @worked other otherHand _ _ otherHolds acts =>
      by_cases own : worker = other
      · subst own
        rcases acts.claim holds claim with before | new
        · exact recovering.unowned otherHolds before
        · exact fun isToken => new (isToken ▸ recovering.drawn)
      · rw [acts.hand?_of_ne own] at holds
        exact recovering.unowned holds claim

theorem Moves.drawn_subset (moves : world.Moves setup event after) : world.drawn ⊆ after.drawn := by
  cases moves with
  | committed => exact List.subset_append_left _ _
  | worked _ acts =>
      cases acts with
      | extended => exact List.Subset.refl _
      | deleted => exact List.Subset.refl _
      | _ => exact List.subset_append_left _ _
  | _ => exact List.Subset.refl _

/-- A worker that has the message has no claim. -/
theorem Awaits.unclaimed (awaits : world.Awaits setup jobId started entry)
    (holds : world.hand? worker = some hand) (isReceipt : hand.receiptHandle = entry.id) :
    hand.stage.claim? = none := by
  obtain ⟨_, _, stage | ⟨stage, _⟩⟩ := awaits.hands holds isReceipt
  · rw [stage]
    rfl
  · rw [stage]
    rfl

/-- A hand with another message leaves the wait alone. -/
theorem Awaits.bystander (awaits : world.Awaits setup jobId started entry)
    (holds : world.hand? worker = some hand) (apart : hand.receiptHandle ≠ entry.id)
    {call : WorkerCall} (acts : world.Acts setup worker hand call after) :
    after.Awaits setup jobId started entry where
  names := awaits.names
  early := awaits.early
  late spent := by
    obtain ⟨expired, other, otherHand, otherHolds, isReceipt, stage⟩ := awaits.late spent
    refine ⟨by rw [acts.now_eq]; exact expired, other, otherHand, ?_, isReceipt, stage⟩
    refine (acts.hand?_of_ne ?_).trans otherHolds
    rintro rfl
    rw [holds] at otherHolds
    cases otherHolds
    exact apart isReceipt
  hands {other otherHand} otherHolds isReceipt := by
    rw [acts.now_eq]
    by_cases own : other = worker
    · subst own
      exact absurd ((acts.receipt otherHolds).symm.trans isReceipt) apart
    · rw [acts.hand?_of_ne own] at otherHolds
      exact awaits.hands otherHolds isReceipt

/-- A delivery: the message is hidden again, and one delivery fewer is left. -/
theorem Awaits.delivered (awaits : world.Awaits setup jobId started entry)
    (idle : world.idle worker) (visible : entry.visibleAt ≤ world.now)
    (within : entry.receives < setup.maxReceiveCount)
    (positive : 0 < interval setup.queueVisibilitySeconds) :
    (world.deliver setup worker entry.toMessage).Awaits setup jobId started
      { entry with
        visibleAt := world.now + interval setup.queueVisibilitySeconds
        receives := entry.receives + 1 } := by
  have free : ∀ {other otherHand}, world.hand? other = some otherHand →
      otherHand.receiptHandle ≠ entry.id := fun holds isReceipt =>
    absurd visible (not_le.mpr (awaits.hands holds isReceipt).1)
  have isReceipt : world.receipt entry.toMessage =
      some ⟨entry.id, jobId, .received, .waiting, world.now, world.now⟩ := by
    unfold receipt
    rw [awaits.names]
  have holds : (world.deliver setup worker entry.toMessage).hand? worker =
      some ⟨entry.id, jobId, .received, .waiting, world.now, world.now⟩ := by
    rw [← isReceipt]
    exact hand?_setHand_self (hand?_of_idle idle).1
  have early := awaits.early within
  have left : ((setup.maxReceiveCount : Int) - entry.receives - 1) *
      interval setup.queueVisibilitySeconds =
        ((setup.maxReceiveCount : Int) - (entry.receives + 1 : Nat) - 1) *
          interval setup.queueVisibilitySeconds + interval setup.queueVisibilitySeconds := by
    push_cast
    ring
  refine ⟨awaits.names, fun _ => ?_, fun spent => ?_,
    fun {other otherHand} otherHolds isOther => ?_⟩
  · show started + interval setup.processingLeaseSeconds <
      world.now + interval setup.queueVisibilitySeconds +
        ((setup.maxReceiveCount : Int) - (entry.receives + 1 : Nat) - 1) *
          interval setup.queueVisibilitySeconds
    rw [left] at early
    refine early.trans_le ?_
    have later := Int.add_le_add_right visible (((setup.maxReceiveCount : Int) -
      (entry.receives + 1 : Nat) - 1) * interval setup.queueVisibilitySeconds +
        interval setup.queueVisibilitySeconds)
    calc _ ≤ _ := later
      _ = _ := by ring
  · refine ⟨?_, worker, _, holds, rfl, rfl⟩
    have isLast : (setup.maxReceiveCount : Int) = entry.receives + 1 := by
      have last : entry.receives + 1 = setup.maxReceiveCount := Nat.le_antisymm within spent
      omega
    rw [isLast] at early
    show started + interval setup.processingLeaseSeconds < world.now
    have noneLeft : ((entry.receives : Int) + 1 - entry.receives - 1) *
        interval setup.queueVisibilitySeconds = 0 := by ring
    rw [noneLeft, add_zero] at early
    exact early.trans_le visible
  · rcases hand?_setHand otherHolds with ⟨rfl, same⟩ | ⟨_, held⟩
    · rw [isReceipt] at same
      cases same
      exact ⟨Int.lt_add_of_pos_right _ positive, rfl, .inl rfl⟩
    · exact absurd isOther (free held)

/-- What the message still awaits when a worker that holds it goes on, or leaves it. -/
theorem Awaits.goesOn (awaits : world.Awaits setup jobId started entry)
    (holds : world.hand? worker = some hand) (isReceipt : hand.receiptHandle = entry.id)
    {call : WorkerCall} (acts : world.Acts setup worker hand call after)
    (within : entry.receives < setup.maxReceiveCount)
    (next : ∀ kept, after.hand? worker = some kept →
      kept.heartbeat = .waiting ∧ kept.stage = .refused) :
    after.Awaits setup jobId started entry where
  names := awaits.names
  early := awaits.early
  late spent := absurd within (Nat.not_lt.mpr spent)
  hands {other otherHand} otherHolds isOther := by
    rw [acts.now_eq]
    by_cases own : other = worker
    · subst own
      obtain ⟨heartbeat, stage⟩ := next otherHand otherHolds
      exact ⟨(awaits.hands holds isReceipt).1, heartbeat, .inr ⟨stage, within⟩⟩
    · rw [acts.hand?_of_ne own] at otherHolds
      exact awaits.hands otherHolds isOther

/-- A worker that received the message claims the job, or is refused before the last delivery. -/
theorem Awaits.acts (awaits : world.Awaits setup jobId started entry)
    (inQueue : entry ∈ world.queue) (own : hand.Sound world) (drawn : token ∈ world.drawn)
    (before : world.db.HeldSince jobId token started)
    (held : after.db.HeldSince jobId token started)
    (holds : world.hand? worker = some hand) (isReceipt : hand.receiptHandle = entry.id)
    {call : WorkerCall} (acts : world.Acts setup worker hand call after)
    (untroubled : ¬ world.Troubled setup hand call) :
    entry ∈ after.queue ∧ after.Awaits setup jobId started entry := by
  have isJob : hand.jobId = jobId :=
    Except.ok.inj ((own.names entry inQueue isReceipt.symm).symm.trans awaits.names)
  subst isJob
  obtain ⟨_, heartbeat, stages⟩ := awaits.hands holds isReceipt
  have unclaimed := awaits.unclaimed holds isReceipt
  have effective := acts
  cases acts with
  | acquired stage fresh granted =>
      have isToken := held.not_claimed (Request.effect granted)
      exact absurd drawn (isToken ▸ fresh.new 0)
  | refused stage fresh refusal =>
      have early := before.refused_early (Request.effect refusal)
      have within : entry.receives < setup.maxReceiveCount := by
        by_contra spent
        exact absurd (awaits.late (not_lt.mp spent)).1 (not_lt.mpr early)
      refine ⟨inQueue, awaits.goesOn holds isReceipt effective within fun kept isKept => ?_⟩
      cases eq_of_setHand isKept
      exact ⟨heartbeat, rfl⟩
  | duplicate stage fresh read completed =>
      obtain ⟨row, found, status, _⟩ := held
      have isRow : some row = some _ := found.symm.trans (World.row_of_read (Request.effect read))
      cases isRow
      cases status.symm.trans completed
  | inProgress stage fresh read unfinished =>
      have within : entry.receives < setup.maxReceiveCount := by
        rcases stages with received | ⟨_, within⟩
        · cases received.symm.trans stage
        · exact within
      refine ⟨inQueue, awaits.goesOn holds isReceipt effective within fun kept isKept => ?_⟩
      cases eq_of_setHand isKept
  | renewed claim => cases unclaimed.symm.trans claim
  | extended phase => cases heartbeat.symm.trans phase
  | completed stage => rw [stage] at unclaimed; cases unclaimed
  | failed stage => rw [stage] at unclaimed; cases unclaimed
  | deleted done =>
      rcases stages with stage | ⟨stage, _⟩ <;> simp [stage] at done
  | troubled trouble => exact absurd trouble untroubled

/-- While the job is under the token, its message goes on waiting. -/
theorem Awaits.moves (awaits : world.Awaits setup jobId started entry)
    (inQueue : entry ∈ world.queue) (isHandle : entry.id = receiptHandle) (sound : world.Sound)
    (drawn : token ∈ world.drawn) (before : world.db.HeldSince jobId token started)
    (held : after.db.HeldSince jobId token started)
    (positive : 0 < interval setup.queueVisibilitySeconds)
    (moves : world.Moves setup event after) (prompt : Prompt setup receiptHandle world event) :
    ∃ next ∈ after.queue, next.id = receiptHandle ∧ after.Awaits setup jobId started next := by
  cases moves with
  | passed ahead =>
      refine ⟨entry, inQueue, isHandle, awaits.names, awaits.early, fun spent => ?_,
        fun {worker hand} holds isReceipt => ?_⟩
      · obtain ⟨expired, received⟩ := awaits.late spent
        exact ⟨expired.trans_le ahead, received⟩
      · obtain ⟨hidden, heartbeat, stages⟩ := awaits.hands holds isReceipt
        have still := prompt.2 _ (mem_hands holds) hand rfl (isReceipt.trans isHandle)
          (awaits.unclaimed holds isReceipt)
        exact ⟨still.trans_lt hidden, heartbeat, stages⟩
  | sent =>
      exact ⟨entry, List.mem_append_left _ inQueue, isHandle, awaits.names, awaits.early,
        awaits.late, awaits.hands⟩
  | committed =>
      exact ⟨entry, inQueue, isHandle, awaits.names, awaits.early, awaits.late, awaits.hands⟩
  | @received worker handle other found idle visible within =>
      obtain ⟨otherIn, rfl⟩ := entry?_eq_some found
      by_cases same : entry.id = other.id
      · obtain rfl := sound.numbered.unique entry inQueue other otherIn same
        refine ⟨{ entry with
          visibleAt := world.now + interval setup.queueVisibilitySeconds
          receives := entry.receives + 1 }, ?_, isHandle,
          awaits.delivered idle visible within positive⟩
        exact List.mem_map.mpr ⟨entry, inQueue, if_pos rfl⟩
      · refine ⟨entry, mem_adjust_of_ne inQueue same, isHandle, awaits.names, awaits.early,
          fun spent => ?_, fun {worker hand} holds isReceipt => ?_⟩
        · obtain ⟨expired, receiver, hand, holds, isReceipt, stage⟩ := awaits.late spent
          refine ⟨expired, receiver, hand, ?_, isReceipt, stage⟩
          refine (hand?_setHand_of_ne ?_).trans holds
          rintro rfl
          rw [(hand?_of_idle idle).2] at holds
          cases holds
        · rcases hand?_setHand holds with ⟨_, isNew⟩ | ⟨_, old⟩
          · unfold receipt at isNew
            split at isNew <;> cases isNew
            exact absurd isReceipt.symm same
          · exact awaits.hands old isReceipt
  | @deadLettered handle other found visible spent =>
      obtain ⟨otherIn, rfl⟩ := entry?_eq_some found
      refine ⟨entry, mem_remove.mpr ⟨inQueue, fun same => ?_⟩, isHandle, awaits.names,
        awaits.early, awaits.late, awaits.hands⟩
      obtain rfl := sound.numbered.unique entry inQueue other otherIn same
      obtain ⟨_, worker, hand, holds, isReceipt, _⟩ := awaits.late spent
      exact absurd visible (not_le.mpr (awaits.hands holds isReceipt).1)
  | @worked worker hand call _ holds acts =>
      by_cases isReceipt : hand.receiptHandle = entry.id
      · have untroubled := prompt hand holds (isReceipt.trans isHandle)
          (awaits.unclaimed holds isReceipt)
        obtain ⟨stillIn, goesOn⟩ := awaits.acts inQueue (sound.hands holds) drawn before held
          holds isReceipt acts untroubled
        exact ⟨entry, stillIn, isHandle, goesOn⟩
      · exact ⟨entry, acts.mem_queue inQueue (fun same => isReceipt same.symm), isHandle,
          awaits.bystander holds isReceipt acts⟩

/-- Every prompt step keeps the message of the crashed worker waiting. -/
theorem Recovering.moves (recovering : world.Recovering setup receiptHandle jobId token started)
    (sound : world.Sound) (positive : 0 < interval setup.queueVisibilitySeconds)
    (moves : world.Moves setup event after) (prompt : Prompt setup receiptHandle world event) :
    after.Recovering setup receiptHandle jobId token started where
  drawn := moves.drawn_subset recovering.drawn
  unowned := recovering.unowned_of_moves moves
  awaits held := by
    have before := recovering.before moves held
    obtain ⟨entry, inQueue, isHandle, awaits⟩ := recovering.awaits before
    exact awaits.moves inQueue isHandle sound recovering.drawn before held positive moves prompt

end Steps

/-- A worker crashes while it holds the claim of a job, and nobody else has its message. If the last delivery
that is left comes after the lease, then in every prompt run from there, as long as nobody has
claimed the job again, its message is in the main queue; and when it has been delivered for the last
time, the worker that received it is about to claim the job, and the clause of its claim holds. -/
theorem crashed_job_recovered {setup : Setup} (positive : 0 < setup.queueVisibilitySeconds)
    {workers worker : Nat} {start started : Time} {world crashed last : TimedWorld} {hand : Hand}
    {job : ClaimedJob} {entry : QueuedMessage}
    (ran : Run setup Anything (opening workers start) world)
    (holds : world.hand? worker = some hand) (claim : hand.stage.claim? = some job)
    (inQueue : entry ∈ world.queue) (isHandle : entry.id = hand.receiptHandle)
    (alone : ∀ other otherHand, world.hand? other = some otherHand →
      otherHand.receiptHandle = hand.receiptHandle → other = worker)
    (within : entry.receives < setup.maxReceiveCount)
    (lastDelivery : started + interval setup.processingLeaseSeconds < entry.visibleAt +
      ((setup.maxReceiveCount : Int) - entry.receives - 1) * interval setup.queueVisibilitySeconds)
    (crashes : world.step setup (.work worker .crash) = some crashed)
    (polled : Run setup (fun before event _ => Prompt setup hand.receiptHandle before event)
      crashed last)
    (unclaimed : last.db.HeldSince hand.jobId job.processingToken started) :
    ∃ next ∈ last.queue, next.id = hand.receiptHandle ∧
      (setup.maxReceiveCount ≤ next.receives → ∃ other otherHand row,
        last.hand? other = some otherHand ∧ otherHand.receiptHandle = hand.receiptHandle ∧
        otherHand.stage = .received ∧ last.db.job? hand.jobId = some row ∧
        (jobClaimable setup.processingLeaseSeconds last.now row).Holds) := by
  have sound := sound_of_run ran
  have own := sound.hands holds
  have isCrash : crashed = world.setHand worker none := by
    have steps : (world.hand? worker).bind (fun hand => world.work setup worker hand .crash) =
      some crashed := crashes
    rw [holds] at steps
    exact (Option.some.inj steps).symm
  subst isCrash
  have longer : 0 < interval setup.queueVisibilitySeconds :=
    Int.mul_pos positive (by decide)
  have others : ∀ {other otherHand}, (world.setHand worker none).hand? other = some otherHand →
      other ≠ worker ∧ world.hand? other = some otherHand := by
    intro other otherHand otherHolds
    rcases hand?_setHand otherHolds with ⟨_, isNone⟩ | kept
    · cases isNone
    · exact kept
  have first : (world.setHand worker none).Recovering setup hand.receiptHandle hand.jobId
      job.processingToken started := by
    refine ⟨(own.claim job claim).2, fun otherHolds otherClaim same => ?_, fun _ => ?_⟩
    · obtain ⟨apart, otherHolds⟩ := others otherHolds
      exact apart (sound.apart otherHolds holds otherClaim claim same)
    · refine ⟨entry, inQueue, isHandle, own.names entry inQueue isHandle, fun _ => lastDelivery,
        fun spent => absurd within (Nat.not_lt.mpr spent), fun otherHolds isReceipt => ?_⟩
      obtain ⟨apart, otherHolds⟩ := others otherHolds
      exact absurd (alone _ _ otherHolds (isReceipt.trans isHandle)) apart
  have soundCrashed := sound.moves (moves_of_step crashes)
  have both := polled.keeps (P := fun world => world.Sound ∧ world.Recovering setup
    hand.receiptHandle hand.jobId job.processingToken started) ⟨soundCrashed, first⟩
    fun both moves prompt => ⟨both.1.moves moves, both.2.moves both.1 longer moves prompt⟩
  obtain ⟨next, stillIn, isNext, awaits⟩ := both.2.awaits unclaimed
  refine ⟨next, stillIn, isNext, fun spent => ?_⟩
  obtain ⟨expired, other, otherHand, otherHolds, isReceipt, received⟩ := awaits.late spent
  obtain ⟨row, found, claimable⟩ := unclaimed.claimable expired
  exact ⟨other, otherHand, row, otherHolds, isReceipt.trans isNext, received, found, claimable⟩

/-- A job, the message that names it, and worker 0 that claims the job at once. -/
def claimedAtOnce : List TimedEvent :=
  [.commit (.createJob "csv_report" (.obj []) none) (.numbered 0 0) [],
    .send (jobMessage (Uuid.ofInt 0) .null), .receive 0 0,
    .work 0 (.claim (.numbered 1 0) [])]

/-- The token of that claim. -/
def firstToken : Uuid := (Inputs.numbered 1 0).uuid 0

/-- Worker 1 receives the message, is refused and leaves it. -/
def refusedAt (number : Nat) (now : Time) : List TimedEvent :=
  [.pass now, .receive 1 0, .work 1 (.claim (.numbered number 0) []),
    .work 1 (.read (.numbered (number + 1) 0) [])]

/-- The first heartbeat renews after 30 s and extends a second later. The last delivery, after
151 s, comes after the lease. -/
theorem crashed_job_recovered_deployed : ∃ (last : TimedWorld) (row : JobRow),
    last.now = interval 151 ∧ last.queue.length = 1 ∧ last.db.job? (Uuid.ofInt 0) = some row ∧
      (jobClaimable 120 last.now row).Holds := by
  have runs : ((play deployed Anything (claimedAtOnce ++ [.pass (interval 30),
      .work 0 (.renew (.numbered 2 0) []), .pass (interval 31), .work 0 (.extend true)])
      (opening 2 0)).bind fun world =>
        (world.hand? 0).bind fun hand =>
          (world.entry? hand.receiptHandle).bind fun entry =>
            hand.stage.claim?.bind fun job =>
              (require (hand.jobId = Uuid.ofInt 0 ∧ entry.receives < 3 ∧
                interval 150 < entry.visibleAt + (3 - entry.receives - 1) * interval 60 ∧
                ∀ other < world.hands.length, ∀ otherHand ∈ world.hand? other,
                  otherHand.receiptHandle = hand.receiptHandle → other = 0) job).bind fun job =>
                (world.step deployed (.work 0 .crash)).bind fun crashed =>
                  (play deployed (fun before event _ => Prompt deployed hand.receiptHandle before
                    event) (refusedAt 3 (interval 91) ++
                      [TimedEvent.pass (interval 151), .receive 1 0]) crashed).bind fun last =>
                      require (last.now = interval 151 ∧ last.queue.length = 1 ∧
                        (∀ entry ∈ last.queue, 3 ≤ entry.receives) ∧
                        last.db.HeldSince hand.jobId job.processingToken (interval 30))
                          last).isSome := by
    decide +kernel
  obtain ⟨last, runs⟩ := Option.isSome_iff_exists.mp runs
  obtain ⟨world, plays, runs⟩ := Option.bind_eq_some_iff.mp runs
  obtain ⟨hand, holds, runs⟩ := Option.bind_eq_some_iff.mp runs
  obtain ⟨entry, found, runs⟩ := Option.bind_eq_some_iff.mp runs
  obtain ⟨job, claim, runs⟩ := Option.bind_eq_some_iff.mp runs
  obtain ⟨_, isSame, runs⟩ := Option.bind_eq_some_iff.mp runs
  obtain ⟨⟨isId, within, lastDelivery, alone⟩, rfl⟩ := require_eq_some.mp isSame
  obtain ⟨crashed, crashes, runs⟩ := Option.bind_eq_some_iff.mp runs
  obtain ⟨_, polled, ends⟩ := Option.bind_eq_some_iff.mp runs
  obtain ⟨⟨now, one, spent, unclaimed⟩, rfl⟩ := require_eq_some.mp ends
  obtain ⟨inQueue, isHandle⟩ := entry?_eq_some found
  obtain ⟨next, stillIn, _, recovers⟩ := crashed_job_recovered (by decide) (run_of_play plays) holds
    claim inQueue isHandle
    (fun other otherHand otherHolds => alone other (lt_of_hand? otherHolds) otherHand otherHolds)
    within lastDelivery crashes (run_of_play polled) unclaimed
  obtain ⟨_, _, row, _, _, _, isRow, claimable⟩ := recovers (spent next stillIn)
  rw [isId] at isRow
  exact ⟨_, row, now, one, isRow, claimable⟩

/-- Worker 0 crashes right after its claim. The deliveries after one and two minutes are refused:
the lease of two minutes is not over until a moment later. Then the message is dead-lettered, and
nothing is left to reclaim the job. -/
theorem crashed_job_stranded : ∃ (world crashed last : TimedWorld) (hand : Hand),
    Run deployed Anything (opening 2 0) world ∧ world.hand? 0 = some hand ∧
    (∃ job, hand.stage = .processing job ∧ job.processingToken = firstToken ∧ job.attempts = 1) ∧
    world.step deployed (.work 0 .crash) = some crashed ∧
    Run deployed (fun before event _ => Prompt deployed hand.receiptHandle before event) crashed
      last ∧
    last.db.HeldSince hand.jobId firstToken 0 ∧ last.queue.length = 0 ∧
    ∃ message ∈ last.deadLetters, message.id = hand.receiptHandle := by
  have runs : ((play deployed Anything claimedAtOnce (opening 2 0)).bind fun world =>
      (world.hand? 0).bind fun hand =>
        hand.stage.processing?.bind fun job =>
          (require (job.processingToken = firstToken ∧ job.attempts = 1) job).bind fun _ =>
          (world.step deployed (.work 0 .crash)).bind fun crashed =>
            (play deployed (fun before event _ => Prompt deployed hand.receiptHandle before event)
              (refusedAt 2 (interval 60) ++ refusedAt 4 (interval 120) ++
                [TimedEvent.pass (interval 180), .deadLetter 0]) crashed).bind fun last =>
                require (last.db.HeldSince hand.jobId firstToken 0 ∧ last.queue.length = 0 ∧
                  ∃ message ∈ last.deadLetters, message.id = hand.receiptHandle) last).isSome := by
    decide +kernel
  obtain ⟨last, runs⟩ := Option.isSome_iff_exists.mp runs
  obtain ⟨world, plays, runs⟩ := Option.bind_eq_some_iff.mp runs
  obtain ⟨hand, holds, runs⟩ := Option.bind_eq_some_iff.mp runs
  obtain ⟨job, isJob, runs⟩ := Option.bind_eq_some_iff.mp runs
  obtain ⟨_, isFirst, runs⟩ := Option.bind_eq_some_iff.mp runs
  obtain ⟨first, rfl⟩ := require_eq_some.mp isFirst
  obtain ⟨crashed, crashes, runs⟩ := Option.bind_eq_some_iff.mp runs
  obtain ⟨_, polled, ends⟩ := Option.bind_eq_some_iff.mp runs
  obtain ⟨stranded, rfl⟩ := require_eq_some.mp ends
  have stage := Stage.processing?_eq_some.mp isJob
  exact ⟨world, crashed, _, hand, run_of_play plays, holds, ⟨job, stage, first⟩, crashes,
    run_of_play polled, stranded⟩

end TimedWorld

end JobPlatform.Runtime
