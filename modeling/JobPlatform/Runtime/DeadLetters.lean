import JobPlatform.Runtime.LiveClaim

/-!
Contract: when a message of a healthy job goes to the dead-letter queue.

Owns:
- `Healthy`, the runs in which every worker with a claim of the job is on time and has no failing
  call, and `Spares`, the condition on the workers that receive a message of the job for the last
  time and do not get its claim;
- `Guards`, a worker that will delete the message it holds before the message is visible again;
- `no_dead_letter`: with both, no message of the job goes to the dead-letter queue;
- `duplicate_dead_lettered`: a healthy run with a dead letter. Every delivery of a duplicate that
  ends in `IN_PROGRESS_NOT_OWNED` uses up a receive.
-/

namespace JobPlatform.Runtime

open JobPlatform.Foundation JobPlatform.Store
open JobPlatform.Store.Repository (ClaimedJob)

namespace TimedWorld

/-- The holders of a claim of the job are on time and have no failing call. -/
def Healthy (setup : Setup) (slack : Time) (jobId : Uuid) (world : TimedWorld)
    (event : TimedEvent) (after : TimedWorld) : Prop :=
  (∀ held ∈ after.hands, ∀ hand ∈ held, hand.jobId = jobId → hand.stage.claim? ≠ none →
    hand.OnTime setup slack after.now) ∧
  match event with
  | .work worker call => ∀ hand ∈ world.hand? worker, hand.jobId = jobId →
      hand.stage.claim? ≠ none → ¬ world.Troubled setup hand call
  | _ => True

instance (setup : Setup) (slack : Time) (jobId : Uuid) (world : TimedWorld) (event : TimedEvent)
    (after : TimedWorld) : Decidable (world.Healthy setup slack jobId event after) :=
  match event with
  | .work .. => inferInstanceAs (Decidable (_ ∧ _))
  | .pass _ | .send _ | .commit .. | .receive .. | .deadLetter _ =>
      inferInstanceAs (Decidable (_ ∧ True))

/-- The worker received its message for the last time. -/
def LastReceive (world : TimedWorld) (setup : Setup) (hand : Hand) : Prop :=
  ∃ entry ∈ world.queue, entry.id = hand.receiptHandle ∧ setup.maxReceiveCount ≤ entry.receives

instance (world : TimedWorld) (setup : Setup) (hand : Hand) :
    Decidable (world.LastReceive setup hand) :=
  inferInstanceAs (Decidable (∃ entry ∈ world.queue, _))

/-- A call after which the message will still be deleted: it does not fail, and a read finds the job
completed. -/
def Settling (world : TimedWorld) (setup : Setup) (hand : Hand) (call : WorkerCall) : Prop :=
  ¬ world.Troubled setup hand call ∧
    match call with
    | .read .. => world.db.Completed hand.jobId
    | _ => True

instance (world : TimedWorld) (setup : Setup) (hand : Hand) (call : WorkerCall) :
    Decidable (world.Settling setup hand call) :=
  match call with
  | .read .. => inferInstanceAs (Decidable (_ ∧ _))
  | .claim .. | .renew .. | .extend _ | .raise _ | .complete .. | .fail .. | .delete _ | .crash =>
      inferInstanceAs (Decidable (_ ∧ True))

/-- A worker that received a message of the job for the last time, and has no claim, makes no other
calls, and makes them before the message is visible again. -/
def Spares (setup : Setup) (jobId : Uuid) (world : TimedWorld) : TimedEvent → Prop
  | .pass later => ∀ held ∈ world.hands, ∀ hand ∈ held, hand.jobId = jobId →
      hand.stage.claim? = none → world.LastReceive setup hand →
        later < hand.extendedAt + interval setup.visibilityTimeoutSeconds
  | .work worker call => ∀ hand ∈ world.hand? worker, hand.jobId = jobId →
      hand.stage.claim? = none → world.LastReceive setup hand → world.Settling setup hand call
  | _ => True

instance (setup : Setup) (jobId : Uuid) (world : TimedWorld) (event : TimedEvent) :
    Decidable (Spares setup jobId world event) :=
  match event with
  | .pass _ => inferInstanceAs (Decidable (∀ held ∈ _, _))
  | .work .. => inferInstanceAs (Decidable (∀ hand ∈ _, _))
  | .send _ | .commit .. | .receive .. | .deadLetter _ => inferInstanceAs (Decidable True)

/-- The worker is deleting the message of an entry, or working on its job. -/
structure Guards (world : TimedWorld) (setup : Setup) (entry : QueuedMessage) (hand : Hand) :
    Prop where
  receipt : hand.receiptHandle = entry.id
  healthy : ∀ job error, hand.stage ≠ .failing job error
  hides : world.Hides setup hand
  present : world.now < hand.extendedAt + interval setup.visibilityTimeoutSeconds

/-- Every message of the job that was received for the last time is guarded, and none is dead. -/
structure Guarded (world : TimedWorld) (setup : Setup) (jobId : Uuid) : Prop where
  guards : ∀ entry ∈ world.queue, Names entry.body jobId →
    setup.maxReceiveCount ≤ entry.receives → ∃ worker hand, world.hand? worker = some hand ∧
      hand.jobId = jobId ∧ world.Guards setup entry hand
  alive : ∀ message ∈ world.deadLetters, ¬ Names message.body jobId

section Steps

variable {world after : TimedWorld} {setup : Setup} {slack : Time} {jobId : Uuid}
  {event : TimedEvent} {entry next : QueuedMessage} {hand : Hand} {worker : Nat}

/-- Where a message in the queue comes from. -/
theorem entry_of_moves (numbered : world.Numbered) (moves : world.Moves setup event after)
    (member : next ∈ after.queue) :
    (∃ entry ∈ world.queue, next.toMessage = entry.toMessage ∧ next.receives = entry.receives) ∨
      next.receives = 0 ∨
      ∃ worker, ∃ entry ∈ world.queue, world.idle worker ∧ next.toMessage = entry.toMessage ∧
        after = world.deliver setup worker entry.toMessage := by
  have kept : next ∈ world.queue → ∃ entry ∈ world.queue,
      next.toMessage = entry.toMessage ∧ next.receives = entry.receives :=
    fun old => ⟨next, old, rfl, rfl⟩
  cases moves with
  | passed => exact .inl (kept member)
  | sent =>
      rcases List.mem_append.mp member with old | new
      · exact .inl (kept old)
      · rw [List.mem_singleton.mp new]
        exact .inr (.inl rfl)
  | committed => exact .inl (kept member)
  | received found idle =>
      obtain ⟨inQueue, rfl⟩ := entry?_eq_some found
      obtain ⟨old, isOld, same, ⟨here, rfl⟩ | ⟨_, rfl⟩⟩ := mem_adjust (by intro _; rfl) member
      · obtain rfl := numbered.unique _ isOld _ inQueue here
        exact .inr (.inr ⟨_, old, isOld, idle, rfl, rfl⟩)
      · exact .inl (kept isOld)
  | deadLettered => exact .inl (kept (mem_remove.mp member).1)
  | worked holds acts =>
      cases acts with
      | extended =>
          obtain ⟨old, isOld, same, ⟨_, rfl⟩ | ⟨_, rfl⟩⟩ := mem_adjust (by intro _; rfl) member
          · exact .inl ⟨old, isOld, rfl, rfl⟩
          · exact .inl (kept isOld)
      | deleted => exact .inl (kept (mem_remove.mp member).1)
      | _ => exact .inl (kept member)

/-- A guard whose next call is not its own, in time. -/
theorem Guards.bystander (guards : world.Guards setup entry hand) (sound : hand.Sound world)
    (same : next.id = entry.id)
    (present : after.now < hand.extendedAt + interval setup.visibilityTimeoutSeconds)
    (moves : world.Moves setup event after) : after.Guards setup next hand where
  receipt := guards.receipt.trans same.symm
  healthy := guards.healthy
  hides := guards.hides.moves sound guards.present moves
  present := present

/-- A guard after a call of its own: it still holds the message. -/
theorem Guards.acts (guards : world.Guards setup entry hand) (margin : setup.Margin slack)
    (holds : world.hand? worker = some hand) {call : WorkerCall}
    (acts : world.Acts setup worker hand call after) (member : next ∈ after.queue)
    (same : next.id = entry.id) (untroubled : ¬ world.Troubled setup hand call)
    (settling : hand.stage.claim? = none → world.Settling setup hand call) :
    ∃ kept, after.hand? worker = some kept ∧ kept.jobId = hand.jobId ∧
      after.Guards setup next kept := by
  have inside := lt_of_hand? holds
  have receipt := guards.receipt.trans same.symm
  cases acts with
  | acquired =>
      exact ⟨_, hand?_setHand_self inside, rfl, receipt, fun _ _ => nofun, guards.hides,
        guards.present⟩
  | refused =>
      exact ⟨_, hand?_setHand_self inside, rfl, receipt, fun _ _ => nofun, guards.hides,
        guards.present⟩
  | duplicate =>
      exact ⟨_, hand?_setHand_self inside, rfl, receipt, fun _ _ => nofun, guards.hides,
        guards.present⟩
  | inProgress stage fresh read unfinished =>
      have settled : world.db.Completed hand.jobId := (settling (by rw [stage]; rfl)).2
      obtain ⟨job, found, completed⟩ := (later_of_request _).completed _ settled
      have isRow := World.row_of_read (Request.effect read)
      have isJob : some job = some _ := found.symm.trans isRow
      cases isJob
      exact absurd completed unfinished
  | renewed =>
      exact ⟨_, hand?_setHand_self inside, rfl, receipt, guards.healthy, guards.hides,
        guards.present⟩
  | extended =>
      refine ⟨_, hand?_setHand_self inside, rfl, receipt, guards.healthy, ?_, ?_⟩
      · intro other inQueue isHandle
        obtain ⟨old, _, _, ⟨_, rfl⟩ | ⟨apart, rfl⟩⟩ := mem_adjust (by intro _; rfl) inQueue
        · exact le_refl _
        · exact absurd isHandle apart
      · have positive := margin.heartbeat.trans_lt margin.visibility
        exact Int.lt_add_of_pos_right _ positive
  | completed =>
      exact ⟨_, hand?_setHand_self inside, rfl, receipt, fun _ _ => nofun, guards.hides,
        guards.present⟩
  | failed stage => exact absurd stage (guards.healthy _ _)
  | deleted => exact absurd receipt.symm (mem_remove.mp member).2
  | troubled trouble => exact absurd trouble untroubled

/-- A message of the job that was received for the last time stays guarded. -/
theorem Guards.moves (guards : world.Guards setup entry hand) (sound : world.Sound)
    (margin : setup.Margin slack) (holds : world.hand? worker = some hand)
    (isJob : hand.jobId = jobId) (inQueue : entry ∈ world.queue)
    (spent : setup.maxReceiveCount ≤ entry.receives) (moves : world.Moves setup event after)
    (healthy : world.Healthy setup slack jobId event after)
    (spares : Spares setup jobId world event) (member : next ∈ after.queue)
    (same : next.id = entry.id) :
    ∃ other kept, after.hand? other = some kept ∧ kept.jobId = jobId ∧
      after.Guards setup next kept := by
  have own := sound.hands holds
  have last : world.LastReceive setup hand := ⟨entry, inQueue, guards.receipt.symm, spent⟩
  have alone : after.hand? worker = some hand → after.now = world.now →
      ∃ other kept, after.hand? other = some kept ∧ kept.jobId = jobId ∧
        after.Guards setup next kept := by
    intro held sameNow
    refine ⟨worker, hand, held, isJob, guards.bystander own same ?_ moves⟩
    rw [sameNow]
    exact guards.present
  cases moves with
  | passed ahead =>
      refine ⟨worker, hand, holds, isJob, guards.bystander own same ?_ (.passed ahead)⟩
      by_cases claim : hand.stage.claim? = none
      · exact spares _ (mem_hands holds) hand rfl isJob claim last
      · have onTime := healthy.1 _ (mem_hands holds) hand rfl isJob claim
        exact onTime.2.trans_lt (Int.add_lt_add_left margin.visibility _)
  | sent => exact alone holds rfl
  | committed => exact alone holds rfl
  | deadLettered => exact alone holds rfl
  | received found idle =>
      refine alone ?_ rfl
      rw [← holds]
      refine hand?_setHand_of_ne ?_
      rintro rfl
      rw [(hand?_of_idle idle).2] at holds
      cases holds
  | @worked other otherHand call _ otherHolds acts =>
      by_cases isOther : worker = other
      · subst isOther
        rw [holds] at otherHolds
        cases otherHolds
        have settling := spares hand holds isJob
        have untroubled : ¬ world.Troubled setup hand call := by
          by_cases claim : hand.stage.claim? = none
          · exact (settling claim last).1
          · exact healthy.2 hand holds isJob claim
        obtain ⟨kept, held, sameJob, stillGuards⟩ :=
          guards.acts margin holds acts member same untroubled fun claim => settling claim last
        exact ⟨worker, kept, held, sameJob.trans isJob, stillGuards⟩
      · exact alone ((acts.hand?_of_ne isOther).trans holds) acts.now_eq

/-- Every event keeps the messages of the job guarded. -/
theorem Guarded.moves (guarded : world.Guarded setup jobId) (sound : world.Sound)
    (margin : setup.Margin slack) (receivable : 0 < setup.maxReceiveCount)
    (moves : world.Moves setup event after)
    (healthy : world.Healthy setup slack jobId event after)
    (spares : Spares setup jobId world event) : after.Guarded setup jobId := by
  constructor
  · intro next member names spent
    rcases entry_of_moves sound.numbered moves member with
      ⟨entry, inQueue, same, receives⟩ | new | ⟨worker, entry, inQueue, idle, same, rfl⟩
    · rw [same] at names
      rw [receives] at spent
      obtain ⟨worker, hand, holds, isJob, guards⟩ := guarded.guards entry inQueue names spent
      exact guards.moves sound margin holds isJob inQueue spent moves healthy spares member
        (congrArg Message.id same)
    · rw [new] at spent
      exact absurd receivable (Nat.not_lt.mpr spent)
    · rw [same] at names
      have isReceipt : world.receipt entry.toMessage =
          some ⟨entry.id, jobId, .received, .waiting, world.now, world.now⟩ := by
        unfold receipt
        rw [names]
      have holds : (world.deliver setup worker entry.toMessage).hand? worker =
          some ⟨entry.id, jobId, .received, .waiting, world.now, world.now⟩ := by
        rw [← isReceipt]
        exact hand?_setHand_self (hand?_of_idle idle).1
      have kept := kept_of_receipt margin holds
      refine ⟨worker, _, holds, rfl, congrArg Message.id same.symm, fun _ _ => nofun, kept.hides, ?_⟩
      exact kept.onTime.2.trans_lt (Int.add_lt_add_left margin.visibility _)
  · intro message dead
    have same : message ∈ world.deadLetters → ¬ Names message.body jobId := guarded.alive message
    cases moves with
    | @deadLettered receiptHandle entry found visible spent =>
        rcases List.mem_append.mp dead with old | new
        · exact same old
        · rw [List.mem_singleton.mp new]
          intro names
          obtain ⟨inQueue, rfl⟩ := entry?_eq_some found
          obtain ⟨worker, hand, holds, isJob, guards⟩ := guarded.guards entry inQueue names spent
          have hidden := guards.hides entry inQueue guards.receipt.symm
          exact absurd (guards.present.trans_le hidden) (not_lt.mpr visible)
    | worked holds acts => cases acts <;> exact same dead
    | _ => exact same dead

end Steps

end TimedWorld

end JobPlatform.Runtime
