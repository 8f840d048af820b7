import JobPlatform.Runtime.TimedWorld

/-!
Contract: what one event of the timed world can do.

Owns `Acts` and `Moves`, the inversion of `work` and of `step`, with what they leave alone. Nothing
later unfolds either function.
-/

namespace JobPlatform.Runtime

open JobPlatform.Foundation JobPlatform.Store
open JobPlatform.Store.Repository (ClaimedJob)

/-- The same receipt; at most an error came up between the claim and the completion, or after it. A
lost claim is no such error. -/
structure Hand.Retains (hand kept : Hand) : Prop where
  receiptHandle : kept.receiptHandle = hand.receiptHandle
  jobId : kept.jobId = hand.jobId
  renewedAt : kept.renewedAt = hand.renewedAt
  extendedAt : kept.extendedAt = hand.extendedAt
  stage : kept.stage = hand.stage ∨ ∃ job error, hand.stage.claim? = some job ∧
    error ≠ .lostJobClaimError ∧ kept.stage = .failing job error

/-- The claim is the one it was. -/
theorem Hand.Retains.claim {hand kept : Hand} (retains : hand.Retains kept) {job : ClaimedJob}
    (claim : kept.stage.claim? = some job) : hand.stage.claim? = some job := by
  rcases retains.stage with same | ⟨other, error, isClaim, _, isStage⟩
  · rwa [same] at claim
  · rw [isStage] at claim
    cases claim
    exact isClaim

/-- The message may be deleted only if it could be before. -/
theorem Hand.Retains.settled {hand kept : Hand} (retains : hand.Retains kept)
    (done : kept.stage = .duplicate ∨ ∃ job, kept.stage = .completed job) :
    hand.stage = .duplicate ∨ ∃ job, hand.stage = .completed job := by
  rcases retains.stage with same | ⟨other, error, _, _, isStage⟩
  · rwa [same] at done
  · rw [isStage] at done
    simp at done

/-- The job a worker is processing. -/
def Stage.processing? : Stage → Option ClaimedJob
  | .processing job => some job
  | _ => none

theorem Stage.processing?_eq_some {stage : Stage} {job : ClaimedJob} :
    stage.processing? = some job ↔ stage = .processing job := by
  cases stage <;> simp [Stage.processing?]

/-- A call that raised. -/
def Raised {α : Type} : Except Exn α → Prop
  | .error _ => True
  | .ok _ => False

instance {α : Type} : (reply : Except Exn α) → Decidable (Raised reply)
  | .error _ => .isTrue trivial
  | .ok _ => .isFalse id

/-- A renewal that did not renew. -/
def Refused : Except Exn Bool → Prop
  | .ok true => False
  | _ => True

instance decidableRefused : (reply : Except Exn Bool) → Decidable (Refused reply)
  | .ok true => .isFalse id
  | .ok false => .isTrue trivial
  | .error _ => .isTrue trivial

theorem refused_of_ne {reply : Except Exn Bool} (unrenewed : reply ≠ .ok true) :
    Refused reply := by
  unfold Refused
  split
  · exact unrenewed rfl
  · trivial

theorem Hand.renewed_of_ne (hand : Hand) {now : Time} {reply : Except Exn Bool}
    (unrenewed : reply ≠ .ok true) :
    hand.renewed now reply = { hand with heartbeat := .ended } := by
  unfold Hand.renewed
  split
  · exact absurd rfl unrenewed
  · rfl

namespace TimedWorld

section Inversion

variable (world : TimedWorld) (setup : Setup) (worker : Nat) (hand : Hand)

/-- The claim of a received message. -/
def claimRequest (inputs : Inputs) (faults : Faults Exn) : Request :=
  world.request (.markJobProcessing hand.jobId setup.processingLeaseSeconds) inputs faults

/-- The read after a refused claim. -/
def readRequest (inputs : Inputs) (faults : Faults Exn) : Request :=
  world.request (.getJob hand.jobId) inputs faults

/-- The renewal of a claim. -/
def renewRequest (job : ClaimedJob) (inputs : Inputs) (faults : Faults Exn) : Request :=
  world.request (.renewJobProcessingLease hand.jobId job.processingToken) inputs faults

/-- The completion of a claimed job. -/
def completeRequest (job : ClaimedJob) (reportId : Uuid) (inputs : Inputs)
    (faults : Faults Exn) : Request :=
  world.request (.completeJobWithReport job.id job.processingToken
    (reportResult (setup.store.objectKey job.id reportId) (reportRows job))
    (setup.store.objectKey job.id reportId) "text/csv") inputs faults

/-- The failure of a claimed job. -/
def failRequest (job : ClaimedJob) (error : Exn) (inputs : Inputs) (faults : Faults Exn) :
    Request :=
  world.request (.failJob hand.jobId job.processingToken error.typeName) inputs faults

/-- The call fails, or the worker is killed. -/
def Troubled : WorkerCall → Prop
  | .claim inputs faults => Raised ((world.claimRequest setup hand inputs faults).reply world.db)
  | .read inputs faults => Raised ((world.readRequest hand inputs faults).reply world.db)
  | .renew inputs faults =>
      match hand.stage.claim? with
      | some job => Refused ((world.renewRequest hand job inputs faults).reply world.db)
      | none => False
  | .extend succeeds => succeeds = false
  | .raise _ => True
  | .complete reportId inputs faults =>
      match hand.stage with
      | .processing job =>
          Raised ((world.completeRequest setup job reportId inputs faults).reply world.db)
      | _ => False
  | .fail inputs faults =>
      match hand.stage with
      | .failing job error =>
          Raised ((world.failRequest hand job error inputs faults).reply world.db)
      | _ => False
  | .delete succeeds => succeeds = false
  | .crash => True

instance (call : WorkerCall) : Decidable (world.Troubled setup hand call) := by
  unfold Troubled
  split <;> (try split) <;> first | infer_instance | exact decidableRefused _

/-- Everything the call of a worker can do. -/
inductive Acts : WorkerCall → TimedWorld → Prop where
  | acquired {inputs : Inputs} {faults : Faults Exn} {job : ClaimedJob}
      (stage : hand.stage = .received) (fresh : inputs.Fresh world.drawn)
      (granted : (world.claimRequest setup hand inputs faults).reply world.db = .ok (some job)) :
      Acts (.claim inputs faults)
        ((world.transact (world.claimRequest setup hand inputs faults)).setHand worker
          (some { hand with stage := .processing job }))
  | refused {inputs : Inputs} {faults : Faults Exn}
      (stage : hand.stage = .received) (fresh : inputs.Fresh world.drawn)
      (refusal : (world.claimRequest setup hand inputs faults).reply world.db = .ok none) :
      Acts (.claim inputs faults)
        ((world.transact (world.claimRequest setup hand inputs faults)).setHand worker
          (some { hand with stage := .refused }))
  | duplicate {inputs : Inputs} {faults : Faults Exn} {view : Repository.JobView}
      (stage : hand.stage = .refused) (fresh : inputs.Fresh world.drawn)
      (read : (world.readRequest hand inputs faults).reply world.db = .ok view)
      (completed : view.job.status = .completed) :
      Acts (.read inputs faults)
        ((world.transact (world.readRequest hand inputs faults)).setHand worker
          (some { hand with stage := .duplicate }))
  | inProgress {inputs : Inputs} {faults : Faults Exn} {view : Repository.JobView}
      (stage : hand.stage = .refused) (fresh : inputs.Fresh world.drawn)
      (read : (world.readRequest hand inputs faults).reply world.db = .ok view)
      (unfinished : view.job.status ≠ .completed) :
      Acts (.read inputs faults)
        ((world.transact (world.readRequest hand inputs faults)).setHand worker none)
  | renewed {inputs : Inputs} {faults : Faults Exn} {job : ClaimedJob}
      (claim : hand.stage.claim? = some job) (fresh : inputs.Fresh world.drawn)
      (returned : (world.renewRequest hand job inputs faults).reply world.db = .ok true) :
      Acts (.renew inputs faults)
        ((world.transact (world.renewRequest hand job inputs faults)).setHand worker
          (some { hand with heartbeat := .renewed, renewedAt := world.now }))
  | extended (phase : hand.heartbeat = .renewed) (inFlight : world.InFlight hand.receiptHandle) :
      Acts (.extend true)
        ((world.adjust hand.receiptHandle fun entry =>
          { entry with visibleAt := world.now + interval setup.visibilityTimeoutSeconds }).setHand
            worker (some { hand with heartbeat := .waiting, extendedAt := world.now }))
  | completed {reportId : Uuid} {inputs : Inputs} {faults : Faults Exn} {job : ClaimedJob}
      (stage : hand.stage = .processing job) (fresh : inputs.Fresh world.drawn)
      (returned : (world.completeRequest setup job reportId inputs faults).reply world.db = .ok ()) :
      Acts (.complete reportId inputs faults)
        ((world.transact (world.completeRequest setup job reportId inputs faults)).setHand worker
          (some { hand with stage := .completed job }))
  | failed {inputs : Inputs} {faults : Faults Exn} {job : ClaimedJob} {error : Exn}
      {recorded : Bool} (stage : hand.stage = .failing job error)
      (fresh : inputs.Fresh world.drawn)
      (returned : (world.failRequest hand job error inputs faults).reply world.db =
        .ok recorded) :
      Acts (.fail inputs faults)
        ((world.transact (world.failRequest hand job error inputs faults)).setHand worker none)
  | deleted (done : hand.stage = .duplicate ∨ ∃ job, hand.stage = .completed job) :
      Acts (.delete true) ((world.remove hand.receiptHandle).setHand worker none)
  | troubled {call : WorkerCall} {more : List Uuid} {next : Option Hand}
      (trouble : world.Troubled setup hand call)
      (keeps : ∀ kept, next = some kept → hand.Retains kept) :
      Acts call ({ world with drawn := world.drawn ++ more }.setHand worker next)

/-- Everything one event can do. -/
inductive Moves : TimedEvent → TimedWorld → Prop where
  | passed {later : Time} (ahead : world.now ≤ later) : Moves (.pass later) { world with now := later }
  | sent {messageBody : Json} : Moves (.send messageBody) (world.enqueue messageBody)
  | committed {call : RepoCall} {inputs : Inputs} {faults : Faults Exn} (client : ByClient call)
      (fresh : inputs.Fresh world.drawn) :
      Moves (.commit call inputs faults) (world.transact (world.request call inputs faults))
  | received {worker : Nat} {receiptHandle : ReceiptHandle} {entry : QueuedMessage}
      (found : world.entry? receiptHandle = some entry) (idle : world.idle worker)
      (visible : entry.visibleAt ≤ world.now) (within : entry.receives < setup.maxReceiveCount) :
      Moves (.receive worker receiptHandle) (world.deliver setup worker entry.toMessage)
  | deadLettered {receiptHandle : ReceiptHandle} {entry : QueuedMessage}
      (found : world.entry? receiptHandle = some entry) (visible : entry.visibleAt ≤ world.now)
      (spent : setup.maxReceiveCount ≤ entry.receives) :
      Moves (.deadLetter receiptHandle)
        { world.remove receiptHandle with deadLetters := world.deadLetters ++ [entry.toMessage] }
  | worked {worker : Nat} {hand : Hand} {call : WorkerCall} {after : TimedWorld}
      (holds : world.hand? worker = some hand) (acts : world.Acts setup worker hand call after) :
      Moves (.work worker call) after

variable {world setup worker hand}

/-- A transaction that raised only drew. -/
theorem transact_of_error {request : Request} {error : Exn}
    (raised : request.reply world.db = .error error) :
    world.transact request = { world with drawn := world.drawn ++ request.drawn } := by
  unfold transact
  rw [Request.after_of_error raised]

/-- A renewal that was refused only drew. -/
theorem transact_of_unrenewed {job : ClaimedJob} {inputs : Inputs} {faults : Faults Exn}
    (refused : (world.renewRequest hand job inputs faults).reply world.db ≠ .ok true) :
    world.transact (world.renewRequest hand job inputs faults) =
      { world with drawn := world.drawn ++ (world.renewRequest hand job inputs faults).drawn } := by
  rcases (world.renewRequest hand job inputs faults).outcome world.db with
    ⟨error, raised, _⟩ | ⟨value, returned, effect⟩
  · exact transact_of_error raised
  · have unrenewed : value = false := by
      cases value with
      | false => rfl
      | true => exact absurd returned refused
    unfold transact
    generalize (world.renewRequest hand job inputs faults).after world.db = db at effect
    subst unrenewed
    cases effect with
    | @leaseRenewed _ _ row _ _ isValue update =>
        cases update with
        | hit => cases isValue
        | miss => rfl

theorem acts_of_trouble {call : WorkerCall} {next : Option Hand}
    (trouble : world.Troubled setup hand call)
    (keeps : ∀ kept, next = some kept → hand.Retains kept) :
    world.Acts setup worker hand call (world.setHand worker next) := by
  have acts : world.Acts setup worker hand call
      ({ world with drawn := world.drawn ++ [] }.setHand worker next) := .troubled trouble keeps
  rwa [List.append_nil] at acts

theorem keeps_none {kept : Hand} (isNone : none = some kept) : hand.Retains kept := by
  cases isNone

/-- The hand of a worker whose claimed job has raised an error. -/
theorem keeps_failing {job : ClaimedJob} {error : Exn} {kept : Hand}
    (claim : hand.stage.claim? = some job) (other : error ≠ .lostJobClaimError)
    (isKept : some { hand with stage := .failing job error } = some kept) :
    hand.Retains kept := by
  cases isKept
  exact ⟨rfl, rfl, rfl, rfl, .inr ⟨job, error, claim, other, rfl⟩⟩

/-- A call of a worker does one of these. -/
theorem acts_of_work {call : WorkerCall} {after : TimedWorld}
    (works : world.work setup worker hand call = some after) :
    world.Acts setup worker hand call after := by
  cases call with
  | claim inputs faults =>
      unfold work at works
      cases stage : hand.stage <;> simp only [stage, reduceCtorEq] at works
      obtain ⟨fresh, rfl⟩ := require_eq_some.mp works
      change world.Acts setup worker hand _ ((world.transact
        (world.claimRequest setup hand inputs faults)).setHand worker
          (hand.claimed ((world.claimRequest setup hand inputs faults).reply world.db)))
      cases replied : (world.claimRequest setup hand inputs faults).reply world.db with
      | error error =>
          rw [transact_of_error replied]
          exact .troubled (by simp [Troubled, replied, Raised]) fun _ => keeps_none
      | ok claimed =>
          cases claimed with
          | some job => exact .acquired stage fresh replied
          | none => exact .refused stage fresh replied
  | read inputs faults =>
      unfold work at works
      cases stage : hand.stage <;> simp only [stage, reduceCtorEq] at works
      obtain ⟨fresh, rfl⟩ := require_eq_some.mp works
      change world.Acts setup worker hand _ ((world.transact
        (world.readRequest hand inputs faults)).setHand worker
          (hand.read ((world.readRequest hand inputs faults).reply world.db)))
      cases replied : (world.readRequest hand inputs faults).reply world.db with
      | error error =>
          rw [transact_of_error replied]
          exact .troubled (by simp [Troubled, replied, Raised]) fun _ => keeps_none
      | ok view =>
          unfold Hand.read
          dsimp only
          split
          next completed => exact .duplicate stage fresh replied completed
          next unfinished => exact .inProgress stage fresh replied unfinished
  | renew inputs faults =>
      unfold work at works
      cases claim : hand.stage.claim? <;> simp only [claim, reduceCtorEq] at works
      next job =>
      obtain ⟨⟨fresh, _⟩, rfl⟩ := require_eq_some.mp works
      change world.Acts setup worker hand _ ((world.transact
        (world.renewRequest hand job inputs faults)).setHand worker (some
          (hand.renewed world.now ((world.renewRequest hand job inputs faults).reply world.db))))
      by_cases returned : (world.renewRequest hand job inputs faults).reply world.db = .ok true
      · rw [returned]
        exact .renewed claim fresh returned
      · rw [transact_of_unrenewed returned]
        refine .troubled (by simp [Troubled, claim, refused_of_ne returned]) fun kept isKept => ?_
        rw [hand.renewed_of_ne returned] at isKept
        cases isKept
        exact ⟨rfl, rfl, rfl, rfl, .inl rfl⟩
  | extend succeeds =>
      cases succeeds with
      | true =>
          obtain ⟨⟨phase, inFlight⟩, rfl⟩ := require_eq_some.mp works
          exact .extended phase inFlight
      | false =>
          obtain ⟨_, rfl⟩ := require_eq_some.mp works
          refine acts_of_trouble rfl ?_
          rintro kept ⟨⟩
          exact ⟨rfl, rfl, rfl, rfl, .inl rfl⟩
  | raise error =>
      unfold work at works
      cases stage : hand.stage <;> simp only [stage, reduceCtorEq] at works
      obtain ⟨other, rfl⟩ := require_eq_some.mp works
      exact acts_of_trouble trivial fun kept => keeps_failing (by rw [stage]; rfl) other
  | complete reportId inputs faults =>
      unfold work at works
      cases stage : hand.stage <;> simp only [stage, reduceCtorEq] at works
      next job =>
      obtain ⟨fresh, rfl⟩ := require_eq_some.mp works
      change world.Acts setup worker hand _ ((world.transact
        (world.completeRequest setup job reportId inputs faults)).setHand worker
          (hand.finished job
            ((world.completeRequest setup job reportId inputs faults).reply world.db)))
      cases replied : (world.completeRequest setup job reportId inputs faults).reply world.db with
      | error error =>
          rw [transact_of_error replied]
          refine .troubled (by simp [Troubled, stage, replied, Raised]) fun kept isKept => ?_
          unfold Hand.finished at isKept
          split at isKept
          next isOk => cases isOk
          next => cases isKept
          next other _ => exact keeps_failing (by rw [stage]; rfl) other isKept
      | ok value => exact .completed stage fresh replied
  | fail inputs faults =>
      unfold work at works
      cases stage : hand.stage <;> simp only [stage, reduceCtorEq] at works
      next job failure =>
      obtain ⟨fresh, rfl⟩ := require_eq_some.mp works
      change world.Acts setup worker hand _ ((world.transact
        (world.failRequest hand job failure inputs faults)).setHand worker none)
      cases replied : (world.failRequest hand job failure inputs faults).reply world.db with
      | error error =>
          rw [transact_of_error replied]
          exact .troubled (by simp [Troubled, stage, replied, Raised]) fun _ => keeps_none
      | ok recorded => exact .failed stage fresh replied
  | delete succeeds =>
      cases succeeds with
      | true =>
          unfold work at works
          cases stage : hand.stage <;> simp only [stage, reduceCtorEq] at works
          · cases works
            exact .deleted (.inl stage)
          · cases works
            exact .deleted (.inr ⟨_, stage⟩)
      | false =>
          unfold work at works
          cases stage : hand.stage <;> simp only [stage, reduceCtorEq] at works
          · cases works
            exact acts_of_trouble rfl fun _ => keeps_none
          · cases works
            exact acts_of_trouble rfl fun kept => keeps_failing (by rw [stage]; rfl) (by simp)
  | crash =>
      cases works
      exact acts_of_trouble trivial fun _ => keeps_none

/-- An event does one of these. -/
theorem moves_of_step {event : TimedEvent} {after : TimedWorld}
    (steps : world.step setup event = some after) : world.Moves setup event after := by
  cases event with
  | pass later =>
      obtain ⟨ahead, rfl⟩ := require_eq_some.mp steps
      exact .passed ahead
  | send messageBody =>
      cases steps
      exact .sent
  | commit call inputs faults =>
      obtain ⟨⟨client, fresh⟩, rfl⟩ := require_eq_some.mp steps
      exact .committed client fresh
  | receive worker receiptHandle =>
      obtain ⟨entry, found, steps⟩ := Option.bind_eq_some_iff.mp steps
      obtain ⟨⟨idle, visible, within⟩, rfl⟩ := require_eq_some.mp steps
      exact .received found idle visible within
  | deadLetter receiptHandle =>
      obtain ⟨entry, found, steps⟩ := Option.bind_eq_some_iff.mp steps
      obtain ⟨⟨visible, spent⟩, rfl⟩ := require_eq_some.mp steps
      exact .deadLettered found visible spent
  | work worker call =>
      obtain ⟨hand, holds, works⟩ := Option.bind_eq_some_iff.mp steps
      exact .worked holds (acts_of_work works)

end Inversion

/-! ### What a step leaves alone -/

section Frame

variable {world : TimedWorld} {worker other : Nat} {next : Option Hand} {hand kept : Hand}

theorem hand?_setHand (holds : (world.setHand worker next).hand? other = some kept) :
    other = worker ∧ next = some kept ∨ other ≠ worker ∧ world.hand? other = some kept := by
  change (world.hands.set worker next)[other]?.join = some kept at holds
  rw [List.getElem?_set] at holds
  by_cases same : worker = other
  · rw [if_pos same] at holds
    split at holds
    · exact .inl ⟨same.symm, holds⟩
    · cases holds
  · rw [if_neg same] at holds
    exact .inr ⟨fun isWorker => same isWorker.symm, holds⟩

/-- What a worker holds after it was given a hand. -/
theorem eq_of_setHand (holds : (world.setHand worker next).hand? worker = some kept) :
    next = some kept := by
  rcases hand?_setHand holds with ⟨_, same⟩ | ⟨apart, _⟩
  · exact same
  · exact absurd rfl apart

theorem hand?_setHand_of_ne (apart : other ≠ worker) :
    (world.setHand worker next).hand? other = world.hand? other := by
  unfold hand? setHand
  dsimp only
  rw [List.getElem?_set_ne fun same => apart same.symm]

/-- The call of one worker leaves the hands of the others. -/
theorem Acts.hand?_of_ne {setup : Setup} {call : WorkerCall} {after : TimedWorld}
    (acts : world.Acts setup worker hand call after) (apart : other ≠ worker) :
    after.hand? other = world.hand? other := by
  cases acts <;> exact hand?_setHand_of_ne apart

/-- The call of a worker takes no time. -/
theorem Acts.now_eq {setup : Setup} {call : WorkerCall} {after : TimedWorld}
    (acts : world.Acts setup worker hand call after) : after.now = world.now := by
  cases acts <;> rfl

/-- A worker goes on with the message it has. -/
theorem Acts.receipt {setup : Setup} {call : WorkerCall} {after : TimedWorld}
    (acts : world.Acts setup worker hand call after) (holds : after.hand? worker = some kept) :
    kept.receiptHandle = hand.receiptHandle := by
  cases acts with
  | troubled _ keeps => exact (keeps kept (eq_of_setHand holds)).receiptHandle
  | inProgress => cases eq_of_setHand holds
  | failed => cases eq_of_setHand holds
  | deleted => cases eq_of_setHand holds
  | _ =>
      cases eq_of_setHand holds
      rfl

theorem mem_hands (holds : world.hand? worker = some hand) : some hand ∈ world.hands :=
  List.mem_of_getElem? (Option.join_eq_some_iff.mp holds)

theorem hand?_of_idle (idle : world.idle worker) :
    worker < world.hands.length ∧ world.hand? worker = none := by
  unfold TimedWorld.idle at idle
  unfold hand?
  cases found : world.hands[worker]? with
  | none =>
      rw [found] at idle
      cases idle
  | some held =>
      rw [found] at idle
      have isNone : held = none := by simpa using idle
      exact ⟨(List.getElem?_eq_some_iff.mp found).1, by rw [isNone]; rfl⟩

theorem lt_of_hand? (holds : world.hand? worker = some hand) : worker < world.hands.length := by
  by_contra outside
  unfold hand? at holds
  rw [List.getElem?_eq_none (not_lt.mp outside)] at holds
  cases holds

theorem hand?_setHand_self (inside : worker < world.hands.length) :
    (world.setHand worker next).hand? worker = next := by
  unfold hand? setHand
  dsimp only
  rw [List.getElem?_set_self inside]
  rfl

theorem entry?_eq_some {receiptHandle : ReceiptHandle} {entry : QueuedMessage}
    (found : world.entry? receiptHandle = some entry) :
    entry ∈ world.queue ∧ entry.id = receiptHandle :=
  ⟨List.mem_of_find?_eq_some found, by simpa using List.find?_some found⟩

/-- A message after one of them changed. -/
theorem mem_adjust {receiptHandle : ReceiptHandle} {change : QueuedMessage → QueuedMessage}
    (fixed : ∀ entry, (change entry).toMessage = entry.toMessage) {entry : QueuedMessage}
    (member : entry ∈ (world.adjust receiptHandle change).queue) :
    ∃ old ∈ world.queue, entry.toMessage = old.toMessage ∧
      (old.id = receiptHandle ∧ entry = change old ∨ old.id ≠ receiptHandle ∧ entry = old) := by
  obtain ⟨old, inQueue, rfl⟩ := List.mem_map.mp member
  by_cases same : old.id = receiptHandle
  · rw [if_pos same]
    exact ⟨old, inQueue, fixed old, .inl ⟨same, rfl⟩⟩
  · rw [if_neg same]
    exact ⟨old, inQueue, rfl, .inr ⟨same, rfl⟩⟩

theorem mem_adjust_of_ne {receiptHandle : ReceiptHandle} {change : QueuedMessage → QueuedMessage}
    {entry : QueuedMessage} (member : entry ∈ world.queue) (apart : entry.id ≠ receiptHandle) :
    entry ∈ (world.adjust receiptHandle change).queue :=
  List.mem_map.mpr ⟨entry, member, if_neg apart⟩

theorem mem_remove {receiptHandle : ReceiptHandle} {entry : QueuedMessage} :
    entry ∈ (world.remove receiptHandle).queue ↔
      entry ∈ world.queue ∧ entry.id ≠ receiptHandle := by
  unfold remove
  simp only [List.mem_filter, decide_eq_true_eq]

/-- The call of a worker leaves every other message. -/
theorem Acts.mem_queue {setup : Setup} {call : WorkerCall} {after : TimedWorld}
    (acts : world.Acts setup worker hand call after) {entry : QueuedMessage}
    (member : entry ∈ world.queue) (apart : entry.id ≠ hand.receiptHandle) :
    entry ∈ after.queue := by
  cases acts with
  | extended => exact mem_adjust_of_ne member apart
  | deleted => exact mem_remove.mpr ⟨member, apart⟩
  | _ => exact member

end Frame

end TimedWorld

end JobPlatform.Runtime
