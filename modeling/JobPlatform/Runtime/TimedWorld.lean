import JobPlatform.Runtime.Station

/-!
Contract: the workers, the main queue and the database against one clock.

Owns:
- `TimedWorld`, what the workers share and what each of them holds, and `Setup`, the settings and
  the queue they run under;
- `Stage`, where a worker is in `consume_one_message`, and `Stage.rest`, what it still has to do;
- `TimedWorld.step`, one event of a run: time passes, SQS accepts, hands out or dead-letters a
  message, a client commits a transaction, or a worker makes its next call.

A message is visible until it is received, then again once its visibility timeout has passed. A
visible message is handed to any worker while its receives are below the limit, and goes to the
dead-letter queue once they are not. A deletion or an extension names the message, whoever received
it last. Retention and the longest visibility SQS allows are not modelled, and a heartbeat thread
ends with the work on its message.
-/

namespace JobPlatform.Runtime

open JobPlatform.Foundation JobPlatform.Store
open JobPlatform.Store.Repository (ClaimedJob)

/-! ### The state -/

/-- The settings of the workers, their artifact store, and the settings of the main queue. -/
structure Setup extends ConsumerConfig where
  store : ArtifactStore
  queueVisibilitySeconds : Int
  maxReceiveCount : Nat

/-- The deployed settings and the queue of `queue.tf`. -/
def deployed : Setup := ⟨⟨120, 60, 30⟩, ⟨"reports"⟩, 60, 3⟩

/-- `Settings.validate_runtime_intervals`. -/
def validateRuntimeIntervals (config : ConsumerConfig) : Except Exn Unit :=
  if config.visibilityHeartbeatSeconds ≥ config.visibilityTimeoutSeconds then .error .valueError
  else if config.processingLeaseSeconds ≤ config.visibilityHeartbeatSeconds then .error .valueError
  else .ok ()

/-- A message in the main queue: when it can be received, and how often it was. -/
structure QueuedMessage extends Message where
  visibleAt : Time
  receives : Nat

/-- Where a worker is in `consume_one_message`: its next call. -/
inductive Stage where
  | received
  | refused
  | duplicate
  | processing (job : ClaimedJob)
  | failing (job : ClaimedJob) (error : Exn)
  | completed (job : ClaimedJob)

/-- The claim a worker took. -/
def Stage.claim? : Stage → Option ClaimedJob
  | .processing job => some job
  | .failing job _ => some job
  | .completed job => some job
  | _ => none

/-- The heartbeat thread waits, has renewed the lease and not yet extended the visibility, or has
ended. -/
inductive HeartbeatPhase where
  | waiting
  | renewed
  | ended
deriving DecidableEq

/-- A message in the hands of a worker. `renewedAt` and `extendedAt` are ghosts: the times of the
last renewal and of the last extension, or of the receipt. -/
structure Hand where
  receiptHandle : ReceiptHandle
  jobId : Uuid
  stage : Stage
  heartbeat : HeartbeatPhase
  renewedAt : Time
  extendedAt : Time

/-- What the workers share, and what each of them holds. -/
structure TimedWorld where
  now : Time
  db : Database
  drawn : List Uuid
  queue : List QueuedMessage
  deadLetters : List Message
  nextMessage : ReceiptHandle
  hands : List (Option Hand)

/-! ### The code at each stage -/

section Code

variable (setup : Setup) (jobId : Uuid) (receiptHandle : ReceiptHandle)

/-- The `except` clauses of `consume_one_message`. -/
def abandonClaimed (job : ClaimedJob) : Exn → Run Bool
  | .lostJobClaimError => return false
  | error => do
      let _ ← repository (.failJob jobId job.processingToken error.typeName)
      return false

/-- What is left of `consume_one_message` at each stage. -/
def Stage.rest : Stage → Run Bool
  | .received => consumeReceived setup.store setup.toConsumerConfig (some (jobId, receiptHandle))
  | .refused => do
      let existing ← repository (.getJob jobId)
      if existing.job.status = .completed then
        record .workerDuplicateJobs ["completed"]
        record .workerJobClaims ["duplicate_completed"]
        perform (.deleteMessage receiptHandle)
        return true
      else
        record .workerJobClaims ["in_progress_not_owned"]
        return false
  | .duplicate => do
      perform (.deleteMessage receiptHandle)
      return true
  | .processing job =>
      consumeClaimed setup.store setup.toConsumerConfig jobId receiptHandle job
  | .failing job error => abandonClaimed jobId job error
  | .completed job =>
      tryCatch (do
        perform (.deleteMessage receiptHandle)
        return true) (abandonClaimed jobId job)

/-- The heartbeat of a claimed job. -/
def heartbeatOf (job : ClaimedJob) : VisibilityHeartbeat :=
  ⟨jobId, job.processingToken, receiptHandle, setup.visibilityTimeoutSeconds,
    setup.visibilityHeartbeatSeconds⟩

end Code

/-! ### The events -/

/-- The next call of a worker that holds a message, or of its heartbeat thread; or the worker is
killed. `raise` is an error between the claim and the completion, of the artifact store for
instance. -/
inductive WorkerCall where
  | claim (inputs : Inputs) (faults : Faults Exn)
  | read (inputs : Inputs) (faults : Faults Exn)
  | renew (inputs : Inputs) (faults : Faults Exn)
  | extend (succeeds : Bool)
  | raise (error : Exn)
  | complete (reportId : Uuid) (inputs : Inputs) (faults : Faults Exn)
  | fail (inputs : Inputs) (faults : Faults Exn)
  | delete (succeeds : Bool)
  | crash

/-- One event of a run. -/
inductive TimedEvent where
  | pass (later : Time)
  | send (messageBody : Json)
  | commit (call : RepoCall) (inputs : Inputs) (faults : Faults Exn)
  | receive (worker : Nat) (receiptHandle : ReceiptHandle)
  | deadLetter (receiptHandle : ReceiptHandle)
  | work (worker : Nat) (call : WorkerCall)

/-- A method that API requests and dispatchers call: it does not touch the claim of a job. -/
def ByClient : RepoCall → Bool
  | .markJobProcessing .. => false
  | .renewJobProcessingLease .. => false
  | .completeJobWithReport .. => false
  | .failJob .. => false
  | _ => true

/-- A value under a condition. -/
def require {α : Type} (condition : Prop) [Decidable condition] (value : α) : Option α :=
  if condition then some value else none

theorem require_eq_some {α : Type} {condition : Prop} [Decidable condition] {value result : α} :
    require condition value = some result ↔ condition ∧ value = result := by
  simp [require]

namespace Hand

variable (hand : Hand)

/-- After `mark_job_processing`. -/
def claimed : Except Exn (Option ClaimedJob) → Option Hand
  | .ok (some job) => some { hand with stage := .processing job }
  | .ok none => some { hand with stage := .refused }
  | .error _ => none

/-- After `get_job`. -/
def read : Except Exn Repository.JobView → Option Hand
  | .ok existing =>
      if existing.job.status = .completed then some { hand with stage := .duplicate } else none
  | .error _ => none

/-- After `renew_job_processing_lease`. -/
def renewed (now : Time) : Except Exn Bool → Hand
  | .ok true => { hand with heartbeat := .renewed, renewedAt := now }
  | _ => { hand with heartbeat := .ended }

/-- After `complete_job_with_report`. -/
def finished (job : ClaimedJob) : Except Exn Unit → Option Hand
  | .ok () => some { hand with stage := .completed job }
  | .error .lostJobClaimError => none
  | .error error => some { hand with stage := .failing job error }

end Hand

namespace TimedWorld

/-- Empty tables and queues, and idle workers. -/
def opening (workers : Nat) (now : Time) : TimedWorld :=
  ⟨now, .empty, [], [], [], 0, List.replicate workers none⟩

variable (world : TimedWorld)

/-- What a worker holds. -/
def hand? (worker : Nat) : Option Hand := (world.hands[worker]?).join

/-- The worker holds no message. -/
def idle (worker : Nat) : Bool := (world.hands[worker]?).any Option.isNone

/-- The message with a receipt handle. -/
def entry? (receiptHandle : ReceiptHandle) : Option QueuedMessage :=
  world.queue.find? fun entry => entry.id = receiptHandle

/-- A worker goes on, or is done with its message. -/
def setHand (worker : Nat) (hand : Option Hand) : TimedWorld :=
  { world with hands := world.hands.set worker hand }

/-- A transaction at the present time. -/
def request (call : RepoCall) (inputs : Inputs) (faults : Faults Exn) : Request :=
  ⟨call, { inputs with now := world.now }, faults⟩

/-- A transaction commits. -/
def transact (request : Request) : TimedWorld :=
  { world with db := request.after world.db, drawn := world.drawn ++ request.drawn }

/-- SQS accepts a message. -/
def enqueue (messageBody : Json) : TimedWorld :=
  { world with
    queue := world.queue ++ [⟨⟨world.nextMessage, messageBody⟩, world.now, 0⟩]
    nextMessage := world.nextMessage + 1 }

/-- One message changes in the queue. -/
def adjust (receiptHandle : ReceiptHandle) (change : QueuedMessage → QueuedMessage) : TimedWorld :=
  { world with
    queue := world.queue.map fun entry => if entry.id = receiptHandle then change entry else entry }

/-- SQS deletes a message. -/
def remove (receiptHandle : ReceiptHandle) : TimedWorld :=
  { world with queue := world.queue.filter fun entry => entry.id ≠ receiptHandle }

/-- What a worker holds that received a message: nothing, if it cannot read it. -/
def receipt (message : Message) : Option Hand :=
  match parseJobMessage (some message.body) with
  | .ok jobId => some ⟨message.id, jobId, .received, .waiting, world.now, world.now⟩
  | .error _ => none

/-- SQS hands out a message. -/
def deliver (setup : Setup) (worker : Nat) (message : Message) : TimedWorld :=
  (world.adjust message.id fun entry =>
    { entry with
      visibleAt := world.now + interval setup.queueVisibilitySeconds
      receives := entry.receives + 1 }).setHand worker (world.receipt message)

/-- The message is in the queue and not visible. -/
def InFlight (receiptHandle : ReceiptHandle) : Prop :=
  ∃ entry ∈ world.queue, entry.id = receiptHandle ∧ world.now < entry.visibleAt

instance (receiptHandle : ReceiptHandle) : Decidable (world.InFlight receiptHandle) := by
  unfold InFlight
  infer_instance

/-- The next call of a worker. -/
def work (setup : Setup) (worker : Nat) (hand : Hand) : WorkerCall → Option TimedWorld
  | .claim inputs faults =>
      match hand.stage with
      | .received =>
          let request := world.request
            (.markJobProcessing hand.jobId setup.processingLeaseSeconds) inputs faults
          require (inputs.Fresh world.drawn)
            ((world.transact request).setHand worker (hand.claimed (request.reply world.db)))
      | _ => none
  | .read inputs faults =>
      match hand.stage with
      | .refused =>
          let request := world.request (.getJob hand.jobId) inputs faults
          require (inputs.Fresh world.drawn)
            ((world.transact request).setHand worker (hand.read (request.reply world.db)))
      | _ => none
  | .renew inputs faults =>
      match hand.stage.claim? with
      | some job =>
          let request := world.request
            (.renewJobProcessingLease hand.jobId job.processingToken) inputs faults
          require (inputs.Fresh world.drawn ∧ hand.heartbeat = .waiting)
            ((world.transact request).setHand worker
              (some (hand.renewed world.now (request.reply world.db))))
      | none => none
  | .extend true =>
      require (hand.heartbeat = .renewed ∧ world.InFlight hand.receiptHandle)
        ((world.adjust hand.receiptHandle fun entry =>
          { entry with visibleAt := world.now + interval setup.visibilityTimeoutSeconds }).setHand
            worker (some { hand with heartbeat := .waiting, extendedAt := world.now }))
  | .extend false =>
      require (hand.heartbeat = .renewed)
        (world.setHand worker (some { hand with heartbeat := .waiting }))
  | .raise error =>
      match hand.stage with
      | .processing job =>
          require (error ≠ .lostJobClaimError)
            (world.setHand worker (some { hand with stage := .failing job error }))
      | _ => none
  | .complete reportId inputs faults =>
      match hand.stage with
      | .processing job =>
          let objectKey := setup.store.objectKey job.id reportId
          let request := world.request (.completeJobWithReport job.id job.processingToken
            (reportResult objectKey (reportRows job)) objectKey "text/csv") inputs faults
          require (inputs.Fresh world.drawn)
            ((world.transact request).setHand worker (hand.finished job (request.reply world.db)))
      | _ => none
  | .fail inputs faults =>
      match hand.stage with
      | .failing job error =>
          let request := world.request
            (.failJob hand.jobId job.processingToken error.typeName) inputs faults
          require (inputs.Fresh world.drawn) ((world.transact request).setHand worker none)
      | _ => none
  | .delete true =>
      match hand.stage with
      | .duplicate => some ((world.remove hand.receiptHandle).setHand worker none)
      | .completed _ => some ((world.remove hand.receiptHandle).setHand worker none)
      | _ => none
  | .delete false =>
      match hand.stage with
      | .duplicate => some (world.setHand worker none)
      | .completed job =>
          some (world.setHand worker
            (some { hand with stage := .failing job (.other "ClientError") }))
      | _ => none
  | .crash => some (world.setHand worker none)

/-- One event. -/
def step (setup : Setup) : TimedEvent → Option TimedWorld
  | .pass later => require (world.now ≤ later) { world with now := later }
  | .send messageBody => some (world.enqueue messageBody)
  | .commit call inputs faults =>
      require (ByClient call ∧ inputs.Fresh world.drawn)
        (world.transact (world.request call inputs faults))
  | .receive worker receiptHandle =>
      (world.entry? receiptHandle).bind fun entry =>
        require (world.idle worker ∧ entry.visibleAt ≤ world.now ∧
          entry.receives < setup.maxReceiveCount) (world.deliver setup worker entry.toMessage)
  | .deadLetter receiptHandle =>
      (world.entry? receiptHandle).bind fun entry =>
        require (entry.visibleAt ≤ world.now ∧ setup.maxReceiveCount ≤ entry.receives)
          { world.remove receiptHandle with
            deadLetters := world.deadLetters ++ [entry.toMessage] }
  | .work worker call => (world.hand? worker).bind fun hand => world.work setup worker hand call

end TimedWorld

end JobPlatform.Runtime
