import JobPlatform.Runtime.Desk

/-!
Contract: one worker in cloud mode that is alone with the database and the queue, with no failing
calls.

Owns:
- `Solo.handle`, the calls of that worker: what it sends joins the queue, a receive gets one of the
  messages in the queue, and a message at its receive limit goes to the dead-letter queue instead;
- `consume_delivered`: what one `consume_one_message` does to the message it receives.

Everything but sends and receives is as for a worker with given deliveries, whose handler this one
uses. A received message stays in the queue and may be received again: visibility gives nothing.
-/

namespace JobPlatform.Runtime

open JobPlatform.Foundation JobPlatform.Store
open JobPlatform.Store.Repository

/-- What the worker works on. `receives` is the receive count of each message. -/
structure Station where
  db : Database
  queue : List Message
  deadLetters : List Message
  nextMessage : ReceiptHandle
  receives : ReceiptHandle → Nat
  objects : List (String × ReportRows)
  calls : Nat

/-- A shift, the choices of SQS among the messages, and the redrive policy. -/
structure Solo extends Shift where
  pick : Nat → Nat
  maxReceiveCount : Nat
  receivable : 0 < maxReceiveCount

namespace Station

/-- The station as the desk of a worker with no deliveries. -/
def desk (station : Station) : Desk :=
  ⟨station.db, [], station.queue, station.objects, station.calls⟩

/-- A call of the desk. -/
def follow (station : Station) (after : Desk) : Station :=
  { station with
    db := after.db
    queue := after.queue
    objects := after.objects
    calls := after.calls }

/-- SQS accepts a message. -/
def enqueue (station : Station) (messageBody : Json) : Station :=
  { station with
    queue := station.queue ++ [⟨station.nextMessage, messageBody⟩]
    nextMessage := station.nextMessage + 1
    receives := Function.update station.receives station.nextMessage 0 }

/-- SQS hands out a message. -/
def count (station : Station) (message : Message) : Station :=
  { station with
    receives :=
      Function.update station.receives message.id (station.receives message.id + 1) }

/-- SQS moves a message to the dead-letter queue. -/
def deadLetter (station : Station) (message : Message) : Station :=
  { station with
    queue := station.queue.filter fun other => other.id ≠ message.id
    deadLetters := station.deadLetters ++ [message] }

end Station

namespace Solo

/-- The message SQS chooses for a receive. -/
def picked (solo : Solo) (station : Station) : Option Message :=
  station.queue[solo.pick station.calls % station.queue.length]?

/-- What a receive gives. -/
def receive (solo : Solo) (station : Station) : Option Delivery × Station :=
  match solo.picked station with
  | none => (none, station)
  | some message =>
      if station.receives message.id < solo.maxReceiveCount then
        (some ⟨some message.body, message.id⟩, station.count message)
      else (none, station.deadLetter message)

/-- One call: the renewals before it, its answer, and the next number. -/
def handle (solo : Solo) : (call : PlatformCall) → Station → platform.Reply call × Station
  | .sendMessage _ messageBody, station =>
      let db := renewAll (solo.renewals station.calls) station.db
      (.ok (), { station.enqueue messageBody with db, calls := station.calls + 1 })
  | .receiveMessage, station =>
      let db := renewAll (solo.renewals station.calls) station.db
      let (delivery, after) := solo.receive station
      (.ok delivery, { after with db, calls := station.calls + 1 })
  | call, station =>
      let (reply, after) := solo.toShift.handle call station.desk
      (reply, station.follow after)

theorem picked_eq_some (solo : Solo) {station : Station} (waiting : station.queue ≠ []) :
    ∃ message ∈ station.queue, solo.picked station = some message := by
  have bound : solo.pick station.calls % station.queue.length < station.queue.length :=
    Nat.mod_lt _ (List.length_pos_iff.mpr waiting)
  exact ⟨_, List.getElem_mem bound, List.getElem?_eq_getElem bound⟩

theorem receive_of_empty (solo : Solo) {station : Station} (empty : station.queue = []) :
    solo.receive station = (none, station) := by
  unfold receive picked
  rw [empty]
  rfl

theorem receive_of_picked (solo : Solo) {station : Station} {message : Message}
    (isPicked : solo.picked station = some message)
    (within : station.receives message.id < solo.maxReceiveCount) :
    solo.receive station = (some ⟨some message.body, message.id⟩, station.count message) := by
  unfold receive
  rw [isPicked]
  exact if_pos within

end Solo

/-! ### Calls while no job is processed -/

section Calls

variable (solo : Solo) (station : Station) (idle : Idle station.db)

theorem Solo.meaning_perform (call : PlatformCall) :
    Code.meaning solo.handle (perform call) station = solo.handle call station := rfl

include idle in
/-- A metric. -/
theorem Solo.handle_record (metric : Metric) (labels : List String) :
    Code.meaning solo.handle (record metric labels) station =
      (.ok (), { station with calls := station.calls + 1 }) := by
  have deskIdle : Idle station.desk.db := idle
  have answered := meaning_record_idle solo.toShift station.desk deskIdle metric labels
  exact congrArg (fun answer => (answer.1, station.follow answer.2)) answered

include idle in
/-- A transaction. -/
theorem Solo.handle_repository {call : RepoCall} {reply : Except Exn call.Result}
    {after : Database}
    (returns : call.run (solo.inputs station.calls) [] station.db = (reply, after)) :
    Code.meaning solo.handle (repository call) station =
      (reply, { station with db := after, calls := station.calls + 1 }) := by
  have deskIdle : Idle station.desk.db := idle
  have answered := meaning_repository solo.toShift station.desk deskIdle returns
  exact congrArg (fun answer => (answer.1, station.follow answer.2)) answered

include idle in
/-- A send. -/
theorem Solo.handle_send (origin : Option (Uuid × Uuid)) (messageBody : Json) :
    Code.meaning solo.handle (perform (.sendMessage origin messageBody)) station =
      (.ok (), { station.enqueue messageBody with calls := station.calls + 1 }) := by
  rw [Solo.meaning_perform]
  unfold Solo.handle
  dsimp only
  rw [renewAll_idle idle]
  rfl

include idle in
/-- A receive. -/
theorem Solo.handle_receive :
    Code.meaning solo.handle (perform .receiveMessage) station =
      (.ok (solo.receive station).1, { (solo.receive station).2 with
        db := station.db
        calls := station.calls + 1 }) := by
  rw [Solo.meaning_perform]
  unfold Solo.handle
  dsimp only
  rw [renewAll_idle idle]

include idle in
/-- A receive that gets a message of a job. -/
theorem Solo.receives {message : Message} {jobId : Uuid}
    (isPicked : solo.picked station = some message)
    (within : station.receives message.id < solo.maxReceiveCount)
    (names : Names message.body jobId) :
    Code.meaning solo.handle (tryCatch receiveJob fun _ => pure none) station =
      (.ok (some (jobId, message.id)),
        { station.count message with calls := station.calls + 1 }) := by
  unfold receiveJob
  rw [Code.meaning_tryCatch, Code.meaning_bind, solo.handle_receive station idle,
    solo.receive_of_picked isPicked within]
  dsimp only
  rw [Code.meaning_bind, Code.meaning_ofExcept, names]
  rfl

include idle in
/-- A receive from an empty queue. -/
theorem Solo.receives_nothing (empty : station.queue = []) :
    Code.meaning solo.handle (tryCatch receiveJob fun _ => pure none) station =
      (.ok none, { station with calls := station.calls + 1 }) := by
  unfold receiveJob
  rw [Code.meaning_tryCatch, Code.meaning_bind, solo.handle_receive station idle,
    solo.receive_of_empty empty]
  rfl

end Calls

/-! ### A message -/

/-- What `consume_one_message` does with the message it received. -/
def consumeReceived (store : ArtifactStore) (config : ConsumerConfig) :
    Option (Uuid × ReceiptHandle) → Run Bool
  | none => return false
  | some (jobId, receiptHandle) => do
      match ← claimJob jobId config.processingLeaseSeconds with
      | .status .duplicateCompleted => do
          perform (.deleteMessage receiptHandle)
          return true
      | .status .inProgressNotOwned => return false
      | .status .completed => throw .typeError
      | .claimed job => consumeClaimed store config jobId receiptHandle job

theorem consumeOneMessage_eq (store : ArtifactStore) (config : ConsumerConfig) :
    consumeOneMessage store config =
      (tryCatch receiveJob fun _ => pure none) >>= consumeReceived store config := rfl

theorem consumeReceived_inner (store : ArtifactStore) (config : ConsumerConfig)
    (received : Option (Uuid × ReceiptHandle)) :
    Code.Only Inner (consumeReceived store config received) := by
  match received with
  | none => trivial
  | some (jobId, receiptHandle) =>
      refine (claimJob_inner _ _).bind fun outcome => ?_
      match outcome with
      | .claimed job => exact consumeClaimed_inner store config jobId receiptHandle job
      | .status .completed => trivial
      | .status .inProgressNotOwned => trivial
      | .status .duplicateCompleted => exact (Code.only_perform trivial).bind fun _ => trivial

/-- The station is at the desk: the two agree on what both have. -/
def At (frame station : Station) (desk : Desk) : Prop := station = frame.follow desk

/-- Between receives and sends the handler is that of the desk. -/
theorem handle_agree (solo : Solo) (frame : Station) {call : PlatformCall} {station : Station}
    {desk : Desk} (inner : Inner call) (isAt : At frame station desk) :
    (solo.handle call station).1 = (solo.toShift.handle call desk).1 ∧
      At frame (solo.handle call station).2 (solo.toShift.handle call desk).2 := by
  obtain rfl := isAt
  cases call with
  | receiveMessage => exact inner.elim
  | sendMessage => exact inner.elim
  | _ => exact ⟨rfl, rfl⟩

/-- A worker that is alone does with a message it receives what a worker does to which this message
is delivered. -/
theorem consume_delivered (solo : Solo) (store : ArtifactStore) (config : ConsumerConfig)
    {station : Station} {message : Message} {jobId : Uuid} (idle : Idle station.db)
    (isPicked : solo.picked station = some message)
    (within : station.receives message.id < solo.maxReceiveCount)
    (names : Names message.body jobId) {result : Except Exn Bool} {after : Desk}
    (delivered : Code.meaning solo.toShift.handle (consumeOneMessage store config)
      { station.desk with incoming := [message] } = (result, after)) :
    Code.meaning solo.handle (consumeOneMessage store config) station =
      (result, (station.count message).follow after) := by
  have deskIdle : Idle { station.desk with incoming := [message] }.db := idle
  obtain ⟨received, ran, sameDb, isRest, sameQueue, sameObjects, one⟩ :=
    receives solo.toShift deskIdle rfl names
  rw [consumeOneMessage_eq, Code.meaning_bind, ran] at delivered
  rw [consumeOneMessage_eq, Code.meaning_bind, solo.receives station idle isPicked within names]
  dsimp only at delivered ⊢
  have isAt : At (station.count message)
      { station.count message with calls := station.calls + 1 } received := by
    unfold At Station.follow
    rw [sameDb, sameQueue, sameObjects, one]
    rfl
  obtain ⟨sameResult, after⟩ := Code.meaning_simulates solo.handle (handle_agree solo _)
    (consumeReceived_inner store config (some (jobId, message.id))) isAt
  rw [delivered] at sameResult after
  exact Prod.ext sameResult after

end JobPlatform.Runtime
