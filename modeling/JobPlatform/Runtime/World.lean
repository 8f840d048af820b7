import JobPlatform.Foundation.ThreadPool
import JobPlatform.Runtime.Worker
import JobPlatform.Runtime.Service
import JobPlatform.Store.Outbox
import JobPlatform.Store.Reports

/-!
Contract: the running platform: API and worker threads over one database, one queue with its
dead-letter queue, and one artifact store.

Owns:
- `World`, the shared state, with a log of every call and its reply;
- `Perform`, what each call may do and reply, failures included;
- `Env`, what SQS may do by itself, and `Start`, which programs may start;
- `jobPlatform`, the thread system of these, and the invariants of the world that need no
  argument about the programs.

A repository method is one atomic transaction; it may also commit and have its answer lost. Time is
not modelled here: `NOW()` is arbitrary in every transaction, so any lease may be taken for
expired, and any message in the queue may be received at any moment, so visibility gives nothing.
A crash is a thread that stops.
-/

namespace JobPlatform.Runtime

open JobPlatform.Foundation JobPlatform.Store

/-- A message in a queue. Its receipt handle is its id. -/
structure Message where
  id : ReceiptHandle
  body : Json

/-- A heartbeat thread object. -/
structure HeartbeatThread where
  arguments : VisibilityHeartbeat
  started : Bool
  stopped : Bool

/-- A call a thread made, and the reply it got. -/
structure LogEntry where
  thread : ThreadId
  call : PlatformCall
  reply : platform.Reply call

/-- The shared state. -/
structure World where
  db : Database
  drawn : List Uuid
  queue : List Message
  deadLetters : List Message
  nextMessage : ReceiptHandle
  objects : List (String × ReportRows)
  published : List (Uuid × Json)
  heartbeats : List HeartbeatThread
  log : List LogEntry

namespace World

/-- The migrated schema, empty queues, nothing stored. -/
def initial : World := ⟨.empty, [], [], [], 0, [], [], [], []⟩

/-- SQS accepts a message. -/
def enqueue (w : World) (body : Json) : World :=
  { w with queue := w.queue ++ [⟨w.nextMessage, body⟩], nextMessage := w.nextMessage + 1 }

/-- The messages of the main queue and of the dead-letter queue. -/
def messages (w : World) : List Message := w.queue ++ w.deadLetters

/-- What a call may do and reply. An `unanswered` or `lost` call took effect although the caller
sees an error. -/
inductive Perform (w : World) : (call : PlatformCall) → platform.Reply call → World → Prop where
  | repository {call : RepoCall} {inputs : Inputs} (fresh : inputs.Fresh w.drawn)
      (faults : Faults Exn) :
      Perform w (.repository call) (call.run inputs faults w.db).1
        { w with db := (call.run inputs faults w.db).2, drawn := w.drawn ++ List.ofFn inputs.uuid }
  | unanswered {call : RepoCall} {inputs : Inputs} (fresh : inputs.Fresh w.drawn)
      (faults : Faults Exn) (error : Exn) :
      Perform w (.repository call) (.error error)
        { w with db := (call.run inputs faults w.db).2, drawn := w.drawn ++ List.ofFn inputs.uuid }
  | uuid4 {id : Uuid} (fresh : id ∉ w.drawn) :
      Perform w .uuid4 (.ok id) { w with drawn := w.drawn ++ [id] }
  | sent {origin : Option (Uuid × Uuid)} {body : Json} (reply : Except Exn Unit) :
      Perform w (.sendMessage origin body) reply (w.enqueue body)
  | notSent {origin : Option (Uuid × Uuid)} {body : Json} (error : Exn) :
      Perform w (.sendMessage origin body) (.error error) w
  | received {message : Message} (member : message ∈ w.queue) :
      Perform w .receiveMessage (.ok (some ⟨some message.body, message.id⟩)) w
  | receivedNothing : Perform w .receiveMessage (.ok none) w
  | notReceived (error : Exn) : Perform w .receiveMessage (.error error) w
  | deleted {receiptHandle : ReceiptHandle} (reply : Except Exn Unit) :
      Perform w (.deleteMessage receiptHandle) reply
        { w with queue := w.queue.filter fun message => message.id ≠ receiptHandle }
  | notDeleted {receiptHandle : ReceiptHandle} (reply : Except Exn Unit) :
      Perform w (.deleteMessage receiptHandle) reply w
  | changedVisibility {receiptHandle : ReceiptHandle} {visibilityTimeout : Int}
      (reply : Except Exn Unit) :
      Perform w (.changeMessageVisibility receiptHandle visibilityTimeout) reply w
  | stored {objectKey : String} {rows : ReportRows} (reply : Except Exn Unit) :
      Perform w (.putObject objectKey rows) reply
        { w with objects := w.objects ++ [(objectKey, rows)] }
  | notStored {objectKey : String} {rows : ReportRows} (error : Exn) :
      Perform w (.putObject objectKey rows) (.error error) w
  | appended {jobId : Uuid} {correlationId : Json} :
      Perform w (.appendPublished jobId correlationId) (.ok ())
        { w with published := w.published ++ [(jobId, correlationId)] }
  | threadStarted {heartbeat : VisibilityHeartbeat} :
      Perform w (.startThread heartbeat) (.ok w.heartbeats.length)
        { w with heartbeats := w.heartbeats ++ [⟨heartbeat, false, false⟩] }
  | threadNotStarted {heartbeat : VisibilityHeartbeat} (error : Exn) :
      Perform w (.startThread heartbeat) (.error error) w
  | threadStopped {heartbeat : Nat} :
      Perform w (.stopThread heartbeat) (.ok ())
        { w with heartbeats := w.heartbeats.modify heartbeat fun thread =>
            { thread with stopped := true } }
  | waited {heartbeat : Nat} {seconds : Int} {thread : HeartbeatThread}
      (isThread : w.heartbeats[heartbeat]? = some thread) :
      Perform w (.stopWait heartbeat seconds) (.ok thread.stopped) w
  | recorded {metric : Metric} {labels : List String} : Perform w (.record metric labels) (.ok ()) w

/-- The call is in the log afterwards. -/
def logged (w : World) (t : ThreadId) (call : PlatformCall) (reply : platform.Reply call) : World :=
  { w with log := w.log ++ [⟨t, call, reply⟩] }

/-- What SQS may do by itself: duplicate, reorder, dead-letter and redrive messages. -/
inductive Env (w : World) : World → Prop where
  | duplicate {message : Message} (member : message ∈ w.queue) : Env w (w.enqueue message.body)
  | reorder {queue : List Message} (same : queue.Perm w.queue) : Env w { w with queue }
  | deadLetter {message : Message} (member : message ∈ w.queue) :
      Env w { w with
        queue := w.queue.filter fun other => other.id ≠ message.id
        deadLetters := w.deadLetters ++ [message] }
  | redrive {message : Message} (member : message ∈ w.deadLetters) :
      Env w { w with
        queue := w.queue ++ [message]
        deadLetters := w.deadLetters.filter fun other => other.id ≠ message.id }

/-- The programs that may start: requests of the API, iterations of a worker, and the heartbeat
threads the workers asked for. -/
inductive Start (isCloud : Bool) (w : World) : Program platform Unit → World → Prop where
  | createJob (jobType : String) (payload : PyJson) (correlationId : Option String) :
      Start isCloud w (Code.task (ApplicationService.createJob (createJobPublisher isCloud false)
        jobType payload correlationId)) w
  | createCustomer (name email : String) :
      Start isCloud w (Code.task (repository (.createCustomer name email))) w
  | getJob (jobId : Uuid) : Start isCloud w (Code.task (repository (.getJob jobId))) w
  | dispatchOutbox (limit leaseSeconds : Int) :
      Start isCloud w (Code.task (dispatchOutbox (createJobPublisher isCloud true) limit
        leaseSeconds)) w
  | consumeOneMessage (store : ArtifactStore) (config : ConsumerConfig) :
      Start isCloud w (Code.task (consumeOneMessage store config)) w
  | processJob (store : ArtifactStore) (jobId : Uuid) (leaseSeconds : Int) :
      Start isCloud w (Code.task (processJob store jobId leaseSeconds)) w
  | heartbeat {index : Nat} {thread : HeartbeatThread}
      (asked : w.heartbeats[index]? = some thread) (unstarted : thread.started = false)
      (fuel : Nat) :
      Start isCloud w (Code.task (thread.arguments.run index fuel))
        { w with heartbeats := w.heartbeats.set index { thread with started := true } }

variable {w after : World}

theorem Perform.log_eq {call : PlatformCall} {reply : platform.Reply call}
    (performed : w.Perform call reply after) : after.log = w.log := by
  cases performed <;> rfl

/-- A repository method that ran undisturbed. -/
theorem Perform.answered {call : RepoCall} {inputs : Inputs}
    {reply : Except Exn call.Result} (fresh : inputs.Fresh w.drawn)
    (isReply : (call.run inputs [] w.db).1 = reply) : w.Perform (.repository call) reply
      { w with db := (call.run inputs [] w.db).2, drawn := w.drawn ++ List.ofFn inputs.uuid } :=
  isReply ▸ .repository fresh []

/-- And that returned. -/
theorem Perform.returned {call : RepoCall} {inputs : Inputs} {value : call.Result} {db : Database}
    (fresh : inputs.Fresh w.drawn) (returns : call.run inputs [] w.db = (.ok value, db)) :
    w.Perform (.repository call) (.ok value)
      { w with db, drawn := w.drawn ++ List.ofFn inputs.uuid } := by
  have performed := Perform.answered fresh (congrArg Prod.fst returns)
  rwa [returns] at performed

theorem Env.log_eq (moved : w.Env after) : after.log = w.log := by
  cases moved <;> rfl

end World

/-- The platform in cloud or local mode. -/
def jobPlatform (isCloud : Bool) : ThreadSystem platform World where
  exec t w call reply after := ∃ done, w.Perform call reply done ∧ after = done.logged t call reply
  start _ w program after := w.Start isCloud program after
  env w after := w.Env after

end JobPlatform.Runtime
