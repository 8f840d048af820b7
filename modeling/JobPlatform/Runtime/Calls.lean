import JobPlatform.Foundation.Program
import JobPlatform.Store.Operations

/-!
Contract: the calls the API and worker processes make.

Owns `PlatformCall`, one constructor per call that leaves the process or is shared between its
threads, and the result of each. A call of the database is a whole `Repository` method.

Does not own what a call does, or the programs that make it. Tracing spans and log lines are not
calls: nothing reads them.
-/

namespace JobPlatform.Runtime

open JobPlatform.Foundation JobPlatform.Store

/-- The receipt handle of a received message. -/
abbrev ReceiptHandle := Nat

/-- A message as `receive_message` returns it. `body` is the value of `json.loads`; `none` is a
text it rejects. -/
structure Delivery where
  body : Option Json
  receiptHandle : ReceiptHandle

/-- The rows of a CSV report: its `field` and `value` columns. -/
abbrev ReportRows := List (String × String)

/-- The arguments of `VisibilityHeartbeat`. -/
structure VisibilityHeartbeat where
  jobId : Uuid
  processingToken : Uuid
  receiptHandle : ReceiptHandle
  visibilityTimeoutSeconds : Int
  heartbeatSeconds : Int

/-- The metrics of the worker. -/
inductive Metric where
  | workerOutboxDispatch
  | workerJobsProcessed
  | workerJobDuration
  | workerDuplicateJobs
  | workerJobClaims
  | workerOutboxReclaims
  | workerVisibilityHeartbeatFailures
deriving DecidableEq

/-- A call. `origin` in `sendMessage` is a ghost: the outbox event and the claim token the send is
made for, if it is made by a dispatcher. The queue never sees it. -/
inductive PlatformCall where
  | repository (call : RepoCall)
  | uuid4
  | sendMessage (origin : Option (Uuid × Uuid)) (messageBody : Json)
  | receiveMessage
  | deleteMessage (receiptHandle : ReceiptHandle)
  | changeMessageVisibility (receiptHandle : ReceiptHandle) (visibilityTimeout : Int)
  | putObject (objectKey : String) (rows : ReportRows)
  | appendPublished (jobId : Uuid) (correlationId : Json)
  | startThread (heartbeat : VisibilityHeartbeat)
  | stopThread (heartbeat : Nat)
  | stopWait (heartbeat : Nat) (seconds : Int)
  | record (metric : Metric) (labels : List String)

/-- What each call returns. -/
@[reducible] def PlatformCall.Result : PlatformCall → Type
  | repository call => call.Result
  | uuid4 => Uuid
  | receiveMessage => Option Delivery
  | startThread _ => Nat
  | stopWait .. => Bool
  | _ => Unit

/-- The language of the programs. -/
@[reducible] def platform : Calls where
  Call := PlatformCall
  Result := PlatformCall.Result
  Error := Exn

/-- Code of an API or worker process. -/
abbrev Run (α : Type) := Code platform α

/-- Make one call. -/
def perform (call : PlatformCall) : Run call.Result := Code.perform (S := platform) call

/-- Call a repository method. -/
def repository (call : RepoCall) : Run call.Result := perform (.repository call)

end JobPlatform.Runtime
