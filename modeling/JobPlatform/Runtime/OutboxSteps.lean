import JobPlatform.Runtime.Worker
import JobPlatform.Store.OutboxStatements

/-!
Contract: dispatchers of one outbox, interleaved at the steps of their statements.

Owns:
- `wire`, the calls of a dispatcher when each repository method is the transaction it runs, and
  `statements`, which replaces the methods by their steps;
- `OutboxWorld`, the outbox with the transactions in progress and the sends, and `dispatchers`, the
  thread system of any number of `dispatch_outbox` calls.

Every step of a transaction may raise, a commit may take effect without an answer, a dispatcher may
stop at any point, and the server may end the transaction of any thread. Time is not modelled:
`NOW()` is arbitrary in every transaction. Jobs are created in between; nothing else writes to
`job_outbox`.
-/

namespace JobPlatform.Runtime

open JobPlatform.Foundation JobPlatform.Store
open JobPlatform.Store.Repository (ClaimedEvent newEvent)

/-! ### The calls -/

/-- A call of a dispatcher: `uuid4()`, a step of a transaction, or a call that is not a repository
method. -/
inductive WireCall where
  | uuid4
  | sql (call : RowCall OutboxStatement Uuid)
  | platform (call : PlatformCall)

/-- What each call returns. -/
@[reducible] def WireCall.Result : WireCall → Type
  | uuid4 => Uuid
  | sql call => call.Result OutboxRow
  | platform call => call.Result

/-- The language of the steps. -/
@[reducible] def wire : Calls where
  Call := WireCall
  Result := WireCall.Result
  Error := Exn

namespace Stepwise

/-- One step of a transaction. -/
def sql (call : RowCall OutboxStatement Uuid) : Code wire (call.Result OutboxRow) :=
  Code.perform (S := wire) (.sql call)

/-- `Repository.claim_outbox_events`. -/
def claimOutboxEvents (limit leaseSeconds : Int) : Code wire (List ClaimedEvent) := do
  let claimToken ← Code.perform (S := wire) .uuid4
  let rows ← outboxUpdates.transaction sql (.claimOutboxEvents limit leaseSeconds claimToken)
  return rows.map (ClaimedEvent.ofRow claimToken)

/-- `Repository.mark_outbox_published` and `Repository.mark_outbox_failed`. -/
def markOutbox (statement : OutboxStatement) : Code wire Bool := do
  let rows ← outboxUpdates.transaction sql statement
  return rows.length = 1

/-- The steps of each call. -/
def statements : (call : PlatformCall) → Program wire (platform.Reply call)
  | .repository (.claimOutboxEvents limit leaseSeconds) =>
      (claimOutboxEvents limit leaseSeconds).run
  | .repository (.markOutboxPublished eventId claimToken) =>
      (markOutbox (.markOutboxPublished eventId claimToken)).run
  | .repository (.markOutboxFailed eventId claimToken error) =>
      (markOutbox (.markOutboxFailed eventId claimToken error)).run
  | call => (Code.perform (S := wire) (.platform call)).run

/-- `dispatch_outbox` of a worker in cloud mode. -/
def dispatcher (limit leaseSeconds : Int) : Program wire Unit :=
  (dispatchOutbox (createJobPublisher true true) limit leaseSeconds).task.expand statements

end Stepwise

/-! ### The world -/

/-- The history of the outbox. -/
abbrev OutboxHistory := List (CommitEntry OutboxStatement OutboxRow Time)

/-- The shared state. `drawn` has the token each thread drew, `sent` and `unsent` the event and the
token of the sends that returned, and of those that raised. -/
structure OutboxWorld where
  versions : Versions OutboxStatement Uuid OutboxRow Time
  drawn : List (ThreadId × Uuid)
  sent : List (Uuid × Uuid)
  unsent : List (Uuid × Uuid)

namespace OutboxWorld

/-- The latest committed version of an event. -/
def event? (w : OutboxWorld) (eventId : Uuid) : Option OutboxRow := w.versions.latest eventId

/-- The commits so far. -/
def history (w : OutboxWorld) : OutboxHistory := w.versions.history

/-- The empty outbox. -/
def initial : OutboxWorld := ⟨.initial fun _ => none, [], [], []⟩

/-- What a call may do and reply. -/
inductive Perform (t : ThreadId) (w : OutboxWorld) :
    (c : WireCall) → wire.Reply c → OutboxWorld → Prop where
  | drew {token : Uuid} (fresh : token ∉ w.drawn.map Prod.snd) :
      Perform t w .uuid4 (.ok token) { w with drawn := w.drawn ++ [(t, token)] }
  | sql {call : RowCall OutboxStatement Uuid} {reply : Except Exn (call.Result OutboxRow)}
      {versions : Versions OutboxStatement Uuid OutboxRow Time}
      (ran : outboxUpdates.Exec Exn t w.versions call reply versions) :
      Perform t w (.sql call) reply { w with versions }
  | sent {origin : Option (Uuid × Uuid)} {messageBody : Json} :
      Perform t w (.platform (.sendMessage origin messageBody)) (.ok ())
        { w with sent := w.sent ++ origin.toList }
  | unsent {origin : Option (Uuid × Uuid)} {messageBody : Json} (error : Exn) :
      Perform t w (.platform (.sendMessage origin messageBody)) (.error error)
        { w with unsent := w.unsent ++ origin.toList }
  | recorded {metric : Metric} {labels : List String} :
      Perform t w (.platform (.record metric labels)) (.ok ()) w

/-- What happens without a dispatcher: a job is created with its event, or the server ends the
transaction of a thread. -/
inductive Env (w : OutboxWorld) : OutboxWorld → Prop where
  | created {eventId : Uuid} (jobId : Uuid) (correlationId : Option String) (now : Time)
      (new : w.event? eventId = none) :
      Env w { w with versions := { w.versions with
        latest := Function.update w.versions.latest eventId
          (some (newEvent jobId correlationId eventId now)) } }
  | disconnected (t : ThreadId) : Env w { w with versions := w.versions.setSession t none }

end OutboxWorld

/-- Any number of dispatchers, with any limits and leases. -/
def dispatchers : ThreadSystem wire OutboxWorld where
  exec t w call reply after := w.Perform t call reply after
  start _ w program after := after = w ∧ ∃ limit leaseSeconds,
    program = Stepwise.dispatcher limit leaseSeconds
  env w after := w.Env after

end JobPlatform.Runtime
