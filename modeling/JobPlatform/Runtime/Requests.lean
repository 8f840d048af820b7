import JobPlatform.Foundation.Execution
import JobPlatform.Runtime.Invariants

/-!
Contract: what a writing request of the API adds to the database.

Owns:
- `apiRequests`, the requests of the API over the database alone, interleaved with each other and
  with any other repository transaction; a transaction that raises is rolled back, at whatever
  statement it failed;
- `JobAdded` and `CustomerAdded`, and their proof for every request that returns.

Does not own the bijections these additions keep.
-/

namespace JobPlatform.Runtime

open JobPlatform.Foundation JobPlatform.Store
open JobPlatform.Foundation.ThreadSystem

/-- What a call of a request does to the database. -/
def databaseExec (db : Database) :
    (call : PlatformCall) → platform.Reply call → Database → Prop
  | .repository call, reply, after =>
      ∃ inputs faults, call.run inputs faults db = (reply, after)
  | .appendPublished .., reply, after => reply = .ok () ∧ after = db
  | _, _, after => after = db

/-- The requests that may start: the API publishes with what `create_job_publisher` gives it. -/
inductive RequestStart (isCloud : Bool) : Program platform Unit → Prop where
  | createJob (jobType : String) (payload : PyJson) (correlationId : Option String) :
      RequestStart isCloud (Code.task (ApplicationService.createJob
        (createJobPublisher isCloud false) jobType payload correlationId))
  | createCustomer (name email : String) :
      RequestStart isCloud (Code.task (repository (.createCustomer name email)))

/-- The API over the database. The environment is every other caller of the repository. -/
def apiRequests (isCloud : Bool) : ThreadSystem platform Database where
  exec _ db call reply after := databaseExec db call reply after
  start _ db program after := RequestStart isCloud program ∧ after = db
  env db after := ∃ request : Request, after = request.after db

/-- One new job with its event and its audit, and nothing else. -/
structure JobAdded (job : JobRow) (before after : Database) : Prop where
  customers : after.customers = before.customers
  jobs : after.jobs.rows = before.jobs.rows ++ [job]
  jobResults : after.jobResults = before.jobResults
  auditEvents : ∃ audit, after.auditEvents.rows = before.auditEvents.rows ++ [audit] ∧
    audit.entityType = "job" ∧ audit.entityId = job.id ∧ audit.action = "created"
  objectMetadata : after.objectMetadata = before.objectMetadata
  jobOutbox : ∃ event, after.jobOutbox.rows = before.jobOutbox.rows ++ [event] ∧ event.Names job.id

/-- One new customer with its audit, and nothing else. -/
structure CustomerAdded (customer : CustomerRow) (before after : Database) : Prop where
  customers : after.customers.rows = before.customers.rows ++ [customer]
  jobs : after.jobs = before.jobs
  jobResults : after.jobResults = before.jobResults
  auditEvents : ∃ audit, after.auditEvents.rows = before.auditEvents.rows ++ [audit] ∧
    audit.entityType = "customer" ∧ audit.entityId = customer.id ∧ audit.action = "created"
  objectMetadata : after.objectMetadata = before.objectMetadata
  jobOutbox : after.jobOutbox = before.jobOutbox

/-- None of the calls changed anything. -/
def Unchanged (calls : List (Database × Database)) : Prop := ∀ call ∈ calls, call.2 = call.1

/-- What a request did: one call added what it returned and the others nothing, or it raised and
added nothing. -/
def AddsOnce {α : Type} (added : α → Database → Database → Prop)
    (calls : List (Database × Database)) : Except Exn α → Prop
  | .ok value => ∃ earlier before after later, calls = earlier ++ (before, after) :: later ∧
      added value before after ∧ Unchanged earlier ∧ Unchanged later
  | .error _ => Unchanged calls

section AddsOnce

variable {α β : Type} {added : α → Database → Database → Prop}
  {calls earlier later : List (Database × Database)}

theorem Unchanged.append (first : Unchanged earlier) (second : Unchanged later) :
    Unchanged (earlier ++ later) := by
  intro call member
  rcases List.mem_append.mp member with inFirst | inSecond
  · exact first call inFirst
  · exact second call inSecond

/-- Calls that changed nothing may come before. -/
theorem AddsOnce.after {result : Except Exn α} (first : Unchanged earlier)
    (adds : AddsOnce added later result) : AddsOnce added (earlier ++ later) result := by
  cases result with
  | ok value =>
      obtain ⟨own, before, after, rest, isCalls, isAdded, ownSame, restSame⟩ := adds
      refine ⟨earlier ++ own, before, after, rest, ?_, isAdded, first.append ownSame, restSame⟩
      rw [isCalls, List.append_assoc]
  | error error => exact first.append adds

/-- Calls that changed nothing may come after. -/
theorem AddsOnce.before {value : α} (adds : AddsOnce added earlier (.ok value))
    (second : Unchanged later) : AddsOnce added (earlier ++ later) (.ok value) := by
  obtain ⟨own, before, after, rest, isCalls, isAdded, ownSame, restSame⟩ := adds
  refine ⟨own, before, after, rest ++ later, ?_, isAdded, ownSame, restSame.append second⟩
  rw [isCalls, List.append_assoc, List.cons_append]

end AddsOnce

/-! ### The two methods -/

section Methods

variable {inputs : Inputs} {db after : Database}

theorem jobAdded_of_effect {jobType : String} {payload : PyJson} {correlationId : Option String}
    {job : JobRow} (effect : Effect inputs db (.createJob jobType payload correlationId) job after) :
    JobAdded job db after := by
  cases effect with
  | jobCreated inserted queued audited =>
      exact ⟨rfl, Table.rows_of_insert? inserted, rfl,
        ⟨_, Table.rows_of_insert? audited, rfl, rfl, rfl⟩, rfl,
        ⟨_, Table.rows_of_insert? queued, newEvent_names _ _ _ _⟩⟩

theorem customerAdded_of_effect {name email : String} {customer : CustomerRow}
    (effect : Effect inputs db (.createCustomer name email) customer after) :
    CustomerAdded customer db after := by
  cases effect with
  | customerCreated inserted audited =>
      exact ⟨Table.rows_of_insert? inserted, rfl, rfl,
        ⟨_, Table.rows_of_insert? audited, rfl, rfl, rfl⟩, rfl, rfl⟩

end Methods

section Executions

variable {isCloud : Bool} {t : ThreadId} {calls : List (Database × Database)}

/-- One call of a method adds what its effect says, or nothing. -/
theorem addsOnce_of_repository {call : RepoCall} {added : call.Result → Database → Database → Prop}
    (effects : ∀ {inputs db value after}, Effect inputs db call value after → added value db after)
    {result : Except Exn call.Result}
    (ran : (apiRequests isCloud).Execution t (repository call).run calls result) :
    AddsOnce added calls result := by
  obtain ⟨db, after, rfl, inputs, faults, returned⟩ := execution_perform ran
  cases result with
  | ok value =>
      exact ⟨[], db, after, [], rfl, effects (effect_of_run returned), by simp [Unchanged],
        by simp [Unchanged]⟩
  | error error =>
      have same : after = db := eq_of_run_error returned
      simp [AddsOnce, Unchanged, same]

/-- Both attempts of `create_job` together add one job, or nothing. -/
theorem addsOnce_insertJob {jobType : String} {payload : PyJson} {correlationId : Option String}
    {result : Except Exn JobRow} (ran : (apiRequests isCloud).Execution t
      (ApplicationService.insertJob jobType payload correlationId).run calls result) :
    AddsOnce JobAdded calls result := by
  rcases execution_tryCatch ran with ⟨job, rfl, first⟩ | ⟨attempt, error, rest, rfl, first, second⟩
  · exact addsOnce_of_repository jobAdded_of_effect first
  · have unchanged : Unchanged attempt := addsOnce_of_repository jobAdded_of_effect first
    refine AddsOnce.after unchanged ?_
    cases error with
    | typeError => exact addsOnce_of_repository jobAdded_of_effect second
    | _ =>
        obtain ⟨rfl, rfl⟩ := execution_done second
        simp [AddsOnce, Unchanged]

/-- The publishers of the API return, and leave the database alone. -/
theorem publish_returns {jobId : Uuid} {correlationId : Json} {result : Except Exn Unit}
    (ran : (apiRequests isCloud).Execution t
      ((createJobPublisher isCloud false).publish none jobId correlationId).run calls result) :
    result = .ok () ∧ Unchanged calls := by
  cases isCloud with
  | true =>
      obtain ⟨rfl, rfl⟩ := execution_done ran
      exact ⟨rfl, by simp [Unchanged]⟩
  | false =>
      obtain ⟨db, after, rfl, isResult, same⟩ := execution_perform ran
      exact ⟨isResult, by simp [Unchanged, same]⟩

/-- `create_job` of the service adds one job, or raises and adds nothing. -/
theorem addsOnce_createJob {jobType : String} {payload : PyJson} {correlationId : Option String}
    {result : Except Exn JobRow} (ran : (apiRequests isCloud).Execution t
      (ApplicationService.createJob (createJobPublisher isCloud false) jobType payload
        correlationId).run calls result) : AddsOnce JobAdded calls result := by
  rcases execution_codeBind ran with
    ⟨inserts, job, rest, rfl, inserted, published⟩ | ⟨error, rfl, failed⟩
  · have adds := addsOnce_insertJob inserted
    rcases execution_codeBind published with
      ⟨publishes, _, nothing, rfl, publishRan, returned⟩ | ⟨error, rfl, raised⟩
    · obtain ⟨rfl, rfl⟩ := execution_done returned
      rw [List.append_nil]
      exact adds.before (publish_returns publishRan).2
    · cases (publish_returns raised).1
  · exact addsOnce_insertJob failed

end Executions

/-! ### The bijections -/

/-- Every database of the API is aligned. -/
theorem aligned_of_requests {isCloud : Bool} {pool : Pool platform Database}
    (reached : (apiRequests isCloud).Reachable .empty pool) : pool.state.Aligned := by
  induction reached with
  | refl => exact Database.aligned_empty
  | tail _ step aligned =>
      have request (request : Request) : (request.after _).Aligned :=
        committed_invariant aligned Database.Aligned.effect [request]
      cases step with
      | start _ started =>
          obtain ⟨_, rfl⟩ := started
          exact aligned
      | @call _ call _ reply after _ called =>
          cases call with
          | repository call =>
              obtain ⟨inputs, faults, returned⟩ := called
              have isAfter : (call.run inputs faults _).2 = after := congrArg Prod.snd returned
              exact isAfter ▸ request ⟨call, inputs, faults⟩
          | appendPublished =>
              obtain ⟨_, rfl⟩ := called
              exact aligned
          | _ =>
              obtain rfl : after = _ := called
              exact aligned
      | stop => exact aligned
      | env moved =>
          obtain ⟨other, rfl⟩ := moved
          exact request other

/-- In every run of the API, with any other transactions in between: a `create_job` that ended
returned a job, and exactly one of its calls added that job with one event and one audit and
nothing else, or it raised and added nothing; the same for `create_customer`. Hence jobs, events
and audits correspond one to one in every reachable state of the API and of the whole platform, and
emails are unique; and no other operation, returned or raised, adds or removes any of them. -/
theorem transactional_outbox (isCloud : Bool) :
    (∀ t first calls last jobType payload correlationId,
      (apiRequests isCloud).Watched t first calls last →
      first.threads t = some (Code.task (ApplicationService.createJob
        (createJobPublisher isCloud false) jobType payload correlationId)) →
      last.threads t = some (.done ()) →
      ∃ result, (apiRequests isCloud).Execution t (ApplicationService.createJob
        (createJobPublisher isCloud false) jobType payload correlationId).run calls result ∧
          AddsOnce JobAdded calls result) ∧
    (∀ t first calls last name email,
      (apiRequests isCloud).Watched t first calls last →
      first.threads t = some (Code.task (repository (.createCustomer name email))) →
      last.threads t = some (.done ()) →
      ∃ result, (apiRequests isCloud).Execution t (repository (.createCustomer name email)).run
        calls result ∧ AddsOnce CustomerAdded calls result) ∧
    (∀ pool, (apiRequests isCloud).Reachable .empty pool → pool.state.Bijection) ∧
    (∀ pool, (jobPlatform isCloud).Reachable World.initial pool → pool.state.db.Bijection) ∧
    (∀ (request : Request) db, ¬ request.call.Creates → SameMembers db (request.after db)) := by
  refine ⟨?_, ?_, ?_, ?_, ?_⟩
  · intro t first calls last jobType payload correlationId watched started ended
    obtain ⟨result, ran⟩ := watched.ended started ended
    exact ⟨result, ran, addsOnce_createJob ran⟩
  · intro t first calls last name email watched started ended
    obtain ⟨result, ran⟩ := watched.ended started ended
    exact ⟨result, ran, addsOnce_of_repository customerAdded_of_effect ran⟩
  · intro pool reached
    exact (aligned_of_requests reached).bijection
  · intro pool reached
    exact (sound_of_reachable reached).consistent.aligned.bijection
  · intro request db other
    rcases request.outcome db with ⟨_, _, unchanged⟩ | ⟨value, _, effect⟩
    · rw [unchanged]
      exact .refl db
    · exact sameMembers_of_effect effect other

/-- A request whose first attempt raised a `TypeError` at its second statement, in a run of its
own. -/
theorem transactional_outbox_secondAttempt :
    ∃ calls result, calls.length = 2 ∧ (apiRequests true).Execution 0
      (ApplicationService.createJob (createJobPublisher true false) "csv_report" (.obj [])
        none).run calls result ∧ AddsOnce JobAdded calls result := by
  let first : Pool platform Database := ⟨.empty, Function.update (fun _ => none) 0
    (some (Code.task (ApplicationService.createJob (createJobPublisher true false) "csv_report"
      (.obj []) none)))⟩
  let call : PlatformCall := .repository (.createJob "csv_report" (.obj []) none)
  have failed : (apiRequests true).exec 0 .empty call (.error .typeError) .empty :=
    ⟨.numbered 0 0, [none, some .typeError], rfl⟩
  have added : (apiRequests true).exec 0 .empty call _ _ := ⟨.numbered 1 0, [], rfl⟩
  have started : (apiRequests true).Watched 0 first [] first := .start
  have retried := started.own rfl failed
  have returned := retried.own rfl added
  obtain ⟨result, ran, adds⟩ := (transactional_outbox true).1 0 first _ _ _ _ _ returned
    rfl rfl
  exact ⟨_, result, rfl, ran, adds⟩

end JobPlatform.Runtime
