import JobPlatform.Runtime.Batch
import JobPlatform.Runtime.WorkerProcess

/-!
Contract: worker processes that run `run_idle_worker` to its exit, beside the API and the heartbeat
threads.

Owns:
- `fleet`, the thread system of whole worker processes, with their signals;
- `fleet_reachable`: it reaches no state of the platform that the single dispatches, deliveries and
  requests of `jobPlatform` do not reach;
- `exit_strands_nothing`: a worker process that has exited holds no claim.
-/

namespace JobPlatform.Runtime.WorkerProcess

open JobPlatform.Foundation JobPlatform.Foundation.ThreadSystem JobPlatform.Store
open JobPlatform.Store.Repository (ClaimedJob ClaimedEvent jobClaimable eventClaimable)

/-- The platform, and the processes that were told to shut down. -/
structure Fleet where
  world : World
  signalled : List ThreadId

/-- Nothing stored, and no signal. -/
def Fleet.initial : Fleet := ⟨World.initial, []⟩

/-- What a call of a process may do: its work is the platform's, and the flag is what the signals
set. -/
inductive FleetCall (isCloud : Bool) (t : ThreadId) (s : Fleet) :
    (call : workerProcess.Call) → workerProcess.Reply call → Fleet → Prop where
  | hosted {call : PlatformCall} {reply : platform.Reply call} {after : World}
      (called : (jobPlatform isCloud).exec t s.world call reply after) :
      FleetCall isCloud t s (.inl call) reply ⟨after, s.signalled⟩
  | asked : FleetCall isCloud t s (.inr .shutdownRequested) (.ok (decide (t ∈ s.signalled))) s
  | own {call : ProcessCall} (isOther : call ≠ .shutdownRequested)
      (reply : workerProcess.Reply (.inr call)) : FleetCall isCloud t s (.inr call) reply s

/-- What may start: a worker process in the mode of the fleet, and whatever the platform starts. -/
inductive FleetStart (P : Pydantic) (isCloud : Bool) (t : ThreadId) (s : Fleet) :
    Program workerProcess Unit → Fleet → Prop where
  | worker {environment : Environment}
      (mode : ∀ settings, Settings.load P environment = .ok settings → settings.isCloud = isCloud)
      (rounds : Nat) :
      FleetStart P isCloud t s (Code.task (runIdleWorker P environment rounds))
        ⟨s.world, s.signalled.filter (· ≠ t)⟩
  | beside {program : Program platform Unit} {after : World}
      (started : (jobPlatform isCloud).start t s.world program after) :
      FleetStart P isCloud t s program.hosted ⟨after, s.signalled⟩

/-- What happens by itself: what SQS does, and a signal to a process. -/
inductive FleetEnv (isCloud : Bool) (s : Fleet) : Fleet → Prop where
  | moved {after : World} (moved : (jobPlatform isCloud).env s.world after) :
      FleetEnv isCloud s ⟨after, s.signalled⟩
  | signalled (t : ThreadId) : FleetEnv isCloud s ⟨s.world, t :: s.signalled⟩

/-- The worker processes, the API and the heartbeat threads. -/
def fleet (P : Pydantic) (isCloud : Bool) : ThreadSystem workerProcess Fleet where
  exec := FleetCall isCloud
  start := FleetStart P isCloud
  env := FleetEnv isCloud

variable {P : Pydantic} {isCloud : Bool} {environment : Environment} {rounds : Nat} {t : ThreadId}

/-- The fleet hosts the platform. -/
theorem fleet_hosts (P : Pydantic) (isCloud : Bool) :
    Hosting (fleet P isCloud) (jobPlatform isCloud) Fleet.world (WorkerPiece isCloud) where
  hostedCall called := by
    cases called with
    | hosted called => exact called
  ownCall called := by cases called <;> rfl
  start started := by
    cases started with
    | worker mode rounds => exact .inl ⟨(runIdleWorker_serves mode rounds).task, rfl⟩
    | beside started => exact .inr ⟨_, rfl, started⟩
  env moved := by
    cases moved with
    | moved moved => exact .inl moved
    | signalled => exact .inr rfl
  startPiece isPiece t w := by
    cases isPiece with
    | dispatch limit leaseSeconds => exact .dispatchOutbox limit leaseSeconds
    | consume store config => exact .consumeOneMessage store config

/-- The hosted calls of a process, as the platform sees them. -/
def platformCalls (exchanges : List (Exchange workerProcess Fleet)) : List PlatformExchange :=
  exchanges.filterMap (Exchange.inner? Fleet.world)

/-! ### A worker in cloud mode -/

/-- No process was told to shut down. -/
def unsignalled (w : World) : Fleet := ⟨w, []⟩

/-- A call of a process that leaves everything as it is. -/
def idle (s : Fleet) (call : ProcessCall) (reply : workerProcess.Reply (.inr call)) :
    Exchange workerProcess Fleet :=
  ⟨s, .inr call, reply, s⟩

/-- What a process does before its first round. -/
def opening (w : World) : List (Exchange workerProcess Fleet) :=
  [idle (unsignalled w) (.startHttpServer "127.0.0.1" 9464) (.ok ()),
    idle (unsignalled w) (.onSignal "SIGINT") (.ok ()),
    idle (unsignalled w) (.onSignal "SIGTERM") (.ok ()),
    idle (unsignalled w) (.openDatabase (.url "postgresql://worker@database/platform")) (.ok ()),
    idle (unsignalled w) .shutdownRequested (.ok false)]

/-- What a process does once it was told to shut down. -/
def closing (w : World) : List (Exchange workerProcess Fleet) :=
  [idle ⟨w, [1]⟩ .shutdownRequested (.ok true), idle ⟨w, [1]⟩ .closeDatabase (.ok ())]

/-- A worker starts beside the API, which has created a job. -/
theorem plainWorker_starts : ∃ threads,
    threads 1 = some (Code.task (runIdleWorker plainPydantic plainEnvironment 2)) ∧
      (fleet plainPydantic true).Reachable Fleet.initial ⟨unsignalled oneJob, threads⟩ := by
  have drawn : (Inputs.numbered 0 0).Fresh World.initial.drawn := by decide
  have requested := ThreadSystem.Reachable.start (.refl : (fleet plainPydantic true).Reachable
    Fleet.initial _) 0 rfl (.beside (World.Start.createJob "csv_report" (.obj []) none))
  have called : (fleet plainPydantic true).exec 0 Fleet.initial
      (.inl (.repository (.createJob "csv_report" (.obj []) none))) _ (unsignalled oneJob) :=
    .hosted ⟨_, World.Perform.repository drawn [], rfl⟩
  have created := requested.call 0 rfl called
  exact ⟨_, Function.update_self _ _ _, created.start 1 rfl (.worker plainSettings_cloud 2)⟩

/-- What one transaction draws. -/
def drawnFrom (number : Nat) : List Uuid := List.ofFn (Inputs.numbered number 0).uuid

/-- Its calls from there: it publishes the event, completes the job, and is told to shut down. -/
theorem plainWorker_calls : ∃ exchanges : List (Exchange workerProcess Fleet),
    (fleet plainPydantic true).Unbroken (unsignalled oneJob) exchanges ∧
    (∀ exchange ∈ exchanges, (fleet plainPydantic true).Steps 1 exchange) ∧
    exchanges.map Exchange.answer = plainRun.map Exchange.answer ∧
    (∀ exchange ∈ platformCalls exchanges,
      FailureCommits exchange ∧ LossIsFound exchange ∧ FailureMarkReturns exchange) ∧
    (∃ before after, ⟨before, .repository (.claimOutboxEvents 10 120), .ok [plainEvent], after⟩ ∈
      platformCalls exchanges) ∧
    (∃ grant ∈ platformCalls exchanges, Grants plainJob.id plainJob grant) ∧
    ∃ exchange ∈ platformCalls exchanges, exchange.after.db.Completed plainJob.id := by
  have claimed : oneJob.Perform (.repository (.claimOutboxEvents 10 120)) (.ok [plainEvent]) _ :=
    .answered (show (Inputs.numbered 1 0).Fresh _ by decide) rfl
  have tried : (claimed.exchange 1).after.Perform (.record .workerOutboxDispatch ["attempt"])
      (.ok ()) _ := .recorded
  have sent : (tried.exchange 1).after.Perform (.sendMessage (some (Uuid.ofInt 1, Uuid.ofInt 3))
      (jobMessage (Uuid.ofInt 0) .null)) (.ok ()) _ := .sent _
  have marked : (sent.exchange 1).after.Perform (.repository
      (.markOutboxPublished (Uuid.ofInt 1) (Uuid.ofInt 3))) (.ok true) _ :=
    .answered (show (Inputs.numbered 2 0).Fresh ((List.range 2).flatMap drawnFrom) by decide) rfl
  have noted : (marked.exchange 1).after.Perform (.record .workerOutboxDispatch ["success"])
      (.ok ()) _ := .recorded
  have received : (noted.exchange 1).after.Perform .receiveMessage
      (.ok (some ⟨some (jobMessage (Uuid.ofInt 0) .null), 0⟩)) _ :=
    .received (show (⟨0, jobMessage (Uuid.ofInt 0) .null⟩ : Message) ∈ _ from
      List.mem_singleton.mpr rfl)
  have granted : (received.exchange 1).after.Perform
      (.repository (.markJobProcessing (Uuid.ofInt 0) 120)) (.ok (some plainJob)) _ :=
    .answered (show (Inputs.numbered 3 0).Fresh ((List.range 3).flatMap drawnFrom) by decide) rfl
  have counted : (granted.exchange 1).after.Perform (.record .workerJobClaims ["acquired"])
      (.ok ()) _ := .recorded
  have beating : (counted.exchange 1).after.Perform (.startThread plainHeartbeat) (.ok 0) _ :=
    .threadStarted
  have drawn : (beating.exchange 1).after.Perform .uuid4 (.ok (Uuid.ofInt 12)) _ :=
    .uuid4 (show Uuid.ofInt 12 ∉ (List.range 4).flatMap drawnFrom by decide)
  have stored : (drawn.exchange 1).after.Perform (.putObject plainKey (reportRows plainJob))
      (.ok ()) _ := .stored _
  have completed : (stored.exchange 1).after.Perform (.repository (.completeJobWithReport
      (Uuid.ofInt 0) (Uuid.ofInt 9) (reportResult plainKey (reportRows plainJob)) plainKey
      "text/csv")) (.ok ()) _ :=
    .answered (show (Inputs.numbered 5 0).Fresh
      ((List.range 4).flatMap drawnFrom ++ [Uuid.ofInt 12]) by decide) rfl
  have succeeded : (completed.exchange 1).after.Perform
      (.record .workerJobsProcessed ["csv_report", "success"]) (.ok ()) _ := .recorded
  have timed : (succeeded.exchange 1).after.Perform
      (.record .workerJobDuration ["csv_report", "success"]) (.ok ()) _ := .recorded
  have stopped : (timed.exchange 1).after.Perform (.stopThread 0) (.ok ()) _ := .threadStopped
  have deleted : (stopped.exchange 1).after.Perform (.deleteMessage 0) (.ok ()) _ := .deleted _
  let calls : List PlatformExchange := [claimed.exchange 1, tried.exchange 1, sent.exchange 1,
    marked.exchange 1, noted.exchange 1, received.exchange 1, granted.exchange 1, counted.exchange 1,
    beating.exchange 1, drawn.exchange 1, stored.exchange 1, completed.exchange 1,
    succeeded.exchange 1, timed.exchange 1, stopped.exchange 1, deleted.exchange 1]
  let exchanges := opening oneJob ++ calls.map (Exchange.outer unsignalled) ++
    closing (deleted.exchange 1).after
  have isCalls : platformCalls exchanges = calls := rfl
  have hosts {exchange : PlatformExchange} (step : (jobPlatform true).Steps 1 exchange) :
      (fleet plainPydantic true).Steps 1 (exchange.outer unsignalled) := .hosted step
  have owns (s : Fleet) (call : ProcessCall) (isOther : call ≠ .shutdownRequested)
      {reply : workerProcess.Reply (.inr call)} :
      (fleet plainPydantic true).Steps 1 (idle s call reply) := .own isOther reply
  refine ⟨exchanges, ?_, ?_, rfl, ?_, ?_, ?_, ?_⟩
  · exact ⟨.inl rfl, .inl rfl, .inl rfl, .inl rfl, .inl rfl, .inl rfl, .inl rfl, .inl rfl, .inl rfl,
      .inl rfl, .inl rfl, .inl rfl, .inl rfl, .inl rfl, .inl rfl, .inl rfl, .inl rfl, .inl rfl,
      .inl rfl, .inl rfl, .inl rfl, .inr (.signalled 1), .inl rfl, trivial⟩
  · simp only [exchanges, opening, calls, closing, List.map, List.cons_append, List.nil_append,
      List.forall_mem_cons]
    exact ⟨owns _ (.startHttpServer ..) (by simp), owns _ (.onSignal _) (by simp),
      owns _ (.onSignal _) (by simp), owns _ (.openDatabase _) (by simp), .asked,
      hosts (claimed.steps _ _), hosts (tried.steps _ _), hosts (sent.steps _ _),
      hosts (marked.steps _ _), hosts (noted.steps _ _), hosts (received.steps _ _),
      hosts (granted.steps _ _), hosts (counted.steps _ _), hosts (beating.steps _ _),
      hosts (drawn.steps _ _), hosts (stored.steps _ _), hosts (completed.steps _ _),
      hosts (succeeded.steps _ _), hosts (timed.steps _ _), hosts (stopped.steps _ _),
      hosts (deleted.steps _ _), .asked, owns _ .closeDatabase (by simp), List.forall_mem_nil _⟩
  · rw [isCalls]
    simp only [calls, List.forall_mem_cons]
    refine ⟨?_, ?_, ?_, ?_, ?_, ?_, ?_, ?_, ?_, ?_, ?_, ?_, ?_, ?_, ?_, ?_, List.forall_mem_nil _⟩
    all_goals exact ⟨trivial, trivial, trivial⟩
  · exact ⟨_, _, List.mem_cons_self⟩
  · exact ⟨granted.exchange 1, by simp [isCalls, calls], _, _, _, rfl⟩
  · exact ⟨completed.exchange 1, by simp [isCalls, calls], _, rfl, rfl⟩

theorem plainWorker_runs : ∃ (first last : Pool workerProcess Fleet)
    (exchanges : List (Exchange workerProcess Fleet)),
    (fleet plainPydantic true).Reachable Fleet.initial first ∧
    (fleet plainPydantic true).CompleteRun 1 (Code.task (runIdleWorker plainPydantic plainEnvironment 2))
      first last exchanges ∧
    (∀ exchange ∈ platformCalls exchanges,
      FailureCommits exchange ∧ LossIsFound exchange ∧ FailureMarkReturns exchange) ∧
    (∃ before after, ⟨before, .repository (.claimOutboxEvents 10 120), .ok [plainEvent], after⟩ ∈
      platformCalls exchanges) ∧
    (∃ grant ∈ platformCalls exchanges, Grants plainJob.id plainJob grant) ∧
    last.state.world.db.Completed plainJob.id := by
  obtain ⟨threads, started, reached⟩ := plainWorker_starts
  obtain ⟨exchanges, unbroken, steps, same, records, claims, grants, completion, member, completed⟩ :=
    plainWorker_calls
  have running : (Pool.mk (unsignalled oneJob) threads).threads 1 = some _ := started
  have task : Transcript (Code.task (runIdleWorker plainPydantic plainEnvironment 2)) plainRun () := by
    rw [← List.append_nil plainRun]
    exact transcript_plainRun.bind .done
  obtain ⟨last, run⟩ := completeRun_of_transcript (task.between same) running unbroken steps
  obtain ⟨_, ends⟩ := (fleet_hosts plainPydantic true).pairwise
    (P := fun w => w.db.Completed plainJob.id) completed_step run
  exact ⟨_, last, exchanges, reached, run, records, claims, grants, ends completion member completed⟩

/-! ### The fleet and the platform -/

/-- Every state that whole worker processes lead to is a state of the platform. -/
theorem fleet_reachable {pool : Pool workerProcess Fleet}
    (reached : (fleet P isCloud).Reachable Fleet.initial pool) :
    ∃ threads, (jobPlatform isCloud).Reachable World.initial ⟨pool.state.world, threads⟩ := by
  obtain ⟨inner, reachedInner, stands⟩ := reachable_of_hosting (fleet_hosts P isCloud) reached
  exact ⟨inner.threads, stands.state ▸ reachedInner⟩

/-- After a worker has published an event, completed its job and exited. -/
theorem fleet_reachable_served : ∃ (w : World) (threads : ThreadId → Option (Program platform Unit)),
    w.db.Completed plainJob.id ∧ (jobPlatform true).Reachable World.initial ⟨w, threads⟩ := by
  obtain ⟨first, last, exchanges, reached, run, _, _, _, completed⟩ := plainWorker_runs
  obtain ⟨threads, reachedInner⟩ := fleet_reachable (run.watched.reachable reached)
  exact ⟨_, threads, completed, reachedInner⟩

/-- What every step of the platform keeps, every later state of the fleet has. -/
theorem fleet_keeps {Q : World → Prop}
    (keeps : ∀ {before after : Pool platform World}, (jobPlatform isCloud).Step before after →
      Q before.state → Q after.state) {pool later : Pool workerProcess Fleet}
    (steps : Relation.ReflTransGen (fleet P isCloud).Step pool later)
    (holds : Q pool.state.world) : Q later.state.world := by
  induction steps with
  | refl => exact holds
  | tail _ step inductionHypothesis => exact (fleet_hosts P isCloud).keeps keeps step inductionHypothesis

/-- A row that is free of the issued tokens shows none of them. -/
theorem clear_of_held {w : World} {jobId : Uuid} {issued : List Uuid} {token : Uuid} {row : JobRow}
    (held : w.Held jobId issued []) (found : w.db.job? jobId = some row) (drawn : token ∈ issued) :
    row.processingToken ≠ some token := by
  intro isToken
  obtain ⟨other, isOther, _, tokens⟩ := held.row
  rw [found] at isOther
  cases isOther
  exact List.not_mem_nil (tokens _ drawn isToken)

theorem clear_of_eventHeld {w : World} {eventId : Uuid} {issued : List Uuid} {token : Uuid}
    {row : OutboxRow} (held : w.EventHeld eventId issued [])
    (found : w.db.event? eventId = some row) (drawn : token ∈ issued) :
    row.claimToken ≠ some token := by
  intro isToken
  obtain ⟨other, isOther, _, tokens⟩ := held.row
  rw [found] at isOther
  cases isOther
  exact List.not_mem_nil (tokens _ drawn isToken)

/-! ### The exit of a worker process -/

/-- A worker process from its start to its exit, in which the calls that record a failure did so. -/
structure ExitedRun (P : Pydantic) (isCloud : Bool) (environment : Environment) (rounds : Nat)
    (t : ThreadId) (first last : Pool workerProcess Fleet)
    (exchanges : List (Exchange workerProcess Fleet)) : Prop where
  reached : (fleet P isCloud).Reachable Fleet.initial first
  mode : ∀ settings, Settings.load P environment = .ok settings → settings.isCloud = isCloud
  run : (fleet P isCloud).CompleteRun t (Code.task (runIdleWorker P environment rounds)) first last
    exchanges
  commits : ∀ exchange ∈ platformCalls exchanges, FailureCommits exchange
  found : ∀ exchange ∈ platformCalls exchanges, LossIsFound exchange
  returns : ∀ exchange ∈ platformCalls exchanges, FailureMarkReturns exchange

section Exit

variable {first last later : Pool workerProcess Fleet}
  {exchanges : List (Exchange workerProcess Fleet)}

/-- A call of a process belongs to one of its pieces. -/
theorem ExitedRun.piece (exited : ExitedRun P isCloud environment rounds t first last exchanges)
    {exchange : PlatformExchange} (member : exchange ∈ platformCalls exchanges) :
    ∃ (program : Program platform Unit) (segment : List PlatformExchange),
      WorkerPiece isCloud program ∧ Transcript program segment () ∧ exchange ∈ segment ∧
        segment.Sublist (platformCalls exchanges) := by
  obtain ⟨pieces, isCalls, each⟩ :
      ∃ pieces : List (Program platform Unit × List PlatformExchange),
        platformCalls exchanges = pieces.flatMap Prod.snd ∧ _ :=
    served_of_transcript (runIdleWorker_serves exited.mode rounds).task exited.run.ran
  rw [isCalls] at member ⊢
  obtain ⟨part, isPart, inside⟩ := List.mem_flatMap.mp member
  obtain ⟨isPiece, ran⟩ := each part isPart
  refine ⟨part.1, part.2, isPiece, ran, inside, ?_⟩
  rw [List.flatMap_def]
  exact List.sublist_flatten_of_mem (List.mem_map_of_mem isPart)

/-- The calls are steps of the platform, in sound states. -/
theorem ExitedRun.steps (exited : ExitedRun P isCloud environment rounds t first last exchanges) :
    ∀ exchange ∈ platformCalls exchanges, (jobPlatform isCloud).Steps t exchange ∧
      exchange.before.Sound := by
  intro exchange member
  obtain ⟨step, pool, reached, isState⟩ :=
    (fleet_hosts P isCloud).steps exited.reached exited.run exchange member
  exact ⟨step, isState ▸ sound_of_reachable reached⟩

/-- A granted claim is released by the exit. -/
theorem ExitedRun.releases_job
    (exited : ExitedRun P isCloud environment rounds t first last exchanges)
    {grant : PlatformExchange} (member : grant ∈ platformCalls exchanges) {job : ClaimedJob}
    (grants : Grants job.id job grant) :
    last.state.world.Held job.id grant.after.drawn [] := by
  obtain ⟨program, segment, isPiece, ran, inside, within⟩ := exited.piece member
  have steps : ∀ exchange ∈ segment, (jobPlatform isCloud).Steps t exchange ∧
      exchange.before.Sound := fun exchange isCall => exited.steps exchange (within.subset isCall)
  obtain ⟨ordered, ends⟩ := (fleet_hosts P isCloud).pairwise
    (P := fun w => w.Held job.id grant.after.drawn [job.processingToken]) held_step exited.run
  have heldAtGrant := (held_of_grant (exited.steps grant member).1 grants).2.2
  cases isPiece with
  | dispatch limit leaseSeconds =>
      obtain ⟨before, leaseSeconds, after, rfl⟩ := grants
      cases ran.only (dispatchOutbox_only _ _ _).task _ inside
  | consume store config =>
      obtain ⟨earlier, later, rfl, releases⟩ := program_releases grant.after.drawn
        (.consumeOneMessage store config) ran (fun exchange isCall => (steps exchange isCall).1)
        inside grants
      have heldLater : ∀ exchange ∈ later,
          exchange.before.Held job.id grant.after.drawn [job.processingToken] := by
        intro exchange isLater
        have parts := List.pairwise_append.mp (ordered.sublist within)
        exact (List.pairwise_cons.mp parts.2.1).1 exchange isLater heldAtGrant
      obtain ⟨release, isLater, held⟩ := releases fun exchange isLater => by
        have inside : exchange ∈ earlier ++ grant :: later := by simp [isLater]
        exact ⟨(steps exchange inside).1, (steps exchange inside).2, heldLater exchange isLater,
          exited.commits exchange (within.subset inside), exited.found exchange (within.subset inside)⟩
      have released := (fleet_hosts P isCloud).pairwise
        (P := fun w => w.Held job.id grant.after.drawn []) held_step exited.run
      exact released.2 release (within.subset (by simp [isLater])) held

/-- Every element on the left of two related lists has one on the right. -/
theorem right_of_left {α β : Type} {R : α → β → Prop} {left : List α} {right : List β}
    (related : List.Forall₂ R left right) {a : α} (member : a ∈ left) :
    ∃ b ∈ right, R a b := by
  induction related with
  | nil => cases member
  | @cons head other tail others holds _ inductionHypothesis =>
      rcases List.mem_cons.mp member with rfl | isLater
      · exact ⟨other, List.mem_cons_self, holds⟩
      · obtain ⟨b, isRight, holds⟩ := inductionHypothesis isLater
        exact ⟨b, List.mem_cons_of_mem _ isRight, holds⟩

/-- An event that a claim returned is released by the exit. -/
theorem ExitedRun.releases_event
    (exited : ExitedRun P isCloud environment rounds t first last exchanges)
    {limit leaseSeconds : Int} {before after : World} {events : List ClaimedEvent}
    (member : ⟨before, .repository (.claimOutboxEvents limit leaseSeconds), .ok events, after⟩ ∈
      platformCalls exchanges) {event : ClaimedEvent} (inBatch : event ∈ events) :
    last.state.world.EventHeld event.id after.drawn [] := by
  obtain ⟨program, segment, isPiece, ran, inside, within⟩ := exited.piece member
  cases isPiece with
  | consume store config =>
      have isDelivery := ran.only (consumeOneMessage_only store config).task _ inside
      cases isDelivery
  | dispatch limit' leaseSeconds' =>
      obtain ⟨result, dispatching⟩ := transcript_task ran
      rcases transcript_performBind dispatching with
        ⟨before', claimed, after', rest, rfl, looped⟩ | ⟨before', error, after', rfl, _⟩
      · have kept (exchange : PlatformExchange) (isCall : exchange ∈ rest) :
            exchange ∈ platformCalls exchanges := within.subset (.tail _ isCall)
        have inLoop : Code.Only (fun call => ∀ limit leaseSeconds,
            call ≠ PlatformCall.repository (.claimOutboxEvents limit leaseSeconds))
            (Code.forEach claimed 0 (dispatchEvent (createJobPublisher isCloud true))) := by
          apply Code.only_forEach
          intro event _ dispatched
          refine (dispatchEvent_marksOnly dispatched).mono fun call marks => ?_
          rintro limit leaseSeconds rfl
          exact marks
        have isFirst := (List.mem_cons.mp inside).resolve_right fun isLater =>
          looped.only inLoop _ isLater _ _ rfl
        cases isFirst
        obtain ⟨_, _, _, held⟩ := batch_of_claim (exited.steps _ member).1
        obtain ⟨segments, rfl, dispatched, _⟩ := forEach_segments looped
          (fun exchange isCall => (exited.steps exchange (kept exchange isCall)).1)
          (fun exchange isCall => exited.returns exchange (kept exchange isCall))
        obtain ⟨part, isPart, own⟩ := right_of_left dispatched inBatch
        have inRest (exchange : PlatformExchange) (isCall : exchange ∈ part) :
            exchange ∈ segments.flatten := List.mem_flatten.mpr ⟨part, isPart, isCall⟩
        obtain ⟨ordered, _⟩ := (fleet_hosts P isCloud).pairwise
          (P := fun w => w.EventHeld event.id after.drawn [event.claimToken]) eventHeld_step
          exited.run
        have heldLater := (List.pairwise_cons.mp (ordered.sublist within)).1
        have claims : ∀ exchange ∈ part,
            UnderEventClaim isCloud t event after.drawn exchange := by
          intro exchange isCall
          have step := exited.steps exchange (kept exchange (inRest exchange isCall))
          exact ⟨step.1, step.2.consistent.shape,
            heldLater exchange (inRest exchange isCall) (held event inBatch)⟩
        obtain ⟨release, isCall, released⟩ := own.attempt.releases claims fun exchange isCall =>
          exited.returns exchange (kept exchange (inRest exchange isCall))
        obtain ⟨_, ends⟩ := (fleet_hosts P isCloud).pairwise
          (P := fun w => w.EventHeld event.id after.drawn []) eventHeld_step exited.run
        exact ends release (kept release (inRest release isCall)) released
      · cases List.mem_singleton.mp inside

/-- A worker process that has run from its environment to its exit, by whatever exit, beside other
worker processes, heartbeat threads and the API, provided the calls that record a failure did so:
from then on, in every later state, no job is under the token of a claim that the process was
granted, and no outbox event under the token of a claim that it made. Each such job is completed,
has failed and can be claimed at once, or is held under a token drawn after the grant; each such
event is published, has failed and can be claimed at once, or is left to a newer claim. -/
theorem exit_strands_nothing
    (exited : ExitedRun P isCloud environment rounds t first last exchanges)
    (steps : Relation.ReflTransGen (fleet P isCloud).Step last later) :
    (∀ grant ∈ platformCalls exchanges, ∀ jobId job, Grants jobId job grant →
      ∃ row, later.state.world.db.job? jobId = some row ∧
        row.processingToken ≠ some job.processingToken ∧
        (row.status = .completed ∨
          (row.status = .failed ∧ ∀ leaseSeconds now, (jobClaimable leaseSeconds now row).Holds) ∨
          row.status = .processing ∧
            ∃ newer ∉ grant.after.drawn, row.processingToken = some newer)) ∧
    (∀ before limit leaseSeconds events after,
      ⟨before, .repository (.claimOutboxEvents limit leaseSeconds), .ok events, after⟩ ∈
          platformCalls exchanges → ∀ event ∈ events,
      ∃ row, later.state.world.db.event? event.id = some row ∧
        row.claimToken ≠ some event.claimToken ∧
        (row.status = .published ∨
          (row.status = .failed ∧ ∀ leaseSeconds now, (eventClaimable leaseSeconds now row).Holds) ∨
          row.status = .publishing ∧ ∃ newer ∉ after.drawn, row.claimToken = some newer)) := by
  have shape : later.state.world.db.Shape := by
    obtain ⟨threads, reached⟩ :=
      fleet_reachable ((exited.run.watched.reachable exited.reached).trans steps)
    exact (sound_of_reachable reached).consistent.shape
  constructor
  · intro grant member jobId job grants
    obtain ⟨rfl, drawn, _⟩ := held_of_grant (exited.steps grant member).1 grants
    have held := fleet_keeps (Q := fun w => w.Held job.id grant.after.drawn []) held_step steps
      (exited.releases_job member grants)
    obtain ⟨row, found, disposition⟩ := held.disposition shape
    exact ⟨row, found, clear_of_held held found drawn, disposition⟩
  · intro before limit leaseSeconds events after member event inBatch
    obtain ⟨_, ⟨claimToken, drawn, token⟩, _⟩ := batch_of_claim (exited.steps _ member).1
    have held := fleet_keeps (Q := fun w => w.EventHeld event.id after.drawn []) eventHeld_step
      steps (exited.releases_event member inBatch)
    obtain ⟨row, found, disposition⟩ := held.disposition shape
    refine ⟨row, found, clear_of_eventHeld held found ?_, disposition⟩
    rw [token event inBatch]
    exact drawn

/-- A worker that has published an event and completed its job holds neither after its exit. -/
theorem exit_strands_nothing_served : ∃ (last : Pool workerProcess Fleet) (event : OutboxRow)
    (job : JobRow), last.state.world.db.event? plainEvent.id = some event ∧
      event.claimToken ≠ some plainEvent.claimToken ∧
      last.state.world.db.job? plainJob.id = some job ∧
      job.processingToken ≠ some plainJob.processingToken := by
  obtain ⟨first, last, exchanges, reached, run, records, ⟨before, after, claim⟩, ⟨grant, isCall, grants⟩,
    _⟩ := plainWorker_runs
  have exited : ExitedRun plainPydantic true plainEnvironment 2 1 first last exchanges :=
    ⟨reached, plainSettings_cloud, run, fun exchange member => (records exchange member).1,
      fun exchange member => (records exchange member).2.1,
      fun exchange member => (records exchange member).2.2⟩
  obtain ⟨jobs, events⟩ := exit_strands_nothing exited .refl
  obtain ⟨job, isJob, noJob, _⟩ := jobs grant isCall plainJob.id plainJob grants
  obtain ⟨event, isEvent, noEvent, _⟩ :=
    events before 10 120 [plainEvent] after claim plainEvent (by simp)
  exact ⟨last, event, job, isEvent, noEvent, isJob, noJob⟩

end Exit

end JobPlatform.Runtime.WorkerProcess
