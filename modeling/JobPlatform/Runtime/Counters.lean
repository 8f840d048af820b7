import JobPlatform.Foundation.Ledger
import JobPlatform.Store.Totals
import JobPlatform.Runtime.Increments

/-!
Contract: the counters of the worker against the jobs table.

Owns:
- `Debt`, a commit whose increment is still to come, and its ledger: every program of the platform
  increments right after the commit, and at no other time;
- `CountedStep`, the steps of runs in which failed transactions rolled back and no process died
  between a commit and its increment;
- the totals of the counters in such runs, and the increments of each claim.
-/

namespace JobPlatform.Runtime

open JobPlatform.Foundation JobPlatform.Foundation.ThreadSystem JobPlatform.Store

/-- A commit that is counted by an increment after it. -/
inductive Debt where
  | acquired
  | success
deriving DecidableEq

/-- The call increments the metric under this value of its `result` label, whatever its other
labels are. -/
def isIncrement (metric : Metric) (result : String) : PlatformCall → Bool
  | .record recorded labels => recorded = metric && labels.getLast? = some result
  | _ => false

/-- What each call commits, and what each increment counts. -/
def counterLedger : Ledger platform Debt where
  incurs
    | .repository (.markJobProcessing ..), .ok (some _) => some .acquired
    | .repository (.completeJobWithReport ..), .ok _ => some .success
    | _, _ => none
  settles call :=
    if isIncrement .workerJobClaims "acquired" call then some .acquired
    else if isIncrement .workerJobsProcessed "success" call then some .success
    else none

/-! ### Every program increments right after its commits -/

section Programs

/-- A repository call other than a claim or a completion. -/
theorem idle_repository {call : RepoCall}
    (quiet : ∀ reply, counterLedger.incurs (.repository call) reply = none) :
    Code.Only counterLedger.Idle (repository call) :=
  Code.only_perform ⟨rfl, quiet⟩

/-- A metric other than the two increments. -/
theorem idle_record {metric : Metric} {labels : List String}
    (other : counterLedger.settles (.record metric labels) = none) :
    Code.Only counterLedger.Idle (record metric labels) :=
  Code.only_perform ⟨other, fun _ => rfl⟩

theorem claimJob_pays (jobId : Uuid) (leaseSeconds : Int) :
    Code.Pays counterLedger none (claimJob jobId leaseSeconds) := by
  unfold claimJob
  apply Code.pays_performBind rfl
  · intro claimed
    cases claimed with
    | some job => exact Code.pays_performBind rfl (fun _ => Code.pays_pure _) fun _ => rfl
    | none =>
        apply Code.pays_of_only
        apply (idle_repository fun _ => rfl).bind
        intro existing
        split
        · apply (idle_record rfl).bind
          intro _
          exact (idle_record rfl).bind fun _ => Code.only_pure _
        · exact (idle_record rfl).bind fun _ => Code.only_pure _
  · exact fun _ => rfl

theorem completeClaimedJob_pays (store : ArtifactStore) (job : Repository.ClaimedJob) :
    Code.Pays counterLedger none (completeClaimedJob store job) := by
  have stored : Code.Only counterLedger.Idle (store.putCsvReport job.id (reportRows job)) :=
    (Code.only_perform ⟨rfl, fun _ => rfl⟩).bind fun _ =>
      (Code.only_perform ⟨rfl, fun _ => rfl⟩).bind fun _ => Code.only_pure _
  unfold completeClaimedJob
  apply Code.Pays.tryCatch
  · apply (Code.pays_of_only stored).bind
    intro returned
    -- the completion commits, and the next call counts it
    apply Code.pays_performBind rfl
    · intro _
      apply Code.pays_performBind rfl
      · exact fun _ => Code.pays_of_only ((idle_record rfl).bind fun _ => Code.only_pure _)
      · exact fun _ => rfl
    · exact fun _ => rfl
  · intro error
    apply Code.pays_of_only
    apply (idle_record rfl).bind
    intro _
    exact (idle_record rfl).bind fun _ => Code.only_throw _

theorem consumeClaimed_pays (store : ArtifactStore) (config : ConsumerConfig) (jobId : Uuid)
    (receiptHandle : ReceiptHandle) (job : Repository.ClaimedJob) :
    Code.Pays counterLedger none (consumeClaimed store config jobId receiptHandle job) := by
  have idle : ∀ {call : PlatformCall}, counterLedger.Idle call →
      Code.Pays counterLedger none (perform call) := fun idle =>
    Code.pays_of_only (Code.only_perform idle)
  unfold consumeClaimed withHeartbeat
  apply Code.Pays.tryCatch
  · apply Code.Pays.bind
    · apply (idle ⟨rfl, fun _ => rfl⟩).bind
      intro thread
      exact (completeClaimedJob_pays store job).finally_ (idle ⟨rfl, fun _ => rfl⟩)
    · intro _
      exact (idle ⟨rfl, fun _ => rfl⟩).bind fun _ => Code.pays_pure _
  · intro error
    cases error with
    | lostJobClaimError => exact Code.pays_pure _
    | _ => exact Code.pays_of_only ((idle_repository fun _ => rfl).bind fun _ => Code.only_pure _)

theorem consumeOneMessage_pays (store : ArtifactStore) (config : ConsumerConfig) :
    Code.Pays counterLedger none (consumeOneMessage store config) := by
  have received : Code.Only counterLedger.Idle receiveJob :=
    receiveJob_only.mono fun call isReceive => isReceive ▸ ⟨rfl, fun _ => rfl⟩
  unfold consumeOneMessage
  apply (Code.pays_of_only (received.tryCatch fun _ => Code.only_pure _)).bind
  intro message
  match message with
  | none => exact Code.pays_pure _
  | some (jobId, receiptHandle) =>
      apply (claimJob_pays jobId config.processingLeaseSeconds).bind
      intro outcome
      match outcome with
      | .claimed job => exact consumeClaimed_pays store config jobId receiptHandle job
      | .status .completed => exact Code.pays_throw _
      | .status .inProgressNotOwned => exact Code.pays_pure _
      | .status .duplicateCompleted =>
          apply Code.pays_of_only
          exact (Code.only_perform ⟨rfl, fun _ => rfl⟩).bind fun _ => Code.only_pure _

theorem processJob_pays (store : ArtifactStore) (jobId : Uuid) (leaseSeconds : Int) :
    Code.Pays counterLedger none (processJob store jobId leaseSeconds) := by
  unfold processJob
  apply (claimJob_pays jobId leaseSeconds).bind
  intro outcome
  cases outcome with
  | status status => exact Code.pays_pure _
  | claimed job =>
      apply (completeClaimedJob_pays store job).tryCatch
      intro error
      cases error with
      | lostJobClaimError => exact Code.pays_throw _
      | _ => exact Code.pays_of_only ((idle_repository fun _ => rfl).bind fun _ => Code.only_throw _)

theorem DispatchCall.idle (call : PlatformCall) (dispatches : DispatchCall call) :
    counterLedger.Idle call := by
  cases dispatches <;> exact ⟨rfl, fun _ => rfl⟩

theorem HeartbeatCall.idle (call : PlatformCall) (beats : HeartbeatCall call) :
    counterLedger.Idle call := by
  cases beats <;> exact ⟨rfl, fun _ => rfl⟩

theorem CreateCall.idle {jobType : String} (call : PlatformCall)
    (creates : ApplicationService.CreateCall jobType call) : counterLedger.Idle call := by
  cases creates <;> exact ⟨rfl, fun _ => rfl⟩

/-- Every program of the platform pays. -/
theorem start_pays {isCloud : Bool} {w after : World} {program : Program platform Unit}
    (started : w.Start isCloud program after) : program.Pays counterLedger none := by
  cases started with
  | createJob jobType payload correlationId =>
      exact (Code.pays_of_only
        ((ApplicationService.createJob_only _ _ _ _).mono CreateCall.idle)).task
  | createCustomer => exact (Code.pays_of_only (idle_repository fun _ => rfl)).task
  | getJob => exact (Code.pays_of_only (idle_repository fun _ => rfl)).task
  | dispatchOutbox limit leaseSeconds =>
      exact (Code.pays_of_only ((dispatchOutbox_only _ _ _).mono DispatchCall.idle)).task
  | consumeOneMessage store config => exact (consumeOneMessage_pays store config).task
  | processJob store jobId leaseSeconds => exact (processJob_pays store jobId leaseSeconds).task
  | @heartbeat index thread _ _ fuel =>
      exact (Code.pays_of_only ((heartbeat_only _ _ _).mono HeartbeatCall.idle)).task

end Programs

/-! ### Runs -/

/-- The log of the platform, read with the ledger. -/
def counterAccounts : Accounts LogEntry ThreadId Debt where
  holder entry := entry.thread
  incurs entry := counterLedger.incurs entry.call entry.reply
  settles entry := counterLedger.settles entry.call

/-- The last call of the thread committed, and the increment for it has not followed. -/
def World.Between (w : World) (t : ThreadId) : Prop := counterAccounts.owes w.log t ≠ none

/-- The total of a counter with this `result`, over all values of its other labels. -/
def World.counter (w : World) (metric : Metric) (result : String) : Nat :=
  w.log.countP fun entry => isIncrement metric result entry.call

/-- A step in which a repository call that raised rolled back, and in which no process dies between
a commit and the increment that follows it. -/
structure CountedStep (isCloud : Bool) (pool next : Pool platform World) : Prop where
  step : (jobPlatform isCloud).Step pool next
  rolledBack : ∀ t call error,
    next.state.log = pool.state.log ++ [⟨t, .repository call, .error error⟩] →
      next.state.db = pool.state.db
  alive : ∀ t, pool.state.Between t → next.threads t ≠ none

/-- The pools such steps lead to. -/
def CountedRun (isCloud : Bool) (pool : Pool platform World) : Prop :=
  Relation.ReflTransGen (CountedStep isCloud) (ThreadSystem.initial World.initial) pool

section Runs

variable {isCloud : Bool} {pool next : Pool platform World}

theorem platform_bookkept (isCloud : Bool) :
    Bookkept (jobPlatform isCloud) counterLedger counterAccounts World.log where
  exec := by
    rintro t w call reply after ⟨done, performed, rfl⟩
    refine ⟨⟨t, call, reply⟩, ?_, rfl, rfl, rfl⟩
    rw [← performed.log_eq]
    rfl
  start := by
    intro t w program after started
    have started : w.Start isCloud program after := started
    refine ⟨?_, start_pays started⟩
    cases started <;> rfl
  env := World.Env.log_eq

/-- The commits in the log that an increment of this kind counts. -/
def World.commits (w : World) (debt : Debt) : Nat :=
  w.log.countP fun entry => counterAccounts.incurs entry = some debt

/-- The commits in the log are the ones the rows show. -/
structure World.Tallied (w : World) : Prop where
  completed : w.db.completedJobs = w.commits .success
  attempts : w.db.totalAttempts = w.commits .acquired

theorem incurs_acquired (call : RepoCall) (value : call.Result) :
    (if counterLedger.incurs (.repository call) (.ok value) = some .acquired then 1 else 0) =
      grants call value := by
  cases call with
  | markJobProcessing => cases value <;> rfl
  | _ => rfl

theorem incurs_success (call : RepoCall) (value : call.Result) :
    (if counterLedger.incurs (.repository call) (.ok value) = some .success then 1 else 0) =
      completions call value := by
  cases call with
  | markJobProcessing => cases value <;> rfl
  | _ => rfl

/-- A call adds a commit to the log and to the rows, or to neither. -/
theorem World.Tallied.perform {w done : World} {t : ThreadId} {call : PlatformCall}
    {reply : platform.Reply call} (tallied : w.Tallied) (performed : w.Perform call reply done)
    (rolledBack : ∀ repoCall error, done.log ++ [⟨t, call, reply⟩] =
      w.log ++ [⟨t, .repository repoCall, .error error⟩] → done.db = w.db) :
    (done.logged t call reply).Tallied := by
  have isLog : (done.logged t call reply).log = w.log ++ [⟨t, call, reply⟩] := by
    rw [← performed.log_eq]
    rfl
  have snoc : ∀ debt, (done.logged t call reply).commits debt =
      w.commits debt + if counterLedger.incurs call reply = some debt then 1 else 0 := by
    intro debt
    unfold World.commits
    rw [isLog, List.countP_append, List.countP_singleton]
    simp only [decide_eq_true_eq]
    rfl
  have quiet : done.db = w.db → (∀ debt, counterLedger.incurs call reply ≠ some debt) →
      (done.logged t call reply).Tallied := by
    intro same none
    constructor
    · rw [snoc, if_neg (none _)]
      change done.db.completedJobs = _
      rw [same]
      exact tallied.completed
    · rw [snoc, if_neg (none _)]
      change done.db.totalAttempts = _
      rw [same]
      exact tallied.attempts
  cases call with
  | repository repoCall =>
      cases reply with
      | ok value =>
          obtain ⟨inputs, _, _, effect⟩ := performed.effect
          constructor
          · rw [snoc, incurs_success, ← tallied.completed]
            exact completedJobs_of_effect effect
          · rw [snoc, incurs_acquired, ← tallied.attempts]
            exact totalAttempts_of_effect effect
      | error error =>
          apply quiet
          · apply rolledBack repoCall error
            rw [performed.log_eq]
          · intro debt
            cases repoCall <;> nofun
  | _ =>
      apply quiet
      · rcases performed.database with same | ⟨_, _, _, isRepository, _⟩
        · exact same
        · cases isRepository
      · exact fun debt => nofun

theorem World.Tallied.step (tallied : pool.state.Tallied) (step : CountedStep isCloud pool next) :
    next.state.Tallied := by
  have rolledBack := step.rolledBack
  cases step.step with
  | start idle started =>
      have started : pool.state.Start isCloud _ _ := started
      cases started <;> exact ⟨tallied.completed, tallied.attempts⟩
  | call running called =>
      obtain ⟨done, performed, rfl⟩ := called
      exact tallied.perform performed fun repoCall error isLog => rolledBack _ repoCall error isLog
  | stop => exact tallied
  | env moved =>
      have moved : pool.state.Env _ := moved
      cases moved <;> exact ⟨tallied.completed, tallied.attempts⟩

/-- Along a run the log is balanced, and its commits are those the rows show. -/
theorem counted_of_run (run : CountedRun isCloud pool) :
    InBalance counterLedger counterAccounts World.log pool ∧ pool.state.Tallied := by
  induction run with
  | refl => exact ⟨inBalance_initial rfl, rfl, rfl⟩
  | tail _ step inductionHypothesis =>
      obtain ⟨balance, tallied⟩ := inductionHypothesis
      exact ⟨balance.step (platform_bookkept isCloud) step.step step.alive, tallied.step step⟩

/-! ### The totals -/

/-- A debt is settled by the increment of its counter. -/
theorem settles_success (w : World) :
    w.counter .workerJobsProcessed "success" =
      w.log.countP fun entry => counterAccounts.settles entry = some .success := by
  apply List.countP_congr
  intro entry _
  obtain ⟨t, call, reply⟩ := entry
  change isIncrement _ _ call = true ↔ decide (counterLedger.settles call = some .success) = true
  cases call with
  | record metric labels => cases metric <;> simp [counterLedger, isIncrement]
  | _ => simp [counterLedger, isIncrement]

theorem settles_acquired (w : World) :
    w.counter .workerJobClaims "acquired" =
      w.log.countP fun entry => counterAccounts.settles entry = some .acquired := by
  apply List.countP_congr
  intro entry _
  obtain ⟨t, call, reply⟩ := entry
  change isIncrement _ _ call = true ↔ decide (counterLedger.settles call = some .acquired) = true
  cases call with
  | record metric labels => cases metric <;> simp [counterLedger, isIncrement]
  | _ => simp [counterLedger, isIncrement]

/-- In every run in which failed transactions rolled back and no process died between a commit and
its increment: where no worker is between the two, the successes counted are the completed jobs
and the claims counted are the attempts. And whatever happens after any state of such a run, what
a worker has done of a program it started there, finished or not, has added at most one to
`worker_jobs_processed_total`, and nothing without a granted claim; when it has finished, a claim
that entered `complete_claimed_job` has added exactly one, a success or a failure by how that
ended, and a claim that did not enter it has added none. -/
theorem success_counts_completions (run : CountedRun isCloud pool) :
    ((∀ t, ¬ pool.state.Between t) →
      pool.state.counter .workerJobsProcessed "success" = pool.state.db.completedJobs ∧
      pool.state.counter .workerJobClaims "acquired" = pool.state.db.totalAttempts) ∧
    (∀ t program exchanges later, ClaimingProgram program → pool.threads t = some program →
      (jobPlatform isCloud).Observed t pool exchanges later →
        (processed exchanges).length ≤ 1 ∧
        ((∀ exchange ∈ exchanges, ∀ jobId job, ¬ Grants jobId job exchange) →
          processed exchanges = []) ∧
        (later.threads t = some (.done ()) → ClaimCount exchanges)) := by
  obtain ⟨balance, tallied⟩ := counted_of_run run
  constructor
  · intro idle
    have clear : ∀ t, counterAccounts.owes pool.state.log t = none := fun t => not_not.mp (idle t)
    constructor
    · rw [settles_success, balance.balanced.settled counterAccounts clear]
      exact tallied.completed.symm
    · rw [settles_acquired, balance.balanced.settled counterAccounts clear]
      exact tallied.attempts.symm
  · intro t program exchanges later isClaiming running observed
    refine ⟨observed_length_le isClaiming running observed,
      observed_uncounted isClaiming running observed, fun ended => ?_⟩
    exact program_counts isClaiming (observed.ended running ended) (observed_returns observed)

/-! ### A run that completes a job -/

/-- One more start. -/
theorem CountedRun.start (run : CountedRun isCloud pool) (t : ThreadId)
    {program : Program platform Unit} {after : World} (idle : pool.threads t = none)
    (started : pool.state.Start isCloud program after) :
    CountedRun isCloud ⟨after, Function.update pool.threads t (some program)⟩ := by
  have kept := (counted_of_run run).1
  refine run.tail ⟨.start idle started, ?_, ?_⟩
  · intro u call error isLog
    have same : after.log = pool.state.log := by cases started <;> rfl
    rw [show after.log = _ from isLog] at same
    simp at same
  · intro u between gone
    dsimp only at gone
    by_cases isStarted : u = t
    · rw [isStarted, Function.update_self] at gone
      cases gone
    · rw [Function.update_of_ne isStarted] at gone
      exact between (kept.stopped u gone)

/-- One more call, that raised only if it rolled back. -/
theorem CountedRun.call (run : CountedRun isCloud pool) (t : ThreadId) {call : PlatformCall}
    {rest : platform.Reply call → Program platform Unit} {reply : platform.Reply call}
    {done : World} (running : pool.threads t = some (.call call rest))
    (performed : pool.state.Perform call reply done) (returned : ∃ value, reply = .ok value) :
    CountedRun isCloud ⟨done.logged t call reply,
      Function.update pool.threads t (some (rest reply))⟩ := by
  have kept := (counted_of_run run).1
  refine run.tail ⟨.call running ⟨done, performed, rfl⟩, ?_, ?_⟩
  · intro u repoCall error isLog
    change done.log ++ _ = _ at isLog
    rw [performed.log_eq, List.append_cancel_left_eq] at isLog
    obtain ⟨value, rfl⟩ := returned
    cases isLog
  · intro u between gone
    dsimp only at gone
    by_cases isCaller : u = t
    · rw [isCaller, Function.update_self] at gone
      cases gone
    · rw [Function.update_of_ne isCaller] at gone
      exact between (kept.stopped u gone)

/-- Where every thread is done, none is between a commit and its increment. -/
theorem CountedRun.settled (run : CountedRun isCloud pool)
    (finished : ∀ t, pool.threads t = none ∨ pool.threads t = some (.done ())) (t : ThreadId) :
    ¬ pool.state.Between t := by
  have kept := (counted_of_run run).1
  intro between
  rcases finished t with stopped | ended
  · exact between (kept.stopped t stopped)
  · exact between (kept.live t _ ended)

/-- One worker completes the one job. -/
theorem success_counts_completions_one : ∃ pool : Pool platform World, CountedRun true pool ∧
    pool.state.db.completedJobs = 1 ∧
    pool.state.counter .workerJobsProcessed "success" = 1 ∧
    pool.state.counter .workerJobClaims "acquired" = 1 := by
  let jobId := (Inputs.numbered 0 0).uuid 0
  have opened : CountedRun true (ThreadSystem.initial World.initial) := .refl
  have created := (CountedRun.start opened 0 rfl
    (.createJob "csv_report" (.obj []) none)).call 0 rfl
      (.answered (show (Inputs.numbered 0 0).Fresh _ by decide) rfl) ⟨_, rfl⟩
  have claimed := (created.start 1 rfl (.processJob ⟨"reports"⟩ jobId 120)).call 1 rfl
    (.answered (show (Inputs.numbered 1 0).Fresh _ by decide) rfl) ⟨_, rfl⟩
  have stored := ((claimed.call 1 rfl .recorded ⟨_, rfl⟩).call 1 rfl
    (.uuid4 (show Uuid.ofInt 3000 ∉ _ by decide)) ⟨_, rfl⟩).call 1 rfl (.stored (.ok ())) ⟨_, rfl⟩
  have completed := stored.call 1 rfl
    (.answered (show (Inputs.numbered 2 0).Fresh _ by decide) rfl) ⟨_, rfl⟩
  have counted := (completed.call 1 rfl .recorded ⟨_, rfl⟩).call 1 rfl .recorded ⟨_, rfl⟩
  have idle := counted.settled fun t => by
    by_cases isWorker : t = 1
    · right
      rw [isWorker]
      rfl
    · by_cases isRequest : t = 0
      · right
        rw [isRequest]
        rfl
      · left
        simp only [Function.update_of_ne isWorker, Function.update_of_ne isRequest]
        rfl
  exact ⟨_, counted, rfl, ((success_counts_completions counted).1 idle).1,
    ((success_counts_completions counted).1 idle).2⟩

end Runs

end JobPlatform.Runtime
