import JobPlatform.Runtime.Release

/-!
Contract: what one claim adds to `worker_jobs_processed_total`.

Owns:
- `processed`, the labels of the increments a thread made;
- one increment for every run of `complete_claimed_job`, labelled by how it ended;
- `ClaimCount`, the increments of a whole run of a worker program: one for a claim that enters
  `complete_claimed_job`, none for any other;
- at most one increment in a run that was cut short.
-/

namespace JobPlatform.Runtime

open JobPlatform.Foundation JobPlatform.Foundation.ThreadSystem JobPlatform.Store
open JobPlatform.Store.Repository (ClaimedJob)

/-- The labels of each increment of `worker_jobs_processed_total`, in order. -/
def processed (exchanges : List PlatformExchange) : List (List String) :=
  exchanges.filterMap fun
    | ⟨_, .record .workerJobsProcessed labels, _, _⟩ => some labels
    | _ => none

/-- The `result` label a run of `complete_claimed_job` is counted under. -/
def verdict : Except Exn JobProcessStatus → String
  | .ok _ => "success"
  | .error _ => "failure"

/-- Recording a metric returned. -/
def RecordReturns : PlatformExchange → Prop
  | ⟨_, .record _ _, reply, _⟩ => reply = .ok ()
  | _ => True

/-- The call does not increment `worker_jobs_processed_total`. -/
def Uncounted (call : PlatformCall) : Prop := ∀ labels, call ≠ .record .workerJobsProcessed labels

section Counts

variable {α : Type} {exchanges : List PlatformExchange}

@[simp] theorem processed_nil : processed [] = [] := rfl

@[simp] theorem processed_append (first rest : List PlatformExchange) :
    processed (first ++ rest) = processed first ++ processed rest :=
  List.filterMap_append

theorem repository_uncounted (call : RepoCall) : Uncounted (.repository call) := fun _ => nofun

theorem processed_cons_of_uncounted {exchange : PlatformExchange}
    (uncounted : Uncounted exchange.call) (rest : List PlatformExchange) :
    processed (exchange :: rest) = processed rest := by
  obtain ⟨before, call, reply, after⟩ := exchange
  cases call with
  | record metric labels =>
      cases metric with
      | workerJobsProcessed => exact absurd rfl (uncounted labels)
      | _ => rfl
  | _ => rfl

theorem processed_eq_nil (uncounted : ∀ exchange ∈ exchanges, Uncounted exchange.call) :
    processed exchanges = [] := by
  induction exchanges with
  | nil => rfl
  | cons exchange rest inductionHypothesis =>
      rw [processed_cons_of_uncounted (uncounted exchange List.mem_cons_self)]
      apply inductionHypothesis
      exact fun other member => uncounted other (List.mem_cons_of_mem _ member)

theorem processed_of_only {program : Program platform α} {value : α}
    (ran : Transcript program exchanges value) (only : program.Only Uncounted) :
    processed exchanges = [] :=
  processed_eq_nil (ran.only only)

/-- A recorded metric, and the run that follows it. -/
theorem recorded_then {metric : Metric} {labels : List String} {next : Run α}
    {result : Except Exn α}
    (ran : Transcript (record metric labels >>= fun _ => next).run exchanges result)
    (returns : ∀ exchange ∈ exchanges, RecordReturns exchange) :
    ∃ before after rest, exchanges = ⟨before, .record metric labels, .ok (), after⟩ :: rest ∧
      Transcript next.run rest result := by
  rcases transcript_performBind ran with
    ⟨before, value, after, rest, rfl, continued⟩ | ⟨before, error, after, rfl, _⟩
  · exact ⟨before, after, rest, rfl, continued⟩
  · cases returns _ List.mem_cons_self

end Counts

/-! ### The processing of a claimed job -/

section Completion

variable {store : ArtifactStore} {job : ClaimedJob} {exchanges : List PlatformExchange}

theorem putCsvReport_uncounted (jobId : Uuid) (rows : ReportRows) :
    Code.Only Uncounted (store.putCsvReport jobId rows) := by
  unfold ArtifactStore.putCsvReport
  apply (Code.only_perform fun _ => nofun).bind
  intro reportId
  apply (Code.only_perform fun _ => nofun).bind
  intro stored
  trivial

/-- The two metrics `complete_claimed_job` records before its end. -/
theorem pair_then {result : Except Exn JobProcessStatus} {label : String}
    {last : Run JobProcessStatus}
    (ran : Transcript (record .workerJobsProcessed [job.jobType, label] >>= fun _ =>
      record .workerJobDuration [job.jobType, label] >>= fun _ => last).run exchanges result)
    (returns : ∀ exchange ∈ exchanges, RecordReturns exchange) :
    ∃ recorded rest, exchanges = recorded ++ rest ∧ processed recorded = [[job.jobType, label]] ∧
      Transcript last.run rest result := by
  obtain ⟨_, _, rest, rfl, continued⟩ := recorded_then ran returns
  obtain ⟨_, _, later, rfl, ended⟩ := recorded_then continued
    fun exchange member => returns exchange (List.mem_cons_of_mem _ member)
  exact ⟨[_, _], later, rfl, rfl, ended⟩

/-- The body of the `try` counts a success at its end; if it raises, it has counted nothing. -/
theorem completionBody_counts {result : Except Exn JobProcessStatus}
    (ran : Transcript (store.putCsvReport job.id (reportRows job) >>= fun stored =>
      repository (.completeJobWithReport job.id job.processingToken
        (reportResult stored.1 (reportRows job)) stored.1 stored.2) >>= fun _ =>
      record .workerJobsProcessed [job.jobType, "success"] >>= fun _ =>
      record .workerJobDuration [job.jobType, "success"] >>= fun _ =>
      (pure .completed : Run JobProcessStatus)).run exchanges result)
    (returns : ∀ exchange ∈ exchanges, RecordReturns exchange) :
    processed exchanges = [[job.jobType, "success"]] ∧ result = .ok .completed ∨
      processed exchanges = [] ∧ ∃ error, result = .error error := by
  rcases transcript_codeBind ran with ⟨putting, stored, rest, rfl, put, continued⟩ | ⟨error, rfl, put⟩
  · have uncounted := processed_of_only put (putCsvReport_uncounted _ _)
    rcases transcript_performBind continued with
      ⟨_, _, _, later, rfl, recording⟩ | ⟨_, error, _, rfl, rfl⟩
    · obtain ⟨recorded, nothing, rfl, counted, ended⟩ := pair_then recording
        fun exchange member => returns exchange
          (List.mem_append_right _ (List.mem_cons_of_mem _ member))
      obtain ⟨rfl, rfl⟩ := transcript_pure ended
      left
      rw [processed_append, uncounted, processed_cons_of_uncounted (repository_uncounted _),
        List.append_nil, counted]
      exact ⟨rfl, rfl⟩
    · right
      rw [processed_append, uncounted]
      exact ⟨rfl, error, rfl⟩
  · exact .inr ⟨processed_of_only put (putCsvReport_uncounted _ _), error, rfl⟩

/-- A run of `complete_claimed_job` adds exactly one, under the label of its end. -/
theorem completeClaimedJob_counts {result : Except Exn JobProcessStatus}
    (ran : Transcript (completeClaimedJob store job).run exchanges result)
    (returns : ∀ exchange ∈ exchanges, RecordReturns exchange) :
    processed exchanges = [[job.jobType, verdict result]] := by
  unfold completeClaimedJob at ran
  rcases transcript_tryCatch ran with
    ⟨value, rfl, body⟩ | ⟨body, error, rest, rfl, bodyRan, handled⟩
  · rcases completionBody_counts body returns with ⟨counted, _⟩ | ⟨_, _, isError⟩
    · exact counted
    · cases isError
  · rcases completionBody_counts bodyRan
        fun exchange member => returns exchange (List.mem_append_left _ member) with
      ⟨_, isOk⟩ | ⟨uncounted, _⟩
    · cases isOk
    · obtain ⟨recorded, nothing, rfl, counted, ended⟩ := pair_then handled
        fun exchange member => returns exchange (List.mem_append_right _ member)
      obtain ⟨rfl, rfl⟩ := transcript_throw ended
      rw [processed_append, uncounted, List.append_nil, counted]
      rfl

end Completion

/-! ### A whole run of a worker program -/

/-- The run enters `complete_claimed_job` for the job once, and adds one increment there and none
elsewhere. -/
def Enters (store : ArtifactStore) (job : ClaimedJob) (exchanges : List PlatformExchange) : Prop :=
  ∃ before own after result, exchanges = before ++ (own ++ after) ∧
    Transcript (completeClaimedJob store job).run own result ∧
    processed own = [[job.jobType, verdict result]] ∧ processed before = [] ∧ processed after = []

/-- The heartbeat of the claim could not be started, so `complete_claimed_job` was not called. -/
def NotEntered (exchanges : List PlatformExchange) : Prop :=
  (∃ before heartbeat error after, ⟨before, .startThread heartbeat, .error error, after⟩ ∈ exchanges) ∧
    processed exchanges = []

/-- The increments of a run of a worker program: none if no claim was granted or its processing
was not entered, else one, in the run of `complete_claimed_job` for the claim that was granted. -/
inductive ClaimCount (exchanges : List PlatformExchange) : Prop where
  | refused (unclaimed : ∀ exchange ∈ exchanges, ∀ jobId job, ¬ Grants jobId job exchange)
      (uncounted : processed exchanges = [])
  | notEntered (missed : NotEntered exchanges)
  | entered {store : ArtifactStore} {jobId : Uuid} {job : ClaimedJob} {grant : PlatformExchange}
      {first rest : List PlatformExchange} (isRun : exchanges = first ++ rest)
      (member : grant ∈ first) (grants : Grants jobId job grant)
      (uncounted : processed first = []) (enters : Enters store job rest)

section Runs

variable {store : ArtifactStore} {job : ClaimedJob} {first rest exchanges : List PlatformExchange}

theorem Enters.append (enters : Enters store job first) (uncounted : processed rest = []) :
    Enters store job (first ++ rest) := by
  obtain ⟨before, own, after, result, rfl, ran, counted, earlier, later⟩ := enters
  refine ⟨before, own, after ++ rest, result, by simp, ran, counted, earlier, ?_⟩
  rw [processed_append, later, uncounted]
  rfl

theorem NotEntered.append (missed : NotEntered first) (uncounted : processed rest = []) :
    NotEntered (first ++ rest) := by
  obtain ⟨⟨before, heartbeat, error, after, member⟩, none⟩ := missed
  refine ⟨⟨before, heartbeat, error, after, List.mem_append_left _ member⟩, ?_⟩
  rw [processed_append, none, uncounted]
  rfl

/-- A run adds at most one. -/
theorem ClaimCount.length_le (count : ClaimCount exchanges) : (processed exchanges).length ≤ 1 := by
  cases count with
  | refused _ uncounted => simp [uncounted]
  | notEntered missed => simp [missed.2]
  | entered isRun _ _ uncounted enters =>
      obtain ⟨before, own, after, result, rfl, _, counted, earlier, later⟩ := enters
      simp [isRun, uncounted, counted, earlier, later]

/-- Without a grant nothing is added. -/
theorem ClaimCount.uncounted (count : ClaimCount exchanges)
    (unclaimed : ∀ exchange ∈ exchanges, ∀ jobId job, ¬ Grants jobId job exchange) :
    processed exchanges = [] := by
  cases count with
  | refused _ uncounted => exact uncounted
  | notEntered missed => exact missed.2
  | entered isRun member grants =>
      rw [isRun] at unclaimed
      exact absurd grants (unclaimed _ (List.mem_append_left _ member) _ _)

/-- The part of `claim_job` after a refusal. -/
def refuseClaim (jobId : Uuid) : Run ClaimOutcome := do
  let existing ← repository (.getJob jobId)
  if existing.job.status = .completed then
    record .workerDuplicateJobs ["completed"]
    record .workerJobClaims ["duplicate_completed"]
    return .status .duplicateCompleted
  else
    record .workerJobClaims ["in_progress_not_owned"]
    return .status .inProgressNotOwned

theorem refuseClaim_only {Q : PlatformCall → Prop} {jobId : Uuid}
    (lookup : Q (.repository (.getJob jobId)))
    (recorded : ∀ metric labels, metric ≠ .workerJobsProcessed → Q (.record metric labels)) :
    Code.Only Q (refuseClaim jobId) := by
  have ended : ∀ {metric labels status}, metric ≠ .workerJobsProcessed → Code.Only Q
      (record metric labels >>= fun _ => (pure (.status status) : Run ClaimOutcome)) :=
    fun other => (Code.only_perform (recorded _ _ other)).bind fun _ => Code.only_pure _
  unfold refuseClaim
  apply (Code.only_perform lookup).bind
  intro existing
  split
  · apply (Code.only_perform (recorded .workerDuplicateJobs ["completed"] nofun)).bind
    exact fun _ => ended nofun
  · exact ended nofun

/-- A refusal ends in a status. -/
theorem refuseClaim_status {jobId : Uuid} {outcome : ClaimOutcome}
    (ran : Transcript (refuseClaim jobId).run exchanges (.ok outcome)) :
    ∃ status, outcome = .status status := by
  rcases transcript_codeBind ran with ⟨_, existing, _, _, _, continued⟩ | ⟨_, isError, _⟩
  · split at continued
    · rcases transcript_codeBind continued with ⟨_, _, _, _, _, continued⟩ | ⟨_, isError, _⟩
      · rcases transcript_codeBind continued with ⟨_, _, _, _, _, ended⟩ | ⟨_, isError, _⟩
        · cases (transcript_pure ended).2
          exact ⟨_, rfl⟩
        · cases isError
      · cases isError
    · rcases transcript_codeBind continued with ⟨_, _, _, _, _, ended⟩ | ⟨_, isError, _⟩
      · cases (transcript_pure ended).2
        exact ⟨_, rfl⟩
      · cases isError
  · cases isError

/-- `claim_job` returns the claim it was granted, or was granted none. -/
theorem claimJob_grants {jobId : Uuid} {leaseSeconds : Int} {result : Except Exn ClaimOutcome}
    (ran : Transcript (claimJob jobId leaseSeconds).run exchanges result)
    (returns : ∀ exchange ∈ exchanges, RecordReturns exchange) :
    processed exchanges = [] ∧
    ((∃ job grant, result = .ok (.claimed job) ∧ grant ∈ exchanges ∧ Grants jobId job grant) ∨
    ((∀ job, result ≠ .ok (.claimed job)) ∧
      ∀ exchange ∈ exchanges, ∀ jobId job, ¬ Grants jobId job exchange)) := by
  rcases transcript_performBind ran with
    ⟨before, claimed, after, rest, rfl, continued⟩ | ⟨before, error, after, rfl, rfl⟩
  · rw [processed_cons_of_uncounted (repository_uncounted _)]
    cases claimed with
    | some job =>
        obtain ⟨_, _, _, rfl, ended⟩ := recorded_then continued
          fun exchange member => returns exchange (List.mem_cons_of_mem _ member)
        obtain ⟨rfl, rfl⟩ := transcript_pure ended
        exact ⟨rfl, .inl ⟨job, _, rfl, List.mem_cons_self, before, leaseSeconds, after, rfl⟩⟩
    | none =>
        have refusing : Transcript (refuseClaim jobId).run rest result := continued
        constructor
        · apply processed_of_only refusing
          exact refuseClaim_only (repository_uncounted _) fun metric labels other _ isRecord => by
            cases isRecord
            exact other rfl
        · right
          constructor
          · intro job isClaimed
            subst isClaimed
            obtain ⟨status, isStatus⟩ := refuseClaim_status refusing
            cases isStatus
          · intro exchange member asked job grants
            rcases List.mem_cons.mp member with isFirst | later
            · obtain ⟨_, _, _, rfl⟩ := grants
              cases isFirst
            · have noClaim := refusing.only
                (refuseClaim_only (Q := NoClaim) (fun _ _ => nofun) fun _ _ _ _ _ => nofun)
              exact grants.not_mem noClaim later
  · refine ⟨rfl, .inr ⟨nofun, ?_⟩⟩
    intro exchange member asked job grants
    obtain ⟨_, _, _, rfl⟩ := grants
    cases List.mem_singleton.mp member

/-- The processing under a heartbeat. -/
theorem withHeartbeat_enters {heartbeat : VisibilityHeartbeat}
    {result : Except Exn JobProcessStatus}
    (ran : Transcript (withHeartbeat heartbeat (completeClaimedJob store job)).run exchanges result)
    (returns : ∀ exchange ∈ exchanges, RecordReturns exchange) :
    Enters store job exchanges ∨ NotEntered exchanges := by
  rcases transcript_performBind ran with
    ⟨before, thread, after, rest, rfl, continued⟩ | ⟨before, error, after, rfl, _⟩
  · obtain ⟨own, body, cleaning, rfl, bodyRan, cleaned⟩ := transcript_finally continued
    have counted := completeClaimedJob_counts bodyRan fun exchange member =>
      returns exchange (List.mem_cons_of_mem _ (List.mem_append_left _ member))
    have stopped : Code.Only Uncounted (perform (.stopThread thread)) :=
      Code.only_perform fun _ => nofun
    have uncounted : processed cleaning = [] := by
      rcases cleaned with ⟨stopping, _⟩ | ⟨_, stopping, _⟩
      · exact processed_of_only stopping stopped
      · exact processed_of_only stopping stopped
    exact .inl ⟨[_], own, cleaning, body, rfl, bodyRan, counted, rfl, uncounted⟩
  · exact .inr ⟨⟨before, heartbeat, error, after, List.mem_cons_self⟩, rfl⟩

/-- What a worker does after the processing adds nothing. -/
theorem append_uncounted (count : Enters store job first ∨ NotEntered first)
    (uncounted : processed rest = []) :
    Enters store job (first ++ rest) ∨ NotEntered (first ++ rest) :=
  count.imp (fun enters => enters.append uncounted) fun missed => missed.append uncounted

/-- The part of `consume_one_message` after its claim. -/
theorem consumeClaimed_enters {config : ConsumerConfig} {jobId : Uuid}
    {receiptHandle : ReceiptHandle} {result : Except Exn Bool}
    (ran : Transcript (consumeClaimed store config jobId receiptHandle job).run exchanges result)
    (returns : ∀ exchange ∈ exchanges, RecordReturns exchange) :
    Enters store job exchanges ∨ NotEntered exchanges := by
  have body : ∀ {exchanges : List PlatformExchange} {result},
      Transcript (withHeartbeat ⟨jobId, job.processingToken, receiptHandle,
        config.visibilityTimeoutSeconds, config.visibilityHeartbeatSeconds⟩
          (completeClaimedJob store job) >>= fun _ => perform (.deleteMessage receiptHandle) >>=
            fun _ => (pure true : Run Bool)).run exchanges result →
      (∀ exchange ∈ exchanges, RecordReturns exchange) →
      Enters store job exchanges ∨ NotEntered exchanges := by
    intro exchanges result ran returns
    rcases transcript_codeBind ran with
      ⟨first, status, rest, rfl, processing, continued⟩ | ⟨_, _, raised⟩
    · have deleted : Code.Only Uncounted (perform (.deleteMessage receiptHandle) >>= fun _ =>
          (pure true : Run Bool)) :=
        (Code.only_perform fun _ => nofun).bind fun _ => Code.only_pure _
      apply append_uncounted
      · exact withHeartbeat_enters processing fun exchange member =>
          returns exchange (List.mem_append_left _ member)
      · exact processed_of_only continued deleted
    · exact withHeartbeat_enters raised returns
  rcases transcript_tryCatch ran with ⟨_, _, returned⟩ | ⟨first, error, rest, rfl, raised, handled⟩
  · exact body returned returns
  · apply append_uncounted
    · exact body raised fun exchange member => returns exchange (List.mem_append_left _ member)
    · cases error with
      | lostJobClaimError => exact processed_of_only handled (Code.only_pure _)
      | _ =>
          exact processed_of_only handled
            ((Code.only_perform (repository_uncounted _)).bind fun _ => Code.only_pure _)

/-- The part of `process_job` after its claim. -/
theorem processClaimed_enters {jobId : Uuid} {result : Except Exn JobProcessStatus}
    (ran : Transcript (tryCatch (completeClaimedJob store job) fun error =>
      match error with
      | .lostJobClaimError => throw .lostJobClaimError
      | error => do
          let _ ← repository (.failJob jobId job.processingToken "JobProcessingError")
          throw error : Run JobProcessStatus).run exchanges result)
    (returns : ∀ exchange ∈ exchanges, RecordReturns exchange) : Enters store job exchanges := by
  have enters : ∀ {own : List PlatformExchange} {ended},
      Transcript (completeClaimedJob store job).run own ended →
      (∀ exchange ∈ own, RecordReturns exchange) → Enters store job own :=
    fun ran returns => ⟨[], _, [], _, by simp, ran, completeClaimedJob_counts ran returns, rfl, rfl⟩
  rcases transcript_tryCatch ran with ⟨_, _, returned⟩ | ⟨first, error, rest, rfl, raised, handled⟩
  · exact enters returned returns
  · apply Enters.append
    · exact enters raised fun exchange member => returns exchange (List.mem_append_left _ member)
    · cases error with
      | lostJobClaimError => exact processed_of_only handled (Code.only_throw _)
      | _ =>
          exact processed_of_only handled
            ((Code.only_perform (repository_uncounted _)).bind fun _ => Code.only_throw _)

/-- What a claim and the code after it add, with what came before it. -/
theorem claim_counts {α : Type} (store : ArtifactStore) (earlier : List PlatformExchange)
    {jobId : Uuid} {leaseSeconds : Int} {next : ClaimOutcome → Run α} {result : Except Exn α}
    (ran : Transcript (claimJob jobId leaseSeconds >>= next).run exchanges result)
    (returns : ∀ exchange ∈ exchanges, RecordReturns exchange)
    (before : ∀ exchange ∈ earlier, NoClaim exchange.call ∧ Uncounted exchange.call)
    (claimed : ∀ {job rest result}, Transcript (next (.claimed job)).run rest result →
      (∀ exchange ∈ rest, RecordReturns exchange) → Enters store job rest ∨ NotEntered rest)
    (refused : ∀ status, Code.Only (fun call => NoClaim call ∧ Uncounted call)
      (next (.status status))) : ClaimCount (earlier ++ exchanges) := by
  have uncounted : processed earlier = [] :=
    processed_eq_nil fun exchange member => (before exchange member).2
  have unclaimed : ∀ {others : List PlatformExchange},
      (∀ exchange ∈ others, ∀ jobId job, ¬ Grants jobId job exchange) →
      ∀ exchange ∈ earlier ++ others, ∀ jobId job, ¬ Grants jobId job exchange := by
    intro others none exchange member jobId job grants
    rcases List.mem_append.mp member with inEarlier | inOthers
    · exact grants.not_mem (fun other inEarlier => (before other inEarlier).1) inEarlier
    · exact none exchange inOthers jobId job grants
  rcases transcript_codeBind ran with
    ⟨claiming, outcome, rest, rfl, claiming', continued⟩ | ⟨error, rfl, raised⟩
  · obtain ⟨none, granted⟩ := claimJob_grants claiming' fun exchange member =>
      returns exchange (List.mem_append_left _ member)
    rcases granted with ⟨job, grant, isClaimed, member, grants⟩ | ⟨isStatus, noGrant⟩
    · cases isClaimed
      rcases claimed continued fun exchange member =>
          returns exchange (List.mem_append_right _ member) with enters | missed
      · refine .entered (List.append_assoc earlier claiming rest).symm ?_ grants ?_ enters
        · exact List.mem_append_right _ member
        · rw [processed_append, uncounted, none]
          rfl
      · obtain ⟨⟨before, heartbeat, error, after, inRest⟩, nothing⟩ := missed
        refine .notEntered ⟨⟨before, heartbeat, error, after, ?_⟩, ?_⟩
        · exact List.mem_append_right _ (List.mem_append_right _ inRest)
        · simp [uncounted, none, nothing]
    · cases outcome with
      | claimed job => exact absurd rfl (isStatus job)
      | status status =>
          have only := continued.only (refused status)
          refine .refused (unclaimed ?_) ?_
          · intro exchange member jobId job grants
            rcases List.mem_append.mp member with inClaim | inRest
            · exact noGrant exchange inClaim jobId job grants
            · exact grants.not_mem (fun other inRest => (only other inRest).1) inRest
          · have nothing := processed_eq_nil fun exchange member => (only exchange member).2
            simp [uncounted, none, nothing]
  · obtain ⟨none, ⟨_, _, isClaimed, _⟩ | ⟨_, noGrant⟩⟩ := claimJob_grants raised returns
    · cases isClaimed
    · exact .refused (unclaimed noGrant) (by simp [uncounted, none])

/-- Every run of a worker program has its count. -/
theorem program_counts {program : Program platform Unit} (isClaiming : ClaimingProgram program)
    (ran : Transcript program exchanges ())
    (returns : ∀ exchange ∈ exchanges, RecordReturns exchange) : ClaimCount exchanges := by
  cases isClaiming with
  | consumeOneMessage store config =>
      obtain ⟨result, ran⟩ := transcript_task ran
      have receives : ∀ {first : List PlatformExchange} {message},
          Transcript (tryCatch receiveJob fun _ => pure none :
            Run (Option (Uuid × ReceiptHandle))).run first message →
          ∀ exchange ∈ first, NoClaim exchange.call ∧ Uncounted exchange.call := by
        intro first message receiving exchange member
        rw [receiving.only (receiveJob_only.tryCatch fun _ => Code.only_pure _) exchange member]
        exact ⟨fun _ _ => nofun, fun _ => nofun⟩
      rcases transcript_codeBind ran with
        ⟨first, message, rest, rfl, receiving, continued⟩ | ⟨_, _, raised⟩
      · cases message with
        | none =>
            obtain ⟨rfl, _⟩ := transcript_pure continued
            rw [List.append_nil]
            refine .refused ?_ (processed_eq_nil fun exchange member =>
              (receives receiving exchange member).2)
            intro exchange member jobId job grants
            exact grants.not_mem (fun other inFirst => (receives receiving other inFirst).1) member
        | some message =>
            obtain ⟨jobId, receiptHandle⟩ := message
            apply claim_counts store first continued
            · exact fun exchange member => returns exchange (List.mem_append_right _ member)
            · exact receives receiving
            · exact consumeClaimed_enters
            · intro status
              cases status with
              | duplicateCompleted =>
                  exact (Code.only_perform ⟨fun _ _ => nofun, fun _ => nofun⟩).bind fun _ =>
                    Code.only_pure _
              | inProgressNotOwned => exact Code.only_pure _
              | completed => exact Code.only_throw _
      · refine .refused ?_ (processed_eq_nil fun exchange member =>
          (receives raised exchange member).2)
        intro exchange member jobId job grants
        exact grants.not_mem (fun other inFirst => (receives raised other inFirst).1) member
  | processJob store jobId leaseSeconds =>
      obtain ⟨result, ran⟩ := transcript_task ran
      apply claim_counts store [] ran returns
      · simp
      · exact fun continued returns => .inl (processClaimed_enters continued returns)
      · exact fun status => Code.only_pure _

/-! ### A run that was cut short -/

theorem recordReturns_of_steps {isCloud : Bool} {t : ThreadId} {exchange : PlatformExchange}
    (step : (jobPlatform isCloud).Steps t exchange) : RecordReturns exchange := by
  obtain ⟨before, call, reply, after⟩ := exchange
  cases call with
  | record metric labels =>
      obtain ⟨done, performed, _⟩ := steps_performed step
      cases performed
      rfl
  | _ => trivial

/-- Metrics are recorded, and every other call raises. -/
def answerRecords : (call : PlatformCall) → platform.Reply call
  | .record .. => .ok ()
  | _ => .error .valueError

theorem observed_returns {isCloud : Bool} {t : ThreadId} {start pool : Pool platform World}
    (observed : (jobPlatform isCloud).Observed t start exchanges pool) :
    ∀ exchange ∈ exchanges, RecordReturns exchange := by
  refine Observed.each (P := fun exchange _ => RecordReturns exchange) ?_ ?_ observed
  · intro pool c rest reply after _ _ called
    exact recordReturns_of_steps called
  · exact fun _ _ returns => returns

/-- The run as it would end if every call from here on raised. -/
theorem observed_counts {isCloud : Bool} {t : ThreadId} {start pool : Pool platform World}
    {program : Program platform Unit} (isClaiming : ClaimingProgram program)
    (running : start.threads t = some program)
    (observed : (jobPlatform isCloud).Observed t start exchanges pool) :
    ∃ later, ClaimCount (exchanges ++ later) ∧
      ∀ exchange ∈ later, ∀ jobId job, ¬ Grants jobId job exchange := by
  obtain ⟨rest, _, completes⟩ := observed.transcript running
  obtain ⟨later, value, ended, answered⟩ := exists_transcript answerRecords pool.state rest
  refine ⟨later, ?_, ?_⟩
  · apply program_counts isClaiming (completes ended)
    intro exchange member
    rcases List.mem_append.mp member with inRun | inLater
    · exact observed_returns observed exchange inRun
    · have isAnswer := answered exchange inLater
      obtain ⟨before, call, reply, after⟩ := exchange
      cases call with
      | record metric labels => exact isAnswer
      | _ => trivial
  · intro exchange inLater jobId job grants
    have isAnswer := answered exchange inLater
    obtain ⟨before, leaseSeconds, after, rfl⟩ := grants
    cases isAnswer

/-- What a worker has done of its program, finished or not, adds at most one. -/
theorem observed_length_le {isCloud : Bool} {t : ThreadId} {start pool : Pool platform World}
    {program : Program platform Unit} (isClaiming : ClaimingProgram program)
    (running : start.threads t = some program)
    (observed : (jobPlatform isCloud).Observed t start exchanges pool) :
    (processed exchanges).length ≤ 1 := by
  obtain ⟨later, whole, _⟩ := observed_counts isClaiming running observed
  have bound := whole.length_le
  rw [processed_append, List.length_append] at bound
  omega

/-- A worker that has been granted no claim has added nothing. -/
theorem observed_uncounted {isCloud : Bool} {t : ThreadId} {start pool : Pool platform World}
    {program : Program platform Unit} (isClaiming : ClaimingProgram program)
    (running : start.threads t = some program)
    (observed : (jobPlatform isCloud).Observed t start exchanges pool)
    (unclaimed : ∀ exchange ∈ exchanges, ∀ jobId job, ¬ Grants jobId job exchange) :
    processed exchanges = [] := by
  obtain ⟨later, whole, none⟩ := observed_counts isClaiming running observed
  have uncounted := whole.uncounted fun exchange member =>
    (List.mem_append.mp member).elim (unclaimed exchange) (none exchange)
  rw [processed_append] at uncounted
  exact List.append_eq_nil_iff.mp uncounted |>.1

end Runs

end JobPlatform.Runtime
