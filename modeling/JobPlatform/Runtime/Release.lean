import JobPlatform.Runtime.Containment
import JobPlatform.Runtime.Completion
import JobPlatform.Store.Fencing

/-!
Contract: a claim does not outlive the call that acquired it.

Owns:
- `World.Held`, which of the tokens issued by some time may still stand on a job, and its
  preservation by every step of the platform;
- what the three calls that end a claim leave behind: the completion, the recording of a failure,
  and the completion that finds the claim lost;
- the exits of `consume_one_message` and `process_job` after a claim, each of which ends with one
  of these.
-/

namespace JobPlatform.Runtime

open JobPlatform.Foundation JobPlatform.Foundation.ThreadSystem JobPlatform.Store
open JobPlatform.Store.Repository (ClaimedJob jobClaimable jobFence completeJobRow)
open World

/-! ### The tokens of a job -/

/-- The job has been claimed, and of the tokens `issued` by some time only those in `current` may
still be on its row. -/
structure World.Held (w : World) (jobId : Uuid) (issued current : List Uuid) : Prop where
  drawn : issued ⊆ w.drawn
  row : ∃ row, w.db.job? jobId = some row ∧ row.status ≠ .pending ∧
    ∀ token ∈ issued, row.processingToken = some token → token ∈ current

section Held

variable {w after : World} {jobId : Uuid} {issued current : List Uuid}

/-- No call puts an issued token back on a job. -/
theorem held_of_jobChange {inputs : Inputs} {call : RepoCall} {value : call.Result}
    {before later : Option JobRow} (change : JobChange inputs jobId call value before later)
    (new : inputs.uuid 0 ∉ issued)
    (held : ∃ row, before = some row ∧ row.status ≠ .pending ∧
      ∀ token ∈ issued, row.processingToken = some token → token ∈ current) :
    ∃ row, later = some row ∧ row.status ≠ .pending ∧
      ∀ token ∈ issued, row.processingToken = some token → token ∈ current := by
  obtain ⟨row, isRow, started, tokens⟩ := held
  cases change with
  | same => exact ⟨row, isRow, started, tokens⟩
  | created => cases isRow
  | claimed =>
      refine ⟨_, rfl, nofun, fun token member isToken => ?_⟩
      rw [← Option.some.inj isToken] at member
      exact absurd member new
  | renewed =>
      cases isRow
      exact ⟨_, rfl, started, tokens⟩
  | completed => exact ⟨_, rfl, nofun, nofun⟩
  | failed => exact ⟨_, rfl, nofun, nofun⟩

theorem World.Held.perform {call : PlatformCall} {reply : platform.Reply call} (t : ThreadId)
    (held : w.Held jobId issued current) (performed : w.Perform call reply after) :
    (after.logged t call reply).Held jobId issued current := by
  refine ⟨List.Subset.trans held.drawn performed.drawn_objects.1, ?_⟩
  rcases performed.database with same | ⟨_, inputs, _, _, fresh, effect⟩
  · exact same ▸ held.row
  · refine held_of_jobChange (jobChange_of_effect effect jobId) ?_ held.row
    exact fun member => fresh.new 0 (held.drawn member)

/-- Every step of the platform keeps what is held. -/
theorem held_step {isCloud : Bool} {pool next : Pool platform World}
    (step : (jobPlatform isCloud).Step pool next) (held : pool.state.Held jobId issued current) :
    next.state.Held jobId issued current :=
  step_of_perform (P := fun w => w.Held jobId issued current) step
    (fun t performed held => held.perform t performed)
    (fun sameDb sameDrawn held => ⟨sameDrawn ▸ held.drawn, sameDb ▸ held.row⟩) held

/-- A row that shows none of the current tokens is free of all that were issued. -/
theorem World.Held.release {token : Uuid} (held : w.Held jobId issued [token])
    (gone : ∀ row, w.db.job? jobId = some row → row.processingToken ≠ some token) :
    w.Held jobId issued [] := by
  obtain ⟨row, found, started, tokens⟩ := held.row
  refine ⟨held.drawn, row, found, started, fun other member isToken => ?_⟩
  have same := List.mem_singleton.mp (tokens other member isToken)
  exact absurd (same ▸ isToken) (gone row found)

/-- A job that has been claimed and is free of the issued tokens is completed, has failed and can
be claimed at once, or is held under a token that was issued later. -/
theorem World.Held.disposition (held : w.Held jobId issued []) (shape : w.db.Shape) :
    ∃ row, w.db.job? jobId = some row ∧
      (row.status = .completed ∨
        (row.status = .failed ∧ ∀ leaseSeconds now, (jobClaimable leaseSeconds now row).Holds) ∨
        row.status = .processing ∧ ∃ newer ∉ issued, row.processingToken = some newer) := by
  obtain ⟨row, found, started, tokens⟩ := held.row
  refine ⟨row, found, ?_⟩
  cases status : row.status with
  | pending => exact absurd status started
  | completed => exact .inl rfl
  | failed =>
      refine .inr (.inl ⟨rfl, fun leaseSeconds now => ?_⟩)
      simp [jobClaimable, status]
  | processing =>
      have isHeld := (shape.jobs row (Database.job?_eq_some.mp found).1).token.mp status
      obtain ⟨newer, isToken⟩ := Option.ne_none_iff_exists'.mp isHeld
      refine .inr (.inr ⟨rfl, newer, fun member => ?_, isToken⟩)
      exact List.not_mem_nil (tokens newer member isToken)

end Held

/-! ### The calls that end a claim -/

/-- A recorded failure is committed, whether its caller hears of it or not. -/
def FailureCommits : PlatformExchange → Prop
  | ⟨before, .repository (.failJob jobId processingToken error), _, after⟩ =>
      ∃ inputs, after.db = ((RepoCall.failJob jobId processingToken error).run inputs [] before.db).2
  | _ => True

/-- `LostJobClaimError` is raised by the repository alone, as its methods raise it. -/
def LossIsFound : PlatformExchange → Prop
  | ⟨before, .repository call, .error .lostJobClaimError, after⟩ =>
      ∃ inputs, call.run inputs [] before.db = (.error .lostJobClaimError, after.db)
  | ⟨_, _, .error .lostJobClaimError, _⟩ => False
  | _ => True

/-- The call grants a claim of the job. -/
def Grants (jobId : Uuid) (job : ClaimedJob) (exchange : PlatformExchange) : Prop :=
  ∃ before leaseSeconds after,
    exchange = ⟨before, .repository (.markJobProcessing jobId leaseSeconds), .ok (some job), after⟩

/-- The call is the completion of the claimed job, and returned. -/
def CompletionReturned (job : ClaimedJob) (exchange : PlatformExchange) : Prop :=
  ∃ before result objectKey objectType after, exchange = ⟨before, .repository
    (.completeJobWithReport job.id job.processingToken result objectKey objectType), .ok (), after⟩

/-- The call records the failure of the claimed job. -/
def RecordsFailure (job : ClaimedJob) (exchange : PlatformExchange) : Prop :=
  ∃ before error reply after, exchange =
    ⟨before, .repository (.failJob job.id job.processingToken error), reply, after⟩

/-- A call of a thread after it was granted the claim. -/
structure UnderClaim (isCloud : Bool) (t : ThreadId) (job : ClaimedJob) (issued : List Uuid)
    (exchange : PlatformExchange) : Prop where
  step : (jobPlatform isCloud).Steps t exchange
  sound : exchange.before.Sound
  held : exchange.before.Held job.id issued [job.processingToken]
  commits : FailureCommits exchange
  found : LossIsFound exchange

section Ends

variable {isCloud : Bool} {t : ThreadId} {job : ClaimedJob} {issued : List Uuid}
  {exchange : PlatformExchange}

theorem UnderClaim.held_after (claim : UnderClaim isCloud t job issued exchange) :
    exchange.after.Held job.id issued [job.processingToken] := by
  obtain ⟨done, performed, isAfter⟩ := claim.step
  rw [isAfter]
  exact claim.held.perform t performed

/-- A completed job shows no token. -/
theorem token_of_completed {db : Database} {jobId token : Uuid} (shape : db.Shape)
    (completed : db.Completed jobId) (row : JobRow) (found : db.job? jobId = some row) :
    row.processingToken ≠ some token := by
  obtain ⟨other, isOther, status⟩ := completed
  rw [found] at isOther
  cases isOther
  intro isToken
  have isHeld := (shape.jobs row (Database.job?_eq_some.mp found).1).token.mpr (by simp [isToken])
  rw [status] at isHeld
  cases isHeld

theorem UnderClaim.released_of_completion (claim : UnderClaim isCloud t job issued exchange)
    (returned : CompletionReturned job exchange) : exchange.after.Held job.id issued [] := by
  have held := claim.held_after
  obtain ⟨before, result, objectKey, objectType, after, rfl⟩ := returned
  obtain ⟨done, performed, rfl⟩ := steps_performed claim.step
  obtain ⟨_, _, _, effect⟩ := performed.effect
  have shape := performed.keeps Database.Shape.effect claim.sound.consistent.shape
  exact held.release (token_of_completed shape (completed_of_completion effect))

/-- A row under a token satisfies its fence. -/
theorem fence_of_token {db : Database} {jobId token : Uuid} {row : JobRow} (shape : db.Shape)
    (found : db.job? jobId = some row) (isToken : row.processingToken = some token) :
    (jobFence token row).Holds := by
  have processing := (shape.jobs row (Database.job?_eq_some.mp found).1).token.mpr (by simp [isToken])
  simp only [jobFence, Truth.holds_and, Truth.holds_eq_some]
  exact ⟨congrArg some processing, isToken⟩

/-- `fail_job` leaves no row under the token it presents. -/
theorem token_of_failure {db : Database} {jobId token : Uuid} {error : String} (shape : db.Shape)
    (inputs : Inputs) (row : JobRow)
    (found : ((RepoCall.failJob jobId token error).run inputs [] db).2.job? jobId = some row) :
    row.processingToken ≠ some token := by
  by_cases fenced : ∃ old, db.job? jobId = some old ∧ (jobFence token old).Holds
  · obtain ⟨old, isOld, holds⟩ := fenced
    rw [failJob_fails error isOld holds, Database.job?_setJob, if_pos rfl, isOld] at found
    cases found
    nofun
  · have rejected : ∀ old, db.job? jobId = some old → ¬ (jobFence token old).Holds :=
      fun old isOld holds => fenced ⟨old, isOld, holds⟩
    rw [failJob_refuses error rejected] at found
    exact fun isToken => rejected row found (fence_of_token shape found isToken)

theorem UnderClaim.released_of_failure (claim : UnderClaim isCloud t job issued exchange)
    (records : RecordsFailure job exchange) : exchange.after.Held job.id issued [] := by
  have held := claim.held_after
  obtain ⟨before, error, reply, after, rfl⟩ := records
  obtain ⟨inputs, isAfter⟩ := claim.commits
  refine held.release fun row found => ?_
  change after.db = _ at isAfter
  change after.db.job? _ = _ at found
  rw [isAfter] at found
  exact token_of_failure claim.sound.consistent.shape inputs row found

theorem UnderClaim.released_of_loss (claim : UnderClaim isCloud t job issued exchange)
    (only : CompletesOnly job exchange.call) (lost : exchange.Raised Exn.lostJobClaimError) :
    exchange.after.Held job.id issued [] := by
  have held := claim.held_after
  have found := claim.found
  obtain ⟨before, call, reply, after⟩ := exchange
  change reply = .error Exn.lostJobClaimError at lost
  subst lost
  cases call with
  | repository call =>
      cases call with
      | completeJobWithReport id processingToken =>
          obtain ⟨rfl, rfl⟩ := only
          obtain ⟨inputs, ran⟩ := found
          obtain ⟨same, rejected⟩ := completeJobWithReport_loss ran
          refine held.release fun row isRow isToken => ?_
          change after.db.job? _ = _ at isRow
          rw [same] at isRow
          exact rejected row isRow
            (fence_of_token claim.sound.consistent.shape isRow isToken)
      | _ => exact only.elim
  | _ => exact found.elim

end Ends

/-! ### The exits -/

section Exits

variable {isCloud : Bool} {t : ThreadId} {job : ClaimedJob} {issued : List Uuid}
  {exchanges : List PlatformExchange} {store : ArtifactStore}

/-- A call left the job free of the issued tokens. -/
def Releases (job : ClaimedJob) (issued : List Uuid) (exchanges : List PlatformExchange) : Prop :=
  ∃ exchange ∈ exchanges, exchange.after.Held job.id issued []

theorem Releases.left {rest : List PlatformExchange} (releases : Releases job issued exchanges) :
    Releases job issued (exchanges ++ rest) := by
  obtain ⟨exchange, member, held⟩ := releases
  exact ⟨exchange, List.mem_append_left _ member, held⟩

theorem Releases.right {first : List PlatformExchange} (releases : Releases job issued exchanges) :
    Releases job issued (first ++ exchanges) := by
  obtain ⟨exchange, member, held⟩ := releases
  exact ⟨exchange, List.mem_append_right _ member, held⟩

/-- `complete_claimed_job` returns after its completion did. -/
theorem completion_of_ok {status : JobProcessStatus}
    (ran : Transcript (completeClaimedJob store job).run exchanges (.ok status)) :
    ∃ exchange ∈ exchanges, CompletionReturned job exchange := by
  rcases transcript_tryCatch ran with ⟨value, _, body⟩ | ⟨_, error, rest, rfl, _, handled⟩
  · rcases transcript_codeBind body with ⟨first, key, rest, rfl, _, continued⟩ | ⟨_, isError, _⟩
    · rcases transcript_performBind continued with
        ⟨before, value, after, rest, rfl, _⟩ | ⟨_, _, _, _, isError⟩
      · exact ⟨_, List.mem_append_right _ List.mem_cons_self, before, _, _, _, after, rfl⟩
      · cases isError
    · cases isError
  · rcases transcript_codeBind handled with ⟨_, _, _, _, _, last⟩ | ⟨_, isError, _⟩
    · rcases transcript_codeBind last with ⟨_, _, _, _, _, thrown⟩ | ⟨_, isError, _⟩
      · cases (transcript_throw thrown).2
      · cases isError
    · cases isError

/-- `complete_claimed_job` raises what its calls raise. -/
theorem completeClaimedJob_raises :
    RaisesOnly World (fun _ => False) (completeClaimedJob store job) := by
  refine RaisesOnly.tryCatch ?_ fun error => ?_
  · refine RaisesOnly.bind ?_ fun key => ?_
    · refine RaisesOnly.bind (raises_perform _) fun _ => ?_
      exact RaisesOnly.bind (raises_perform _) fun _ => raises_pure _
    · refine RaisesOnly.bind (raises_perform _) fun _ => ?_
      refine RaisesOnly.bind (raises_perform _) fun _ => ?_
      exact RaisesOnly.bind (raises_perform _) fun _ => raises_pure _
  · refine RaisesOnly.bind (raises_perform _) fun _ => ?_
    exact RaisesOnly.bind (raises_perform _) fun _ => raises_throw (.inr rfl)

/-- A part that raises `LostJobClaimError` has found the claim lost. -/
theorem releases_of_loss {α : Type} {code : Run α}
    (claims : ∀ exchange ∈ exchanges, UnderClaim isCloud t job issued exchange)
    (only : Code.Only (CompletesOnly job) code) (raises : RaisesOnly World (fun _ => False) code)
    (ran : Transcript code.run exchanges (.error .lostJobClaimError)) :
    Releases job issued exchanges := by
  rcases raises _ _ ran with nothing | ⟨exchange, member, raised⟩
  · exact nothing.elim
  · exact ⟨exchange, member, (claims exchange member).released_of_loss
      (ran.only only exchange member) raised⟩

/-- A handler that starts with `fail_job` releases the claim. -/
theorem releases_of_failure {α : Type} {error : String} {next : Bool → Run α} {result : Except Exn α}
    (claims : ∀ exchange ∈ exchanges, UnderClaim isCloud t job issued exchange)
    (ran : Transcript (repository (.failJob job.id job.processingToken error) >>= next).run exchanges
      result) : Releases job issued exchanges := by
  have records : ∃ exchange ∈ exchanges, RecordsFailure job exchange := by
    rcases transcript_performBind ran with
      ⟨before, value, after, rest, rfl, _⟩ | ⟨before, raised, after, rfl, _⟩
    · exact ⟨_, List.mem_cons_self, before, error, _, after, rfl⟩
    · exact ⟨_, List.mem_cons_self, before, error, _, after, rfl⟩
  obtain ⟨exchange, member, isFailure⟩ := records
  exact ⟨exchange, member, (claims exchange member).released_of_failure isFailure⟩

theorem releases_of_completion {status : JobProcessStatus}
    (claims : ∀ exchange ∈ exchanges, UnderClaim isCloud t job issued exchange)
    (ran : Transcript (completeClaimedJob store job).run exchanges (.ok status)) :
    Releases job issued exchanges := by
  obtain ⟨exchange, member, returned⟩ := completion_of_ok ran
  exact ⟨exchange, member, (claims exchange member).released_of_completion returned⟩

/-- Every exit of `consume_one_message` after its claim. -/
theorem consumeClaimed_releases {config : ConsumerConfig} {receiptHandle : ReceiptHandle}
    {result : Except Exn Bool}
    (claims : ∀ exchange ∈ exchanges, UnderClaim isCloud t job issued exchange)
    (ran : Transcript (consumeClaimed store config job.id receiptHandle job).run exchanges result) :
    Releases job issued exchanges := by
  rcases transcript_tryCatch ran with ⟨value, _, body⟩ | ⟨body, error, rest, rfl, bodyRan, handled⟩
  · rcases transcript_codeBind body with ⟨first, status, rest, rfl, working, _⟩ | ⟨_, isError, _⟩
    · rcases transcript_codeBind working with
        ⟨start, thread, _, rfl, _, during⟩ | ⟨_, isError, _⟩
      · obtain ⟨work, outcome, stop, rfl, workRan, ⟨_, rfl⟩ | ⟨_, _, isError⟩⟩ :=
          transcript_finally during
        · have claimsOfWork : ∀ exchange ∈ work, UnderClaim isCloud t job issued exchange :=
            fun exchange member => claims exchange (List.mem_append_left _
              (List.mem_append_right _ (List.mem_append_left _ member)))
          exact (Releases.left (releases_of_completion claimsOfWork workRan)).right.left
        · cases isError
      · cases isError
    · cases isError
  · have failing : ∀ typeName, Transcript (repository (.failJob job.id job.processingToken typeName)
        >>= fun _ => pure false : Run Bool).run rest result → Releases job issued (body ++ rest) :=
      fun typeName handled => (releases_of_failure (fun exchange member =>
        claims exchange (List.mem_append_right _ member)) handled).right
    cases error with
    | lostJobClaimError =>
        refine (releases_of_loss (fun exchange member =>
          claims exchange (List.mem_append_left _ member)) ?_ ?_ bodyRan).left
        · refine Code.Only.bind ?_ fun _ => ?_
          · refine Code.Only.bind (Code.only_perform trivial) fun thread => ?_
            exact Code.Only.finally_ (completeClaimedJob_completes store job)
              (Code.only_perform trivial)
          · exact Code.Only.bind (Code.only_perform trivial) fun _ => Code.only_pure _
        · refine RaisesOnly.bind ?_ fun _ => ?_
          · refine RaisesOnly.bind (raises_perform _) fun thread => ?_
            exact RaisesOnly.finally_ completeClaimedJob_raises (raises_perform _)
          · exact RaisesOnly.bind (raises_perform _) fun _ => raises_pure _
    | _ => exact failing _ handled

/-- The part of `process_job` after its claim. -/
def processClaimed (store : ArtifactStore) (job : ClaimedJob) : Run JobProcessStatus :=
  tryCatch (completeClaimedJob store job) fun error =>
    match error with
    | .lostJobClaimError => throw .lostJobClaimError
    | error => do
        let _ ← repository (.failJob job.id job.processingToken "JobProcessingError")
        throw error

/-- Every exit of `process_job` after its claim. -/
theorem processClaimed_releases {result : Except Exn JobProcessStatus}
    (claims : ∀ exchange ∈ exchanges, UnderClaim isCloud t job issued exchange)
    (ran : Transcript (processClaimed store job).run exchanges result) :
    Releases job issued exchanges := by
  rcases transcript_tryCatch ran with ⟨value, _, body⟩ | ⟨body, error, rest, rfl, bodyRan, handled⟩
  · exact releases_of_completion claims body
  · have failing : ∀ raised : Exn, Transcript (repository (.failJob job.id job.processingToken
        "JobProcessingError") >>= fun _ => throw raised : Run JobProcessStatus).run rest result →
          Releases job issued (body ++ rest) :=
      fun raised handled => (releases_of_failure (fun exchange member =>
        claims exchange (List.mem_append_right _ member)) handled).right
    cases error with
    | lostJobClaimError =>
        exact (releases_of_loss (fun exchange member =>
          claims exchange (List.mem_append_left _ member)) (completeClaimedJob_completes store job)
            completeClaimedJob_raises bodyRan).left
    | _ => exact failing _ handled

/-- A claim that was granted is the first call of `claim_job`, and what it returns. -/
theorem claimJob_granted {jobId asked : Uuid} {leaseSeconds : Int} {grant : PlatformExchange}
    {result : Except Exn ClaimOutcome}
    (ran : Transcript (claimJob jobId leaseSeconds).run exchanges result)
    (steps : ∀ exchange ∈ exchanges, (jobPlatform isCloud).Steps t exchange)
    (member : grant ∈ exchanges) (grants : Grants asked job grant) :
    asked = jobId ∧ result = .ok (.claimed job) ∧ ∃ rest, exchanges = grant :: rest := by
  obtain ⟨before, lease, after, rfl⟩ := grants
  rcases transcript_performBind ran with
    ⟨before', claimed, after', rest, rfl, continued⟩ | ⟨before', error, after', rfl, _⟩
  · cases claimed with
    | some other =>
        obtain ⟨recorded, nothing, rfl, isRecord, ended⟩ := record_then continued
          fun exchange member => steps exchange (.tail _ member)
        obtain ⟨rfl, rfl⟩ := transcript_pure ended
        rcases List.mem_cons.mp member with isFirst | isSecond
        · cases isFirst
          exact ⟨rfl, rfl, _, rfl⟩
        · rw [← List.mem_singleton.mp isSecond] at isRecord
          cases isRecord
    | none =>
        have others : Code.Only (fun call => ∀ id seconds,
            call ≠ PlatformCall.repository (.markJobProcessing id seconds)) (do
          let existing ← repository (.getJob jobId)
          if existing.job.status = .completed then
            record .workerDuplicateJobs ["completed"]
            record .workerJobClaims ["duplicate_completed"]
            return .status .duplicateCompleted
          else
            record .workerJobClaims ["in_progress_not_owned"]
            return .status .inProgressNotOwned : Run ClaimOutcome) := by
          refine Code.Only.bind (Code.only_perform fun _ _ => nofun) fun existing => ?_
          split
          · refine Code.Only.bind (Code.only_perform fun _ _ => nofun) fun _ => ?_
            exact Code.Only.bind (Code.only_perform fun _ _ => nofun) fun _ => Code.only_pure _
          · exact Code.Only.bind (Code.only_perform fun _ _ => nofun) fun _ => Code.only_pure _
        rcases List.mem_cons.mp member with isFirst | later
        · cases isFirst
        · exact absurd rfl (continued.only others _ later _ _)
  · cases List.mem_singleton.mp member

/-- The call does not claim a job. -/
def NoClaim (call : PlatformCall) : Prop :=
  ∀ jobId leaseSeconds, call ≠ .repository (.markJobProcessing jobId leaseSeconds)

theorem EndsOnly.noClaim (call : PlatformCall) (ends : EndsOnly call) : NoClaim call := by
  rintro jobId leaseSeconds rfl
  exact ends

theorem Grants.not_mem {jobId : Uuid} {grant : PlatformExchange} (grants : Grants jobId job grant)
    (only : ∀ exchange ∈ exchanges, NoClaim exchange.call) : grant ∉ exchanges := by
  obtain ⟨before, leaseSeconds, after, rfl⟩ := grants
  exact fun member => only _ member _ _ rfl

/-- What follows the claim runs after the grant. -/
theorem claim_then {α : Type} {asked jobId : Uuid} {leaseSeconds : Int} {grant : PlatformExchange}
    {next : ClaimOutcome → Run α} {result : Except Exn α}
    (ran : Transcript (claimJob asked leaseSeconds >>= next).run exchanges result)
    (steps : ∀ exchange ∈ exchanges, (jobPlatform isCloud).Steps t exchange)
    (only : ∀ outcome, Code.Only NoClaim (next outcome)) (member : grant ∈ exchanges)
    (grants : Grants jobId job grant) :
    jobId = asked ∧ ∃ recorded rest, exchanges = grant :: (recorded ++ rest) ∧
      Transcript (next (.claimed job)).run rest result := by
  rcases transcript_codeBind ran with
    ⟨claiming, outcome, rest, rfl, claimed, continued⟩ | ⟨error, _, raised⟩
  · have inClaim := (List.mem_append.mp member).resolve_right
      (grants.not_mem (continued.only (only outcome)))
    obtain ⟨isJob, isOutcome, recorded, rfl⟩ := claimJob_granted claimed
      (fun exchange member => steps exchange (List.mem_append_left _ member)) inClaim grants
    cases isOutcome
    exact ⟨isJob, recorded, rest, rfl, continued⟩
  · obtain ⟨_, isOk, _⟩ := claimJob_granted raised steps member grants
    cases isOk

/-- The programs of a worker that claim a job. -/
inductive ClaimingProgram : Program platform Unit → Prop where
  | consumeOneMessage (store : ArtifactStore) (config : ConsumerConfig) :
      ClaimingProgram (Code.task (consumeOneMessage store config))
  | processJob (store : ArtifactStore) (jobId : Uuid) (leaseSeconds : Int) :
      ClaimingProgram (Code.task (processJob store jobId leaseSeconds))

/-- Wherever the claim was granted, one of the calls after it releases it. -/
theorem program_releases {program : Program platform Unit} {grant : PlatformExchange}
    (issued : List Uuid) (isClaiming : ClaimingProgram program) (ran : Transcript program exchanges ())
    (steps : ∀ exchange ∈ exchanges, (jobPlatform isCloud).Steps t exchange)
    (member : grant ∈ exchanges) (grants : Grants job.id job grant) :
    ∃ earlier later, exchanges = earlier ++ grant :: later ∧
      ((∀ exchange ∈ later, UnderClaim isCloud t job issued exchange) →
        Releases job issued later) := by
  cases isClaiming with
  | consumeOneMessage store config =>
      obtain ⟨result, ran⟩ := transcript_task ran
      unfold consumeOneMessage at ran
      have received : ∀ {received message}, Transcript (tryCatch receiveJob fun _ => pure none :
          Run (Option (Uuid × ReceiptHandle))).run received message → grant ∉ received := by
        intro received message receiving
        refine grants.not_mem fun exchange member jobId leaseSeconds => ?_
        rw [receiving.only (receiveJob_only.tryCatch fun _ => Code.only_pure _) exchange member]
        nofun
      rcases transcript_codeBind ran with
        ⟨first, message, rest, rfl, receiving, continued⟩ | ⟨error, rfl, raised⟩
      · have inRest := (List.mem_append.mp member).resolve_left (received receiving)
        cases message with
        | none =>
            obtain ⟨rfl, _⟩ := transcript_pure continued
            cases inRest
        | some message =>
            obtain ⟨named, receiptHandle⟩ := message
            dsimp only at continued
            obtain ⟨rfl, recorded, rest, rfl, consumed⟩ := claim_then continued
              (fun exchange member => steps exchange (List.mem_append_right _ member))
              (by
                intro outcome
                cases outcome with
                | claimed job => exact consumeClaimed_only.mono EndsOnly.noClaim
                | status status =>
                    cases status with
                    | duplicateCompleted =>
                        exact Code.Only.bind (Code.only_perform fun _ _ => nofun) fun _ =>
                          Code.only_pure _
                    | inProgressNotOwned => exact Code.only_pure _
                    | completed => exact Code.only_throw _) inRest grants
            refine ⟨first, recorded ++ rest, rfl, fun claims => ?_⟩
            exact (consumeClaimed_releases (fun exchange member =>
              claims exchange (List.mem_append_right _ member)) consumed).right
      · exact absurd member (received raised)
  | processJob store asked leaseSeconds =>
      obtain ⟨result, ran⟩ := transcript_task ran
      obtain ⟨rfl, recorded, rest, rfl, processed⟩ := claim_then ran steps
        (by
          intro outcome
          cases outcome with
          | status status => exact Code.only_pure _
          | claimed job =>
              refine Code.Only.tryCatch ?_ fun error => ?_
              · exact (completeClaimedJob_completes store job).mono fun call completes =>
                  (completes.ends call).noClaim
              · cases error with
                | lostJobClaimError => exact Code.only_throw _
                | _ => exact Code.Only.bind (Code.only_perform fun _ _ => nofun) fun _ =>
                    Code.only_throw _) member grants
      refine ⟨[], recorded ++ rest, rfl, fun claims => ?_⟩
      exact (processClaimed_releases (fun exchange member =>
        claims exchange (List.mem_append_right _ member)) processed).right

end Exits

/-! ### The guarantee -/

section Guarantee

variable {isCloud : Bool} {t : ThreadId} {program : Program platform Unit}
  {first pool later : Pool platform World} {exchanges : List PlatformExchange} {job : ClaimedJob}
  {grant : PlatformExchange}

theorem completed_step {before after : Pool platform World} {jobId : Uuid}
    (step : (jobPlatform isCloud).Step before after) (completed : before.state.db.Completed jobId) :
    after.state.db.Completed jobId :=
  step_of_perform (P := fun w => w.db.Completed jobId) step
    (fun _ performed completed => performed.keeps Database.Completed.effect completed)
    (fun sameDb _ completed => sameDb ▸ completed) completed

/-- A granted claim leaves the row under its token. -/
theorem token_of_grant {inputs : Inputs} {db after : Database} {jobId : Uuid} {leaseSeconds : Int}
    (effect : Effect inputs db (.markJobProcessing jobId leaseSeconds) (some job) after) :
    ∃ row, after.job? jobId = some row ∧ row.status = .processing ∧
      row.processingToken = some job.processingToken := by
  cases effect with
  | jobClaimed isValue update =>
      cases update with
      | miss => cases isValue
      | @hit row found =>
          cases isValue
          refine ⟨Repository.claimJobRow (inputs.uuid 0) inputs.now row, ?_, rfl, rfl⟩
          rw [Database.job?_setJob, if_pos rfl, found]
          rfl

/-- The grant of a claim: the row is under the token, and the token is drawn. -/
theorem held_of_grant {jobId : Uuid} (step : (jobPlatform isCloud).Steps t grant)
    (grants : Grants jobId job grant) :
    job.id = jobId ∧ job.processingToken ∈ grant.after.drawn ∧
      grant.after.Held jobId grant.after.drawn [job.processingToken] := by
  obtain ⟨before, leaseSeconds, after, rfl⟩ := grants
  obtain ⟨done, performed, rfl⟩ := steps_performed step
  obtain ⟨inputs, _, isDone, effect⟩ := performed.effect
  obtain ⟨isJob, isToken, _⟩ := row_of_grant effect
  have drawn : job.processingToken ∈ done.drawn := by
    rw [isDone, isToken]
    exact List.mem_append_right _ (List.mem_ofFn.mpr ⟨0, rfl⟩)
  obtain ⟨row, found, processing, isClaim⟩ := token_of_grant effect
  refine ⟨isJob, drawn, List.Subset.refl _, row, found, by simp [processing], ?_⟩
  intro token _ isOther
  rw [isClaim] at isOther
  exact List.mem_singleton.mpr (Option.some.inj isOther).symm

/-- A complete run of a worker program in which a claim was granted. -/
structure ClaimingRun (isCloud : Bool) (t : ThreadId) (program : Program platform Unit)
    (first pool : Pool platform World) (exchanges : List PlatformExchange) : Prop where
  reached : (jobPlatform isCloud).Reachable initial first
  claims : ClaimingProgram program
  run : (jobPlatform isCloud).CompleteRun t program first pool exchanges
  commits : ∀ exchange ∈ exchanges, FailureCommits exchange
  found : ∀ exchange ∈ exchanges, LossIsFound exchange

/-- When the program has ended, the job is free of every token that was drawn before its claim was
granted, and of the token of the claim. -/
theorem held_of_claimingRun (run : ClaimingRun isCloud t program first pool exchanges)
    (member : grant ∈ exchanges) (grants : Grants job.id job grant) :
    pool.state.Held job.id grant.after.drawn [] := by
  obtain ⟨_, _, heldAtGrant⟩ := held_of_grant (run.run.steps grant member) grants
  obtain ⟨earlier, after, rfl, releases⟩ := program_releases grant.after.drawn run.claims
    run.run.ran run.run.steps member grants
  have heldLater : ∀ exchange ∈ after,
      exchange.before.Held job.id grant.after.drawn [job.processingToken] := by
    intro exchange isLater
    have ordered := (run.run.watched.pairwise
      (P := fun w => w.Held job.id grant.after.drawn [job.processingToken]) held_step).1
    rw [List.map_append, List.map_cons] at ordered
    have fromGrant := (List.pairwise_cons.mp (List.pairwise_append.mp ordered).2.1).1
    exact fromGrant _ (List.mem_map_of_mem isLater) heldAtGrant
  obtain ⟨release, isLater, held⟩ := releases fun exchange isLater => by
    have inRun : exchange ∈ earlier ++ grant :: after :=
      List.mem_append_right _ (List.mem_cons_of_mem _ isLater)
    obtain ⟨_, reached, isState⟩ := run.run.watched.calls_reachable run.reached _
      (List.mem_map_of_mem inRun)
    refine ⟨run.run.steps exchange inRun, ?_, heldLater exchange isLater, run.commits exchange inRun,
      run.found exchange inRun⟩
    have sound := sound_of_reachable reached
    rw [isState] at sound
    exact sound
  exact (run.run.watched.pairwise (P := fun w => w.Held job.id grant.after.drawn []) held_step).2 _
    (List.mem_map_of_mem (List.mem_append_right _ (List.mem_cons_of_mem _ isLater))) held

/-- A worker program that was granted a claim and has ended, by any exit, at any interleaving with
its own heartbeat and with other workers, provided its last `fail_job` committed: from then on, in
every later state, the job is not under the token of the claim and no renewal with it can restore
it; the job is completed, has failed and can be claimed at once, or is held under a token drawn
after the grant; and if it was completed in the meantime it still is. -/
theorem claim_released (run : ClaimingRun isCloud t program first pool exchanges)
    (member : grant ∈ exchanges) {jobId : Uuid} (grants : Grants jobId job grant)
    (steps : Relation.ReflTransGen (jobPlatform isCloud).Step pool later) :
    (∃ row, later.state.db.job? jobId = some row ∧
      row.processingToken ≠ some job.processingToken ∧
      (row.status = .completed ∨
        (row.status = .failed ∧ ∀ leaseSeconds now, (jobClaimable leaseSeconds now row).Holds) ∨
        row.status = .processing ∧
          ∃ newer ∉ grant.after.drawn, row.processingToken = some newer)) ∧
    (∀ inputs faults, Refused
      ⟨.renewJobProcessingLease jobId job.processingToken, inputs, faults⟩ later.state.db) ∧
    ((∃ exchange ∈ exchanges, exchange.after.db.Completed jobId) →
      later.state.db.Completed jobId) := by
  obtain ⟨rfl, drawn, _⟩ := held_of_grant (run.run.steps grant member) grants
  have held := steps_keep (P := fun w => w.Held job.id grant.after.drawn []) held_step steps
    (held_of_claimingRun run member grants)
  have reached : (jobPlatform isCloud).Reachable initial later :=
    (run.run.watched.reachable run.reached).trans steps
  have sound := sound_of_reachable reached
  have gone : ∀ row, later.state.db.job? job.id = some row →
      row.processingToken ≠ some job.processingToken := by
    intro row found isToken
    obtain ⟨other, isOther, _, tokens⟩ := held.row
    rw [found] at isOther
    cases isOther
    exact List.not_mem_nil (tokens _ drawn isToken)
  refine ⟨?_, fun inputs faults => refused_of_stale_job ⟨rfl, rfl⟩ gone, ?_⟩
  · obtain ⟨row, found, disposition⟩ := held.disposition sound.consistent.shape
    exact ⟨row, found, gone row found, disposition⟩
  · rintro ⟨exchange, isExchange, completed⟩
    refine steps_keep (P := fun w => w.db.Completed job.id) completed_step steps ?_
    exact (run.run.watched.pairwise (P := fun w => w.db.Completed job.id) completed_step).2 _
      (List.mem_map_of_mem isExchange) completed

/-- The platform after the API created one job. -/
def oneJob : World :=
  let created := (RepoCall.createJob "csv_report" (.obj []) none).run (.numbered 0 0) [] .empty
  World.logged { World.initial with db := created.2, drawn := List.ofFn (Inputs.numbered 0 0).uuid } 0
    (.repository (.createJob "csv_report" (.obj []) none)) created.1

theorem oneJob_reachable : ∃ threads, threads 1 = none ∧
    (jobPlatform true).Reachable World.initial ⟨oneJob, threads⟩ := by
  have fresh : (Inputs.numbered 0 0).Fresh World.initial.drawn := by
    refine ⟨?_, fun _ member => List.not_mem_nil member⟩
    intro left right same
    revert left right
    decide
  have created := (ThreadSystem.Reachable.start
    (.refl : (jobPlatform true).Reachable World.initial _) 0 rfl
    (World.Start.createJob "csv_report" (.obj []) none)).call 0 rfl
      ⟨_, World.Perform.repository fresh [], rfl⟩
  exact ⟨_, rfl, created⟩

/-- A worker whose artifact store fails once the job is claimed. -/
theorem claimingRun_failing : ∃ (first pool : Pool platform World)
    (exchanges : List PlatformExchange) (job : ClaimedJob) (grant : PlatformExchange),
    ClaimingRun true 1 (Code.task (processJob ⟨"reports"⟩ (Uuid.ofInt 0) 120)) first pool exchanges ∧
      grant ∈ exchanges ∧ Grants job.id job grant := by
  have later : (Inputs.numbered 1 0).Fresh (List.ofFn (Inputs.numbered 0 0).uuid) := by
    refine ⟨?_, by decide⟩
    intro left right same
    revert left right
    decide
  have last : (Inputs.numbered 3 0).Fresh
      (List.ofFn (Inputs.numbered 0 0).uuid ++ List.ofFn (Inputs.numbered 1 0).uuid ++
        [Uuid.ofInt 6]) := by
    refine ⟨?_, by decide⟩
    intro left right same
    revert left right
    decide
  let job : ClaimedJob := ⟨Uuid.ofInt 0, "csv_report", .processing, .obj [], 1, Uuid.ofInt 3, some 0⟩
  have claimed : oneJob.Perform (.repository (.markJobProcessing (Uuid.ofInt 0) 120))
      (.ok (some job)) _ := .answered later rfl
  have counted : (claimed.exchange 1).after.Perform (.record .workerJobClaims ["acquired"]) (.ok ()) _ :=
    .recorded
  have unused : Uuid.ofInt 6 ∉
      List.ofFn (Inputs.numbered 0 0).uuid ++ List.ofFn (Inputs.numbered 1 0).uuid := by decide
  have drawn : (counted.exchange 1).after.Perform .uuid4 (.ok (Uuid.ofInt 6)) _ := .uuid4 unused
  have refused : (drawn.exchange 1).after.Perform (.putObject
      (ArtifactStore.objectKey ⟨"reports"⟩ (Uuid.ofInt 0) (Uuid.ofInt 6)) (reportRows job))
      (.error (.other "ClientError")) _ := .notStored _
  have noted : (refused.exchange 1).after.Perform
      (.record .workerJobsProcessed ["csv_report", "failure"]) (.ok ()) _ := .recorded
  have timed : (noted.exchange 1).after.Perform
      (.record .workerJobDuration ["csv_report", "failure"]) (.ok ()) _ := .recorded
  have failed : (timed.exchange 1).after.Perform (.repository
      (.failJob (Uuid.ofInt 0) (Uuid.ofInt 3) "JobProcessingError")) (.ok true) _ :=
    .answered last rfl
  obtain ⟨threads, idle, reached⟩ := oneJob_reachable
  have started := reached.start 1 idle (World.Start.processJob ⟨"reports"⟩ (Uuid.ofInt 0) 120)
  have watched := (Watched.start : (jobPlatform true).Watched 1 ⟨oneJob, Function.update threads 1
    (some (Code.task (processJob ⟨"reports"⟩ (Uuid.ofInt 0) 120)))⟩ [] _)
    |>.own rfl (claimed.steps true 1) |>.own rfl (counted.steps true 1)
    |>.own rfl (drawn.steps true 1) |>.own rfl (refused.steps true 1)
    |>.own rfl (noted.steps true 1) |>.own rfl (timed.steps true 1)
    |>.own rfl (failed.steps true 1)
  refine ⟨_, _, [claimed.exchange 1, counted.exchange 1, drawn.exchange 1, refused.exchange 1,
    noted.exchange 1, timed.exchange 1, failed.exchange 1], job, claimed.exchange 1,
    ⟨started, .processJob _ _ _, ⟨rfl, watched, rfl, ?_, ?_⟩, ?_, ?_⟩, List.mem_cons_self, _, _, _, rfl⟩
  · exact .call (.call (.call (.call (.call (.call (.call .done))))))
  · simp only [List.forall_mem_cons]
    exact ⟨claimed.steps _ _, counted.steps _ _, drawn.steps _ _, refused.steps _ _,
      noted.steps _ _, timed.steps _ _, failed.steps _ _, List.forall_mem_nil _⟩
  · simp only [List.forall_mem_cons]
    exact ⟨trivial, trivial, trivial, trivial, trivial, trivial, ⟨_, rfl⟩, List.forall_mem_nil _⟩
  · simp only [List.forall_mem_cons]
    exact ⟨trivial, trivial, trivial, trivial, trivial, trivial, trivial, List.forall_mem_nil _⟩

theorem claim_released_failing : ∃ (first pool : Pool platform World)
    (exchanges : List PlatformExchange) (job : ClaimedJob),
    ClaimingRun true 1 (Code.task (processJob ⟨"reports"⟩ (Uuid.ofInt 0) 120)) first pool exchanges ∧
      ∃ row, pool.state.db.job? job.id = some row ∧
        row.processingToken ≠ some job.processingToken := by
  obtain ⟨first, pool, exchanges, job, grant, run, member, grants⟩ := claimingRun_failing
  obtain ⟨row, found, gone, _⟩ := (claim_released run member grants .refl).1
  exact ⟨first, pool, exchanges, job, run, row, found, gone⟩

end Guarantee

end JobPlatform.Runtime
