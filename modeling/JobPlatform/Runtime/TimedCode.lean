import JobPlatform.Runtime.TimedRuns

/-!
Contract: the timed world runs the code.

Owns:
- `Hand.rest`, what is left of `consume_one_message` for a worker that holds a message, and
  `HeartbeatPhase.rest`, what is left of its heartbeat thread;
- one lemma per stage: the next calls of this code lead to what is left at the next stage;
- `work_leads`: every call of a worker in the timed world is such a stretch of the code, answered by
  the shared database and the queue.
-/

namespace JobPlatform.Runtime

open JobPlatform.Foundation JobPlatform.Store
open JobPlatform.Store.Repository (ClaimedJob)

/-- What a worker that holds a message has still to run. -/
def Hand.rest (setup : Setup) (hand : Hand) : Program platform (Except Exn Bool) :=
  (hand.stage.rest setup hand.jobId hand.receiptHandle).run

/-- A worker that holds no message any more has returned or raised. -/
def Remains (setup : Setup) : Option Hand → Program platform (Except Exn Bool) → Prop
  | some hand, program => program = hand.rest setup
  | none, program => ∃ result, program = .done result

/-- A call that neither the database nor the queue takes part in. -/
def Quiet (answer : platform.Answer) : Prop :=
  match answer.1 with
  | .record .. => True
  | .startThread _ => True
  | .stopThread _ => True
  | .stopWait .. => True
  | .uuid4 => True
  | .putObject .. => True
  | _ => False

/-- What is left of a heartbeat thread that has rounds ahead of it. -/
def HeartbeatPhase.rest (heartbeat : VisibilityHeartbeat) (thread rounds : Nat) :
    HeartbeatPhase → Program platform (Except Exn Unit)
  | .waiting => (heartbeat.run thread (rounds + 1)).run
  | .renewed =>
      (do
        tryCatch
          (perform (.changeMessageVisibility heartbeat.receiptHandle
            heartbeat.visibilityTimeoutSeconds))
          fun _ => record .workerVisibilityHeartbeatFailures ["sqs_change_visibility"]
        heartbeat.run thread rounds : Run Unit).run
  | .ended => .done (.ok ())

/-- The first call claims the job. -/
theorem Stage.rest_received (setup : Setup) (jobId : Uuid) (receiptHandle : ReceiptHandle) :
    Stage.received.rest setup jobId receiptHandle =
      (do
        match ← repository (.markJobProcessing jobId setup.processingLeaseSeconds) with
        | some job =>
            record .workerJobClaims ["acquired"]
            (Stage.processing job).rest setup jobId receiptHandle
        | none => Stage.refused.rest setup jobId receiptHandle) := by
  change (claimJob jobId setup.processingLeaseSeconds >>= _) = _
  unfold claimJob
  rw [bind_assoc]
  congr 1
  funext claimed
  cases claimed with
  | some job =>
      simp only [bind_assoc, pure_bind]
      rfl
  | none =>
      simp only [bind_assoc]
      congr 1
      funext existing
      by_cases finished : existing.job.status = .completed
      · simp only [if_pos finished, bind_assoc, pure_bind]
      · simp only [if_neg finished, bind_assoc, pure_bind]

section Stages

variable (setup : Setup) {hand : Hand} {job : ClaimedJob}

theorem claim_leads (stage : hand.stage = .received) (reply : Except Exn (Option ClaimedJob)) :
    ∃ more last, Program.Leads (hand.rest setup)
        (⟨.repository (.markJobProcessing hand.jobId setup.processingLeaseSeconds), reply⟩ :: more)
        last ∧ (∀ answer ∈ more, Quiet answer) ∧ Remains setup (hand.claimed reply) last := by
  unfold Hand.rest
  rw [stage, Stage.rest_received]
  match reply with
  | .ok (some job) =>
      exact ⟨[⟨.record .workerJobClaims ["acquired"], .ok ()⟩], _, .call (.call .here),
        by simp [Quiet], rfl⟩
  | .ok none => exact ⟨[], _, .call .here, by simp, rfl⟩
  | .error error => exact ⟨[], _, .call .here, by simp, _, rfl⟩

theorem read_leads (stage : hand.stage = .refused) (reply : Except Exn Repository.JobView) :
    ∃ more last, Program.Leads (hand.rest setup) (⟨.repository (.getJob hand.jobId), reply⟩ :: more)
        last ∧ (∀ answer ∈ more, Quiet answer) ∧ Remains setup (hand.read reply) last := by
  unfold Hand.rest
  rw [stage]
  match reply with
  | .ok existing =>
      by_cases finished : existing.job.status = .completed
      · refine ⟨[⟨.record .workerDuplicateJobs ["completed"], .ok ()⟩,
          ⟨.record .workerJobClaims ["duplicate_completed"], .ok ()⟩],
          (Stage.duplicate.rest setup hand.jobId hand.receiptHandle).run, .call ?_, by simp [Quiet],
          ?_⟩
        · show Program.Leads (ite (existing.job.status = .completed) _ _) _ _
          rw [if_pos finished]
          exact .call (.call .here)
        · simp [Hand.read, finished, Remains, Hand.rest]
      · refine ⟨[⟨.record .workerJobClaims ["in_progress_not_owned"], .ok ()⟩],
          .done (.ok false), .call ?_, by simp [Quiet], ?_⟩
        · show Program.Leads (ite (existing.job.status = .completed) _ _) _ _
          rw [if_neg finished]
          exact .call .here
        · simp [Hand.read, finished, Remains]
  | .error error => exact ⟨[], _, .call .here, by simp, _, rfl⟩

/-- Every error but a lost claim is recorded. -/
theorem abandonClaimed_eq {jobId : Uuid} {error : Exn} (other : error ≠ .lostJobClaimError) :
    abandonClaimed jobId job error = do
      let _ ← repository (.failJob jobId job.processingToken error.typeName)
      return false := by
  cases error with
  | lostJobClaimError => exact absurd rfl other
  | _ => rfl

theorem fail_leads {error : Exn} (stage : hand.stage = .failing job error)
    (other : error ≠ .lostJobClaimError) (reply : Except Exn Bool) :
    ∃ last, Program.Leads (hand.rest setup)
        [⟨.repository (.failJob hand.jobId job.processingToken error.typeName), reply⟩] last ∧
      Remains setup none last := by
  have rest : hand.rest setup = (abandonClaimed hand.jobId job error).run := by
    rw [Hand.rest, stage]
    rfl
  rw [rest, abandonClaimed_eq other]
  match reply with
  | .ok _ => exact ⟨_, .call .here, _, rfl⟩
  | .error _ => exact ⟨_, .call .here, _, rfl⟩

theorem delete_leads (done : hand.stage = .duplicate ∨ ∃ job, hand.stage = .completed job) :
    ∃ last, Program.Leads (hand.rest setup) [⟨.deleteMessage hand.receiptHandle, .ok ()⟩] last ∧
      Remains setup none last := by
  unfold Hand.rest
  rcases done with stage | ⟨job, stage⟩
  · rw [stage]
    exact ⟨_, .call .here, _, rfl⟩
  · rw [stage]
    exact ⟨_, .call .here, _, rfl⟩

theorem undeleted_leads (error : Exn) (stage : hand.stage = .duplicate) :
    ∃ last, Program.Leads (hand.rest setup) [⟨.deleteMessage hand.receiptHandle, .error error⟩]
      last ∧ Remains setup none last := by
  unfold Hand.rest
  rw [stage]
  exact ⟨_, .call .here, _, rfl⟩

/-- A deletion that fails leaves the `except` clauses. -/
theorem undeletedJob_leads (error : Exn) (stage : hand.stage = .completed job) :
    ∃ last, Program.Leads (hand.rest setup) [⟨.deleteMessage hand.receiptHandle, .error error⟩]
      last ∧ Remains setup (some { hand with stage := .failing job error }) last := by
  unfold Hand.rest
  rw [stage]
  exact ⟨_, .call .here, rfl⟩

/-- The heartbeat does not start. -/
theorem raise_leads {error : Exn} (stage : hand.stage = .processing job)
    (other : error ≠ .lostJobClaimError) :
    ∃ last, Program.Leads (hand.rest setup)
        [⟨.startThread (heartbeatOf setup hand.jobId hand.receiptHandle job), .error error⟩] last ∧
      Remains setup (some { hand with stage := .failing job error }) last := by
  unfold Hand.rest
  rw [stage]
  exact ⟨_, .call .here, by
    simp only [Remains, Hand.rest]
    cases error <;> first | exact absurd rfl other | rfl⟩

/-- The calls of a claimed job up to its completion. -/
def completing (setup : Setup) (hand : Hand) (job : ClaimedJob) (thread : Nat) (reportId : Uuid)
    (reply : Except Exn Unit) : List platform.Answer :=
  [⟨.startThread (heartbeatOf setup hand.jobId hand.receiptHandle job), .ok thread⟩,
    ⟨.uuid4, .ok reportId⟩,
    ⟨.putObject (setup.store.objectKey job.id reportId) (reportRows job), .ok ()⟩,
    ⟨.repository (.completeJobWithReport job.id job.processingToken
      (reportResult (setup.store.objectKey job.id reportId) (reportRows job))
      (setup.store.objectKey job.id reportId) "text/csv"), reply⟩]

theorem complete_leads (stage : hand.stage = .processing job) (thread : Nat) (reportId : Uuid)
    (reply : Except Exn Unit) :
    ∃ more last, Program.Leads (hand.rest setup)
        (completing setup hand job thread reportId reply ++ more) last ∧
      (∀ answer ∈ more, Quiet answer) ∧ Remains setup (hand.finished job reply) last := by
  unfold Hand.rest
  rw [stage]
  match reply with
  | .ok () =>
      exact ⟨[⟨.record .workerJobsProcessed [job.jobType, "success"], .ok ()⟩,
        ⟨.record .workerJobDuration [job.jobType, "success"], .ok ()⟩,
        ⟨.stopThread thread, .ok ()⟩], _,
        .call (.call (.call (.call (.call (.call (.call .here)))))), by simp [Quiet], rfl⟩
  | .error error =>
      refine ⟨[⟨.record .workerJobsProcessed [job.jobType, "failure"], .ok ()⟩,
        ⟨.record .workerJobDuration [job.jobType, "failure"], .ok ()⟩,
        ⟨.stopThread thread, .ok ()⟩], _,
        .call (.call (.call (.call (.call (.call (.call .here)))))), by simp [Quiet], ?_⟩
      cases error <;> first | exact ⟨_, rfl⟩ | rfl

/-! ### The heartbeat -/

variable (heartbeat : VisibilityHeartbeat) (thread rounds : Nat)

theorem renew_leads (reply : Except Exn Bool) : ∃ more last,
    Program.Leads (HeartbeatPhase.waiting.rest heartbeat thread rounds)
      (⟨.stopWait thread heartbeat.heartbeatSeconds, .ok false⟩ ::
        ⟨.repository (.renewJobProcessingLease heartbeat.jobId heartbeat.processingToken), reply⟩ ::
          more) last ∧ (∀ answer ∈ more, Quiet answer) ∧
      (reply = .ok true → last = HeartbeatPhase.renewed.rest heartbeat thread rounds) ∧
      (reply ≠ .ok true → ∃ result, last = .done result) := by
  match reply with
  | .ok true => exact ⟨[], _, .call (.call .here), by simp, fun _ => rfl, by simp⟩
  | .ok false =>
      exact ⟨[⟨.record .workerVisibilityHeartbeatFailures ["db_lease_renewal"], .ok ()⟩], _,
        .call (.call (.call .here)), by simp [Quiet], by simp, fun _ => ⟨_, rfl⟩⟩
  | .error error => exact ⟨[], _, .call (.call .here), by simp, by simp, fun _ => ⟨_, rfl⟩⟩

theorem extend_leads (reply : Except Exn Unit) : ∃ more,
    Program.Leads (HeartbeatPhase.renewed.rest heartbeat thread (rounds + 1))
      (⟨.changeMessageVisibility heartbeat.receiptHandle heartbeat.visibilityTimeoutSeconds, reply⟩ ::
        more) (HeartbeatPhase.waiting.rest heartbeat thread rounds) ∧
      ∀ answer ∈ more, Quiet answer := by
  match reply with
  | .ok () => exact ⟨[], .call .here, by simp⟩
  | .error error =>
      exact ⟨[⟨.record .workerVisibilityHeartbeatFailures ["sqs_change_visibility"], .ok ()⟩],
        .call (.call .here), by simp [Quiet]⟩

end Stages

/-! ### The shared world -/

namespace TimedWorld

/-- What an answered call does to the database and to the queue. -/
def Serves (world : TimedWorld) : platform.Answer → TimedWorld → Prop
  | ⟨.repository call, reply⟩, next => ∃ inputs faults, inputs.Fresh world.drawn ∧
      reply = (world.request call inputs faults).reply world.db ∧
      next = world.transact (world.request call inputs faults)
  | ⟨.deleteMessage receiptHandle, .ok _⟩, next => next = world.remove receiptHandle
  | ⟨.changeMessageVisibility receiptHandle seconds, .ok _⟩, next =>
      world.InFlight receiptHandle ∧ next = world.adjust receiptHandle fun entry =>
        { entry with visibleAt := world.now + interval seconds }
  | _, next => next = world

/-- What one answered call after the other does. -/
def ServesAll : TimedWorld → List platform.Answer → TimedWorld → Prop
  | world, [], last => last = world
  | world, answer :: answers, last => ∃ next, world.Serves answer next ∧ next.ServesAll answers last

theorem serves_quiet {world : TimedWorld} {answer : platform.Answer} (quiet : Quiet answer) :
    world.Serves answer world := by
  obtain ⟨call, reply⟩ := answer
  cases call <;> first | exact quiet.elim | rfl

theorem servesAll_quiet {world : TimedWorld} : ∀ answers : List platform.Answer,
    (∀ answer ∈ answers, Quiet answer) → world.ServesAll answers world
  | [], _ => rfl
  | answer :: answers, quiet =>
      ⟨world, serves_quiet (quiet answer (by simp)),
        servesAll_quiet answers fun other member => quiet other (by simp [member])⟩

/-- One call that matters, then quiet ones. -/
theorem servesAll_cons {world last : TimedWorld} {answer : platform.Answer}
    {more : List platform.Answer} (serves : world.Serves answer last)
    (quiet : ∀ other ∈ more, Quiet other) : world.ServesAll (answer :: more) last :=
  ⟨last, serves, servesAll_quiet more quiet⟩

end TimedWorld

/-- An error that a worker is about to record is no lost claim. -/
def Hand.Formed (hand : Hand) : Prop :=
  ∀ job error, hand.stage = .failing job error → error ≠ .lostJobClaimError

/-- A call of a worker itself, and not of its heartbeat thread or of its end. -/
def WorkerCall.Consumes : WorkerCall → Prop
  | .renew .. => False
  | .extend _ => False
  | .crash => False
  | _ => True

namespace TimedWorld

section Stretches

variable {setup : Setup} {world after : TimedWorld} {worker : Nat} {hand : Hand} {call : WorkerCall}

/-- Every call of a worker is a stretch of the code it runs, answered by the shared world, and leaves
what the worker holds afterwards. -/
theorem work_leads (formed : hand.Formed) (consumes : call.Consumes)
    (works : world.work setup worker hand call = some after) :
    ∃ answers last between next, Program.Leads (hand.rest setup) answers last ∧
      world.ServesAll answers between ∧ after = between.setHand worker next ∧
      Remains setup next last := by
  cases call with
  | claim inputs faults =>
      unfold work at works
      cases stage : hand.stage <;> simp only [stage, reduceCtorEq] at works
      obtain ⟨fresh, rfl⟩ := require_eq_some.mp works
      obtain ⟨more, last, leads, quiet, remains⟩ := claim_leads setup stage
        ((world.claimRequest setup hand inputs faults).reply world.db)
      exact ⟨_, last, _, _, leads, servesAll_cons ⟨inputs, faults, fresh, rfl, rfl⟩ quiet, rfl,
        remains⟩
  | read inputs faults =>
      unfold work at works
      cases stage : hand.stage <;> simp only [stage, reduceCtorEq] at works
      obtain ⟨fresh, rfl⟩ := require_eq_some.mp works
      obtain ⟨more, last, leads, quiet, remains⟩ := read_leads setup stage
        ((world.readRequest hand inputs faults).reply world.db)
      exact ⟨_, last, _, _, leads, servesAll_cons ⟨inputs, faults, fresh, rfl, rfl⟩ quiet, rfl,
        remains⟩
  | complete reportId inputs faults =>
      unfold work at works
      cases stage : hand.stage <;> simp only [stage, reduceCtorEq] at works
      next job =>
      obtain ⟨fresh, rfl⟩ := require_eq_some.mp works
      obtain ⟨more, last, leads, quiet, remains⟩ := complete_leads setup stage 0 reportId
        ((world.completeRequest setup job reportId inputs faults).reply world.db)
      refine ⟨_, last, _, _, leads, ?_, rfl, remains⟩
      exact ⟨world, rfl, world, rfl, world, rfl,
        servesAll_cons ⟨inputs, faults, fresh, rfl, rfl⟩ quiet⟩
  | fail inputs faults =>
      unfold work at works
      cases stage : hand.stage <;> simp only [stage, reduceCtorEq] at works
      next job error =>
      obtain ⟨fresh, rfl⟩ := require_eq_some.mp works
      obtain ⟨last, leads, remains⟩ := fail_leads setup stage (formed job error stage)
        ((world.failRequest hand job error inputs faults).reply world.db)
      exact ⟨_, last, _, _, leads, servesAll_cons ⟨inputs, faults, fresh, rfl, rfl⟩ (by simp), rfl,
        remains⟩
  | raise error =>
      unfold work at works
      cases stage : hand.stage <;> simp only [stage, reduceCtorEq] at works
      obtain ⟨other, rfl⟩ := require_eq_some.mp works
      obtain ⟨last, leads, remains⟩ := raise_leads setup stage other
      exact ⟨_, last, world, _, leads, servesAll_cons rfl (by simp), rfl, remains⟩
  | delete succeeds =>
      cases succeeds with
      | true =>
          have done : hand.stage = .duplicate ∨ ∃ job, hand.stage = .completed job := by
            cases acts_of_work works with
            | deleted done => exact done
            | troubled trouble => simp [Troubled] at trouble
          have isAfter : after = (world.remove hand.receiptHandle).setHand worker none := by
            unfold work at works
            rcases done with stage | ⟨job, stage⟩ <;> simp only [stage, Option.some.injEq] at works
            · exact works.symm
            · exact works.symm
          obtain ⟨last, leads, remains⟩ := delete_leads setup done
          exact ⟨_, last, _, _, leads, servesAll_cons rfl (by simp), isAfter, remains⟩
      | false =>
          unfold work at works
          cases stage : hand.stage <;> simp only [stage, reduceCtorEq, Option.some.injEq] at works
          · obtain ⟨last, leads, remains⟩ :=
              undeleted_leads setup (.other "ClientError") stage
            exact ⟨_, last, world, _, leads, servesAll_cons rfl (by simp), works.symm, remains⟩
          · obtain ⟨last, leads, remains⟩ :=
              undeletedJob_leads setup (.other "ClientError") stage
            exact ⟨_, last, world, _, leads, servesAll_cons rfl (by simp), works.symm, remains⟩
  | renew => exact consumes.elim
  | extend => exact consumes.elim
  | crash => exact consumes.elim

/-- A renewal is a stretch of the code of the heartbeat thread. -/
theorem renew_stretch {inputs : Inputs} {faults : Faults Exn} (thread rounds : Nat)
    (works : world.work setup worker hand (.renew inputs faults) = some after) :
    ∃ job answers last between next, hand.stage.claim? = some job ∧ Program.Leads
        (hand.heartbeat.rest (heartbeatOf setup hand.jobId hand.receiptHandle job) thread rounds)
        answers last ∧
      world.ServesAll answers between ∧ after = between.setHand worker (some next) ∧
      (next.heartbeat = .ended ∧ (∃ result, last = .done result) ∨
        last = next.heartbeat.rest (heartbeatOf setup hand.jobId hand.receiptHandle job) thread
          rounds) := by
  unfold work at works
  cases claim : hand.stage.claim? <;> simp only [claim, reduceCtorEq] at works
  next job =>
  obtain ⟨⟨fresh, waiting⟩, rfl⟩ := require_eq_some.mp works
  obtain ⟨more, last, leads, quiet, goesOn, ends⟩ := renew_leads
    (heartbeatOf setup hand.jobId hand.receiptHandle job) thread rounds
    ((world.renewRequest hand job inputs faults).reply world.db)
  refine ⟨job, _, last, world.transact (world.renewRequest hand job inputs faults),
    hand.renewed world.now ((world.renewRequest hand job inputs faults).reply world.db), rfl,
    waiting ▸ leads, ?_, rfl, ?_⟩
  · exact ⟨world, rfl, servesAll_cons ⟨inputs, faults, fresh, rfl, rfl⟩ quiet⟩
  · by_cases returned : (world.renewRequest hand job inputs faults).reply world.db = .ok true
    · right
      rw [goesOn returned, returned]
      rfl
    · left
      rw [hand.renewed_of_ne returned]
      exact ⟨rfl, ends returned⟩

/-- An extension is one, too. -/
theorem extend_stretch {succeeds : Bool} (job : ClaimedJob) (thread rounds : Nat)
    (works : world.work setup worker hand (.extend succeeds) = some after) :
    ∃ answers between next, Program.Leads (hand.heartbeat.rest
        (heartbeatOf setup hand.jobId hand.receiptHandle job) thread (rounds + 1)) answers
        (next.heartbeat.rest (heartbeatOf setup hand.jobId hand.receiptHandle job) thread rounds) ∧
      world.ServesAll answers between ∧ after = between.setHand worker (some next) := by
  cases succeeds with
  | true =>
      obtain ⟨⟨renewed, inFlight⟩, rfl⟩ := require_eq_some.mp works
      obtain ⟨more, leads, quiet⟩ := extend_leads
        (heartbeatOf setup hand.jobId hand.receiptHandle job) thread rounds (.ok ())
      have serves : world.Serves
          ⟨.changeMessageVisibility hand.receiptHandle setup.visibilityTimeoutSeconds, .ok ()⟩ _ :=
        ⟨inFlight, rfl⟩
      exact ⟨_, _, { hand with heartbeat := .waiting, extendedAt := world.now }, renewed ▸ leads,
        servesAll_cons serves quiet, rfl⟩
  | false =>
      obtain ⟨renewed, rfl⟩ := require_eq_some.mp works
      obtain ⟨more, leads, quiet⟩ := extend_leads
        (heartbeatOf setup hand.jobId hand.receiptHandle job) thread rounds
        (.error (.other "ClientError"))
      have serves : world.Serves ⟨.changeMessageVisibility hand.receiptHandle
          setup.visibilityTimeoutSeconds, .error (.other "ClientError")⟩ world := rfl
      exact ⟨_, world, { hand with heartbeat := .waiting }, renewed ▸ leads,
        servesAll_cons serves quiet, rfl⟩

end Stretches

/-! ### Runs -/

section Runs

variable {setup : Setup} {Allowed : TimedWorld → TimedEvent → TimedWorld → Prop}
  {world after : TimedWorld} {event : TimedEvent}

/-- The hands of a world are formed. -/
def Formed (world : TimedWorld) : Prop :=
  ∀ worker hand, world.hand? worker = some hand → hand.Formed

theorem formed_of_stage {hand : Hand} (unfailing : ∀ job error, hand.stage ≠ .failing job error) :
    hand.Formed :=
  fun job error failing => absurd failing (unfailing job error)

theorem Formed.setHand (formed : world.Formed) {worker : Nat} {next : Option Hand}
    (isFormed : ∀ kept, next = some kept → kept.Formed) : (world.setHand worker next).Formed := by
  intro other hand holds
  rcases hand?_setHand holds with ⟨_, isNext⟩ | ⟨_, kept⟩
  · exact isFormed _ isNext
  · exact formed other hand kept

theorem Formed.moves (formed : world.Formed) (moves : world.Moves setup event after) :
    after.Formed := by
  cases moves with
  | passed => exact formed
  | sent => exact formed
  | committed => exact formed
  | deadLettered => exact formed
  | @received worker _ entry =>
      refine Formed.setHand (show (world.adjust _ _).Formed from formed) fun kept isKept => ?_
      unfold receipt at isKept
      split at isKept
      · cases isKept
        exact formed_of_stage (by simp)
      · simp at isKept
  | @worked worker hand call _ holds acts =>
      have isFormed := formed worker hand holds
      cases acts with
      | acquired | refused | duplicate | inProgress | completed | failed =>
          refine Formed.setHand (show (world.transact _).Formed from formed) fun kept isKept => ?_
          first
            | cases isKept; exact formed_of_stage (by simp)
            | simp at isKept
      | renewed =>
          refine Formed.setHand (show (world.transact _).Formed from formed) fun kept isKept => ?_
          cases isKept
          exact isFormed
      | extended =>
          refine Formed.setHand (show (world.adjust _ _).Formed from formed) fun kept isKept => ?_
          cases isKept
          exact isFormed
      | deleted =>
          exact Formed.setHand (show (world.remove _).Formed from formed) (by simp)
      | @troubled _ more _ _ keeps =>
          refine Formed.setHand (show Formed { world with drawn := world.drawn ++ more } from formed)
            fun kept isKept => ?_
          intro job error isFailing
          rcases (keeps kept isKept).stage with same | ⟨_, _, _, other, isStage⟩
          · exact isFormed job error (same ▸ isFailing)
          · rw [isStage] at isFailing
            cases isFailing
            exact other

theorem formed_of_run {workers : Nat} {start : Time}
    (ran : Run setup Allowed (opening workers start) world) : world.Formed := by
  refine ran.keeps ?_ fun formed moves _ => formed.moves moves
  intro worker hand holds
  rw [hand?_opening] at holds
  simp at holds

/-- In every run from idle workers, whatever is allowed in it: what a worker that holds a message
does next is a stretch of `consume_one_message`, whose calls the database and the queue answer, and
it leaves the worker with what remains of it. -/
theorem run_leads {workers worker : Nat} {start : Time} {hand : Hand} {call : WorkerCall}
    (ran : Run setup Allowed (opening workers start) world) (holds : world.hand? worker = some hand)
    (consumes : call.Consumes) (steps : world.step setup (.work worker call) = some after) :
    ∃ answers last between next, Program.Leads (hand.rest setup) answers last ∧
      world.ServesAll answers between ∧ after = between.setHand worker next ∧
      Remains setup next last := by
  refine work_leads (formed_of_run ran worker hand holds) consumes ?_
  rw [← steps]
  exact (congrArg (Option.bind · fun hand => world.work setup worker hand call) holds).symm

end Runs

end TimedWorld

end JobPlatform.Runtime
