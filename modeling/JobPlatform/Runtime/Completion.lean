import JobPlatform.Runtime.Invariants

/-!
Contract: a job is completed once, with the report of the claim that completed it.

Owns `Provenance`, the three steps of one thread behind every completed job, its proof in every
reachable state, and the exactly-once statement it gives together with `Reported`.
-/

namespace JobPlatform.Runtime

open JobPlatform.Foundation JobPlatform.Store
open JobPlatform.Store.Repository (ClaimedJob jobFence jobViews completeJobRow)
open World

namespace World

variable {w after : World} {jobId : Uuid}

/-- One thread was granted a claim of the job, then stored a report of that claim, then completed
the job under its token with that report; the attempt of the claim is `attempts`, and the three
rows of the job are the ones it wrote. The reply of the completion may have been lost. -/
def Provenance (w : World) (jobId : Uuid) (attempts : Nat) : Prop :=
  ∃ t leaseSeconds claimed objectKey objectType reply,
    [granted t jobId leaseSeconds claimed, reportStored t objectKey (reportRows claimed),
      completionOf t claimed objectKey objectType reply].Sublist w.log ∧
    claimed.id = jobId ∧ claimed.attempts = attempts ∧
    w.db.HasReport jobId (reportResult objectKey (reportRows claimed)) objectKey objectType

/-- Every completed job has its provenance. -/
def CompletedProven (w : World) : Prop :=
  ∀ {jobId job}, w.db.job? jobId = some job → job.status = .completed →
    w.Provenance jobId job.attempts

theorem Provenance.evolves {attempts : Nat} (proven : w.Provenance jobId attempts)
    (evolves : w.Evolves after) (same : Database.SameReports jobId w.db after.db) :
    after.Provenance jobId attempts := by
  obtain ⟨t, leaseSeconds, claimed, objectKey, objectType, reply, sub, isJob, isAttempt, report⟩ :=
    proven
  exact ⟨t, leaseSeconds, claimed, objectKey, objectType, reply, sub.trans evolves.log.sublist,
    isJob, isAttempt, report.congr same⟩

/-- A completion the protocol allows leaves its provenance. -/
theorem proven_of_completion {isCloud : Bool} {t : ThreadId} {processingToken : Uuid}
    {result : Json} {objectKey objectType : String} {inputs : Inputs} {value : Unit} {done : World}
    {reply : Except Exn Unit} (sound : w.Sound)
    (allowed : Allowed isCloud t w.log (.repository
      (.completeJobWithReport jobId processingToken result objectKey objectType)))
    (effect : Effect inputs w.db
      (.completeJobWithReport jobId processingToken result objectKey objectType) value done.db)
    (sameLog : done.log = w.log) {job : JobRow} (found : done.db.job? jobId = some job) :
    (done.logged t (.repository
      (.completeJobWithReport jobId processingToken result objectKey objectType)) reply).Provenance
        jobId job.attempts := by
  obtain ⟨asked, leaseSeconds, claimed, sub, rfl, rfl, rfl⟩ := allowed
  have isGranted : granted t asked leaseSeconds claimed ∈ w.log := sub.subset List.mem_cons_self
  obtain ⟨isAsked, _, attempts⟩ := sound.truthful _ isGranted
  change claimed.id = asked at isAsked
  subst isAsked
  cases effect with
  | @jobCompleted _ _ _ _ _ row _ isRow holds completion =>
      have none := (sound.consistent.reported claimed.id).2 (not_completed_of_fence isRow holds)
      refine ⟨t, leaseSeconds, claimed, objectKey, objectType, reply, ?_, rfl, ?_,
        completion.hasReport none⟩
      · change List.Sublist _ (done.log ++ _)
        rw [sameLog]
        exact sublist_snoc sub _
      · rw [job?_eq_of_jobs completion.jobs, Database.job?_setJob, if_pos rfl, isRow] at found
        cases found
        simp only [jobFence, Truth.holds_and, Truth.holds_eq_some] at holds
        exact (attempts row isRow holds.2).symm

end World

/-- In every reachable state every completed job has its provenance. -/
theorem proven_of_reachable {isCloud : Bool} {pool : Pool platform World}
    (reached : (jobPlatform isCloud).Reachable World.initial pool) :
    pool.state.Sound ∧ pool.state.CompletedProven := by
  refine sound_invariant ?_ ?_ ?_ reached
  · intro jobId job found
    cases found
  · intro t w done call reply sound allowed performed evolves holds jobId job found completed
    rcases performed.database with same | ⟨repoCall, inputs, value, rfl, _, effect⟩
    · refine (holds (same ▸ found) completed).evolves evolves ?_
      change Database.SameReports jobId w.db done.db
      rw [same]
      exact ⟨rfl, rfl, rfl⟩
    · by_cases already : w.db.Completed jobId
      · obtain ⟨sameRow, sameReports⟩ := sameJob_of_completed sound.consistent.reported effect already
        exact (holds (sameRow ▸ found) completed).evolves evolves sameReports
      · rcases completed_of_jobChange (jobChange_of_effect effect jobId) with
          ⟨processingToken, result, objectKey, objectType, rfl⟩ | status
        · exact proven_of_completion sound allowed effect performed.log_eq found
        · exact absurd (status.mp ⟨job, found, completed⟩) already
  · intro w after same evolves holds jobId job found completed
    refine (holds (same ▸ found) completed).evolves evolves ?_
    rw [same]
    exact ⟨rfl, rfl, rfl⟩

/-- No step changes a completed job or its three rows. -/
theorem completed_unchanged {isCloud : Bool} {pool later : Pool platform World}
    (reached : (jobPlatform isCloud).Reachable World.initial pool)
    (steps : Relation.ReflTransGen (jobPlatform isCloud).Step pool later) {jobId : Uuid}
    (completed : pool.state.db.Completed jobId) :
    later.state.db.job? jobId = pool.state.db.job? jobId ∧
      Database.SameReports jobId pool.state.db later.state.db := by
  induction steps with
  | refl => exact ⟨rfl, rfl, rfl, rfl⟩
  | @tail middle last before step inductionHypothesis =>
      obtain ⟨sameRow, same⟩ := inductionHypothesis
      have sound := (proven_of_reachable (reached.trans before)).1
      have still : middle.state.db.Completed jobId := by
        unfold Database.Completed
        rw [sameRow]
        exact completed
      have stepSame : last.state.db.job? jobId = middle.state.db.job? jobId ∧
          Database.SameReports jobId middle.state.db last.state.db := by
        cases step with
        | start _ started =>
            have started : middle.state.Start isCloud _ _ := started
            cases started <;> exact ⟨rfl, rfl, rfl, rfl⟩
        | call _ called =>
            obtain ⟨done, performed, rfl⟩ := called
            rcases performed.database with sameDb | ⟨_, _, _, _, _, effect⟩
            · change done.db.job? jobId = _ ∧ Database.SameReports jobId _ done.db
              rw [sameDb]
              exact ⟨rfl, rfl, rfl, rfl⟩
            · exact sameJob_of_completed sound.consistent.reported effect still
        | stop => exact ⟨rfl, rfl, rfl, rfl⟩
        | env moved =>
            have moved : middle.state.Env _ := moved
            dsimp only
            rw [moved.db_eq]
            exact ⟨rfl, rfl, rfl, rfl⟩
      exact ⟨stepSame.1.trans sameRow, stepSame.2.reports.trans same.reports,
        stepSame.2.objects.trans same.objects, stepSame.2.completions.trans same.completions⟩

/-- In every reachable state: a job is completed exactly when it has one result row, one object
row and one completion audit, and has none of them otherwise; `get_job` reads one row of every
job; no `ON CONFLICT` clause finds a row once the fence is passed; the three rows of a completed
job agree and name the report that one thread stored between being granted the claim and
completing under it, and that report carries the job's attempts; and nothing changes a completed
job or its rows. -/
theorem exactly_once_completion {isCloud : Bool} {pool : Pool platform World}
    (reached : (jobPlatform isCloud).Reachable World.initial pool) :
    (∀ job ∈ pool.state.db.jobs.rows, job.status = .completed ↔
      (pool.state.db.reportsOf job.id).length = 1 ∧
      (pool.state.db.objectsOf job.id).length = 1 ∧
      (pool.state.db.completionsOf job.id).length = 1) ∧
    (∀ job ∈ pool.state.db.jobs.rows, job.status ≠ .completed →
      pool.state.db.HasNoReport job.id) ∧
    (∀ job ∈ pool.state.db.jobs.rows, (jobViews pool.state.db job.id).length = 1) ∧
    (∀ jobId job token, pool.state.db.job? jobId = some job → (jobFence token job).Holds →
      (¬ ∃ old ∈ pool.state.db.jobResults.rows, old.jobId = jobId) ∧
      ∀ objectKey, ¬ ∃ old ∈ pool.state.db.objectMetadata.rows,
        old.jobId = jobId ∧ old.objectKey = objectKey) ∧
    (∀ job ∈ pool.state.db.jobs.rows, job.status = .completed →
      ∃ t leaseSeconds claimed objectKey objectType reply,
        [granted t job.id leaseSeconds claimed, reportStored t objectKey (reportRows claimed),
          completionOf t claimed objectKey objectType reply].Sublist pool.state.log ∧
        pool.state.db.HasReport job.id (reportResult objectKey (reportRows claimed)) objectKey
          objectType ∧
        (objectKey, reportRows claimed) ∈ pool.state.objects ∧
        ("attempt", toString job.attempts) ∈ reportRows claimed) ∧
    (∀ later, Relation.ReflTransGen (jobPlatform isCloud).Step pool later →
      ∀ jobId, pool.state.db.Completed jobId →
        later.state.db.job? jobId = pool.state.db.job? jobId ∧
          Database.SameReports jobId pool.state.db later.state.db) := by
  obtain ⟨sound, proven⟩ := proven_of_reachable reached
  have reported := sound.consistent.reported
  have found : ∀ job ∈ pool.state.db.jobs.rows, pool.state.db.job? job.id = some job :=
    fun job member => Database.job?_eq_some.mpr ⟨member, rfl⟩
  have open' : ∀ job ∈ pool.state.db.jobs.rows, job.status ≠ .completed →
      pool.state.db.HasNoReport job.id := by
    intro job member unfinished
    refine (reported job.id).2 ?_
    rintro ⟨other, isOther, finished⟩
    rw [found job member] at isOther
    cases isOther
    exact unfinished finished
  refine ⟨?_, open', fun job member => length_jobViews reported member, ?_, ?_,
    fun later steps jobId completed => completed_unchanged reached steps completed⟩
  · intro job member
    constructor
    · intro completed
      obtain ⟨result, objectKey, objectType, report⟩ :=
        (reported job.id).1 ⟨job, found job member, completed⟩
      obtain ⟨row, isReport, _⟩ := report.reports
      obtain ⟨object, isObject, _⟩ := report.objects
      obtain ⟨audit, isAudit, _⟩ := report.completions
      simp [isReport, isObject, isAudit]
    · rintro ⟨one, _⟩
      by_contra unfinished
      rw [(open' job member unfinished).reports] at one
      cases one
  · intro jobId job token isJob holds
    have none := (reported jobId).2 (not_completed_of_fence isJob holds)
    exact ⟨none.unreported, none.uncatalogued⟩
  · intro job member completed
    obtain ⟨t, leaseSeconds, claimed, objectKey, objectType, reply, sub, _, isAttempt, report⟩ :=
      proven (found job member) completed
    have stored : reportStored t objectKey (reportRows claimed) ∈ pool.state.log :=
      sub.subset (List.mem_cons_of_mem _ List.mem_cons_self)
    refine ⟨t, leaseSeconds, claimed, objectKey, objectType, reply, sub, report,
      sound.truthful _ stored, ?_⟩
    simp [reportRows, isAttempt]

/-- A completed job beside one whose worker died. -/
theorem exactly_once_completion_processing : ∃ pool : Pool platform World,
    (jobPlatform true).Reachable World.initial pool ∧
      (∃ job ∈ pool.state.db.jobs.rows, (pool.state.db.reportsOf job.id).length = 1 ∧
        (pool.state.db.objectsOf job.id).length = 1 ∧
        (pool.state.db.completionsOf job.id).length = 1 ∧
        ∃ objectKey rows, (objectKey, rows) ∈ pool.state.objects ∧
          ("attempt", toString job.attempts) ∈ rows) ∧
      ∃ job ∈ pool.state.db.jobs.rows, job.status = .processing ∧
        pool.state.db.HasNoReport job.id := by
  obtain ⟨pool, reached, ⟨done, isDone, completed⟩, ⟨job, member, processing⟩, _⟩ :=
    reachable_processing
  have once := exactly_once_completion reached
  obtain ⟨reports, objects, completions⟩ := (once.1 done isDone).mp completed
  obtain ⟨_, _, claimed, objectKey, _, _, _, _, isStored, isAttempt⟩ :=
    once.2.2.2.2.1 done isDone completed
  exact ⟨pool, reached,
    ⟨done, isDone, reports, objects, completions, objectKey, _, isStored, isAttempt⟩,
    job, member, processing, once.2.1 job member (by simp [processing])⟩

end JobPlatform.Runtime
