import JobPlatform.Foundation.Sequential
import JobPlatform.Store.JobStatements
import JobPlatform.Store.Runs

/-!
Contract: workers whose job transactions interleave at the steps of PostgreSQL.

Owns:
- `job_methods_linearizable`: the methods of `Repository` on jobs may be taken as single steps;
- `job_answers_in_order`: what a worker is told binds every later call.
-/

namespace JobPlatform.Store

open JobPlatform.Foundation JobPlatform.Foundation.ThreadSystem
open Repository

/-- What the workers see. -/
abbrev JobLog := List (ClientEvent JobStatement JobRow Exn)

/-- The rows of the jobs and the workers' transactions. -/
abbrev JobPool :=
  Pool (stepwise JobStatement Uuid JobRow Exn) (StepWorld JobStatement Uuid JobRow Time Exn)

/-- Workers over the rows of a database. They send what the clients may, and others insert jobs. -/
def WorkerPool (clients : Clients JobStatement JobRow Exn) (db : Database) (pool : JobPool) : Prop :=
  (stepSystem jobUpdates clients).Reachable ⟨.initial db.job?, []⟩ pool

/-- Worker `t` sent the statement when the log had come to `before`, and got the rows. -/
def Exchanged (log before : JobLog) (t : ThreadId) (statement : JobStatement)
    (rows : List JobRow) : Prop :=
  ∃ during rest, log = before ++ .invoked t statement ::
      (during ++ .answered t statement (.ok rows) :: rest) ∧
    ∀ event ∈ during, event.thread ≠ t

theorem exchanged_last {before : JobLog} {t : ThreadId} {statement : JobStatement}
    {rows : List JobRow} : Exchanged (before ++ [.invoked t statement] ++
      [.answered t statement (.ok rows)]) before t statement rows :=
  ⟨[], [], List.append_assoc _ _ _, by simp⟩

section Workers

variable {clients : Clients JobStatement JobRow Exn} {db : Database} {pool : JobPool}

theorem keyed_job {key : Uuid} {row : JobRow} (found : db.job? key = some row) :
    jobUpdates.key row = key := (Database.job?_eq_some.mp found).2

/-- The workers see, and leave behind, what they could when every statement is one step between the
call of its method and the return; and that step is the method, on any database with these rows. -/
theorem job_methods_linearizable (reached : WorkerPool clients db pool) :
    (∃ twin, (atomSystem jobUpdates clients).Reachable ⟨db.job?, []⟩ twin ∧
      twin.state.log = pool.state.log ∧ twin.state.latest = pool.state.versions.latest) ∧
    ∀ {statement now before rows after},
      AtomicRun jobUpdates statement now before rows after →
      ∀ (inputs : Inputs) (on : Database), (∀ id, on.job? id = before id) → inputs.now = now →
        statement.DrawnFor inputs on →
        ∃ done, statement.call.run inputs [] on = (statement.reply rows, done) ∧
          ∀ id, done.job? id = after id :=
  ⟨linearizable keyed_job reached, fun ran _ _ same isNow drawn =>
    JobStatement.atomic ran same isNow drawn⟩

/-- A worker that calls after a completion of the job was confirmed to anybody gets no row; and one
that calls after anybody got the job gets it with as many attempts, or with more when it claims. -/
theorem job_answers_in_order (reached : WorkerPool clients db pool) {before : JobLog} {t : ThreadId}
    {statement : JobStatement} {rows : List JobRow}
    (exchanged : Exchanged pool.state.log before t statement rows) :
    (∀ u completed returned, .answered u completed (.ok returned) ∈ before →
      completed.Completes statement.jobId → returned ≠ [] → rows = []) ∧
    ∀ u earlier returned job, .answered u earlier (.ok returned) ∈ before →
      earlier.jobId = statement.jobId → job ∈ returned → ∀ row ∈ rows,
        job.attempts ≤ row.attempts ∧
          (statement.Claims statement.jobId → job.attempts < row.attempts) := by
  obtain ⟨during, rest, isLog, apart⟩ := exchanged
  refine ⟨fun u completed returned member completes nonempty => ?_,
    fun u earlier returned job member isJob inReturned => ?_⟩
  · have inOrder := (completion clients statement.jobId).respectsOrder keyed_job reached
    exact inOrder isLog apart ⟨u, completed, returned, member, completes, nonempty⟩ rfl
  · have inOrder := (attempt clients statement.jobId job.attempts).respectsOrder keyed_job reached
    exact inOrder isLog apart
      ⟨u, earlier, returned, member, isJob, job, inReturned, Nat.le_refl _⟩ rfl

/-- A statement that one worker more runs alone. -/
theorem WorkerPool.alone {log : JobLog} {threads : ThreadId → Option (Program _ Unit)}
    {v : Versions JobStatement Uuid JobRow Time} {now : Time} {statement : JobStatement}
    {rows : List JobRow} {done : Uuid → Option JobRow} (t : ThreadId)
    (reached : WorkerPool clients db ⟨⟨v, log⟩, threads⟩) (idle : threads t = none)
    (quiet : v.Quiet jobUpdates) (sends : clients.sends log statement)
    (ran : AtomicRun jobUpdates statement now v.latest rows done) :
    ∃ after, WorkerPool clients db ⟨⟨after, log ++ [.invoked t statement] ++
        [.answered t statement (.ok rows)]⟩, threads⟩ ∧
      after.latest = done ∧ after.Quiet jobUpdates := by
  obtain ⟨after, turn, isDone, quiet⟩ := JobPlatform.Foundation.alone quiet trivial sends ran
  exact ⟨after, reached.trans (turn.steps idle), isDone, quiet⟩

end Workers

/-- A worker claims and completes a job, and one that claims it afterwards is refused. -/
theorem completed_then_refused : ∃ (db : Database) (pool : JobPool) (before : JobLog)
    (statement : JobStatement) (returned : List JobRow),
    WorkerPool ⟨fun _ _ => True, fun _ => True⟩ db pool ∧
      Exchanged pool.state.log before 1 statement [] ∧ returned ≠ [] ∧
      ∃ u completed, .answered u completed (.ok returned) ∈ before ∧
        completed.Completes statement.jobId := by
  let jobId := (Inputs.numbered 0 0).uuid 0
  let token := (Inputs.numbered 1 0).uuid 0
  let job := newJob "csv_report" (.obj []) jobId 0
  let db := ((RepoCall.createJob "csv_report" (.obj []) none).run (Inputs.numbered 0 0) [] .empty).2
  let claim : JobStatement := .markJobProcessing jobId 120 token
  let complete : JobStatement := .completeJobWithReport jobId token (.obj []) "key" "csv_report"
  have opened : WorkerPool ⟨fun _ _ => True, fun _ => True⟩ db
    (ThreadSystem.initial ⟨.initial db.job?, []⟩) := .refl
  have found : (Versions.initial db.job? : Versions JobStatement _ _ Time).latest jobId = some job :=
    rfl
  have claims : (jobUpdates.clause claim 0 job).Holds := by decide
  have quiet : (Versions.initial db.job? : Versions JobStatement _ _ Time).Quiet jobUpdates :=
    ⟨keyed_job, fun _ => rfl⟩
  have ran : AtomicRun jobUpdates claim 0 _ _ _ := .hit found claims
  obtain ⟨first, opened, isFirst, quiet⟩ := opened.alone 0 rfl quiet trivial ran
  have found : first.latest jobId = some (claimJobRow token 0 job) := by
    rw [isFirst]
    exact Function.update_self _ _ _
  have completes : (jobUpdates.clause complete 0 (claimJobRow token 0 job)).Holds := by decide
  have ran : AtomicRun jobUpdates complete 0 _ _ _ := .hit found completes
  obtain ⟨second, opened, isSecond, quiet⟩ := opened.alone 0 rfl quiet trivial ran
  have found : second.latest jobId = some (completeJobRow 0 (claimJobRow token 0 job)) := by
    rw [isSecond]
    exact Function.update_self _ _ _
  have refused : ∀ row, second.latest jobId = some row → ¬ (jobUpdates.clause claim 0 row).Holds := by
    intro row isRow
    cases found.symm.trans isRow
    decide
  have ran : AtomicRun jobUpdates claim 0 _ _ _ := .miss refused
  obtain ⟨third, opened, _, _⟩ := opened.alone 1 rfl quiet trivial ran
  refine ⟨db, _, _, claim, [completeJobRow 0 (claimJobRow token 0 job)], opened, exchanged_last,
    List.cons_ne_nil _ _, 0, complete, ?_, ?_⟩
  · exact List.mem_append_right _ (List.mem_singleton_self _)
  · exact ⟨token, _, _, _, rfl⟩

/-- Two workers select a job before either locks it. The second finds it claimed. -/
theorem workers_overlap : ∃ (db : Database) (pool : JobPool) (first second : JobStatement)
    (row : JobRow),
    WorkerPool ⟨fun _ _ => True, fun _ => True⟩ db pool ∧
      pool.state.log = [.invoked 0 first, .invoked 1 second, .answered 0 first (.ok [row]),
        .answered 1 second (.ok [])] := by
  let jobId := (Inputs.numbered 0 0).uuid 0
  let job := newJob "csv_report" (.obj []) jobId 0
  let db := ((RepoCall.createJob "csv_report" (.obj []) none).run (Inputs.numbered 0 0) [] .empty).2
  let first : JobStatement := .markJobProcessing jobId 120 ((Inputs.numbered 1 0).uuid 0)
  let second : JobStatement := .markJobProcessing jobId 120 ((Inputs.numbered 2 0).uuid 0)
  let claimed := claimJobRow ((Inputs.numbered 1 0).uuid 0) 0 job
  let one : Session JobStatement Uuid JobRow Time := ⟨first, 0, [], [], []⟩
  let two : Session JobStatement Uuid JobRow Time := ⟨second, 0, [], [], []⟩
  have only (other : Uuid) : db.job? other = if other = jobId then some job else none := by
    show [job].find? (fun row => decide (row.id = other)) = _
    by_cases isJob : job.id = other
    · simp [isJob, show other = jobId from isJob.symm]
    · simp [isJob, show other ≠ jobId from fun same => isJob same.symm]
  have claims : (jobUpdates.clause first 0 job).Holds := by decide
  have alsoClaims : (jobUpdates.clause second 0 job).Holds := by decide
  have refused : ¬ (jobUpdates.clause second 0 claimed).Holds := by decide
  have unlimited : ∀ bound, (none : Option Nat) = some bound → 0 < bound := by
    intro bound isBound
    cases isBound
  have opened : WorkerPool ⟨fun _ _ => True, fun _ => True⟩ db
    (ThreadSystem.initial ⟨.initial db.job?, []⟩) := .refl
  have started := (Reachable.start opened 0 rfl ⟨rfl, first, rfl⟩).start 1 rfl ⟨rfl, second, rfl⟩
  have invoked := started.call 0 rfl (.invoked trivial) |>.call 1 rfl (.invoked trivial)
  have selected := invoked.call 0 rfl (.sql (.began 0 rfl)) |>.call 1 rfl (.sql (.began 0 rfl))
    |>.call 0 rfl (.sql (.select_only one rfl trivial only claims))
    |>.call 1 rfl (.sql (.select_only two rfl trivial only alsoClaims))
  have free : ∀ u other, Function.update (Function.update (fun _ => none) 0 (some one)) 1
      (some two) u = some other → jobId ∉ other.locked := by
    intro u other isOther
    rw [Function.update_apply, Function.update_apply] at isOther
    split_ifs at isOther <;> cases isOther <;> exact List.not_mem_nil
  have committed := selected.call 0 rfl (.sql (.lock_free one rfl free unlimited rfl claims))
    |>.call 0 rfl (.sql (.write_rows (one.lock jobId true) [claimed] rfl (.refl _)
      (List.forall_mem_singleton.mpr ⟨job, rfl, rfl⟩)))
    |>.call 0 rfl (.sql (.commit_rows { one.lock jobId true with written := [claimed] } rfl))
    |>.call 0 rfl .answered
  have answered := committed.call 1 rfl (.sql (.lock_stale two claimed rfl (by
      intro u other isOther
      simp [Versions.setSession, Versions.commit, Function.update_apply] at isOther
      obtain ⟨_, isOther⟩ := isOther
      split_ifs at isOther
      · cases isOther
        exact List.not_mem_nil
      · cases isOther) unlimited rfl refused))
    |>.call 1 rfl (.sql (.write_rows (two.lock jobId false) [] rfl (.refl _) (List.forall_mem_nil _)))
    |>.call 1 rfl (.sql (.commit_rows (two.lock jobId false) rfl))
    |>.call 1 rfl .answered
  exact ⟨db, _, first, second, claimed, answered, rfl⟩
/-- Such workers may be taken to call the methods one after the other. -/
theorem job_methods_linearizable_overlapping : ∃ (db : Database) (pool : JobPool)
    (first second : JobStatement) (row : JobRow),
    pool.state.log = [.invoked 0 first, .invoked 1 second, .answered 0 first (.ok [row]),
      .answered 1 second (.ok [])] ∧
    ∃ twin, (atomSystem jobUpdates ⟨fun _ _ => True, fun _ => True⟩).Reachable ⟨db.job?, []⟩ twin ∧
      twin.state.log = pool.state.log ∧ twin.state.latest = pool.state.versions.latest := by
  obtain ⟨db, pool, first, second, row, reached, isLog⟩ := workers_overlap
  exact ⟨db, pool, first, second, row, isLog, (job_methods_linearizable reached).1⟩

/-- The refusal is what the completion promised. -/
theorem job_answers_in_order_completed : ∃ (db : Database) (pool : JobPool) (before : JobLog)
    (statement : JobStatement) (rows : List JobRow),
    WorkerPool ⟨fun _ _ => True, fun _ => True⟩ db pool ∧
      Exchanged pool.state.log before 1 statement rows ∧ rows = [] := by
  obtain ⟨db, pool, before, statement, returned, reached, exchanged, nonempty, u, completed, member,
    completes⟩ := completed_then_refused
  exact ⟨db, pool, before, statement, [], reached, exchanged,
    (job_answers_in_order reached exchanged).1 u completed returned member completes nonempty⟩

end JobPlatform.Store
