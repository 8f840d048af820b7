import JobPlatform.Runtime.ReportFiles

/-!
Contract: what the API tells its clients of a job over time.

Owns:
- `told`, the view of a job that an answer gives, and `ViewKept`, how it may differ from an earlier
  one;
- that no transaction takes back anything of the view of a job;
- `views_consistent`: all answers of a run, to any clients and in any interleaving, agree.

Does not own the text of an answer.
-/

namespace JobPlatform.Runtime

open JobPlatform.Foundation JobPlatform.Store
open JobPlatform.Store.Repository (JobView jobViews)

/-! ### Views -/

/-- What a later view of a job keeps. A completed job is shown as it was. -/
structure ViewKept (earlier later : JobView) : Prop where
  row : RowKept earlier.job later.job
  final : earlier.job.status = .completed → later = earlier

theorem ViewKept.refl (view : JobView) : ViewKept view view :=
  ⟨.refl _, fun _ => rfl⟩

theorem ViewKept.trans {first second third : JobView} (earlier : ViewKept first second)
    (later : ViewKept second third) : ViewKept first third where
  row :=
    { id := later.row.id.trans earlier.row.id
      jobType := later.row.jobType.trans earlier.row.jobType
      payload := later.row.payload.trans earlier.row.payload
      createdAt := later.row.createdAt.trans earlier.row.createdAt
      attempts := earlier.row.attempts.trans later.row.attempts }
  final := by
    intro completed
    have same := earlier.final completed
    rw [later.final (by rw [same]; exact completed), same]

/-- What `get_job` reads. -/
def viewNow (db : Database) (jobId : Uuid) : Option JobView := (jobViews db jobId).head?

section Views

variable {inputs : Inputs} {db after : Database} {jobId : Uuid} {view : JobView}

theorem job_of_viewNow (seen : viewNow db jobId = some view) : db.job? jobId = some view.job :=
  World.row_of_read (show Effect (Inputs.numbered 0 0) db (.getJob jobId) view db from .jobRead seen)

theorem viewNow_of_job (reported : db.Reported) {job : JobRow} (found : db.job? jobId = some job) :
    ∃ view, viewNow db jobId = some view ∧ view.job = job := by
  have isJob := Database.job?_eq_some.mp found
  have single := length_jobViews reported isJob.1
  rw [isJob.2] at single
  cases views : jobViews db jobId with
  | nil => simp [views] at single
  | cons view rest =>
      have seen : viewNow db jobId = some view := by simp [viewNow, views]
      refine ⟨view, seen, ?_⟩
      have same := job_of_viewNow seen
      rw [found] at same
      exact (Option.some.inj same).symm

theorem viewNow_congr (sameRow : after.job? jobId = db.job? jobId)
    (same : Database.SameReports jobId db after) {job : JobRow}
    (found : db.job? jobId = some job) : viewNow after jobId = viewNow db jobId := by
  have before := Database.job?_eq_some.mp found
  have later := Database.job?_eq_some.mp (sameRow.trans found)
  have isId := before.2
  subst isId
  unfold viewNow jobViews
  rw [filter_jobs before.1, filter_jobs later.1]
  simp only [List.flatMap_cons, List.flatMap_nil, List.append_nil]
  rw [show (after.jobResults.rows.filter fun row => row.jobId = job.id) =
      db.jobResults.rows.filter fun row => row.jobId = job.id from same.reports,
    show (after.objectMetadata.rows.filter fun row => row.jobId = job.id) =
      db.objectMetadata.rows.filter fun row => row.jobId = job.id from same.objects]

/-- A transaction takes back nothing of a view. -/
theorem viewKept_of_effect (reported : db.Reported) {call : RepoCall} {value : call.Result}
    (effect : Effect inputs db call value after) (seen : viewNow db jobId = some view) :
    ∃ next, viewNow after jobId = some next ∧ ViewKept view next := by
  have found := job_of_viewNow seen
  by_cases completed : db.Completed jobId
  · have same := sameJob_of_completed reported effect completed
    refine ⟨view, ?_, .refl view⟩
    rw [viewNow_congr same.1 same.2 found]
    exact seen
  · obtain ⟨row, isRow, kept⟩ := rowKept_of_jobChange (jobChange_of_effect effect jobId) found
    obtain ⟨next, isNext, sameRow⟩ := viewNow_of_job (reported.effect effect) isRow
    refine ⟨next, isNext, sameRow ▸ kept, fun isCompleted => ?_⟩
    exact absurd ⟨view.job, found, isCompleted⟩ completed

/-- A view shows the report of the job, if it has one, and nothing in its place otherwise. -/
theorem shows_report (seen : viewNow db jobId = some view) :
    (∀ {result objectKey objectType}, db.HasReport jobId result objectKey objectType →
      view = ⟨view.job, some result, some objectKey, some objectType⟩) ∧
      (db.HasNoReport jobId → view = ⟨view.job, none, none, none⟩) := by
  have isJob := Database.job?_eq_some.mp (job_of_viewNow seen)
  have views : viewNow db jobId = some view := seen
  rw [viewNow, jobViews, ← isJob.2, filter_jobs isJob.1] at views
  simp only [List.flatMap_cons, List.flatMap_nil, List.append_nil] at views
  rw [isJob.2] at views
  constructor
  · intro result objectKey objectType report
    obtain ⟨row, isRow, isResult⟩ := report.reports
    obtain ⟨object, isObject, isKey, isType⟩ := report.objects
    unfold Database.reportsOf at isRow
    unfold Database.objectsOf at isObject
    rw [isRow, isObject] at views
    rw [← isResult, ← isKey, ← isType]
    exact (Option.some.inj (show some _ = some view from views)).symm
  · intro none
    have noRow := none.reports
    have noObject := none.objects
    unfold Database.reportsOf at noRow
    unfold Database.objectsOf at noObject
    rw [noRow, noObject] at views
    exact (Option.some.inj (show some _ = some view from views)).symm

theorem shows_nothing (reported : db.Reported) (seen : viewNow db jobId = some view)
    (unfinished : view.job.status ≠ .completed) : view = ⟨view.job, none, none, none⟩ := by
  apply (shows_report seen).2
  apply (reported jobId).2
  intro completed
  obtain ⟨job, isRow, isCompleted⟩ := completed
  rw [job_of_viewNow seen] at isRow
  rw [Option.some.inj isRow] at unfinished
  exact unfinished isCompleted

/-- `create_job` returns the view that `get_job` would read. -/
theorem viewNow_of_created {jobType : String} {payload : PyJson} {correlationId : Option String}
    {job : JobRow} (reported : after.Reported)
    (effect : Effect inputs db (.createJob jobType payload correlationId) job after) :
    viewNow after job.id = some ⟨job, none, none, none⟩ := by
  have stored : after.job? job.id = some job ∧ job.status ≠ .completed := by
    cases effect with
    | jobCreated inserted =>
        refine ⟨?_, by simp [Repository.newJob]⟩
        show Table.find? _ _ = _
        rw [Table.find?_insert? inserted]
        exact if_pos rfl
  obtain ⟨view, seen, isJob⟩ := viewNow_of_job reported stored.1
  subst isJob
  rw [seen, shows_nothing reported seen stored.2]

theorem viewNow_of_read (effect : Effect inputs db (.getJob jobId) view after) :
    viewNow after view.job.id = some view := by
  cases effect with
  | jobRead found =>
      rw [(Database.job?_eq_some.mp (job_of_viewNow found)).2]
      exact found

end Views

/-! ### Answers -/

/-- The view of a job that the answer to a call gives: `create_job` returns its row, and `get_job`
all of it. -/
def told : (call : PlatformCall) → platform.Reply call → Option JobView
  | .repository (.createJob ..), .ok job => some ⟨job, none, none, none⟩
  | .repository (.getJob _), .ok view => some view
  | _, _ => none

/-- The answers in a log agree with each other and with the database. -/
structure ToldTruly (w : World) : Prop where
  chronological : w.log.Pairwise fun earlier later => ∀ view next,
    told earlier.call earlier.reply = some view → told later.call later.reply = some next →
      view.job.id = next.job.id → ViewKept view next
  current : ∀ entry ∈ w.log, ∀ view, told entry.call entry.reply = some view →
    ∃ now, viewNow w.db view.job.id = some now ∧ ViewKept view now
  unfinished : ∀ entry ∈ w.log, ∀ view, told entry.call entry.reply = some view →
    view.job.status ≠ .completed → view = ⟨view.job, none, none, none⟩

section Runs

variable {isCloud : Bool} {w done : World} {pool : Pool platform World}

/-- An answer gives the view of the job right after the call. -/
theorem viewNow_of_told {call : PlatformCall} {reply : platform.Reply call} {view : JobView}
    (reported : done.db.Reported) (performed : w.Perform call reply done)
    (isTold : told call reply = some view) : viewNow done.db view.job.id = some view := by
  unfold told at isTold
  split at isTold
  next =>
    obtain ⟨_, _, _, effect⟩ := performed.effect
    rw [← Option.some.inj isTold]
    exact viewNow_of_created reported effect
  next =>
    obtain ⟨_, _, _, effect⟩ := performed.effect
    rw [← Option.some.inj isTold]
    exact viewNow_of_read effect
  next => simp at isTold

/-- No call takes back anything of a view. -/
theorem viewKept_of_perform {call : PlatformCall} {reply : platform.Reply call} {jobId : Uuid}
    {view : JobView} (reported : w.db.Reported) (performed : w.Perform call reply done)
    (seen : viewNow w.db jobId = some view) :
    ∃ next, viewNow done.db jobId = some next ∧ ViewKept view next := by
  rcases performed.database with same | ⟨_, _, _, _, _, effect⟩
  · rw [same]
    exact ⟨view, seen, .refl view⟩
  · exact viewKept_of_effect reported effect seen

theorem ToldTruly.perform {call : PlatformCall} {reply : platform.Reply call} (t : ThreadId)
    (sound : w.Sound) (performed : w.Perform call reply done) (truly : ToldTruly w) :
    ToldTruly (done.logged t call reply) := by
  have isLog : (done.logged t call reply).log = w.log ++ [⟨t, call, reply⟩] := by
    rw [← performed.log_eq]
    rfl
  have reported : done.db.Reported := (sound.consistent.perform performed).reported
  have still : ∀ entry ∈ w.log, ∀ view, told entry.call entry.reply = some view →
      ∃ now, viewNow done.db view.job.id = some now ∧ ViewKept view now := by
    intro entry member view isTold
    obtain ⟨before, seen, kept⟩ := truly.current entry member view isTold
    obtain ⟨now, isNow, further⟩ := viewKept_of_perform sound.consistent.reported performed seen
    exact ⟨now, isNow, kept.trans further⟩
  have last : ∀ view, told call reply = some view → viewNow done.db view.job.id = some view :=
    fun view isTold => viewNow_of_told reported performed isTold
  constructor
  · rw [isLog, List.pairwise_append]
    refine ⟨truly.chronological, List.pairwise_singleton _ _, ?_⟩
    intro entry member new isNew view next isTold isNext sameJob
    rw [List.mem_singleton.mp isNew] at isNext
    obtain ⟨now, isNow, kept⟩ := still entry member view isTold
    rw [sameJob, last next isNext] at isNow
    rw [Option.some.inj isNow]
    exact kept
  · rw [isLog]
    intro entry member view isTold
    rcases List.mem_append.mp member with old | new
    · exact still entry old view isTold
    · rw [List.mem_singleton.mp new] at isTold
      exact ⟨view, last view isTold, .refl view⟩
  · rw [isLog]
    intro entry member view isTold unfinished
    rcases List.mem_append.mp member with old | new
    · exact truly.unfinished entry old view isTold unfinished
    · rw [List.mem_singleton.mp new] at isTold
      exact shows_nothing reported (last view isTold) unfinished

theorem toldTruly_of_reachable (reached : (jobPlatform isCloud).Reachable World.initial pool) :
    ToldTruly pool.state := by
  apply call_invariant _ _ _ reached
  · constructor
    · exact List.Pairwise.nil
    · simp [World.initial]
    · simp [World.initial]
  · exact fun t sound performed truly => truly.perform t sound performed
  · intro w after sameDb sameLog _ _ truly
    constructor
    · rw [sameLog]
      exact truly.chronological
    · rw [sameLog, sameDb]
      exact truly.current
    · rw [sameLog]
      exact truly.unfinished

end Runs

/-- All that a run of the platform ever tells its clients of a job agrees, whatever crashed or was
retried in between. Answers are taken in the order of their transactions, which need not be the order
in which they reach the clients: a later answer gives the same type, payload and time of creation and
no fewer attempts, and once an answer showed the job as completed, every later one is the same in
every field. An answer shows a result and an object exactly when it shows the job as completed, and
the object it then names is, and stays, in the store, as the result describes it. -/
theorem views_consistent {isCloud : Bool} {pool : Pool platform World}
    (reached : (jobPlatform isCloud).Reachable World.initial pool) :
    (pool.state.log.Pairwise fun earlier later => ∀ view next,
      told earlier.call earlier.reply = some view → told later.call later.reply = some next →
        view.job.id = next.job.id → ViewKept view next) ∧
      ∀ entry ∈ pool.state.log, ∀ view, told entry.call entry.reply = some view →
        (view.job.status ≠ .completed → view = ⟨view.job, none, none, none⟩) ∧
        (view.job.status = .completed → ∃ objectKey objectType rows,
          view = ⟨view.job, some (reportResult objectKey rows), some objectKey, some objectType⟩ ∧
          (objectKey, rows) ∈ pool.state.objects) := by
  have truly := toldTruly_of_reachable reached
  refine ⟨truly.chronological, fun entry member view isTold =>
    ⟨truly.unfinished entry member view isTold, fun completed => ?_⟩⟩
  obtain ⟨now, isNow, kept⟩ := truly.current entry member view isTold
  rw [kept.final completed] at isNow
  have found := job_of_viewNow isNow
  obtain ⟨sound, proven⟩ := proven_of_reachable reached
  obtain ⟨t, leaseSeconds, claimed, objectKey, objectType, _, steps, _, _, report⟩ :=
    proven found completed
  have isStored : (objectKey, reportRows claimed) ∈ pool.state.objects :=
    sound.truthful _ (steps.subset (List.mem_cons_of_mem _ List.mem_cons_self))
  exact ⟨objectKey, objectType, reportRows claimed, (shows_report isNow).1 report, isStored⟩

/-- A client that asks after the job was processed. -/
theorem views_consistent_completed : ∃ pool : Pool platform World,
    (jobPlatform false).Reachable World.initial pool ∧
      (∃ entry ∈ pool.state.log, ∃ view, told entry.call entry.reply = some view ∧
        view.job.status = .completed) ∧
      pool.state.log.Pairwise fun earlier later => ∀ view next,
        told earlier.call earlier.reply = some view → told later.call later.reply = some next →
          view.job.id = next.job.id → ViewKept view next := by
  let jobId := (Inputs.numbered 0 0).uuid 0
  have opened : (jobPlatform false).Reachable World.initial _ := .refl
  have created := (opened.start 0 rfl (.createJob "csv_report" (.obj []) none)).call 0 rfl
    ⟨_, .answered (show (Inputs.numbered 0 0).Fresh _ by decide) rfl, rfl⟩
  have claimed := (created.start 1 rfl (.processJob ⟨"reports"⟩ jobId 120)).call 1 rfl
    ⟨_, .answered (show (Inputs.numbered 1 0).Fresh _ by decide) rfl, rfl⟩
  have drawn := (claimed.call 1 rfl ⟨_, .recorded, rfl⟩).call 1 rfl
    ⟨_, .uuid4 (show (Inputs.numbered 2 0).uuid 0 ∉ _ by decide), rfl⟩
  have completed := (drawn.call 1 rfl ⟨_, .stored (.ok ()), rfl⟩).call 1 rfl
    ⟨_, .answered (show (Inputs.numbered 3 0).Fresh _ by decide) rfl, rfl⟩
  have asked := (completed.start 2 rfl (.getJob jobId)).call 2 rfl
    ⟨_, .answered (show (Inputs.numbered 4 0).Fresh _ by decide) rfl, rfl⟩
  exact ⟨_, asked, ⟨_, List.mem_append_right _ (List.mem_singleton.mpr rfl), _, rfl, rfl⟩,
    (views_consistent asked).1⟩

end JobPlatform.Runtime
