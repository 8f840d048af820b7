import JobPlatform.Foundation.Transcript
import JobPlatform.Migrations.Runner

/-!
Contract: what any history of migration runs does to the database.

Owns:
- `Extends`, the effect of some scripts together with their versions;
- `Consistent`, every script took effect once and is recorded, and the discipline that keeps it;
- what a run commits, and that it commits everything or nothing.
-/

namespace JobPlatform.Migrations

open JobPlatform.Foundation JobPlatform.Foundation.ThreadSystem

variable {σ : Type}

/-! ### Scripts and versions -/

/-- The schema after some scripts. -/
def runScripts (files : List (MigrationFile σ)) (schema : σ) : Except MigrationError σ :=
  files.foldlM (fun current file => file.text current) schema

theorem runScripts_append {first second : List (MigrationFile σ)} {schema middle : σ}
    (ran : runScripts first schema = .ok middle) :
    runScripts (first ++ second) schema = runScripts second middle := by
  unfold runScripts at ran ⊢
  rw [List.foldlM_append, ran]
  rfl

namespace MigratedDb

/-- The database after some scripts took effect and were recorded. -/
structure Extends (db : MigratedDb σ) (applied : List (MigrationFile σ)) (after : MigratedDb σ) :
    Prop where
  executed : after.executed = db.executed ++ applied
  recorded : after.recorded = db.recorded ++ applied.map MigrationFile.name
  schema : runScripts applied db.schema = .ok after.schema
  nodup : db.recorded.Nodup → after.recorded.Nodup

theorem Extends.trans {db middle after : MigratedDb σ} {first second : List (MigrationFile σ)}
    (before : db.Extends first middle) (later : middle.Extends second after) :
    db.Extends (first ++ second) after where
  executed := by rw [later.executed, before.executed, List.append_assoc]
  recorded := by rw [later.recorded, before.recorded, List.map_append, List.append_assoc]
  schema := by rw [runScripts_append before.schema, later.schema]
  nodup distinct := later.nodup (before.nodup distinct)

/-- The statements for one file. -/
def fileWrites (file : MigrationFile σ) : List (Write σ) := [.run file, .record file.name]

/-- The statements of a run that applies these files. -/
def plan (applied : List (MigrationFile σ)) : List (Write σ) :=
  .createVersions :: applied.flatMap fileWrites

theorem plan_append_file (applied : List (MigrationFile σ)) (file : MigrationFile σ) :
    plan applied ++ [.run file] ++ [.record file.name] = plan (applied ++ [file]) := by
  simp [plan, fileWrites]

theorem replay_cons {write : Write σ} {writes : List (Write σ)} {db after : MigratedDb σ}
    (replayed : postgres.replay (write :: writes) db = .ok after) :
    ∃ middle, apply write db = .ok middle ∧ postgres.replay writes middle = .ok after := by
  unfold Storage.replay at replayed ⊢
  rw [List.foldlM_cons] at replayed
  cases outcome : apply write db with
  | error error =>
      change (apply write db >>= _) = _ at replayed
      rw [outcome] at replayed
      cases replayed
  | ok middle =>
      change (apply write db >>= _) = _ at replayed
      rw [outcome] at replayed
      exact ⟨middle, rfl, replayed⟩

theorem apply_run {file : MigrationFile σ} {db after : MigratedDb σ}
    (ran : apply (.run file) db = .ok after) : ∃ schema, file.text db.schema = .ok schema ∧
      after = { db with schema, executed := db.executed ++ [file] } := by
  simp only [apply] at ran
  cases outcome : file.text db.schema with
  | error error =>
      rw [outcome] at ran
      cases ran
  | ok schema =>
      rw [outcome] at ran
      cases ran
      exact ⟨schema, rfl, rfl⟩

/-- The primary key of `schema_migrations` refuses a version that is already there. -/
theorem apply_record {version : String} {db after : MigratedDb σ}
    (recorded : apply (.record version) db = .ok after) :
    version ∉ db.recorded ∧ after = { db with versions := some (db.recorded ++ [version]) } := by
  simp only [apply] at recorded
  unfold MigratedDb.recorded
  cases isVersions : db.versions with
  | none =>
      rw [isVersions] at recorded
      cases recorded
  | some versions =>
      rw [isVersions] at recorded
      dsimp only at recorded
      split_ifs at recorded with present
      cases recorded
      exact ⟨present, rfl⟩

theorem extends_file {file : MigrationFile σ} {db middle after : MigratedDb σ}
    (ran : apply (.run file) db = .ok middle)
    (recorded : apply (.record file.name) middle = .ok after) : db.Extends [file] after := by
  obtain ⟨schema, isSchema, rfl⟩ := apply_run ran
  obtain ⟨fresh, rfl⟩ := apply_record recorded
  constructor
  · rfl
  · rfl
  · change (file.text db.schema >>= fun current => runScripts [] current) = .ok schema
    rw [isSchema]
    rfl
  · intro distinct
    have appended := List.Nodup.concat fresh distinct
    rw [List.concat_eq_append] at appended
    exact appended

theorem extends_files {applied : List (MigrationFile σ)} {db after : MigratedDb σ}
    (replayed : postgres.replay (applied.flatMap fileWrites) db = .ok after) :
    db.Extends applied after := by
  induction applied generalizing db with
  | nil =>
      cases replayed
      exact ⟨(List.append_nil _).symm, (List.append_nil _).symm, rfl, id⟩
  | cons file rest inductionHypothesis =>
      obtain ⟨middle, ran, replayed⟩ := replay_cons replayed
      obtain ⟨next, recorded, replayed⟩ := replay_cons replayed
      exact (extends_file ran recorded).trans (inductionHypothesis replayed)

/-- The first statement of a run records nothing. -/
theorem extends_createVersions (db : MigratedDb σ) :
    db.Extends [] { db with versions := some db.recorded } :=
  ⟨(List.append_nil _).symm, (List.append_nil _).symm, rfl, id⟩

/-- What a run commits. -/
theorem extends_plan {applied : List (MigrationFile σ)} {db after : MigratedDb σ}
    (replayed : postgres.replay (plan applied) db = .ok after) : db.Extends applied after := by
  obtain ⟨middle, created, replayed⟩ := replay_cons replayed
  cases created
  exact db.extends_createVersions.trans (extends_files replayed)

/-- Every script took effect once, and is recorded. -/
structure Consistent (base db : MigratedDb σ) : Prop where
  names : db.executed.map MigrationFile.name = db.recorded
  nodup : db.recorded.Nodup
  schema : runScripts db.executed base.schema = .ok db.schema

/-- A database in which no migration was run. -/
def Fresh (db : MigratedDb σ) : Prop := db.executed = [] ∧ db.recorded = []

theorem Fresh.consistent {base : MigratedDb σ} (fresh : base.Fresh) : base.Consistent base where
  names := by rw [fresh.1, fresh.2, List.map_nil]
  nodup := by rw [fresh.2]; exact List.nodup_nil
  schema := by rw [fresh.1]; rfl

theorem Consistent.extends {base db after : MigratedDb σ} {applied : List (MigrationFile σ)}
    (consistent : base.Consistent db) (grown : db.Extends applied after) :
    base.Consistent after where
  names := by rw [grown.executed, grown.recorded, List.map_append, consistent.names]
  nodup := grown.nodup consistent.nodup
  schema := by rw [grown.executed, runScripts_append consistent.schema, grown.schema]

/-- The files of a directory that are not recorded, in the order of their names. -/
def Pending (db : MigratedDb σ) (files applied : List (MigrationFile σ)) : Prop :=
  applied.Pairwise (fun earlier later => earlier.name < later.name) ∧
    applied.Perm (files.filter fun file => file.name ∉ db.recorded)

/-- A run that applied what was pending has recorded every file of its directory. -/
theorem Pending.all_recorded {db after : MigratedDb σ} {files applied : List (MigrationFile σ)}
    (pending : db.Pending files applied) (grown : db.Extends applied after) :
    ∀ file ∈ files, file.name ∈ after.recorded := by
  intro file member
  rw [grown.recorded, List.mem_append]
  by_cases already : file.name ∈ db.recorded
  · exact .inl already
  · refine .inr (List.mem_map_of_mem (pending.2.mem_iff.mpr ?_))
    exact List.mem_filter.mpr ⟨member, decide_eq_true already⟩

theorem sorted_perm (paths : List (MigrationFile σ)) : (sorted paths).Perm paths :=
  List.perm_insertionSort _ paths

/-- Different names sort strictly. -/
theorem sorted_pairwise {paths : List (MigrationFile σ)}
    (names : (paths.map MigrationFile.name).Nodup) :
    (sorted paths).Pairwise fun earlier later => earlier.name < later.name := by
  let le := fun left right : MigrationFile σ => left.name ≤ right.name
  have : Std.Total le := ⟨fun left right => le_total left.name right.name⟩
  have : IsTrans (MigrationFile σ) le := ⟨fun _ _ _ first second => le_trans first second⟩
  have ascending : (sorted paths).Pairwise le := List.pairwise_insertionSort le paths
  have distinct : (sorted paths).Pairwise fun left right => left.name ≠ right.name :=
    List.pairwise_map.mp (((sorted_perm paths).map _).nodup_iff.mpr names)
  exact ascending.imp₂ (fun _ _ isLe isNe => lt_of_le_of_ne isLe isNe) distinct

/-- The loop over a directory applies what is pending. -/
theorem pending_sorted {db : MigratedDb σ} {files paths : List (MigrationFile σ)}
    (names : (files.map MigrationFile.name).Nodup) (same : paths.Perm files) :
    db.Pending files ((sorted paths).filter fun file => file.name ∉ db.recorded) := by
  refine ⟨?_, ((sorted_perm paths).trans same).filter _⟩
  exact (sorted_pairwise ((same.map _).nodup_iff.mpr names)).filter _

end MigratedDb

/-! ### The discipline of the runners -/

/-- What a process may do: it writes under the lock, and it commits what is pending. -/
def Allowed (t : ThreadId) (d : Deployment σ) : MigrationCall σ → Prop
  | .sql .commit => ∀ writes, d.store.sessions t = some writes → d.store.lock = some t ∧
      ∃ applied, writes = MigratedDb.plan applied ∧ d.committed.Pending (d.directory t) applied
  | .sql statement => SessionStore.LocksFirst t d.store statement
  | _ => True

/-- The state of the system between two steps. -/
structure Sound (base : MigratedDb σ) (d : Deployment σ) : Prop where
  exclusive : d.store.Exclusive
  consistent : base.Consistent d.committed
  names : ∀ t, ((d.directory t).map MigrationFile.name).Nodup

/-- A waiting process keeps its directory, and its lock keeps the database. -/
def Waits (t : ThreadId) (d after : Deployment σ) : Prop :=
  after.directory t = d.directory t ∧ SessionStore.Waits t d.store after.store

section Discipline

variable {base : MigratedDb σ} {t : ThreadId} {d after : Deployment σ} {c : MigrationCall σ}
  {reply : (migrationCalls σ).Reply c}

theorem Allowed.locksFirst {statement : SessionCall (Write σ)}
    (allowed : Allowed t d (.sql statement)) :
    SessionStore.LocksFirst t d.store statement := by
  cases statement with
  | commit => trivial
  | _ => exact allowed

/-- A call commits what is pending, or leaves the database alone. -/
theorem committed_of_perform (allowed : Allowed t d c) (performed : Deployment.Perform t d c reply after) :
    after.committed = d.committed ∨
      ∃ applied, d.committed.Pending (d.directory t) applied ∧
        d.committed.Extends applied after.committed := by
  cases performed with
  | @sql statement reply store performed =>
      by_cases isCommit : statement = .commit
      · subst isCommit
        cases reply with
        | error error => exact .inl (congrArg SessionStore.committed performed.error_same)
        | ok value =>
            obtain ⟨writes, opened, replayed⟩ := performed.commit_ok
            obtain ⟨_, applied, rfl, pending⟩ := allowed writes opened
            exact .inr ⟨applied, pending, MigratedDb.extends_plan replayed⟩
      · exact .inl (performed.committed_same isCommit)
  | _ => exact .inl rfl

theorem Sound.perform (sound : Sound base d) (allowed : Allowed t d c)
    (performed : Deployment.Perform t d c reply after) : Sound base after where
  exclusive := by
    cases performed with
    | sql performed => exact sound.exclusive.performs allowed.locksFirst performed
    | _ => exact sound.exclusive
  consistent := by
    rcases committed_of_perform allowed performed with same | ⟨applied, _, grown⟩
    · rw [same]
      exact sound.consistent
    · exact sound.consistent.extends grown
  names := by
    cases performed <;> exact sound.names

theorem Sound.waits (sound : Sound base d) (performed : Deployment.Perform t d c reply after)
    {u : ThreadId} (other : u ≠ t) : Waits u d after := by
  cases performed with
  | sql performed => exact ⟨rfl, sound.exclusive.waits performed other⟩
  | _ => exact ⟨rfl, SessionStore.waits_refl u d.store⟩

/-- Runners lock before they read and write. -/
def runnerDiscipline (base : MigratedDb σ) : Discipline (migrations σ) where
  inv := Sound base
  pre := Allowed
  rely := Waits
  rely_refl t d := ⟨rfl, SessionStore.waits_refl t d.store⟩
  rely_trans first second := ⟨second.1.trans first.1, first.2.trans second.2⟩
  exec_inv := Sound.perform
  exec_rely sound _ performed _ other := sound.waits performed other
  env_inv := by
    intro d after sound moved
    cases moved with
    | disconnect t => exact ⟨sound.exclusive.endSession t, sound.consistent, sound.names⟩
  env_rely := by
    intro d after _ moved u
    cases moved with
    | disconnect t => exact ⟨rfl, SessionStore.endSession_waits t u d.store⟩

/-! ### What a process knows -/

/-- The session of the process is gone, or it has written `writes` and nobody can commit anything
else. -/
structure Holding (t : ThreadId) (files : List (MigrationFile σ)) (writes : List (Write σ))
    (db : MigratedDb σ) (d : Deployment σ) : Prop where
  directory : d.directory t = files
  session : d.store.sessions t = none ∨
    d.store.sessions t = some writes ∧ d.store.lock = some t ∧ d.committed = db

variable {files : List (MigrationFile σ)} {writes : List (Write σ)} {db : MigratedDb σ}

theorem Holding.waits (holding : Holding t files writes db d) (waited : Waits t d after) :
    Holding t files writes db after := by
  refine ⟨waited.1.trans holding.directory, ?_⟩
  rcases waited.2 with ended | ⟨same, kept⟩
  · exact .inl ended
  rcases holding.session with ended | ⟨opened, locked, isDb⟩
  · exact .inl (same.trans ended)
  · obtain ⟨still, sameDb⟩ := kept locked
    exact .inr ⟨same.trans opened, still, sameDb.trans isDb⟩

theorem Holding.opened (holding : Holding t files writes db d) {own : List (Write σ)}
    (isOpen : d.store.sessions t = some own) :
    own = writes ∧ d.store.lock = some t ∧ d.committed = db := by
  rcases holding.session with ended | ⟨opened, locked, isDb⟩
  · rw [isOpen] at ended
    cases ended
  · rw [isOpen] at opened
    exact ⟨Option.some.inj opened, locked, isDb⟩

end Discipline

/-! ### The program under the discipline -/

section Program

variable {base db : MigratedDb σ} {t : ThreadId} {d : Deployment σ}
  {files : List (MigrationFile σ)} {writes : List (Write σ)}

/-- The code returns in a state that satisfies `A`, in a system of runners. -/
def Runs (base : MigratedDb σ) (t : ThreadId) {α : Type} (code : Migrating σ α)
    (A : α → Deployment σ → Prop) (d : Deployment σ) : Prop :=
  (runnerDiscipline base).SafeCode t code (Discipline.Returns A) d

theorem runs_statement {statement : SessionCall (Write σ)} {A : Deployment σ → Prop}
    {B : statement.Result (List String) → Deployment σ → Prop}
    (stable : ∀ {s s'}, Waits t s s' → A s → A s') (holds : A d)
    (allowed : ∀ {s}, A s → Allowed t s (.sql statement))
    (next : ∀ {s value store}, A s →
      SessionStore.Performs MigratedDb.postgres t s.store statement (.ok value) store →
      B value { s with store }) : Runs base t (execute statement) B d := by
  refine Discipline.safe_perform fun before waited _ => ?_
  have still := stable waited holds
  refine ⟨allowed still, ?_⟩
  intro reply after performed _ value isOk
  subst isOk
  cases performed with
  | sql performed => exact next still performed

/-- A statement that is allowed in every state, of which nothing is known afterwards. -/
theorem runs_anywhere {statement : SessionCall (Write σ)}
    (allowed : ∀ s, Allowed t s (.sql statement)) :
    Runs base t (execute statement) (fun _ _ => True) d :=
  runs_statement (A := fun _ => True) (fun _ => id) trivial (fun _ => allowed _) fun _ _ => trivial

theorem runs_advisoryLock (directory : d.directory t = files)
    (opened : ∀ own, d.store.sessions t = some own → own = []) :
    Runs base t (execute .advisoryLock) (fun _ s => ∃ db, Holding t files [] db s) d := by
  let A : Deployment σ → Prop := fun s => s.directory t = files ∧
    ∀ own, s.store.sessions t = some own → own = []
  refine runs_statement (A := A) ?_ ⟨directory, opened⟩ (fun _ => trivial) ?_
  · intro s s' waited holds
    refine ⟨waited.1.trans holds.1, fun own isOpen => ?_⟩
    rcases waited.2 with ended | ⟨same, _⟩
    · rw [ended] at isOpen
      cases isOpen
    · exact holds.2 own (same.symm.trans isOpen)
  · intro s value store holds performed
    cases performed with
    | locked isOpen free =>
        obtain rfl := holds.2 _ isOpen
        exact ⟨s.committed, holds.1, .inr ⟨isOpen, rfl, rfl⟩⟩

theorem runs_write (holding : Holding t files writes db d) (write : Write σ) :
    Runs base t (execute (.write write)) (fun _ => Holding t files (writes ++ [write]) db) d := by
  refine runs_statement (A := Holding t files writes db) (fun waited held => held.waits waited)
    holding ?_ ?_
  · intro s held own isOpen
    exact (held.opened isOpen).2.1
  · intro s value store held performed
    cases performed with
    | wrote isOpen applies =>
        obtain ⟨rfl, locked, isDb⟩ := held.opened isOpen
        exact ⟨held.directory, .inr ⟨SessionStore.setWrites_self, locked, isDb⟩⟩

/-- The versions are read after the lock was taken: they are those the run commits on. -/
theorem runs_read (holding : Holding t files (MigratedDb.plan []) db d) :
    Runs base t (execute .read)
      (fun applied s => applied = db.recorded ∧ Holding t files (MigratedDb.plan []) db s) d := by
  refine runs_statement (A := Holding t files (MigratedDb.plan []) db)
    (fun waited held => held.waits waited) holding (fun _ => trivial) ?_
  intro s applied store held performed
  generalize isReply : (Except.ok applied : Except MigrationError (List String)) = reply
    at performed
  cases performed with
  | answered isOpen seen =>
      obtain ⟨rfl, _, isDb⟩ := held.opened isOpen
      cases seen
      cases isReply
      refine ⟨?_, held⟩
      rw [← isDb]
      rfl
  | raised statement => cases isReply

theorem runs_file {applied : List (MigrationFile σ)} {file : MigrationFile σ}
    (holding : Holding t files (MigratedDb.plan applied) db d) :
    Runs base t (applyMigration db.recorded file) (fun _ => Holding t files
      (MigratedDb.plan (applied ++ [file].filter fun file => file.name ∉ db.recorded)) db) d := by
  unfold applyMigration
  by_cases already : file.name ∈ db.recorded
  · rw [if_pos already, List.filter_cons_of_neg (by simpa using already), List.filter_nil,
      List.append_nil]
    exact Discipline.returns_pure holding
  · rw [if_neg already, List.filter_cons_of_pos (by simpa using already), List.filter_nil,
      ← MigratedDb.plan_append_file]
    apply Discipline.returns_bind (A := fun text s => text = file.text ∧
      Holding t files (MigratedDb.plan applied) db s)
    · refine Discipline.safe_perform fun before waited _ => ⟨trivial, ?_⟩
      intro reply after performed _ text isOk
      subst isOk
      cases performed with
      | readText => exact ⟨rfl, holding.waits waited⟩
    rintro text s ⟨rfl, held⟩
    apply Discipline.returns_bind (runs_write held (.run file))
    intro _ s' held'
    exact runs_write held' (.record file.name)

theorem runs_forEach (items done : List (MigrationFile σ))
    (holding : Holding t files
      (MigratedDb.plan (done.filter fun file => file.name ∉ db.recorded)) db d) :
    Runs base t (Code.forEach items () fun _ path => applyMigration db.recorded path)
      (fun _ => Holding t files
        (MigratedDb.plan ((done ++ items).filter fun file => file.name ∉ db.recorded)) db) d := by
  induction items generalizing done d with
  | nil =>
      rw [List.append_nil]
      exact Discipline.returns_pure holding
  | cons file rest inductionHypothesis =>
      apply Discipline.returns_bind (runs_file holding)
      intro _ s held
      rw [← List.filter_append] at held
      have further := inductionHypothesis _ held
      rw [List.append_assoc, List.singleton_append] at further
      exact further

/-- The body of the transaction ends holding the lock, with what is pending written. -/
theorem runs_migrate (names : (files.map MigrationFile.name).Nodup)
    (directory : d.directory t = files)
    (opened : ∀ own, d.store.sessions t = some own → own = []) :
    Runs base t migrate (fun _ s => ∃ db applied,
      Holding t files (MigratedDb.plan applied) db s ∧ db.Pending files applied) d := by
  apply Discipline.returns_bind (runs_advisoryLock directory opened)
  rintro _ s ⟨db, held⟩
  apply Discipline.returns_bind (runs_write held .createVersions)
  intro _ s held
  apply Discipline.returns_bind (runs_read held)
  rintro _ s ⟨rfl, held⟩
  apply Discipline.returns_bind (A := fun paths s => paths.Perm files ∧
    Holding t files (MigratedDb.plan []) db s)
  · refine Discipline.safe_perform fun before waited _ => ⟨trivial, ?_⟩
    intro reply after performed _ paths isOk
    subst isOk
    have held := held.waits waited
    cases performed with
    | listed same => exact ⟨held.directory ▸ same, held⟩
  rintro paths s ⟨same, held⟩
  refine Discipline.SafeCode.mono (runs_forEach (sorted paths) [] held) ?_
  intro result s' ended value isOk
  exact ⟨db, _, ended value isOk, MigratedDb.pending_sorted names same⟩

/-- The writes of a transaction are all that a run has to apply, and the lock is held. -/
def Prepared (t : ThreadId) (files : List (MigrationFile σ)) (d : Deployment σ) : Prop :=
  ∃ db applied, Holding t files (MigratedDb.plan applied) db d ∧ db.Pending files applied

theorem Prepared.allowed (prepared : Prepared t files d) : Allowed t d (.sql .commit) := by
  obtain ⟨db, applied, held, pending⟩ := prepared
  intro own isOpen
  obtain ⟨rfl, locked, rfl⟩ := held.opened isOpen
  exact ⟨locked, applied, rfl, held.directory ▸ pending⟩

theorem runs_transaction (names : (files.map MigrationFile.name).Nodup)
    (directory : d.directory t = files) :
    Runs base t (transaction migrate) (fun _ _ => True) d := by
  apply Discipline.returns_bind (A := fun _ s => s.directory t = files ∧
    ∀ own, s.store.sessions t = some own → own = [])
  · refine runs_statement (A := fun s => s.directory t = files)
      (fun waited same => waited.1.trans same) directory (fun _ => trivial) ?_
    intro s value store same performed
    cases performed with
    | began idle =>
        refine ⟨same, fun own isOpen => ?_⟩
        rw [SessionStore.setWrites_self] at isOpen
        exact (Option.some.inj isOpen).symm
  rintro _ s ⟨same, opened⟩
  apply Discipline.returns_bind (A := fun _ => Prepared t files)
  · refine Discipline.returns_tryCatch (runs_migrate names same opened) fun error s => ?_
    refine Discipline.returns_bind (A := fun _ _ => True) ?_ fun _ _ _ => Discipline.returns_throw
    exact Discipline.returns_tryCatch (runs_anywhere fun _ => trivial) fun _ _ =>
      Discipline.returns_pure trivial
  intro _ s prepared
  refine Discipline.returns_bind (A := fun _ _ => True) ?_ fun _ _ _ =>
    Discipline.returns_pure trivial
  refine runs_statement (A := Prepared t files) ?_ prepared Prepared.allowed fun _ _ => trivial
  rintro s s' waited ⟨db, applied, held, pending⟩
  exact ⟨db, applied, held.waits waited, pending⟩

theorem safe_runMigrations (names : (files.map MigrationFile.name).Nodup)
    (directory : d.directory t = files) :
    (runnerDiscipline base).Safe t runMigrations.task (fun _ _ => True) d := by
  suffices (runnerDiscipline base).SafeCode t runMigrations (fun _ _ => True) d from
    Discipline.safe_task this
  apply Discipline.safe_bind
  refine Discipline.safe_perform fun before waited _ => ⟨trivial, fun reply after performed _ => ?_⟩
  cases reply with
  | error error => trivial
  | ok value =>
      have same : after.directory t = files := by
        cases performed
        exact waited.1.trans directory
      apply Discipline.safe_finally
      have transacted : Runs base t (transaction migrate) _ after := runs_transaction names same
      refine Discipline.SafeCode.mono transacted ?_
      intro result s _
      have closes : Runs base t (execute .close) _ s := runs_anywhere fun _ => trivial
      refine Discipline.SafeCode.mono closes ?_
      intro cleaned s' _
      cases cleaned <;> trivial

end Program

theorem runner_starts (base : MigratedDb σ) : (runnerDiscipline base).Starts := by
  intro t d program after sound started
  cases started with
  | release files names idle =>
      refine ⟨⟨sound.exclusive, sound.consistent, ?_⟩, ?_, ?_⟩
      · intro u
        dsimp only
        by_cases same : u = t
        · subst same
          rw [Function.update_self]
          exact names
        · rw [Function.update_of_ne same]
          exact sound.names u
      · intro u other
        exact ⟨Function.update_of_ne other _ _, SessionStore.waits_refl u d.store⟩
      · exact safe_runMigrations names (Function.update_self _ _ _)

theorem Sound.initial {base : MigratedDb σ} (fresh : base.Fresh) :
    Sound base (Deployment.initial base) where
  exclusive t writes isOpen := by cases isOpen
  consistent := fresh.consistent
  names _ := List.nodup_nil

/-- Every reachable pool keeps the discipline. -/
theorem runners_keep {base : MigratedDb σ} (fresh : base.Fresh)
    {pool : Pool (migrationCalls σ) (Deployment σ)}
    (reached : (migrations σ).Reachable (Deployment.initial base) pool) :
    (runnerDiscipline base).Keeps pool :=
  Discipline.keeps_of_reachable (runner_starts base) (Sound.initial fresh) reached

/-! ### What a run does -/

abbrev MigrationExchange (σ : Type) := Exchange (migrationCalls σ) (Deployment σ)

/-- The server committed the transaction of the run. -/
def IsCommit (exchange : MigrationExchange σ) : Prop :=
  ∃ before after, exchange = ⟨before, .sql .commit, .ok (), after⟩

theorem not_isCommit {exchange : MigrationExchange σ} (other : exchange.call ≠ .sql .commit) :
    ¬ IsCommit exchange := by
  rintro ⟨before, after, rfl⟩
  exact other rfl

/-- The pending files of a directory took effect, in the order of their names, and are recorded. -/
def AppliesPending (files : List (MigrationFile σ)) (before after : MigratedDb σ) : Prop :=
  ∃ applied, before.Pending files applied ∧ before.Extends applied after

/-- What a step of a reachable pool does to the database. -/
inductive StepEffect (pool next : Pool (migrationCalls σ) (Deployment σ)) : Prop where
  | unchanged (same : next.state.committed = pool.state.committed)
  | committed {t : ThreadId} {rest : _ → Program (migrationCalls σ) Unit}
      (running : pool.threads t = some (.call (.sql .commit) rest))
      (applied : AppliesPending (pool.state.directory t) pool.state.committed next.state.committed)

section Runs

variable {base : MigratedDb σ} {pool next : Pool (migrationCalls σ) (Deployment σ)} {t : ThreadId}

theorem step_effect (kept : (runnerDiscipline base).Keeps pool) (step : (migrations σ).Step pool next) :
    StepEffect pool next := by
  cases step with
  | start idle started =>
      cases started
      exact .unchanged rfl
  | @call t c rest reply after running called =>
      by_cases isCommit : c = .sql .commit
      · subst isCommit
        rcases committed_of_perform (kept.pre running) called with same | applied
        · exact .unchanged same
        · exact .committed running applied
      · refine .unchanged ?_
        cases called with
        | sql performed =>
            exact performed.committed_same fun same => isCommit (congrArg MigrationCall.sql same)
        | _ => rfl
  | stop => exact .unchanged rfl
  | env moved =>
      cases moved
      exact .unchanged rfl

/-- Nothing recorded is ever forgotten. -/
theorem recorded_grows (kept : (runnerDiscipline base).Keeps pool)
    (step : (migrations σ).Step pool next) {version : String}
    (recorded : version ∈ pool.state.committed.recorded) :
    version ∈ next.state.committed.recorded := by
  rcases step_effect kept step with same | ⟨_, applied, _, grown⟩
  · rw [same]
    exact recorded
  · rw [grown.recorded]
    exact List.mem_append_left _ recorded

/-- A commit that returned applied what was pending. -/
theorem commit_applies {d after : Deployment σ} (allowed : Allowed t d (.sql .commit))
    (performed : Deployment.Perform t d (.sql .commit) (.ok ()) after) :
    AppliesPending (d.directory t) d.committed after.committed := by
  generalize isReply : (Except.ok () : (migrationCalls σ).Reply (.sql .commit)) = reply at performed
  cases performed with
  | sql performed =>
      subst isReply
      obtain ⟨writes, opened, replayed⟩ := performed.commit_ok
      obtain ⟨_, applied, rfl, pending⟩ := allowed writes opened
      exact ⟨applied, pending, MigratedDb.extends_plan replayed⟩

theorem perform_directory {d after : Deployment σ} {c : MigrationCall σ}
    {reply : (migrationCalls σ).Reply c} (performed : Deployment.Perform t d c reply after) :
    after.directory = d.directory := by
  cases performed <;> rfl

/-- A process keeps its migration directory while it runs. -/
theorem observed_directory {first : Pool (migrationCalls σ) (Deployment σ)}
    {exchanges : List (MigrationExchange σ)} {program : Program (migrationCalls σ) Unit}
    (running : first.threads t = some program)
    (observed : (migrations σ).Observed t first exchanges pool) :
    pool.state.directory t = first.state.directory t := by
  induction observed with
  | start => rfl
  | own before _ called inductionHypothesis =>
      exact (congrFun (perform_directory called) t).trans inductionHypothesis
  | other before step same inductionHypothesis =>
      obtain ⟨rest, isRest, _⟩ := before.transcript running
      refine Eq.trans ?_ inductionHypothesis
      cases step with
      | @start u _ _ idle started =>
          cases started with
          | release files names closed =>
              have other : t ≠ u := by
                rintro rfl
                rw [isRest] at idle
                cases idle
              exact Function.update_of_ne other _ _
      | call _ called => exact congrFun (perform_directory called) t
      | stop => rfl
      | env moved =>
          cases moved
          rfl

/-- What a run has done so far, whether it is over, goes on or was killed. -/
structure RunEffect (files : List (MigrationFile σ)) (exchanges : List (MigrationExchange σ))
    (db : MigratedDb σ) : Prop where
  unchanged : ∀ exchange ∈ exchanges, ¬ IsCommit exchange →
    exchange.after.committed = exchange.before.committed
  applied : ∀ exchange ∈ exchanges, IsCommit exchange →
    AppliesPending files exchange.before.committed exchange.after.committed
  recorded : (∃ exchange ∈ exchanges, IsCommit exchange) → ∀ file ∈ files, file.name ∈ db.recorded

theorem unchanged_of_not_commit {d after : Deployment σ} {c : MigrationCall σ}
    {reply : (migrationCalls σ).Reply c} (performed : Deployment.Perform t d c reply after)
    (notCommit : ¬ IsCommit ⟨d, c, reply, after⟩) : after.committed = d.committed := by
  cases performed with
  | @sql statement reply store performed =>
      by_cases isCommit : statement = .commit
      · subst isCommit
        cases reply with
        | error error => exact congrArg SessionStore.committed performed.error_same
        | ok value => exact absurd ⟨_, _, rfl⟩ notCommit
      · exact performed.committed_same isCommit
  | _ => rfl

theorem run_effect {first : Pool (migrationCalls σ) (Deployment σ)}
    {exchanges : List (MigrationExchange σ)} {program : Program (migrationCalls σ) Unit}
    (keeps : ∀ {earlier pool}, (migrations σ).Observed t first earlier pool →
      (runnerDiscipline base).Keeps pool)
    (running : first.threads t = some program)
    (observed : (migrations σ).Observed t first exchanges pool) :
    RunEffect (first.state.directory t) exchanges pool.state.committed := by
  let P : MigrationExchange σ → Pool (migrationCalls σ) (Deployment σ) → Prop := fun exchange pool =>
    (¬ IsCommit exchange → exchange.after.committed = exchange.before.committed) ∧
    (IsCommit exchange →
      AppliesPending (first.state.directory t) exchange.before.committed exchange.after.committed ∧
      ∀ file ∈ first.state.directory t, file.name ∈ pool.state.committed.recorded)
  have each : ∀ exchange ∈ exchanges, P exchange pool := by
    refine observed.each (P := P) ?_ ?_
    · rintro pool c rest reply after isCall ⟨earlier, before⟩ called
      refine ⟨unchanged_of_not_commit called, ?_⟩
      rintro ⟨before', after', isCommit⟩
      cases isCommit
      have applied := commit_applies ((keeps before).pre isCall) called
      rw [observed_directory running before] at applied
      obtain ⟨files, pending, grown⟩ := applied
      exact ⟨⟨files, pending, grown⟩, pending.all_recorded grown⟩
    · rintro exchange before after ⟨earlier, observed⟩ step ⟨unchanged, applied⟩
      refine ⟨unchanged, fun isCommit => ?_⟩
      obtain ⟨pending, recorded⟩ := applied isCommit
      exact ⟨pending, fun file member => recorded_grows (keeps observed) step (recorded file member)⟩
  refine ⟨fun exchange member => (each exchange member).1,
    fun exchange member isCommit => ((each exchange member).2 isCommit).1, ?_⟩
  rintro ⟨exchange, member, isCommit⟩
  exact ((each exchange member).2 isCommit).2

end Runs

/-! ### How a run ends -/

/-- A run succeeded right after its commit, or failed without one. -/
inductive RunOutcome : List (MigrationExchange σ) → Except MigrationError Unit → Prop where
  | succeeded {own : List (MigrationExchange σ)} {commit closing : MigrationExchange σ}
      (before : ∀ exchange ∈ own, ¬ IsCommit exchange) (committed : IsCommit commit)
      (closed : ¬ IsCommit closing) : RunOutcome (own ++ [commit, closing]) (.ok ())
  | failed {exchanges : List (MigrationExchange σ)} {error : MigrationError}
      (none : ∀ exchange ∈ exchanges, ¬ IsCommit exchange) : RunOutcome exchanges (.error error)

section Outcome

variable {t : ThreadId} {exchanges : List (MigrationExchange σ)}
  {result : Except MigrationError Unit}

/-- The calls other than the commit. -/
def NotCommit (c : MigrationCall σ) : Prop := c ≠ .sql .commit

theorem migrate_only : Code.Only NotCommit (migrate (σ := σ)) := by
  refine Code.Only.bind (Code.only_perform nofun) fun _ => ?_
  refine Code.Only.bind (Code.only_perform nofun) fun _ => ?_
  refine Code.Only.bind (Code.only_perform nofun) fun applied => ?_
  refine Code.Only.bind (Code.only_perform nofun) fun paths => ?_
  refine Code.only_forEach (fun path _ _ => ?_) ()
  unfold applyMigration
  split
  · exact Code.only_pure _
  · refine Code.Only.bind (Code.only_perform nofun) fun text => ?_
    exact Code.Only.bind (Code.only_perform nofun) fun _ => Code.only_perform nofun

/-- The body of the transaction with its rollback. -/
theorem guarded_only : Code.Only NotCommit (tryCatch (migrate (σ := σ)) fun error => do
    tryCatch (execute .rollback) fun _ => pure ()
    throw error) := by
  refine migrate_only.tryCatch fun error => Code.Only.bind ?_ fun _ => Code.only_throw _
  exact (Code.only_perform nofun).tryCatch fun _ => Code.only_pure _

theorem not_isCommit_of_only {α : Type} {code : Migrating σ α} {value : Except MigrationError α}
    (ran : Transcript code.run exchanges value) (only : Code.Only NotCommit code) :
    ∀ exchange ∈ exchanges, ¬ IsCommit exchange :=
  fun exchange member => not_isCommit (ran.only only exchange member)

/-- What precedes the closing of the pool. -/
inductive TransactionOutcome :
    List (MigrationExchange σ) → Except MigrationError Unit → Prop where
  | committed {own : List (MigrationExchange σ)} {commit : MigrationExchange σ}
      (before : ∀ exchange ∈ own, ¬ IsCommit exchange) (committed : IsCommit commit) :
      TransactionOutcome (own ++ [commit]) (.ok ())
  | failed {exchanges : List (MigrationExchange σ)} {error : MigrationError}
      (none : ∀ exchange ∈ exchanges, ¬ IsCommit exchange) :
      TransactionOutcome exchanges (.error error)

theorem transaction_outcome (ran : Transcript (transaction migrate).run exchanges result) :
    TransactionOutcome exchanges result := by
  unfold transaction at ran
  rcases transcript_performBind ran with
    ⟨before, value, after, rest, rfl, continued⟩ | ⟨before, error, after, rfl, rfl⟩
  · have begins : ¬ IsCommit (⟨before, .sql .begin, .ok value, after⟩ : MigrationExchange σ) :=
      not_isCommit nofun
    rcases transcript_codeBind continued with
      ⟨body, value, rest, rfl, bodyRan, continued⟩ | ⟨error, rfl, raised⟩
    · have quiet := not_isCommit_of_only bodyRan guarded_only
      rcases transcript_performBind continued with
        ⟨before', value', after', rest, rfl, returned⟩ | ⟨before', error, after', rfl, rfl⟩
      · obtain ⟨rfl, rfl⟩ := transcript_pure returned
        rw [← List.cons_append]
        exact .committed (List.forall_mem_cons.mpr ⟨begins, quiet⟩) ⟨before', after', rfl⟩
      · refine .failed (List.forall_mem_cons.mpr ⟨begins, List.forall_mem_append.mpr ⟨quiet, ?_⟩⟩)
        rw [List.forall_mem_singleton]
        rintro ⟨_, _, isCommit⟩
        cases isCommit
    · exact .failed (List.forall_mem_cons.mpr ⟨begins, not_isCommit_of_only raised guarded_only⟩)
  · exact .failed (List.forall_mem_singleton.mpr (not_isCommit nofun))

theorem runMigrations_outcome (ran : Transcript runMigrations.run exchanges result)
    (steps : ∀ exchange ∈ exchanges, (migrations σ).Steps t exchange) :
    RunOutcome exchanges result := by
  unfold runMigrations at ran
  rcases transcript_performBind ran with
    ⟨before, value, after, rest, rfl, continued⟩ | ⟨before, error, after, rfl, rfl⟩
  · have opens : ¬ IsCommit (⟨before, .openPool, .ok value, after⟩ : MigrationExchange σ) :=
      not_isCommit nofun
    obtain ⟨own, body, closing, rfl, bodyRan, closed⟩ := transcript_finally continued
    rcases closed with ⟨closeRan, rfl⟩ | ⟨error, closeRan, rfl⟩
    · obtain ⟨before', after', rfl⟩ := transcript_perform closeRan
      have closes : ¬ IsCommit
          (⟨before', .sql .close, .ok (), after'⟩ : MigrationExchange σ) := not_isCommit nofun
      cases transaction_outcome bodyRan with
      | @committed own commit quiet committed =>
          rw [List.append_assoc, List.singleton_append, ← List.cons_append]
          exact .succeeded (List.forall_mem_cons.mpr ⟨opens, quiet⟩) committed closes
      | failed none =>
          refine .failed (List.forall_mem_cons.mpr ⟨opens, List.forall_mem_append.mpr ⟨none, ?_⟩⟩)
          exact List.forall_mem_singleton.mpr closes
    · -- The closing of the pool does not raise.
      obtain ⟨before', after', rfl⟩ := transcript_perform closeRan
      have stepped : Deployment.Perform t before' (.sql .close) (.error error) after' :=
        steps _ (List.mem_cons_of_mem _ (List.mem_append_right own (List.mem_singleton.mpr rfl)))
      generalize isReply : (Except.error error : (migrationCalls σ).Reply (.sql .close)) = reply
        at stepped
      cases stepped with
      | sql performed =>
          subst isReply
          generalize isError : (Except.error error : Except MigrationError Unit) = raised
            at performed
          cases performed with
          | closed => cases isError
          | raised statement => exact absurd rfl statement
  · exact .failed (List.forall_mem_singleton.mpr (not_isCommit nofun))

end Outcome

/-- Any history of runs, from a database without migrations: every script took effect once and is
recorded; a step leaves the database alone or commits, in the order of their names, the files of
one run that were not recorded; a run changes the database by its commit alone, after which all its
files are recorded, and it succeeds right after its commit and fails without one. -/
theorem migrations_safe {base : MigratedDb σ} (fresh : base.Fresh)
    {pool : Pool (migrationCalls σ) (Deployment σ)}
    (reached : (migrations σ).Reachable (Deployment.initial base) pool) :
    base.Consistent pool.state.committed ∧
    (∀ next, (migrations σ).Step pool next → StepEffect pool next) ∧
    ∀ t exchanges last, pool.threads t = some runMigrations.task →
      (migrations σ).Observed t pool exchanges last →
      RunEffect (pool.state.directory t) exchanges last.state.committed ∧
      (last.threads t = some (.done ()) →
        ∃ result, Transcript runMigrations.run exchanges result ∧ RunOutcome exchanges result) := by
  have kept := runners_keep fresh reached
  refine ⟨kept.1.consistent, fun next step => step_effect kept step, ?_⟩
  intro t exchanges last running observed
  constructor
  · exact run_effect (fun before => runners_keep fresh (before.reachable reached)) running observed
  · intro ended
    obtain ⟨result, ran⟩ := transcript_task (observed.ended running ended)
    refine ⟨result, ran, runMigrations_outcome (t := t) ran ?_⟩
    exact observed.each (P := fun exchange _ => (migrations σ).Steps t exchange)
      (fun _ _ called => called) fun _ _ => id

/-- A statement that was performed is a call of its process. -/
theorem perform_statement {t : ThreadId} {d : Deployment σ} {statement : SessionCall (Write σ)}
    {reply : Except MigrationError (statement.Result (List String))}
    {store : SessionStore (MigratedDb σ) (Write σ)}
    (performed : SessionStore.Performs MigratedDb.postgres t d.store statement reply store) :
    (migrations σ).exec t d (.sql statement) reply { d with store } :=
  .sql performed

/-- The file of an older release. -/
def olderFile : MigrationFile Nat := ⟨"001.sql", fun schema => .ok (schema + 1)⟩

/-- The file that a newer release has besides. -/
def newerFile : MigrationFile Nat := ⟨"002.sql", fun schema => .ok (schema * 10)⟩

/-- Two releases have started. -/
def bothStarted : Pool (migrationCalls Nat) (Deployment Nat) where
  state := { Deployment.initial ⟨0, none, []⟩ with
    directory := Function.update (Function.update (fun _ => []) 0 [olderFile]) 1
      [newerFile, olderFile] }
  threads := Function.update (Function.update (fun _ => none) 0 (some runMigrations.task)) 1
    (some runMigrations.task)

theorem bothStarted_reachable :
    (migrations Nat).Reachable (Deployment.initial ⟨0, none, []⟩) bothStarted := by
  have started : (migrations Nat).Reachable (Deployment.initial ⟨0, none, []⟩)
      ⟨_, Function.update (fun _ => none) 0 (some runMigrations.task)⟩ :=
    Reachable.start .refl 0 rfl (.release [olderFile] (List.nodup_singleton _) rfl)
  exact started.start 1 rfl
    (.release [newerFile, olderFile] (by simp [olderFile, newerFile]) rfl)

/-- The newer release opens its transaction before the older one commits, and then applies the file
that the older one does not have. -/
theorem migrations_safe_twoReleases : ∃ last : Pool (migrationCalls Nat) (Deployment Nat),
    (migrations Nat).Reachable (Deployment.initial ⟨0, none, []⟩) last ∧
      last.state.committed.executed = [olderFile, newerFile] ∧ last.state.committed.schema = 10 ∧
      newerFile.name ∈ last.state.committed.recorded := by
  have fresh : (⟨0, none, []⟩ : MigratedDb Nat).Fresh := ⟨rfl, rfl⟩
  have isOther : (1 : ThreadId) ≠ 0 := by decide
  have started : (migrations Nat).Observed 1 bothStarted [] bothStarted := .start
  have begun := started.own rfl Deployment.Perform.openedPool
    |>.own rfl (perform_statement (.began rfl))
  have locked := begun.beside isOther rfl Deployment.Perform.openedPool
    |>.beside isOther rfl (perform_statement (.began rfl))
    |>.beside isOther rfl (perform_statement (.locked rfl (.inl rfl)))
    |>.beside isOther rfl (perform_statement (.wrote rfl rfl))
    |>.beside isOther rfl (perform_statement (.answered rfl rfl))
  have written := locked.beside isOther rfl (Deployment.Perform.listed (.refl _))
    |>.beside isOther rfl Deployment.Perform.readText
    |>.beside isOther rfl (perform_statement (.wrote rfl rfl))
    |>.beside isOther rfl (perform_statement (.wrote rfl rfl))
  have committed := written.beside isOther rfl (perform_statement (.committed rfl rfl))
    |>.beside isOther rfl (perform_statement .closed)
  have seen := committed.own rfl (perform_statement (.locked rfl (.inl rfl)))
    |>.own rfl (perform_statement (.wrote rfl rfl))
    |>.own rfl (perform_statement (.answered rfl rfl))
  have applied := seen.own rfl (Deployment.Perform.listed (.refl _))
    |>.own rfl (Deployment.Perform.readText)
    |>.own rfl (perform_statement (.wrote rfl rfl))
    |>.own rfl (perform_statement (.wrote rfl rfl))
  have closed := applied.own rfl (perform_statement (.committed rfl rfl))
    |>.own rfl (perform_statement .closed)
  have effect := ((migrations_safe fresh bothStarted_reachable).2.2 1 _ _ rfl closed).1
  refine ⟨_, closed.reachable bothStarted_reachable, rfl, rfl,
    effect.recorded ?_ newerFile List.mem_cons_self⟩
  exact ⟨_, List.mem_append_left _ (List.mem_append_right _ List.mem_cons_self), _, _, rfl⟩

end JobPlatform.Migrations
