import JobPlatform.Migrations.Safety

/-!
Contract: a run of `run_migrations` that nothing disturbs.

Owns:
- `respond`, the answers of the server and the file system to a lone process, which are calls of
  the system of runners;
- what such a run does: it commits the plan of the pending files if every statement of it succeeds,
  and raises the error of the first one that does not.
-/

namespace JobPlatform.Migrations

open JobPlatform.Foundation

variable {σ : Type}

/-- The server answers a statement of a process that is alone. -/
def respondStatement (t : ThreadId) (store : SessionStore (MigratedDb σ) (Write σ)) :
    (statement : SessionCall (Write σ)) →
      Except MigrationError (statement.Result (List String)) × SessionStore (MigratedDb σ) (Write σ)
  | .begin =>
      if store.sessions t = none then (.ok (), store.setWrites t []) else (.error .failure, store)
  | .advisoryLock =>
      if store.sessions t ≠ none ∧ (store.lock = none ∨ store.lock = some t) then
        (.ok (), { store with lock := some t })
      else (.error .failure, store)
  | .write value =>
      match store.sessions t with
      | none => (.error .failure, store)
      | some writes =>
          match MigratedDb.postgres.replay (writes ++ [value]) store.committed with
          | .ok _ => (.ok (), store.setWrites t (writes ++ [value]))
          | .error error => (.error error, store)
  | .read =>
      match store.sessions t with
      | none => (.error .failure, store)
      | some writes =>
          match MigratedDb.postgres.replay writes store.committed with
          | .ok data => (MigratedDb.selectVersions data, store)
          | .error error => (.error error, store)
  | .commit =>
      match store.sessions t with
      | none => (.error .failure, store)
      | some writes =>
          match MigratedDb.postgres.replay writes store.committed with
          | .ok data => (.ok (), { store.endSession t with committed := data })
          | .error error => (.error error, store)
  | .rollback =>
      if store.sessions t ≠ none then (.ok (), store.endSession t) else (.error .failure, store)
  | .close => (.ok (), store.endSession t)

/-- Every call of a process that is alone. -/
def respond (t : ThreadId) :
    (c : MigrationCall σ) → Deployment σ → (migrationCalls σ).Reply c × Deployment σ
  | .openPool, d => (.ok (), d)
  | .sql statement, d =>
      ((respondStatement t d.store statement).1,
        { d with store := (respondStatement t d.store statement).2 })
  | .glob, d => (.ok (d.directory t), d)
  | .readText path, d => (.ok path.text, d)

theorem respondStatement_performs (t : ThreadId) (store : SessionStore (MigratedDb σ) (Write σ))
    (statement : SessionCall (Write σ)) :
    SessionStore.Performs MigratedDb.postgres t store statement
      (respondStatement t store statement).1 (respondStatement t store statement).2 := by
  cases statement <;> simp only [respondStatement]
  case begin =>
    split_ifs with idle
    · exact .began idle
    · exact .raised nofun
  case advisoryLock =>
    split_ifs with free
    · obtain ⟨writes, isOpen⟩ := Option.ne_none_iff_exists'.mp free.1
      exact .locked isOpen free.2
    · exact .raised nofun
  case rollback =>
    split_ifs with opened
    · obtain ⟨writes, isOpen⟩ := Option.ne_none_iff_exists'.mp opened
      exact .rolledBack isOpen
    · exact .raised nofun
  case close => exact .closed
  case write value =>
    split
    · exact .raised nofun
    · split
      next isOpen _ _ applies => exact .wrote isOpen applies
      · exact .raised nofun
  case read =>
    split
    · exact .raised nofun
    · split
      next isOpen _ _ seen => exact .answered isOpen seen
      · exact .raised nofun
  case commit =>
    split
    · exact .raised nofun
    · split
      next isOpen _ _ applies => exact .committed isOpen applies
      · exact .raised nofun

/-- An undisturbed call is a call of the system. -/
theorem respond_performs (t : ThreadId) (c : MigrationCall σ) (d : Deployment σ) :
    (migrations σ).exec t d c (respond t c d).1 (respond t c d).2 := by
  cases c with
  | openPool => exact .openedPool
  | sql statement => exact .sql (respondStatement_performs t d.store statement)
  | glob => exact .listed (.refl _)
  | readText path => exact .readText

/-! ### The statements of a lone run -/

/-- The process has written `writes` in its open transaction, under the lock. -/
structure Working (t : ThreadId) (files : List (MigrationFile σ)) (db : MigratedDb σ)
    (writes : List (Write σ)) (d : Deployment σ) : Prop where
  directory : d.directory t = files
  opened : d.store.sessions t = some writes
  locked : d.store.lock = some t
  committed : d.committed = db

/-- What code that executes `more` does: all of it, or it raises the first error. -/
inductive Executes (t : ThreadId) (files : List (MigrationFile σ)) (db : MigratedDb σ)
    (writes : List (Write σ)) : Except MigrationError (MigratedDb σ) →
      Except MigrationError Unit × Deployment σ → Prop where
  | all {data : MigratedDb σ} {d : Deployment σ} (working : Working t files db writes d) :
      Executes t files db writes (.ok data) (.ok (), d)
  | stopped {error : MigrationError} {own : List (Write σ)} {d : Deployment σ}
      (working : Working t files db own d) : Executes t files db writes (.error error) (.error error, d)

section Alone

variable {t : ThreadId} {files : List (MigrationFile σ)} {db : MigratedDb σ}
  {writes : List (Write σ)} {d : Deployment σ}

theorem replay_append (writes more : List (Write σ)) (db : MigratedDb σ) :
    MigratedDb.postgres.replay (writes ++ more) db =
      MigratedDb.postgres.replay writes db >>= MigratedDb.postgres.replay more := by
  unfold Storage.replay
  rw [List.foldlM_append]

theorem replay_append_error {error : MigrationError}
    (failed : MigratedDb.postgres.replay writes db = .error error) (more : List (Write σ)) :
    MigratedDb.postgres.replay (writes ++ more) db = .error error := by
  rw [replay_append, failed]
  rfl

theorem meaning_execute (statement : SessionCall (Write σ)) (d : Deployment σ) :
    Code.meaning (respond t) (execute statement) d =
      ((respondStatement t d.store statement).1,
        { d with store := (respondStatement t d.store statement).2 }) :=
  rfl

theorem meaning_write (working : Working t files db writes d) (write : Write σ) :
    Executes t files db (writes ++ [write])
      (MigratedDb.postgres.replay (writes ++ [write]) db)
      (Code.meaning (respond t) (execute (.write write)) d) := by
  have isDb : d.store.committed = db := working.committed
  rw [meaning_execute]
  simp only [respondStatement, working.opened, isDb]
  cases MigratedDb.postgres.replay (writes ++ [write]) db with
  | error error => exact .stopped working
  | ok data =>
      exact .all ⟨working.directory, SessionStore.setWrites_self, working.locked, isDb⟩

/-- One stretch after the other. -/
theorem Executes.bind {first second : List (Write σ)} {code next : Migrating σ Unit}
    (before : Executes t files db (writes ++ first)
      (MigratedDb.postgres.replay (writes ++ first) db) (Code.meaning (respond t) code d))
    (later : ∀ {middle data}, Working t files db (writes ++ first) middle →
      MigratedDb.postgres.replay (writes ++ first) db = .ok data →
      Executes t files db (writes ++ first ++ second)
        (MigratedDb.postgres.replay (writes ++ first ++ second) db)
        (Code.meaning (respond t) next middle)) :
    Executes t files db (writes ++ (first ++ second))
      (MigratedDb.postgres.replay (writes ++ (first ++ second)) db)
      (Code.meaning (respond t) (code >>= fun _ => next) d) := by
  rw [Code.meaning_bind, ← List.append_assoc]
  generalize isReplayed : MigratedDb.postgres.replay (writes ++ first) db = replayed at before
  cases isRan : Code.meaning (respond t) code d with
  | mk result middle =>
      rw [isRan] at before
      cases before with
      | all working => exact later working isReplayed
      | stopped working =>
          rw [replay_append_error isReplayed]
          exact .stopped working

/-- The files a run still has to apply, in the order of their names. -/
def pendingFiles (paths : List (MigrationFile σ)) (applied : List String) :
    List (MigrationFile σ) :=
  paths.filter fun file => file.name ∉ applied

theorem meaning_file {data : MigratedDb σ} (working : Working t files db writes d)
    (applied : List String) (replayed : MigratedDb.postgres.replay writes db = .ok data)
    (file : MigrationFile σ) :
    Executes t files db (writes ++ (pendingFiles [file] applied).flatMap MigratedDb.fileWrites)
      (MigratedDb.postgres.replay
        (writes ++ (pendingFiles [file] applied).flatMap MigratedDb.fileWrites) db)
      (Code.meaning (respond t) (applyMigration applied file) d) := by
  unfold applyMigration pendingFiles
  by_cases already : file.name ∈ applied
  · rw [if_pos already, List.filter_cons_of_neg (by simpa using already), List.filter_nil,
      List.flatMap_nil, List.append_nil, replayed]
    exact .all working
  · rw [if_neg already, List.filter_cons_of_pos (by simpa using already), List.filter_nil,
      List.flatMap_singleton, Code.meaning_bind]
    change Executes t files db (writes ++ ([.run file] ++ [.record file.name])) _
      (Code.meaning (respond t) (execute (.write (.run file)) >>= fun _ =>
        execute (.write (.record file.name))) d)
    exact (meaning_write working _).bind fun middle _ => meaning_write middle _

theorem meaning_forEach {data : MigratedDb σ} (working : Working t files db writes d)
    (applied : List String) (replayed : MigratedDb.postgres.replay writes db = .ok data)
    (items : List (MigrationFile σ)) :
    Executes t files db (writes ++ (pendingFiles items applied).flatMap MigratedDb.fileWrites)
      (MigratedDb.postgres.replay
        (writes ++ (pendingFiles items applied).flatMap MigratedDb.fileWrites) db)
      (Code.meaning (respond t)
        (Code.forEach items () fun _ path => applyMigration applied path) d) := by
  induction items generalizing writes d data with
  | nil =>
      change Executes t files db (writes ++ []) (MigratedDb.postgres.replay (writes ++ []) db) _
      rw [List.append_nil, replayed]
      exact .all working
  | cons file rest inductionHypothesis =>
      have split : pendingFiles (file :: rest) applied =
          pendingFiles [file] applied ++ pendingFiles rest applied :=
        List.filter_append [file] rest
      rw [split, List.flatMap_append]
      exact (meaning_file working applied replayed file).bind inductionHypothesis

/-- What the transaction of a lone run executes. -/
def lonePlan (files : List (MigrationFile σ)) (db : MigratedDb σ) : List (Write σ) :=
  MigratedDb.plan (pendingFiles (sorted files) db.recorded)

theorem meaning_migrate (directory : d.directory t = files) (opened : d.store.sessions t = some [])
    (free : d.store.lock = none) :
    Executes t files d.committed (lonePlan files d.committed)
      (MigratedDb.postgres.replay (lonePlan files d.committed) d.committed)
      (Code.meaning (respond t) migrate d) := by
  let locked : Deployment σ := { d with store := { d.store with lock := some t } }
  have working : Working t files d.committed [] locked := ⟨directory, opened, rfl, rfl⟩
  have isLocked : Code.meaning (respond t) (execute (σ := σ) .advisoryLock) d = (.ok (), locked) := by
    rw [meaning_execute]
    simp only [respondStatement, opened, free]
    rfl
  unfold migrate
  rw [Code.meaning_bind, isLocked]
  dsimp only
  change Executes t files d.committed
    ([] ++ ([.createVersions] ++
      (pendingFiles (sorted files) d.committed.recorded).flatMap MigratedDb.fileWrites)) _ _
  refine Executes.bind (meaning_write working .createVersions) fun {middle data} held replayed => ?_
  cases replayed
  have isRead : Code.meaning (respond t) (execute (σ := σ) .read) middle =
      (.ok d.committed.recorded, middle) := by
    have isDb : middle.store.committed = d.committed := held.committed
    rw [meaning_execute]
    simp only [respondStatement, held.opened, isDb]
    rfl
  rw [Code.meaning_bind, isRead]
  dsimp only
  rw [Code.meaning_bind, Code.meaning_perform]
  simp only [respond, held.directory]
  exact meaning_forEach held _ rfl (sorted files)

/-- How a lone run ends: with what it executed committed, or with the first error. -/
inductive Ends (db : MigratedDb σ) : Except MigrationError (MigratedDb σ) →
    Except MigrationError Unit × Deployment σ → Prop where
  | succeeded {d : Deployment σ} : Ends db (.ok d.committed) (.ok (), d)
  | failed {error : MigrationError} {d : Deployment σ} (same : d.committed = db) :
      Ends db (.error error) (.error error, d)

theorem meaning_commit {data : MigratedDb σ} (working : Working t files db writes d)
    (replayed : MigratedDb.postgres.replay writes db = .ok data) :
    Ends db (.ok data) (Code.meaning (respond t) (do execute .commit; return ()) d) := by
  have isDb : d.store.committed = db := working.committed
  rw [Code.meaning_bind, meaning_execute]
  simp only [respondStatement, working.opened, isDb, replayed]
  exact .succeeded (d := { d with store := { d.store.endSession t with committed := data } })

theorem meaning_rollback (working : Working t files db writes d) (error : MigrationError) :
    Ends db (.error error) (Code.meaning (respond t) (do
      tryCatch (execute .rollback) fun _ => pure ()
      throw error : Migrating σ Unit) d) := by
  rw [Code.meaning_bind, Code.meaning_tryCatch, meaning_execute]
  simp only [respondStatement, working.opened, ne_eq, reduceCtorEq, not_false_eq_true, if_true]
  exact .failed working.committed

theorem meaning_transaction (directory : d.directory t = files)
    (closed : d.store.sessions t = none) (free : d.store.lock = none) :
    Ends d.committed (MigratedDb.postgres.replay (lonePlan files d.committed) d.committed)
      (Code.meaning (respond t) (transaction migrate) d) := by
  let begun : Deployment σ := { d with store := d.store.setWrites t [] }
  have isBegun : Code.meaning (respond t) (execute (σ := σ) .begin) d = (.ok (), begun) := by
    rw [meaning_execute]
    simp only [respondStatement, closed, if_true]
    rfl
  unfold transaction
  rw [Code.meaning_bind, isBegun]
  dsimp only
  rw [Code.meaning_bind, Code.meaning_tryCatch]
  have executed := meaning_migrate (d := begun) directory SessionStore.setWrites_self free
  change Executes t files d.committed (lonePlan files d.committed)
    (MigratedDb.postgres.replay (lonePlan files d.committed) d.committed) _ at executed
  generalize isReplayed :
    MigratedDb.postgres.replay (lonePlan files d.committed) d.committed = replayed at executed ⊢
  cases isRan : Code.meaning (respond t) migrate begun with
  | mk result middle =>
      rw [isRan] at executed
      cases executed with
      | all working => exact meaning_commit working isReplayed
      | @stopped error own _ working =>
          dsimp only
          have ended := meaning_rollback working error
          generalize isLast : Code.meaning (respond t) (do
            tryCatch (execute .rollback) fun _ => pure ()
            throw error : Migrating σ Unit) middle = last at ended ⊢
          cases ended with
          | failed same => exact .failed same

/-- A process that is alone commits the plan of its pending files, or raises the first error of
it and leaves the database alone. -/
theorem meaning_runMigrations (directory : d.directory t = files)
    (closed : d.store.sessions t = none) (free : d.store.lock = none) :
    Ends d.committed (MigratedDb.postgres.replay (lonePlan files d.committed) d.committed)
      (Code.meaning (respond t) runMigrations d) := by
  unfold runMigrations
  rw [Code.meaning_bind, Code.meaning_perform]
  simp only [respond]
  rw [Code.meaning_finally]
  have ended := meaning_transaction (d := d) directory closed free
  generalize MigratedDb.postgres.replay (lonePlan files d.committed) d.committed = replayed
    at ended ⊢
  cases isRan : Code.meaning (respond t) (transaction migrate) d with
  | mk result middle =>
      rw [isRan] at ended
      rw [meaning_execute]
      cases ended with
      | succeeded => exact .succeeded (d := { middle with store := middle.store.endSession t })
      | failed same => exact .failed same

end Alone

end JobPlatform.Migrations
