import JobPlatform.Foundation.Linearization

/-!
Contract: the converse of `linearizable` for clients that come one after another.

Owns:
- `Versions.Quiet`, and `alone`: what a statement does in one step is also what its transaction does, step by step, when
  no other is in progress.
-/

namespace JobPlatform.Foundation

open ThreadSystem

variable {ι κ ρ θ ε : Type} {L : PointUpdates ι κ ρ θ} {clients : Clients ι ρ ε} {statement : ι}
  {v after : Versions ι κ ρ θ} {t : ThreadId} {session : Session ι κ ρ θ} {row : ρ}
  {log : List (ClientEvent ι ρ ε)}

theorem sessions_opened (v : Versions ι κ ρ θ) (session : Session ι κ ρ θ) :
    (v.setSession t (some session)).sessions t = some session := Function.update_self _ _ _

variable [DecidableEq κ]

/-- One step of a transaction, in the system. -/
theorem completes_sql {call : RowCall ι κ} {value : call.Result ρ}
    (ran : L.Exec ε t v call (.ok value) after) :
    (stepSystem L clients).Completes t (sqlStep call).run ⟨v, log⟩ (.ok value) ⟨after, log⟩ :=
  have performed : (stepSystem L clients).exec t ⟨v, log⟩ (.sql call) (.ok value) ⟨after, log⟩ :=
    .sql ran
  completes_perform performed

/-- A snapshot that sees the row, or does not. -/
theorem select_alone (keyed : ∀ {key row}, v.latest key = some row → L.key row = key)
    (isOpen : v.sessions t = some session) (accepted : L.accepts session.statement) {keys : List κ}
    (distinct : keys.Nodup) (pins : ∀ key ∈ keys, key = L.pin session.statement)
    (selects : L.pin session.statement ∈ keys ↔
      ∃ row, v.latest (L.pin session.statement) = some row ∧
        (L.clause session.statement session.now row).Holds) :
    L.Exec ε t v (.select session.statement) (.ok keys) v := by
  refine .selected isOpen accepted distinct (fun key => ⟨fun member => ?_, ?_⟩) ?_
  · have isPin := pins key member
    subst isPin
    exact selects.mp member
  · rintro ⟨row, found, holds⟩
    have isPin : key = L.pin session.statement := (keyed found).symm.trans (L.pinned holds)
    subst isPin
    exact selects.mpr ⟨row, found, holds⟩
  · -- all selected keys are the same
    refine distinct.imp_of_mem fun left right apart => ?_
    exact absurd ((pins _ left).trans (pins _ right).symm) apart

/-- A transaction that finds its row and meets nobody. -/
theorem transaction_hit {now : θ} (keyed : ∀ {key row}, v.latest key = some row → L.key row = key)
    (idle : ∀ u, v.sessions u = none) (accepted : L.accepts statement)
    (found : v.latest (L.pin statement) = some row) (holds : (L.clause statement now row).Holds) :
    ∃ after : Versions ι κ ρ θ, (stepSystem L clients).Completes t
        (L.transaction sqlStep statement : Code (stepwise ι κ ρ ε) (List ρ)).run ⟨v, log⟩
        (.ok [L.set statement now row]) ⟨after, log⟩ ∧
      after.latest = Function.update v.latest (L.pin statement) (some (L.set statement now row)) ∧
      ∀ u, after.sessions u = none := by
  have isPin : L.key (L.set statement now row) = L.pin statement :=
    (L.fixed statement now row).trans (keyed found)
  let first : Session ι κ ρ θ := ⟨statement, now, [], [], []⟩
  let second : Session ι κ ρ θ := ⟨statement, now, [L.pin statement], [L.pin statement], []⟩
  let third : Session ι κ ρ θ := { second with written := [L.set statement now row] }
  have begun : L.Exec ε t v (.begin statement) (.ok ()) (v.setSession t (some first)) :=
    .began now (idle t)
  have select : L.Exec ε t (v.setSession t (some first)) (.select statement)
      (.ok [L.pin statement]) (v.setSession t (some first)) :=
    select_alone (v := v.setSession t (some first)) keyed (sessions_opened v first) accepted (List.nodup_singleton _)
      (fun _ => List.mem_singleton.mp)
      ⟨fun _ => ⟨row, found, holds⟩, fun _ => List.mem_singleton_self _⟩
  have lock : L.Exec ε t (v.setSession t (some first)) (.lock statement (L.pin statement)) (.ok true)
      ((v.setSession t (some first)).setSession t (some second)) := by
    refine Updates.Exec.lock_free first (sessions_opened v first) (fun u other isOther => ?_)
      (fun bound isBound => ?_) found holds
    · by_cases same : u = t
      · subst same
        cases (sessions_opened v first).symm.trans isOther
        exact List.not_mem_nil
      · cases (idle u).symm.trans ((Function.update_of_ne same _ _).symm.trans isOther)
    · rw [L.unlimited] at isBound
      cases isBound
  rw [Versions.setSession_setSession] at lock
  have write : L.Exec ε t (v.setSession t (some second)) (.write statement)
      (.ok [L.set statement now row]) ((v.setSession t (some second)).setSession t (some third)) := by
    refine .wrote (sessions_opened v second) ?_ fun other member => ?_
    · change [L.key (L.set statement now row)].Perm [L.pin statement]
      rw [isPin]
    · cases List.mem_singleton.mp member
      exact ⟨row, isPin ▸ found, rfl⟩
  rw [Versions.setSession_setSession] at write
  have commit : L.Exec ε t (v.setSession t (some third)) (.commit statement) (.ok ())
      ((v.setSession t (some third)).commit L.toUpdates t third) :=
    .committed (sessions_opened v third)
  refine ⟨(v.setSession t (some third)).commit L.toUpdates t third, ?_,
    latest_of_written rfl isPin, fun u => ?_⟩
  · refine completes_bind (completes_sql begun) (completes_bind (completes_sql select) ?_)
    rw [L.unlimited]
    change (stepSystem L clients).Completes t (Updates.lockRows sqlStep statement 1
      [L.pin statement] >>= fun _ => writePart statement).run _ _ _
    rw [lockRows_pin]
    refine completes_bind (completes_sql lock) (completes_bind (completes_sql write) ?_)
    exact completes_bind (completes_sql commit) completes_pure
  · by_cases same : u = t
    · subst same
      exact Function.update_self _ _ _
    · exact ((Function.update_of_ne same _ _).trans (Function.update_of_ne same _ _)).trans (idle u)

/-- A transaction whose snapshot does not show its row. -/
theorem transaction_miss (now : θ) (keyed : ∀ {key row}, v.latest key = some row → L.key row = key)
    (idle : ∀ u, v.sessions u = none) (accepted : L.accepts statement)
    (rejected : ∀ row, v.latest (L.pin statement) = some row →
      ¬ (L.clause statement now row).Holds) :
    ∃ after : Versions ι κ ρ θ, (stepSystem L clients).Completes t
        (L.transaction sqlStep statement : Code (stepwise ι κ ρ ε) (List ρ)).run ⟨v, log⟩
        (.ok []) ⟨after, log⟩ ∧ after.latest = v.latest ∧ ∀ u, after.sessions u = none := by
  let session : Session ι κ ρ θ := ⟨statement, now, [], [], []⟩
  have begun : L.Exec ε t v (.begin statement) (.ok ()) (v.setSession t (some session)) :=
    .began now (idle t)
  have select : L.Exec ε t (v.setSession t (some session)) (.select statement) (.ok [])
      (v.setSession t (some session)) := by
    refine select_alone (v := v.setSession t (some session)) keyed (sessions_opened v session) accepted List.nodup_nil (by simp) ?_
    constructor
    · intro member
      cases member
    · rintro ⟨row, found, holds⟩
      exact absurd holds (rejected row found)
  have write : L.Exec ε t (v.setSession t (some session)) (.write statement) (.ok [])
      ((v.setSession t (some session)).setSession t (some session)) :=
    .wrote (sessions_opened v session) .nil (by simp)
  rw [Versions.setSession_setSession] at write
  have commit : L.Exec ε t (v.setSession t (some session)) (.commit statement) (.ok ())
      ((v.setSession t (some session)).commit L.toUpdates t session) :=
    .committed (sessions_opened v session)
  have stands : (v.setSession t (some session)).At t statement [] [] := by
    intro other isOther
    cases (sessions_opened v session).symm.trans isOther
    exact ⟨rfl, rfl, rfl⟩
  refine ⟨(v.setSession t (some session)).commit L.toUpdates t session, ?_,
    latest_of_unwritten (sessions_opened v session) stands, fun u => ?_⟩
  · refine completes_bind (completes_sql begun) (completes_bind (completes_sql select) ?_)
    rw [L.unlimited]
    exact completes_bind completes_pure (completes_bind (completes_sql write)
      (completes_bind (completes_sql commit) completes_pure))
  · by_cases same : u = t
    · subst same
      exact Function.update_self _ _ _
    · exact ((Function.update_of_ne same _ _).trans (Function.update_of_ne same _ _)).trans (idle u)

/-- No transaction is in progress, and every row is under its key. -/
structure Versions.Quiet (L : PointUpdates ι κ ρ θ) (v : Versions ι κ ρ θ) : Prop where
  keyed : ∀ {key row}, v.latest key = some row → L.key row = key
  idle : ∀ u, v.sessions u = none

/-- A statement in one step keeps the rows under their keys. -/
theorem AtomicRun.keyed {now : θ} {rows : List ρ} {latest done : κ → Option ρ}
    (ran : AtomicRun L statement now latest rows done)
    (keyed : ∀ {key row}, latest key = some row → L.key row = key) {key : κ} {row : ρ}
    (found : done key = some row) : L.key row = key := by
  cases ran with
  | miss => exact keyed found
  | @hit old isOld _ =>
      by_cases same : key = L.pin statement
      · subst same
        rw [Function.update_self] at found
        cases found
        exact (L.fixed statement now old).trans (keyed isOld)
      · rw [Function.update_of_ne same] at found
        exact keyed found

/-- Conversely a statement that runs in one step is run by a client that meets nobody. -/
theorem alone {now : θ} {rows : List ρ} {done : κ → Option ρ} (quiet : v.Quiet L)
    (accepted : L.accepts statement) (sends : clients.sends log statement)
    (ran : AtomicRun L statement now v.latest rows done) :
    ∃ after : Versions ι κ ρ θ, (stepSystem L clients).Turn t
        (⟨v, log⟩ : StepWorld ι κ ρ θ ε)
        ⟨after, log ++ [.invoked t statement] ++ [.answered t statement (.ok rows)]⟩ ∧
      after.latest = done ∧ after.Quiet L := by
  have invoked : (stepSystem L clients).exec t ⟨v, log⟩ (.invoke statement) (.ok ())
      ⟨v, log ++ [.invoked t statement]⟩ := StepWorld.Perform.invoked sends
  have answered (after : Versions ι κ ρ θ) (log : List (ClientEvent ι ρ ε)) :
      (stepSystem L clients).exec t ⟨after, log⟩ (.answer statement (.ok rows)) (.ok ())
        ⟨after, log ++ [.answered t statement (.ok rows)]⟩ := StepWorld.Perform.answered
  have transaction : ∃ after : Versions ι κ ρ θ, (stepSystem L clients).Completes t
      (L.transaction sqlStep statement : Code (stepwise ι κ ρ ε) (List ρ)).run
      ⟨v, log ++ [.invoked t statement]⟩ (.ok rows) ⟨after, log ++ [.invoked t statement]⟩ ∧
        after.latest = done ∧ ∀ u, after.sessions u = none := by
    cases ran with
    | hit found holds => exact transaction_hit quiet.keyed quiet.idle accepted found holds
    | miss rejected => exact transaction_miss now quiet.keyed quiet.idle accepted rejected
  obtain ⟨after, completes, isDone, idle⟩ := transaction
  refine ⟨after, .ran ⟨rfl, statement, rfl⟩ ⟨_, _, invoked, ?_⟩, isDone, fun found => ?_, idle⟩
  · exact completes.bind ⟨_, _, answered after _, rfl, rfl⟩
  · rw [isDone] at found
    exact ran.keyed quiet.keyed found

end JobPlatform.Foundation
