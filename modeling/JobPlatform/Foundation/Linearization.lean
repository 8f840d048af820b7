import JobPlatform.Foundation.RowLocks
import JobPlatform.Foundation.Simulation

/-!
Contract: `UPDATE` statements that select one row by its key are linearizable.

Owns:
- `PointUpdates`, such statements, and `AtomicRun`, what a statement does in one step;
- `stepSystem`, clients whose transactions interleave at their steps, and `atomSystem`, clients whose
  statements are single steps; both log what the clients send and get back;
- `linearizable`: whatever log and rows the first reaches, the second reaches.

The step of a statement falls between its invocation and its answer. A statement that finds its row
takes effect at the commit. One that does not is over when its snapshot shows no row, or when its
recheck of the locked row fails, and its commit is a formality.
-/

namespace JobPlatform.Foundation

open ThreadSystem

/-- Statements without a limit that wait for locks, each on the row under one key. -/
structure PointUpdates (ι κ ρ θ : Type) extends Updates ι κ ρ θ where
  pin : ι → κ
  pinned : ∀ {statement now row}, (clause statement now row).Holds → key row = pin statement
  unlimited : ∀ statement, limit statement = none
  waits : ∀ statement, ¬ skips statement

variable {ι κ ρ θ ε : Type}

/-- The statement in one step: the rows it returns, and the rows of the table afterwards. -/
inductive AtomicRun [DecidableEq κ] (L : PointUpdates ι κ ρ θ) (statement : ι) (now : θ)
    (latest : κ → Option ρ) : List ρ → (κ → Option ρ) → Prop where
  | hit {row : ρ} (found : latest (L.pin statement) = some row)
      (holds : (L.clause statement now row).Holds) :
      AtomicRun L statement now latest [L.set statement now row]
        (Function.update latest (L.pin statement) (some (L.set statement now row)))
  | miss (rejected : ∀ row, latest (L.pin statement) = some row →
      ¬ (L.clause statement now row).Holds) : AtomicRun L statement now latest [] latest

/-! ### The clients -/

/-- What the clients see: a statement is sent, and its rows or an error come back. -/
inductive ClientEvent (ι ρ ε : Type) where
  | invoked (t : ThreadId) (statement : ι)
  | answered (t : ThreadId) (statement : ι) (result : Except ε (List ρ))

/-- A call of a client whose transaction runs step by step. -/
inductive StepCall (ι κ ρ ε : Type) where
  | invoke (statement : ι)
  | sql (call : RowCall ι κ)
  | answer (statement : ι) (result : Except ε (List ρ))

/-- What each call returns. -/
@[reducible] def StepCall.Result : StepCall ι κ ρ ε → Type
  | sql call => call.Result ρ
  | _ => Unit

/-- A call of a client whose statement is one step. The answer of the step may be lost on its
way back. -/
inductive AtomCall (ι ρ ε : Type) where
  | invoke (statement : ι)
  | run (statement : ι)
  | deliver (statement : ι)
  | answer (statement : ι) (result : Except ε (List ρ))

/-- What each call returns. -/
@[reducible] def AtomCall.Result : AtomCall ι ρ ε → Type
  | run _ => List ρ
  | _ => Unit

variable (ι κ ρ ε) in
/-- The language of the steps. -/
@[reducible] def stepwise : Calls := ⟨StepCall ι κ ρ ε, StepCall.Result, ε⟩

variable (ι ρ ε) in
/-- The language of the atomic statements. -/
@[reducible] def atomwise : Calls := ⟨AtomCall ι ρ ε, AtomCall.Result, ε⟩

/-- One step of a transaction. -/
def sqlStep (call : RowCall ι κ) : Code (stepwise ι κ ρ ε) (call.Result ρ) :=
  Code.perform (S := stepwise ι κ ρ ε) (.sql call)

/-- The client gets its answer. -/
def stepAnswer (statement : ι) (result : Except ε (List ρ)) : Program (stepwise ι κ ρ ε) Unit :=
  .call (.answer statement result) fun _ => .done ()

/-- The client gets its answer. -/
def atomAnswer (statement : ι) (result : Except ε (List ρ)) : Program (atomwise ι ρ ε) Unit :=
  .call (.answer statement result) fun _ => .done ()

/-- A client that runs the transaction of a statement. -/
def stepClient (L : PointUpdates ι κ ρ θ) (statement : ι) : Program (stepwise ι κ ρ ε) Unit :=
  .call (.invoke statement) fun _ =>
    (L.transaction sqlStep statement).run >>= stepAnswer statement

/-- The way back of the rows. -/
def delivered (statement : ι) (rows : List ρ) : Code (atomwise ι ρ ε) (List ρ) := do
  Code.perform (S := atomwise ι ρ ε) (.deliver statement)
  return rows

/-- The statement in one step, and its answer. -/
def atomStatement (statement : ι) : Code (atomwise ι ρ ε) (List ρ) := do
  let rows ← Code.perform (S := atomwise ι ρ ε) (.run statement)
  delivered statement rows

/-- A client whose statement is one step. -/
def atomClient (statement : ι) : Program (atomwise ι ρ ε) Unit :=
  .call (.invoke statement) fun _ => (atomStatement statement).run >>= atomAnswer statement

/-! ### The systems -/

/-- The rows with the transactions in progress, and what the clients have seen. -/
structure StepWorld (ι κ ρ θ ε : Type) where
  versions : Versions ι κ ρ θ
  log : List (ClientEvent ι ρ ε)

/-- The rows, and what the clients have seen. -/
structure AtomWorld (ι κ ρ ε : Type) where
  latest : κ → Option ρ
  log : List (ClientEvent ι ρ ε)

/-- What the clients may send after what they have seen, and the rows that others insert. -/
structure Clients (ι ρ ε : Type) where
  sends : List (ClientEvent ι ρ ε) → ι → Prop
  inserts : ρ → Prop

section Systems

variable [DecidableEq κ] (L : PointUpdates ι κ ρ θ) (clients : Clients ι ρ ε)

/-- What a call of a client may do and reply. -/
inductive StepWorld.Perform (t : ThreadId) (w : StepWorld ι κ ρ θ ε) :
    (c : StepCall ι κ ρ ε) → Except ε c.Result → StepWorld ι κ ρ θ ε → Prop where
  | invoked {statement : ι} (sends : clients.sends w.log statement) :
      Perform t w (.invoke statement) (.ok ())
        { w with log := w.log ++ [.invoked t statement] }
  | sql {call : RowCall ι κ} {reply : Except ε (call.Result ρ)} {versions : Versions ι κ ρ θ}
      (ran : L.Exec ε t w.versions call reply versions) :
      Perform t w (.sql call) reply { w with versions }
  | answered {statement : ι} {result : Except ε (List ρ)} :
      Perform t w (.answer statement result) (.ok ())
        { w with log := w.log ++ [.answered t statement result] }

/-- A row is inserted, or the server ends the transaction of a thread. -/
inductive StepWorld.Env (w : StepWorld ι κ ρ θ ε) : StepWorld ι κ ρ θ ε → Prop where
  | inserted {row : ρ} (inserts : clients.inserts row) (new : w.versions.latest (L.key row) = none) :
      Env w { w with versions := { w.versions with
        latest := Function.update w.versions.latest (L.key row) (some row) } }
  | disconnected (t : ThreadId) : Env w { w with versions := w.versions.setSession t none }

/-- What a call of a client may do and reply, when its statement is one step. -/
inductive AtomWorld.Perform (t : ThreadId) (w : AtomWorld ι κ ρ ε) :
    (c : AtomCall ι ρ ε) → Except ε c.Result → AtomWorld ι κ ρ ε → Prop where
  | invoked {statement : ι} (sends : clients.sends w.log statement) :
      Perform t w (.invoke statement) (.ok ())
        { w with log := w.log ++ [.invoked t statement] }
  | ran {statement : ι} {now : θ} {rows : List ρ} {latest : κ → Option ρ}
      (ran : AtomicRun L statement now w.latest rows latest) :
      Perform t w (.run statement) (.ok rows) { w with latest }
  | notRun {statement : ι} (error : ε) : Perform t w (.run statement) (.error error) w
  | delivered {statement : ι} (reply : Except ε Unit) : Perform t w (.deliver statement) reply w
  | answered {statement : ι} {result : Except ε (List ρ)} :
      Perform t w (.answer statement result) (.ok ())
        { w with log := w.log ++ [.answered t statement result] }

/-- Clients whose transactions interleave at their steps. -/
def stepSystem : ThreadSystem (stepwise ι κ ρ ε) (StepWorld ι κ ρ θ ε) where
  exec t w call reply after := StepWorld.Perform L clients t w call reply after
  start _ w program after := after = w ∧ ∃ statement, program = stepClient L statement
  env w after := StepWorld.Env L clients w after

/-- Clients whose statements are single steps. -/
def atomSystem : ThreadSystem (atomwise ι ρ ε) (AtomWorld ι κ ρ ε) where
  exec t w call reply after := AtomWorld.Perform L clients t w call reply after
  start _ w program after := after = w ∧ ∃ statement, program = atomClient statement
  env w after := ∃ row, clients.inserts row ∧ w.latest (L.key row) = none ∧
    after = { w with latest := Function.update w.latest (L.key row) (some row) }

end Systems

/-! ### The simulation -/

section Proof

variable {L : PointUpdates ι κ ρ θ} {clients : Clients ι ρ ε} {statement : ι}

/-- What happens after the reply to a call. -/
def resume {S : Calls} {α β γ : Type} (rest : γ → Code S α)
    (next : Except S.Error α → Program S β) : Except S.Error γ → Program S β
  | .ok value => (rest value).run >>= next
  | .error error => next (.error error)

/-- A call at the head of a piece of code is the head of the program. -/
theorem run_perform {S : Calls} {α β : Type} (c : S.Call) (rest : S.Result c → Code S α)
    (next : Except S.Error α → Program S β) :
    (Code.perform c >>= rest).run >>= next = .call c (resume rest next) := by
  refine congrArg (Program.call c) (funext fun reply => ?_)
  cases reply <;> rfl

/-- What is left of a transaction once its rows are written. -/
def commitPart (statement : ι) (rows : List ρ) : Code (stepwise ι κ ρ ε) (List ρ) := do
  sqlStep (.commit statement)
  return rows

/-- What is left of it once its row is locked. -/
def writePart (statement : ι) : Code (stepwise ι κ ρ ε) (List ρ) := do
  let rows ← sqlStep (.write statement)
  commitPart statement rows

/-- What is left of it once its row is selected. -/
def lockPart (L : PointUpdates ι κ ρ θ) (statement : ι) : Code (stepwise ι κ ρ ε) (List ρ) := do
  let _ ← sqlStep (.lock statement (L.pin statement))
  writePart statement

/-- What is left of it once it has begun. -/
def selectPart (L : PointUpdates ι κ ρ θ) (statement : ι) : Code (stepwise ι κ ρ ε) (List ρ) := do
  let keys ← sqlStep (.select statement)
  Updates.lockRows sqlStep statement ((L.limit statement).getD keys.length) keys
  writePart statement

/-- Nothing is left to lock after the one row. -/
theorem lockRows_pin :
    (Updates.lockRows sqlStep statement 1 [L.pin statement] >>= fun _ => writePart statement :
      Code (stepwise ι κ ρ ε) (List ρ)) = lockPart L statement := by
  unfold lockPart Updates.lockRows
  rw [bind_assoc]
  refine congrArg (sqlStep _ >>= ·) (funext fun holds => ?_)
  cases holds <;> rfl

/-- While the transaction of the thread is open, it is of the statement and has come so far. -/
def Versions.At (v : Versions ι κ ρ θ) (t : ThreadId) (statement : ι) (chosen : List κ)
    (written : List ρ) : Prop :=
  ∀ session, v.sessions t = some session →
    session.statement = statement ∧ session.chosen = chosen ∧ session.written = written

theorem Versions.At.keep {v after : Versions ι κ ρ θ} {t : ThreadId} {chosen : List κ}
    {written : List ρ} (stands : v.At t statement chosen written)
    (kept : after.sessions t = v.sessions t ∨ after.sessions t = none) :
    after.At t statement chosen written := by
  intro session isOpen
  rcases kept with same | ended
  · exact stands session (same ▸ isOpen)
  · rw [ended] at isOpen
    cases isOpen

/-- The stages of a transaction, and what is left then of the statement in one step. It has run once
the snapshot shows no row or the recheck fails. -/
inductive Stage (L : PointUpdates ι κ ρ θ) (t : ThreadId) (v : Versions ι κ ρ θ) (statement : ι) :
    Code (stepwise ι κ ρ ε) (List ρ) → Code (atomwise ι ρ ε) (List ρ) → Prop where
  | begins : Stage L t v statement (L.transaction sqlStep statement) (atomStatement statement)
  | selects (stands : v.At t statement [] []) :
      Stage L t v statement (selectPart L statement) (atomStatement statement)
  | locks (stands : v.At t statement [] []) :
      Stage L t v statement (lockPart L statement) (atomStatement statement)
  | writes (stands : v.At t statement [L.pin statement] []) :
      Stage L t v statement (writePart statement) (atomStatement statement)
  | commits {new : ρ} (stands : v.At t statement [L.pin statement] [new])
      (isPin : L.key new = L.pin statement) :
      Stage L t v statement (commitPart statement [new]) (atomStatement statement)
  | missed (stands : v.At t statement [] []) :
      Stage L t v statement (writePart statement) (delivered statement [])
  | commitsNone (stands : v.At t statement [] []) :
      Stage L t v statement (commitPart statement []) (delivered statement [])

/-- The points of a client and of its twin. -/
inductive Phase (L : PointUpdates ι κ ρ θ) (t : ThreadId) (v : Versions ι κ ρ θ) :
    Program (stepwise ι κ ρ ε) Unit → Program (atomwise ι ρ ε) Unit → Prop where
  | invokes (statement : ι) : Phase L t v (stepClient L statement) (atomClient statement)
  | runs {statement : ι} {code : Code (stepwise ι κ ρ ε) (List ρ)}
      {twin : Code (atomwise ι ρ ε) (List ρ)} (stage : Stage L t v statement code twin) :
      Phase L t v (code.run >>= stepAnswer statement) (twin.run >>= atomAnswer statement)
  | answers (statement : ι) (result : Except ε (List ρ)) :
      Phase L t v (stepAnswer statement result) (atomAnswer statement result)
  | ended : Phase L t v (.done ()) (.done ())

/-- The others' transactions do not matter, and an end of the own one is no other phase. -/
theorem Phase.keep {v after : Versions ι κ ρ θ} {t : ThreadId}
    {program : Program (stepwise ι κ ρ ε) Unit} {twin : Program (atomwise ι ρ ε) Unit}
    (phase : Phase L t v program twin)
    (kept : after.sessions t = v.sessions t ∨ after.sessions t = none) :
    Phase L t after program twin := by
  cases phase with
  | invokes => exact .invokes _
  | answers => exact .answers _ _
  | ended => exact .ended
  | runs stage =>
      refine .runs ?_
      cases stage with
      | begins => exact .begins
      | selects stands => exact .selects (stands.keep kept)
      | locks stands => exact .locks (stands.keep kept)
      | writes stands => exact .writes (stands.keep kept)
      | commits stands isPin => exact .commits (stands.keep kept) isPin
      | missed stands => exact .missed (stands.keep kept)
      | commitsNone stands => exact .commitsNone (stands.keep kept)

variable [DecidableEq κ] {v after : Versions ι κ ρ θ} {t : ThreadId}
  {log : List (ClientEvent ι ρ ε)}

section Twin

variable {latest : κ → Option ρ} {rows : List ρ}

/-- The client has sent its statement. -/
theorem moves_invoked (sends : clients.sends log statement) :
    (atomSystem L clients).Moves t (atomClient statement) ⟨latest, log⟩
      ((atomStatement statement).run >>= atomAnswer statement)
      ⟨latest, log ++ [.invoked t statement]⟩ := by
  have performed : (atomSystem L clients).exec t ⟨latest, log⟩ (.invoke statement) (.ok ())
      ⟨latest, log ++ [.invoked t statement]⟩ := AtomWorld.Perform.invoked sends
  exact .single performed

/-- The client has its answer. -/
theorem moves_answered (result : Except ε (List ρ)) :
    (atomSystem L clients).Moves t (atomAnswer statement result) ⟨latest, log⟩ (.done ())
      ⟨latest, log ++ [.answered t statement result]⟩ := by
  have performed : (atomSystem L clients).exec t ⟨latest, log⟩ (.answer statement result) (.ok ())
      ⟨latest, log ++ [.answered t statement result]⟩ := AtomWorld.Perform.answered
  exact .single performed

/-- The statement has run. -/
theorem moves_ran {now : θ} {done : κ → Option ρ}
    (ran : AtomicRun L statement now latest rows done) :
    (atomSystem L clients).Moves t ((atomStatement statement).run >>= atomAnswer statement)
      ⟨latest, log⟩ ((delivered statement rows).run >>= atomAnswer statement) ⟨done, log⟩ := by
  have performed : (atomSystem L clients).exec t ⟨latest, log⟩ (.run statement) (.ok rows)
      ⟨done, log⟩ := AtomWorld.Perform.ran ran
  unfold atomStatement
  rw [run_perform]
  exact .single performed

/-- It has raised. -/
theorem moves_notRun (error : ε) :
    (atomSystem L clients).Moves t ((atomStatement statement).run >>= atomAnswer statement)
      ⟨latest, log⟩ (atomAnswer statement (.error error)) ⟨latest, log⟩ := by
  have performed : (atomSystem L clients).exec t ⟨latest, log⟩ (.run statement) (.error error)
      ⟨latest, log⟩ := AtomWorld.Perform.notRun error
  unfold atomStatement
  rw [run_perform]
  exact .single performed

/-- Its rows have come. -/
theorem moves_delivered :
    (atomSystem L clients).Moves t ((delivered statement rows).run >>= atomAnswer statement)
      ⟨latest, log⟩ (atomAnswer statement (.ok rows)) ⟨latest, log⟩ := by
  have performed : (atomSystem L clients).exec t ⟨latest, log⟩ (.deliver statement) (.ok ())
      ⟨latest, log⟩ := AtomWorld.Perform.delivered _
  unfold delivered
  rw [run_perform]
  exact .single performed

/-- Its rows are lost. -/
theorem moves_lost (error : ε) :
    (atomSystem L clients).Moves t ((delivered statement rows).run >>= atomAnswer statement)
      ⟨latest, log⟩ (atomAnswer statement (.error error)) ⟨latest, log⟩ := by
  have performed : (atomSystem L clients).exec t ⟨latest, log⟩ (.deliver statement) (.error error)
      ⟨latest, log⟩ := AtomWorld.Perform.delivered _
  unfold delivered
  rw [run_perform]
  exact .single performed

end Twin

/-- The twin moves along, and both come to a phase with the same rows. -/
def Follows (L : PointUpdates ι κ ρ θ) (clients : Clients ι ρ ε) (t : ThreadId)
    (log : List (ClientEvent ι ρ ε)) (v after : Versions ι κ ρ θ)
    (program : Program (stepwise ι κ ρ ε) Unit) (twin : Program (atomwise ι ρ ε) Unit) : Prop :=
  ∃ next, (atomSystem L clients).Moves t twin ⟨v.latest, log⟩ next ⟨after.latest, log⟩ ∧
    Phase L t after program next

/-- A step that raised, before the statement has run. -/
theorem follows_raised (error : ε) (same : after.latest = v.latest) :
    Follows L clients t log v after (stepAnswer statement (.error error))
      ((atomStatement statement).run >>= atomAnswer statement) := by
  refine ⟨_, ?_, .answers statement (.error error)⟩
  rw [same]
  exact moves_notRun error

/-- A step that raised, after the statement has run. -/
theorem follows_lost {rows : List ρ} (error : ε) (same : after.latest = v.latest) :
    Follows L clients t log v after (stepAnswer statement (.error error))
      ((delivered statement rows).run >>= atomAnswer statement) := by
  refine ⟨_, ?_, .answers statement (.error error)⟩
  rw [same]
  exact moves_lost error

/-- A step that the twin waits out. -/
theorem follows_waiting {code : Code (stepwise ι κ ρ ε) (List ρ)}
    {twin : Code (atomwise ι ρ ε) (List ρ)} (same : after.latest = v.latest)
    (stage : Stage L t after statement code twin) :
    Follows L clients t log v after (code.run >>= stepAnswer statement)
      (twin.run >>= atomAnswer statement) := by
  refine ⟨_, ?_, .runs stage⟩
  rw [same]
  exact .refl

/-- The keys a snapshot selects: the one row, if it satisfies the clause. -/
theorem keys_eq (sound : v.Sound L.toUpdates) {now : θ} {keys : List κ} (distinct : keys.Nodup)
    (selects : ∀ key, key ∈ keys ↔ ∃ row, v.latest key = some row ∧
      (L.clause statement now row).Holds) :
    keys = [L.pin statement] ∨ keys = [] ∧ AtomicRun L statement now v.latest [] v.latest := by
  have isPin : ∀ key ∈ keys, key = L.pin statement := by
    intro key member
    obtain ⟨row, found, holds⟩ := (selects key).mp member
    exact (sound.keyed found).symm.trans (L.pinned holds)
  cases keys with
  | nil =>
      refine .inr ⟨rfl, .miss fun row found holds => ?_⟩
      have member := (selects (L.pin statement)).mpr ⟨row, found, holds⟩
      cases member
  | cons key rest =>
      have first := isPin key List.mem_cons_self
      subst first
      cases rest with
      | nil => exact .inl rfl
      | cons other rest =>
          have second := isPin other (by simp)
          simp [second] at distinct

/-- The snapshot. -/
theorem select_follows (sound : v.Sound L.toUpdates) (stands : v.At t statement [] [])
    {reply : Except ε (List κ)} (ran : L.Exec ε t v (.select statement) reply after) :
    Follows L clients t log v after
      (resume (fun keys => do
        Updates.lockRows sqlStep statement ((L.limit statement).getD keys.length) keys
        writePart statement) (stepAnswer statement) reply)
      ((atomStatement statement).run >>= atomAnswer statement) := by
  cases ran with
  | raised error => exact follows_raised error rfl
  | @selected session keys isOpen accepted distinct selects =>
      rcases keys_eq sound distinct selects with rfl | ⟨rfl, misses⟩
      · have stage : Stage L t v session.statement
            (lockPart L session.statement : Code (stepwise ι κ ρ ε) (List ρ))
            (atomStatement session.statement) := .locks stands
        rw [← lockRows_pin] at stage
        rw [L.unlimited]
        exact follows_waiting rfl stage
      · rw [L.unlimited]
        exact ⟨_, moves_ran misses, .runs (.missed stands)⟩

/-- The lock. -/
theorem lock_follows (stands : v.At t statement [] []) {reply : Except ε Bool}
    (ran : L.Exec ε t v (.lock statement (L.pin statement)) reply after) :
    Follows L clients t log v after
      (resume (fun _ => writePart statement) (stepAnswer statement) reply)
      ((atomStatement statement).run >>= atomAnswer statement) := by
  cases ran with
  | raised error => exact follows_raised error rfl
  | skipped isOpen skips => exact absurd skips (L.waits _)
  | @locked session key row isOpen free within found =>
      obtain ⟨_, noneChosen, noneWritten⟩ := stands session isOpen
      by_cases holds : (L.clause session.statement session.now row).Holds
      · refine follows_waiting rfl (.writes ?_)
        intro now isNow
        cases (Function.update_self t _ v.sessions).symm.trans isNow
        simp [Session.lock, holds, noneChosen, noneWritten]
      · have misses : AtomicRun L session.statement session.now v.latest [] v.latest := by
          refine .miss fun other isOther => ?_
          cases found.symm.trans isOther
          exact holds
        refine ⟨_, moves_ran misses, .runs (.missed ?_)⟩
        intro now isNow
        cases (Function.update_self t _ v.sessions).symm.trans isNow
        simp [Session.lock, holds, noneChosen, noneWritten]

/-- The new version. -/
theorem write_follows {reply : Except ε (List ρ)} {chosen : List κ}
    {twin : Code (atomwise ι ρ ε) (List ρ)} (stands : v.At t statement chosen [])
    (ran : L.Exec ε t v (.write statement) reply after)
    (raised : ∀ error : ε, after.latest = v.latest → Follows L clients t log v after
      (stepAnswer statement (.error error)) (twin.run >>= atomAnswer statement))
    (wrote : ∀ rows : List ρ, (rows.map L.key).Perm chosen → after.At t statement chosen rows →
      Stage L t after statement (commitPart statement rows) twin) :
    Follows L clients t log v after
      (resume (commitPart statement) (stepAnswer statement) reply)
      (twin.run >>= atomAnswer statement) := by
  cases ran with
  | raised error => exact raised error rfl
  | @wrote session written isOpen covers versions =>
      obtain ⟨_, isChosen, _⟩ := stands session isOpen
      refine follows_waiting rfl (wrote written (isChosen ▸ covers) ?_)
      intro now isNow
      cases (Function.update_self t _ v.sessions).symm.trans isNow
      exact ⟨rfl, isChosen, rfl⟩

/-- The rows after a commit of one new version. -/
theorem latest_of_written {session : Session ι κ ρ θ} {new : ρ} {key : κ}
    (isWritten : session.written = [new]) (isKey : L.key new = key) :
    (v.commit L.toUpdates t session).latest = Function.update v.latest key (some new) := by
  subst isKey
  funext key
  unfold Versions.commit
  by_cases same : key = L.key new
  · simp [isWritten, same]
  · have apart : L.key new ≠ key := fun isKey => same isKey.symm
    simp [isWritten, same, apart]

/-- A transaction that has written its row commits what the statement does in one step. -/
theorem hit_of_written (sound : v.Sound L.toUpdates) {session : Session ι κ ρ θ} {new : ρ}
    (isOpen : v.sessions t = some session) (stands : v.At t statement [L.pin statement] [new])
    (isPin : L.key new = L.pin statement) :
    AtomicRun L statement session.now v.latest [new] (v.commit L.toUpdates t session).latest := by
  obtain ⟨rfl, isChosen, isWritten⟩ := stands session isOpen
  have valid := sound.valid isOpen
  rw [latest_of_written isWritten isPin]
  obtain ⟨_, row, found, rfl⟩ := valid.written new (by simp [isWritten])
  obtain ⟨_, chosen, isRow, holds⟩ := valid.chosen (L.pin session.statement) (by simp [isChosen])
  rw [isPin] at found
  cases found.symm.trans isRow
  exact .hit found holds

/-- A transaction that has written nothing commits nothing. -/
theorem latest_of_unwritten {session : Session ι κ ρ θ} (isOpen : v.sessions t = some session)
    (stands : v.At t statement [] []) :
    (v.commit L.toUpdates t session).latest = v.latest := by
  obtain ⟨_, _, noneWritten⟩ := stands session isOpen
  funext key
  unfold Versions.commit
  simp [noneWritten]

/-- The commit of a new version. -/
theorem commit_follows (sound : v.Sound L.toUpdates) {new : ρ}
    (stands : v.At t statement [L.pin statement] [new]) (isPin : L.key new = L.pin statement)
    {reply : Except ε Unit} (ran : L.Exec ε t v (.commit statement) reply after) :
    Follows L clients t log v after
      (resume (fun _ => pure [new]) (stepAnswer statement) reply)
      ((atomStatement statement).run >>= atomAnswer statement) := by
  cases ran with
  | raised error => exact follows_raised error rfl
  | committed isOpen =>
      have hit := hit_of_written sound isOpen stands isPin
      exact ⟨_, (moves_ran hit).trans moves_delivered, .answers _ _⟩
  | unanswered isOpen error =>
      have hit := hit_of_written sound isOpen stands isPin
      exact ⟨_, (moves_ran hit).trans (moves_lost error), .answers _ _⟩

/-- The commit of nothing. -/
theorem commitNone_follows (stands : v.At t statement [] []) {reply : Except ε Unit}
    (ran : L.Exec ε t v (.commit statement) reply after) :
    Follows L clients t log v after
      (resume (fun _ => pure []) (stepAnswer statement) reply)
      ((delivered statement []).run >>= atomAnswer statement) := by
  cases ran with
  | raised error => exact follows_lost error rfl
  | @committed session isOpen =>
      refine ⟨_, ?_, .answers _ (.ok [])⟩
      rw [latest_of_unwritten isOpen stands]
      exact moves_delivered
  | unanswered isOpen error => exact follows_lost error (latest_of_unwritten isOpen stands)

/-- A stage of a transaction is a call, and every outcome of the call is followed. -/
theorem Stage.follows {code : Code (stepwise ι κ ρ ε) (List ρ)}
    {twin : Code (atomwise ι ρ ε) (List ρ)} (stage : Stage L t v statement code twin)
    (sound : v.Sound L.toUpdates) :
    ∃ call rest, code.run >>= stepAnswer statement = .call (.sql call) rest ∧
      ∀ {reply after}, L.Exec ε t v call reply after →
        Follows L clients t log v after (rest reply) (twin.run >>= atomAnswer statement) := by
  cases stage with
  | begins =>
      refine ⟨.begin statement, _, run_perform _ _ _, fun {reply after} ran => ?_⟩
      cases ran with
      | raised error => exact follows_raised error rfl
      | began now idle =>
          refine follows_waiting rfl (.selects ?_)
          intro session isSession
          cases (Function.update_self t _ v.sessions).symm.trans isSession
          exact ⟨rfl, rfl, rfl⟩
  | selects stands =>
      exact ⟨.select statement, _, run_perform _ _ _, fun ran => select_follows sound stands ran⟩
  | locks stands =>
      exact ⟨.lock statement (L.pin statement), _, run_perform _ _ _,
        fun ran => lock_follows stands ran⟩
  | writes stands =>
      refine ⟨.write statement, _, run_perform _ _ _, fun {reply after} ran => ?_⟩
      refine write_follows stands ran (fun error same => follows_raised error same)
        fun rows covers still => ?_
      obtain ⟨new, rfl, isPin⟩ := List.map_eq_singleton_iff.mp (List.perm_singleton.mp covers)
      exact .commits still isPin
  | missed stands =>
      refine ⟨.write statement, _, run_perform _ _ _, fun {reply after} ran => ?_⟩
      refine write_follows stands ran (fun error same => follows_lost error same)
        fun rows covers still => ?_
      obtain rfl := List.map_eq_nil_iff.mp (List.perm_nil.mp covers)
      exact .commitsNone still
  | commits stands isPin =>
      exact ⟨.commit statement, _, run_perform _ _ _,
        fun ran => commit_follows sound stands isPin ran⟩
  | commitsNone stands =>
      exact ⟨.commit statement, _, run_perform _ _ _, fun ran => commitNone_follows stands ran⟩

/-- No key is lost when a row is inserted. -/
theorem Versions.Sound.insert (sound : v.Sound L.toUpdates) {row : ρ}
    (new : v.latest (L.key row) = none) :
    ({ v with latest := Function.update v.latest (L.key row) (some row) } :
      Versions ι κ ρ θ).Sound L.toUpdates := by
  apply sound.setLatest
  · intro key found isFound
    by_cases same : key = L.key row
    · subst same
      rw [Function.update_self] at isFound
      cases isFound
      rfl
    · rw [Function.update_of_ne same] at isFound
      exact sound.keyed isFound
  · intro u session key isOpen chosen
    obtain ⟨_, old, found, _⟩ := (sound.valid isOpen).chosen key chosen
    have apart : key ≠ L.key row := by
      rintro rfl
      rw [new] at found
      cases found
    exact Function.update_of_ne apart _ _

variable (L clients) in
/-- The transactions behave as if each statement were one step. -/
def linearization :
    Simulation (stepSystem L clients : ThreadSystem (stepwise ι κ ρ ε) (StepWorld ι κ ρ θ ε))
      (atomSystem L clients : ThreadSystem (atomwise ι ρ ε) (AtomWorld ι κ ρ ε)) where
  related w twin := w.versions.Sound L.toUpdates ∧ twin = ⟨w.versions.latest, w.log⟩
  phase t w := Phase L t w.versions
  start {t w twin program after} related started := by
    obtain ⟨rfl, statement, rfl⟩ := started
    exact ⟨_, _, ⟨rfl, statement, rfl⟩, related, .invokes statement⟩
  start_phase {t u w twin program after mine other} _ started _ inPhase := by
    obtain ⟨rfl, _⟩ := started
    exact inPhase
  call {t w twin c rest reply after other} related inPhase called := by
    obtain ⟨sound, rfl⟩ := related
    generalize isProgram : Program.call c rest = program at inPhase
    cases inPhase with
    | invokes statement =>
        cases isProgram
        cases called with
        | invoked sends =>
            exact ⟨_, _, moves_invoked sends, ⟨sound, rfl⟩, .runs .begins⟩
    | runs stage =>
        obtain ⟨call, rest, isCall, follows⟩ := stage.follows sound
        cases isProgram.trans isCall
        cases called with
        | sql ran =>
            obtain ⟨next, moves, inPhase⟩ := follows ran
            exact ⟨next, _, moves, ⟨sound.exec ran, rfl⟩, inPhase⟩
    | answers statement result =>
        cases isProgram
        cases called with
        | answered =>
            exact ⟨_, _, moves_answered result, ⟨sound, rfl⟩, .ended⟩
    | ended => cases isProgram
  call_phase {t u w twin c reply after mine other} _ called apart inPhase := by
    cases called with
    | invoked => exact inPhase
    | answered => exact inPhase
    | sql ran => exact inPhase.keep (.inl (ran.sessions_of_ne apart))
  env {w twin after} related moved := by
    obtain ⟨sound, rfl⟩ := related
    cases moved with
    | @inserted row inserts new =>
        exact ⟨_, .single ⟨row, inserts, new, rfl⟩, sound.insert new, rfl⟩
    | disconnected t => exact ⟨_, .refl, sound.ended, rfl⟩
  env_phase {u w twin after mine other} _ moved inPhase := by
    cases moved with
    | inserted => exact inPhase.keep (.inl rfl)
    | disconnected t =>
        refine inPhase.keep ?_
        by_cases same : u = t
        · subst same
          exact .inr (Function.update_self _ _ _)
        · exact .inl (Function.update_of_ne same _ _)

/-- Whatever the clients see of interleaved transactions, and whatever rows these leave, they also
see and leave when every statement is one step between its invocation and its answer. -/
theorem linearizable {latest : κ → Option ρ}
    (keyed : ∀ {key row}, latest key = some row → L.key row = key)
    {pool : Pool (stepwise ι κ ρ ε) (StepWorld ι κ ρ θ ε)}
    (reached : (stepSystem L clients).Reachable ⟨.initial latest, []⟩ pool) :
    ∃ twin, (atomSystem L clients : ThreadSystem (atomwise ι ρ ε) (AtomWorld ι κ ρ ε)).Reachable
        ⟨latest, []⟩ twin ∧
      twin.state.log = pool.state.log ∧ twin.state.latest = pool.state.versions.latest := by
  have first : (linearization L clients).related
      (⟨.initial latest, []⟩ : StepWorld ι κ ρ θ ε) ⟨latest, []⟩ :=
    ⟨Versions.sound_initial keyed, rfl⟩
  obtain ⟨twin, twinReached, holds⟩ := Simulation.reachable first reached
  have same := holds.states.2
  refine ⟨twin, twinReached, ?_, ?_⟩
  · rw [same]
  · rw [same]

end Proof

end JobPlatform.Foundation
