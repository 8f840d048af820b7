import JobPlatform.Foundation.ThreadPool

/-!
Contract: runs in which one thread moves and all others stand still.

Owns:
- the rules of `Completes` for exceptions;
- `Moves`, some calls of one thread;
- `Turn`, all that a thread does from its start to its end, or one move of the environment, and
  `run_of_turns`: any number of turns is a run that leaves every thread where it stood;
- `exists_idle`: in a reachable pool some thread is idle.
-/

namespace JobPlatform.Foundation.ThreadSystem

variable {S : Calls} {σ α : Type} {sys : ThreadSystem S σ} {t : ThreadId}

section Completes

variable {state middle after : σ}

/-- The handler does not run. -/
theorem completes_tryCatch {code : Code S α} {handle : S.Error → Code S α} {value : α}
    (first : sys.Completes t code.run state (.ok value) after) :
    sys.Completes t (tryCatch code handle).run state (.ok value) after := by
  rw [ExceptT.run_tryCatch]
  exact first.bind ⟨rfl, rfl⟩

/-- What follows an error does not run. -/
theorem completes_raise {β : Type} {code : Code S α} {error : S.Error}
    (raised : sys.Completes t code.run state (.error error) after) (next : α → Code S β) :
    sys.Completes t (code >>= next).run state (.error error) after := by
  rw [ExceptT.run_bind]
  exact raised.bind ⟨rfl, rfl⟩

/-- The handler runs after an error. -/
theorem completes_catch {code : Code S α} {handle : S.Error → Code S α} {error : S.Error}
    {result : Except S.Error α} (raised : sys.Completes t code.run state (.error error) middle)
    (handled : sys.Completes t (handle error).run middle result after) :
    sys.Completes t (tryCatch code handle).run state result after := by
  rw [ExceptT.run_tryCatch]
  exact raised.bind handled

theorem completes_finally {body : Code S α} {cleanup : Code S Unit} {result : Except S.Error α}
    (first : sys.Completes t body.run state result middle)
    (last : sys.Completes t cleanup.run middle (.ok ()) after) :
    sys.Completes t (Code.finally_ body cleanup).run state result after :=
  first.bind (last.bind ⟨rfl, rfl⟩)

theorem completes_task {code : Code S α} {result : Except S.Error α}
    (completes : sys.Completes t code.run state result after) :
    sys.Completes t code.task state () after :=
  completes.bind ⟨rfl, rfl⟩

end Completes

/-! ### Moves -/

/-- Thread `t` makes some calls, and stands at a later point of its program. -/
inductive Moves (sys : ThreadSystem S σ) (t : ThreadId) :
    Program S Unit → σ → Program S Unit → σ → Prop where
  | refl {program : Program S Unit} {state : σ} : Moves sys t program state program state
  | call {c : S.Call} {rest : S.Reply c → Program S Unit} {reply : S.Reply c}
      {state middle after : σ} {program : Program S Unit}
      (called : sys.exec t state c reply middle) (next : Moves sys t (rest reply) middle program after) :
      Moves sys t (.call c rest) state program after

section Moves

variable {program next : Program S Unit} {state after : σ}
  {threads : ThreadId → Option (Program S Unit)}

/-- One call. -/
theorem Moves.single {c : S.Call} {rest : S.Reply c → Program S Unit} {reply : S.Reply c}
    (called : sys.exec t state c reply after) :
    sys.Moves t (.call c rest) state (rest reply) after :=
  .call called .refl

theorem Moves.trans {middle : Program S Unit} {between : σ}
    (first : sys.Moves t program state middle between) (rest : sys.Moves t middle between next after) :
    sys.Moves t program state next after := by
  induction first with
  | refl => exact rest
  | call called _ inductionHypothesis => exact .call called (inductionHypothesis rest)

/-- The calls of a thread in a pool. -/
theorem Moves.steps (moves : sys.Moves t program state next after)
    (running : threads t = some program) :
    Relation.ReflTransGen sys.Step ⟨state, threads⟩
      ⟨after, Function.update threads t (some next)⟩ := by
  induction moves generalizing threads with
  | refl => rw [← running, Function.update_eq_self]
  | @call c rest reply state middle after program called next inductionHypothesis =>
      have later := inductionHypothesis (Function.update_self t (some (rest reply)) threads)
      rw [Function.update_idem] at later
      have first : sys.Step ⟨state, threads⟩
          ⟨middle, Function.update threads t (some (rest reply))⟩ := .call running called
      exact .head first later

/-- A thread that completes its program moves to its end. -/
theorem Completes.moves (completes : sys.Completes t program state () after) :
    sys.Moves t program state (.done ()) after := by
  induction program generalizing state with
  | done value =>
      obtain ⟨_, rfl⟩ := completes
      exact .refl
  | call c rest inductionHypothesis =>
      obtain ⟨reply, middle, called, completes⟩ := completes
      exact .call called (inductionHypothesis reply completes)

end Moves

/-! ### Turns -/

/-- What thread `t` can do from its start to its end while nothing else moves, or one move of the
environment. -/
inductive Turn (sys : ThreadSystem S σ) (t : ThreadId) (state : σ) : σ → Prop where
  | ran {program : Program S Unit} {first after : σ} (started : sys.start t state program first)
      (completes : sys.Completes t program first () after) : Turn sys t state after
  | moved {after : σ} (moved : sys.env state after) : Turn sys t state after

theorem Turn.steps {pool : Pool S σ} {after : σ} (turn : sys.Turn t pool.state after)
    (idle : pool.threads t = none) :
    Relation.ReflTransGen sys.Step pool ⟨after, pool.threads⟩ := by
  cases turn with
  | @ran program _ _ started completes =>
      have stands : Function.update pool.threads t (some program) t = some program :=
        Function.update_self _ _ _
      have whole := (Relation.ReflTransGen.single (.start idle started)).trans
        (completes.moves.steps stands)
      have stopped := whole.tail (.stop (t := t))
      rwa [Function.update_idem, Function.update_idem, ← idle, Function.update_eq_self] at stopped
  | moved moved => exact .single (.env moved)

/-- Turns of an idle thread are a run of the pool, and leave every thread where it stood. -/
theorem run_of_turns {pool : Pool S σ} {after : σ}
    (turns : Relation.ReflTransGen (sys.Turn t) pool.state after) (idle : pool.threads t = none) :
    Relation.ReflTransGen sys.Step pool ⟨after, pool.threads⟩ := by
  induction turns with
  | refl => exact .refl
  | tail _ turn inductionHypothesis => exact inductionHypothesis.trans (turn.steps idle)

/-- A step of a system is a step of every system that allows more. -/
theorem Step.mono {other : ThreadSystem S σ} {pool next : Pool S σ} (step : sys.Step pool next)
    (exec : ∀ {t s c reply after}, sys.exec t s c reply after → other.exec t s c reply after)
    (start : ∀ {t s program after}, sys.start t s program after → other.start t s program after)
    (env : ∀ {s after}, sys.env s after → other.env s after) : other.Step pool next := by
  cases step with
  | start idle started => exact .start idle (start started)
  | call running called => exact .call running (exec called)
  | stop => exact .stop
  | env moved => exact .env (env moved)

/-- A step changes one thread at most. -/
theorem Step.idle_above {pool next : Pool S σ} (step : sys.Step pool next) {bound : ThreadId}
    (idle : ∀ t, bound ≤ t → pool.threads t = none) :
    ∃ bound, ∀ t, bound ≤ t → next.threads t = none := by
  have changed (u : ThreadId) (program : Option (Program S Unit)) (t : ThreadId)
      (above : bound + u + 1 ≤ t) : Function.update pool.threads u program t = none := by
    have apart : t ≠ u := Nat.ne_of_gt (Nat.lt_of_le_of_lt (Nat.le_add_left u bound) above)
    rw [Function.update_of_ne apart]
    exact idle t (Nat.le_trans (Nat.le_add_right bound (u + 1)) above)
  cases step with
  | start => exact ⟨_, changed _ _⟩
  | call => exact ⟨_, changed _ _⟩
  | stop => exact ⟨_, changed _ _⟩
  | env => exact ⟨bound, idle⟩

/-- Only finitely many threads run. -/
theorem exists_idle {init : σ} {pool : Pool S σ} (reached : sys.Reachable init pool) :
    ∃ t, pool.threads t = none := by
  have above : ∃ bound, ∀ t, bound ≤ t → pool.threads t = none := by
    induction reached with
    | refl => exact ⟨0, fun _ _ => rfl⟩
    | tail _ step inductionHypothesis =>
        obtain ⟨bound, idle⟩ := inductionHypothesis
        exact step.idle_above idle
  obtain ⟨bound, idle⟩ := above
  exact ⟨bound, idle bound (Nat.le_refl bound)⟩

end JobPlatform.Foundation.ThreadSystem
