import Mathlib.Logic.Function.Basic
import Mathlib.Logic.Relation
import JobPlatform.Foundation.Program

/-!
Contract: threads that run programs over one shared state, in any interleaving.

Owns:
- the thread pool and its steps: a thread starts, makes one call, or stops (it returned or its
  process crashed), or the environment moves;
- `Completes`, what a thread can run to its end alone;
- `Discipline`, a rely/guarantee proof of a system, and `Safe`, what it asks of a program;
- the soundness rule: every reachable pool satisfies the invariant, and every call is made in a
  state that satisfies its precondition.

Does not own: any concrete system.
-/

namespace JobPlatform.Foundation

abbrev ThreadId := Nat

/-- A system of threads: what a call of a thread does, which programs may start, and what happens
without any thread. All three may be nondeterministic. -/
structure ThreadSystem (S : Calls) (σ : Type) where
  exec : ThreadId → σ → (c : S.Call) → S.Reply c → σ → Prop
  start : ThreadId → σ → Program S Unit → σ → Prop
  env : σ → σ → Prop

/-- The shared state and the rest of the program of every live thread. -/
structure Pool (S : Calls) (σ : Type) where
  state : σ
  threads : ThreadId → Option (Program S Unit)

namespace ThreadSystem

variable {S : Calls} {σ : Type} {α β : Type}

/-- One step of a pool. -/
inductive Step (sys : ThreadSystem S σ) : Pool S σ → Pool S σ → Prop where
  | start {pool : Pool S σ} {t : ThreadId} {program : Program S Unit} {after : σ}
      (idle : pool.threads t = none) (started : sys.start t pool.state program after) :
      Step sys pool ⟨after, Function.update pool.threads t (some program)⟩
  | call {pool : Pool S σ} {t : ThreadId} {c : S.Call} {rest : S.Reply c → Program S Unit}
      {reply : S.Reply c} {after : σ} (running : pool.threads t = some (.call c rest))
      (called : sys.exec t pool.state c reply after) :
      Step sys pool ⟨after, Function.update pool.threads t (some (rest reply))⟩
  | stop {pool : Pool S σ} {t : ThreadId} :
      Step sys pool ⟨pool.state, Function.update pool.threads t none⟩
  | env {pool : Pool S σ} {after : σ} (moved : sys.env pool.state after) :
      Step sys pool ⟨after, pool.threads⟩

/-- A pool in which nothing runs yet. -/
def initial (state : σ) : Pool S σ := ⟨state, fun _ => none⟩

/-- The pools some interleaving leads to. -/
def Reachable (sys : ThreadSystem S σ) (init : σ) (pool : Pool S σ) : Prop :=
  Relation.ReflTransGen sys.Step (initial init) pool

/-- One more start. -/
theorem Reachable.start {sys : ThreadSystem S σ} {init : σ} {pool : Pool S σ}
    (reached : sys.Reachable init pool) (t : ThreadId) {program : Program S Unit} {after : σ}
    (idle : pool.threads t = none) (started : sys.start t pool.state program after) :
    sys.Reachable init ⟨after, Function.update pool.threads t (some program)⟩ :=
  reached.tail (.start idle started)

/-- One more call. -/
theorem Reachable.call {sys : ThreadSystem S σ} {init : σ} {pool : Pool S σ}
    (reached : sys.Reachable init pool) (t : ThreadId) {c : S.Call}
    {rest : S.Reply c → Program S Unit} {reply : S.Reply c} {after : σ}
    (running : pool.threads t = some (.call c rest))
    (called : sys.exec t pool.state c reply after) :
    sys.Reachable init ⟨after, Function.update pool.threads t (some (rest reply))⟩ :=
  reached.tail (.call running called)

/-- While nothing else moves, thread `t` can run the program to its end. -/
def Completes (sys : ThreadSystem S σ) (t : ThreadId) : Program S α → σ → α → σ → Prop
  | .done value, state, result, after => value = result ∧ state = after
  | .call c rest, state, result, after =>
      ∃ reply next, sys.exec t state c reply next ∧
        Completes sys t (rest reply) next result after

section Completes

variable {sys : ThreadSystem S σ} {t : ThreadId} {state middle after : σ}

theorem Completes.bind {program : Program S α} {next : α → Program S β} {value : α} {result : β}
    (first : sys.Completes t program state value middle)
    (rest : sys.Completes t (next value) middle result after) :
    sys.Completes t (program >>= next) state result after := by
  induction program generalizing state with
  | done value =>
      obtain ⟨rfl, rfl⟩ := first
      exact rest
  | call c continued inductionHypothesis =>
      obtain ⟨reply, s, called, first⟩ := first
      exact ⟨reply, s, called, inductionHypothesis reply first⟩

theorem completes_bind {code : Code S α} {next : α → Code S β} {value : α}
    {result : Except S.Error β} (first : sys.Completes t code.run state (.ok value) middle)
    (rest : sys.Completes t (next value).run middle result after) :
    sys.Completes t (code >>= next).run state result after := by
  rw [ExceptT.run_bind]
  exact first.bind rest

theorem completes_pure {value : α} :
    sys.Completes t (pure value : Code S α).run state (.ok value) state := ⟨rfl, rfl⟩

theorem completes_perform {c : S.Call} {reply : S.Reply c} (called : sys.exec t state c reply after) :
    sys.Completes t (Code.perform c).run state reply after := ⟨reply, after, called, rfl, rfl⟩

end Completes

/-- A rely/guarantee proof: an invariant of the shared state, the precondition of each call, and
what each thread may rely on while it waits. -/
structure Discipline (sys : ThreadSystem S σ) where
  inv : σ → Prop
  pre : ThreadId → σ → S.Call → Prop
  rely : ThreadId → σ → σ → Prop
  rely_refl : ∀ t s, rely t s s
  rely_trans : ∀ {t s₁ s₂ s₃}, rely t s₁ s₂ → rely t s₂ s₃ → rely t s₁ s₃
  exec_inv : ∀ {t s c reply after}, inv s → pre t s c → sys.exec t s c reply after → inv after
  exec_rely : ∀ {t s c reply after}, inv s → pre t s c → sys.exec t s c reply after →
    ∀ u, u ≠ t → rely u s after
  env_inv : ∀ {s after}, inv s → sys.env s after → inv after
  env_rely : ∀ {s after}, inv s → sys.env s after → ∀ u, rely u s after

namespace Discipline

variable {sys : ThreadSystem S σ}

/-- A discipline in which every step, of any thread, moves the state up one preorder. -/
def ofOrder (inv : σ → Prop) (pre : ThreadId → σ → S.Call → Prop) (le : σ → σ → Prop)
    (refl : ∀ s, le s s) (trans : ∀ {s₁ s₂ s₃}, le s₁ s₂ → le s₂ s₃ → le s₁ s₃)
    (exec : ∀ {t s c reply after}, inv s → pre t s c → sys.exec t s c reply after →
      inv after ∧ le s after)
    (env : ∀ {s after}, inv s → sys.env s after → inv after ∧ le s after) : Discipline sys where
  inv := inv
  pre := pre
  rely _ := le
  rely_refl _ := refl
  rely_trans := trans
  exec_inv holds allowed called := (exec holds allowed called).1
  exec_rely holds allowed called _ _ := (exec holds allowed called).2
  env_inv holds moved := (env holds moved).1
  env_rely holds moved _ := (env holds moved).2

variable (D : Discipline sys) (t : ThreadId)

/-- From `state` on, thread `t` makes every call of the program in a state that satisfies its
precondition, whatever the other threads do in between, and ends in `post`. -/
def Safe : Program S α → (α → σ → Prop) → σ → Prop
  | .done value, post, state => post value state
  | .call c rest, post, state =>
      ∀ before, D.rely t state before → D.inv before →
        D.pre t before c ∧
          ∀ reply after, sys.exec t before c reply after → D.inv after →
            Safe (rest reply) post after

variable {D t}

theorem Safe.mono {program : Program S α} {post weaker : α → σ → Prop} {state : σ}
    (safe : D.Safe t program post state) (implies : ∀ value s, post value s → weaker value s) :
    D.Safe t program weaker state := by
  induction program generalizing state with
  | done value => exact implies value state safe
  | call c rest inductionHypothesis =>
      intro before relied holds
      obtain ⟨allowed, next⟩ := safe before relied holds
      exact ⟨allowed, fun reply after called still =>
        inductionHypothesis reply (next reply after called still)⟩

theorem Safe.bind {program : Program S α} {next : α → Program S β} {post : β → σ → Prop}
    {state : σ} (safe : D.Safe t program (fun value s => D.Safe t (next value) post s) state) :
    D.Safe t (program >>= next) post state := by
  induction program generalizing state with
  | done value => exact safe
  | call c rest inductionHypothesis =>
      intro before relied holds
      obtain ⟨allowed, continue'⟩ := safe before relied holds
      exact ⟨allowed, fun reply after called still =>
        inductionHypothesis reply (continue' reply after called still)⟩

/-- An assertion that neither the other threads nor the calls of a program undo can be carried past
the program. -/
theorem Safe.frame_only {A : σ → Prop} (stable : ∀ {s s'}, D.rely t s s' → A s → A s')
    {Q : S.Call → Prop} (own : ∀ {s c reply s'}, D.inv s → D.pre t s c → Q c →
      sys.exec t s c reply s' → A s → A s')
    {program : Program S α} (only : program.Only Q) {post : α → σ → Prop} {state : σ}
    (safe : D.Safe t program post state) (holds : A state) :
    D.Safe t program (fun value s => post value s ∧ A s) state := by
  induction program generalizing state with
  | done value => exact ⟨safe, holds⟩
  | call c rest inductionHypothesis =>
      intro before relied kept
      obtain ⟨allowed, next⟩ := safe before relied kept
      refine ⟨allowed, fun reply after called keptAfter => ?_⟩
      exact inductionHypothesis reply (only.2 reply) (next reply after called keptAfter)
        (own kept allowed only.1 called (stable relied holds))

/-- An assertion that no step undoes can be carried past a program. -/
theorem Safe.frame {A : σ → Prop} (stable : ∀ {s s'}, D.rely t s s' → A s → A s')
    (own : ∀ {s c reply s'}, D.inv s → D.pre t s c → sys.exec t s c reply s' → D.rely t s s')
    {program : Program S α} {post : α → σ → Prop} {state : σ} (safe : D.Safe t program post state)
    (holds : A state) : D.Safe t program (fun value s => post value s ∧ A s) state :=
  safe.frame_only stable (Q := fun _ => True)
    (fun kept allowed _ called still => stable (own kept allowed called) still)
    (program.only_true) holds

/-- What holds of a waiting thread survives the steps of the others. -/
theorem Safe.stable {program : Program S Unit} {state later : σ}
    (safe : D.Safe t program (fun _ _ => True) state) (relied : D.rely t state later) :
    D.Safe t program (fun _ _ => True) later := by
  cases program with
  | done value => trivial
  | call c rest =>
      intro before further holds
      exact safe before (D.rely_trans relied further) holds

/-- A program is safe if every call it may make is allowed under an assertion that no step undoes. -/
theorem Safe.ofOnly {A : σ → Prop} (stable : ∀ {s s'}, D.rely t s s' → A s → A s')
    (own : ∀ {s c reply s'}, D.inv s → D.pre t s c → sys.exec t s c reply s' → D.rely t s s')
    {Q : S.Call → Prop} (allowed : ∀ {s c}, D.inv s → A s → Q c → D.pre t s c)
    {program : Program S α} (only : program.Only Q) {state : σ} (holds : A state) :
    D.Safe t program (fun _ _ => True) state := by
  induction program generalizing state with
  | done value => trivial
  | call c rest inductionHypothesis =>
      intro before relied kept
      have still := stable relied holds
      have may := allowed kept still only.1
      refine ⟨may, fun reply after called _ => ?_⟩
      exact inductionHypothesis reply (only.2 reply) (stable (own kept may called) still)

/-! ### Rules for code with exceptions -/

/-- `Safe` for code: the postcondition speaks of the value or the error it ends with. -/
def SafeCode (D : Discipline sys) (t : ThreadId) (code : Code S α)
    (post : Except S.Error α → σ → Prop) (state : σ) : Prop :=
  D.Safe t code.run post state

theorem SafeCode.mono {code : Code S α} {post weaker : Except S.Error α → σ → Prop} {state : σ}
    (safe : D.SafeCode t code post state) (implies : ∀ result s, post result s → weaker result s) :
    D.SafeCode t code weaker state :=
  Safe.mono safe implies

theorem safe_pure {value : α} {post : Except S.Error α → σ → Prop} {state : σ}
    (holds : post (.ok value) state) : D.SafeCode t (pure value) post state := holds

theorem safe_throw {error : S.Error} {post : Except S.Error α → σ → Prop} {state : σ}
    (holds : post (.error error) state) : D.SafeCode t (throw error) post state := holds

theorem safe_perform {c : S.Call} {post : Except S.Error (S.Result c) → σ → Prop} {state : σ}
    (safe : ∀ before, D.rely t state before → D.inv before →
      D.pre t before c ∧ ∀ reply after, sys.exec t before c reply after → D.inv after →
        post reply after) : D.SafeCode t (Code.perform c) post state := safe

/-- A call under an assertion that the other threads, and the thread's own calls, keep. -/
theorem safe_call {c : S.Call} {A : σ → Prop} {post : Except S.Error (S.Result c) → σ → Prop}
    {state : σ} (stable : ∀ {s s'}, D.rely t s s' → A s → A s')
    (own : ∀ {s reply s'}, D.inv s → D.pre t s c → sys.exec t s c reply s' → D.rely t s s')
    (holds : A state) (allowed : ∀ {s}, D.inv s → A s → D.pre t s c)
    (next : ∀ {s reply s'}, D.inv s → A s → sys.exec t s c reply s' → D.inv s' → A s' →
      post reply s') : D.SafeCode t (Code.perform c) post state := by
  refine safe_perform fun before relied kept => ?_
  have still := stable relied holds
  refine ⟨allowed kept still, fun reply after called keptAfter => ?_⟩
  exact next kept still called keptAfter (stable (own kept (allowed kept still) called) still)

theorem safe_bind {code : Code S α} {next : α → Code S β} {post : Except S.Error β → σ → Prop}
    {state : σ}
    (safe : D.SafeCode t code (fun result s => match result with
      | .ok value => D.SafeCode t (next value) post s
      | .error error => post (.error error) s) state) :
    D.SafeCode t (code >>= next) post state := by
  unfold SafeCode
  rw [ExceptT.run_bind]
  apply Safe.bind
  refine Safe.mono safe ?_
  intro result s holds
  cases result with
  | ok value => exact holds
  | error error => exact holds

theorem safe_tryCatch {code : Code S α} {handle : S.Error → Code S α}
    {post : Except S.Error α → σ → Prop} {state : σ}
    (safe : D.SafeCode t code (fun result s => match result with
      | .ok value => post (.ok value) s
      | .error error => D.SafeCode t (handle error) post s) state) :
    D.SafeCode t (tryCatch code handle) post state := by
  unfold SafeCode
  rw [ExceptT.run_tryCatch]
  apply Safe.bind
  refine Safe.mono safe ?_
  intro result s holds
  cases result with
  | ok value => exact holds
  | error error => exact holds

theorem safe_finally {body : Code S α} {cleanup : Code S Unit}
    {post : Except S.Error α → σ → Prop} {state : σ}
    (safe : D.SafeCode t body (fun result s => D.SafeCode t cleanup (fun cleaned s' =>
      match cleaned with
      | .ok () => post result s'
      | .error error => post (.error error) s') s) state) :
    D.SafeCode t (Code.finally_ body cleanup) post state := by
  change D.Safe t (body.run >>= fun result => _) post state
  apply Safe.bind
  refine Safe.mono safe ?_
  intro result s cleaning
  apply Safe.bind
  refine Safe.mono cleaning ?_
  intro cleaned s' holds
  cases cleaned with
  | ok value => exact holds
  | error error => exact holds

/-- A thread whose code is safe is safe. -/
theorem safe_task {code : Code S α} {post : Except S.Error α → σ → Prop} {state : σ}
    (safe : D.SafeCode t code post state) : D.Safe t code.task (fun _ _ => True) state :=
  Safe.bind (Safe.mono safe fun _ _ _ => trivial)

/-- A loop is safe when its body takes the invariant of the items left to that of the rest. -/
theorem safe_forEach (loop : List α → β → σ → Prop) {body : β → α → Code S β}
    {post : Except S.Error β → σ → Prop}
    (step : ∀ item rest value s, loop (item :: rest) value s →
      D.SafeCode t (body value item) (fun result s => match result with
        | .ok next => loop rest next s
        | .error error => post (.error error) s) s)
    (finish : ∀ value s, loop [] value s → post (.ok value) s) :
    ∀ {items : List α} {initial : β} {state : σ}, loop items initial state →
      D.SafeCode t (Code.forEach items initial body) post state
  | [], initial, state, holds => safe_pure (finish initial state holds)
  | item :: rest, initial, state, holds => by
      apply safe_bind
      refine SafeCode.mono (step item rest initial state holds) ?_
      intro result s next
      cases result with
      | ok value => exact safe_forEach loop step finish next
      | error error => exact next

/-- What holds when code returns. Nothing is said of the states it raises in. -/
def Returns (A : α → σ → Prop) (result : Except S.Error α) (state : σ) : Prop :=
  ∀ value, result = .ok value → A value state

theorem returns_pure {A : α → σ → Prop} {value : α} {state : σ} (holds : A value state) :
    D.SafeCode t (pure value) (Returns A) state := by
  apply safe_pure
  rintro _ ⟨⟩
  exact holds

theorem returns_throw {A : α → σ → Prop} {error : S.Error} {state : σ} :
    D.SafeCode t (throw error) (Returns A) state := by
  apply safe_throw
  intro value isOk
  cases isOk

theorem returns_bind {A : α → σ → Prop} {B : β → σ → Prop} {code : Code S α} {next : α → Code S β}
    {state : σ} (first : D.SafeCode t code (Returns A) state)
    (rest : ∀ value s, A value s → D.SafeCode t (next value) (Returns B) s) :
    D.SafeCode t (code >>= next) (Returns B) state := by
  apply safe_bind
  refine SafeCode.mono first ?_
  intro result s holds
  cases result with
  | ok value => exact rest value s (holds value rfl)
  | error error =>
      intro value isOk
      cases isOk

/-- A handler starts in a state of which nothing is known. -/
theorem returns_tryCatch {A : α → σ → Prop} {code : Code S α} {handle : S.Error → Code S α}
    {state : σ} (first : D.SafeCode t code (Returns A) state)
    (raised : ∀ error s, D.SafeCode t (handle error) (Returns A) s) :
    D.SafeCode t (tryCatch code handle) (Returns A) state := by
  apply safe_tryCatch
  refine SafeCode.mono first ?_
  intro result s holds
  cases result with
  | ok value => exact holds
  | error error => exact raised error s

end Discipline

/-! ### Soundness -/

variable {sys : ThreadSystem S σ}

/-- What a discipline keeps of a pool. -/
def Discipline.Keeps (D : Discipline sys) (pool : Pool S σ) : Prop :=
  D.inv pool.state ∧ ∀ t program, pool.threads t = some program →
    D.Safe t program (fun _ _ => True) pool.state

/-- What a discipline asks of the programs that may start. -/
def Discipline.Starts (D : Discipline sys) : Prop :=
  ∀ {t s program after}, D.inv s → sys.start t s program after →
    D.inv after ∧ (∀ u, u ≠ t → D.rely u s after) ∧ D.Safe t program (fun _ _ => True) after

/-- After a step of thread `t` every thread is safe, if `t` itself is. -/
private theorem keeps_update {D : Discipline sys} {pool : Pool S σ} {t : ThreadId} {after : σ}
    {program : Option (Program S Unit)} (kept : D.Keeps pool) (holds : D.inv after)
    (relied : ∀ u, u ≠ t → D.rely u pool.state after)
    (own : ∀ rest, program = some rest → D.Safe t rest (fun _ _ => True) after) :
    D.Keeps ⟨after, Function.update pool.threads t program⟩ := by
  refine ⟨holds, ?_⟩
  intro u other running
  dsimp only at running ⊢
  by_cases same : u = t
  · subst same
    rw [Function.update_self] at running
    exact own other running
  · rw [Function.update_of_ne same] at running
    exact (kept.2 u other running).stable (relied u same)

theorem Discipline.keeps_step {D : Discipline sys} (starts : D.Starts) {pool next : Pool S σ}
    (kept : D.Keeps pool) (step : sys.Step pool next) : D.Keeps next := by
  cases step with
  | start idle started =>
      obtain ⟨holds, relied, safe⟩ := starts kept.1 started
      refine keeps_update kept holds relied ?_
      rintro rest ⟨⟩
      exact safe
  | call running called =>
      obtain ⟨allowed, continue'⟩ :=
        kept.2 _ _ running pool.state (D.rely_refl _ _) kept.1
      have holds := D.exec_inv kept.1 allowed called
      refine keeps_update kept holds (D.exec_rely kept.1 allowed called) ?_
      rintro rest ⟨⟩
      exact continue' _ _ called holds
  | stop =>
      refine keeps_update kept kept.1 (fun u _ => D.rely_refl u _) ?_
      rintro rest ⟨⟩
  | env moved =>
      refine ⟨D.env_inv kept.1 moved, ?_⟩
      intro u other running
      exact (kept.2 u other running).stable (D.env_rely kept.1 moved u)

/-- Every reachable pool satisfies the invariant, and every thread in it is safe. -/
theorem Discipline.keeps_of_reachable {D : Discipline sys} (starts : D.Starts) {init : σ}
    (holds : D.inv init) {pool : Pool S σ} (reached : sys.Reachable init pool) :
    D.Keeps pool := by
  induction reached with
  | refl =>
      refine ⟨holds, ?_⟩
      intro t program running
      cases running
  | tail _ step inductionHypothesis => exact D.keeps_step starts inductionHypothesis step

/-- Every call of a reachable pool is made in a state that satisfies its precondition. -/
theorem Discipline.Keeps.pre {D : Discipline sys} {pool : Pool S σ} (kept : D.Keeps pool)
    {t : ThreadId} {c : S.Call} {rest : S.Reply c → Program S Unit}
    (running : pool.threads t = some (.call c rest)) : D.pre t pool.state c :=
  (kept.2 t _ running pool.state (D.rely_refl _ _) kept.1).1

/-- An invariant of the steps a discipline allows holds in every reachable state. -/
theorem Discipline.invariant_of_reachable {D : Discipline sys} (starts : D.Starts) {init : σ}
    (holds : D.inv init) {I : σ → Prop} (first : I init)
    (exec : ∀ {t s c reply after}, I s → D.pre t s c → sys.exec t s c reply after → I after)
    (start : ∀ {t s program after}, I s → sys.start t s program after → I after)
    (env : ∀ {s after}, I s → sys.env s after → I after) {pool : Pool S σ}
    (reached : sys.Reachable init pool) : I pool.state := by
  induction reached with
  | refl => exact first
  | tail before step inductionHypothesis =>
      cases step with
      | start idle started => exact start inductionHypothesis started
      | call running called =>
          exact exec inductionHypothesis ((D.keeps_of_reachable starts holds before).pre running)
            called
      | stop => exact inductionHypothesis
      | env moved => exact env inductionHypothesis moved

end ThreadSystem

end JobPlatform.Foundation
