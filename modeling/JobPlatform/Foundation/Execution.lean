import JobPlatform.Foundation.ThreadPool

/-!
Contract: what one thread does while it runs a program, whatever the others do in between.

Owns:
- `Execution`, the states around each call of one complete run of a program, and its value;
- `Watched`, a stretch of a run of the whole pool that notes the calls of one thread;
- the inversion rules for sequencing and exceptions, and the bridge from the second to the first.

Does not own the other threads: between two calls of an execution the state is arbitrary.
-/

namespace JobPlatform.Foundation.ThreadSystem

variable {S : Calls} {σ : Type} {α β : Type}

/-- Thread `t` ran the program to its end: the state before and after each of its calls, in order,
and the value it ended with. -/
inductive Execution (sys : ThreadSystem S σ) (t : ThreadId) :
    Program S α → List (σ × σ) → α → Prop where
  | done {value : α} : Execution sys t (.done value) [] value
  | call {c : S.Call} {rest : S.Reply c → Program S α} {before after : σ} {reply : S.Reply c}
      {calls : List (σ × σ)} {value : α} (called : sys.exec t before c reply after)
      (continued : Execution sys t (rest reply) calls value) :
      Execution sys t (.call c rest) ((before, after) :: calls) value

variable {sys : ThreadSystem S σ} {t : ThreadId}

theorem execution_done {value result : α} {calls : List (σ × σ)}
    (ran : sys.Execution t (.done value) calls result) : calls = [] ∧ result = value := by
  cases ran with
  | done => exact ⟨rfl, rfl⟩

/-- A sequence ran its first part to an end, and then its second. -/
theorem execution_bind {program : Program S α} {next : α → Program S β} {calls : List (σ × σ)}
    {result : β} (ran : sys.Execution t (program >>= next) calls result) :
    ∃ first value rest, calls = first ++ rest ∧ sys.Execution t program first value ∧
      sys.Execution t (next value) rest result := by
  induction program generalizing calls with
  | done value => exact ⟨[], value, calls, rfl, .done, ran⟩
  | call c rest inductionHypothesis =>
      cases ran with
      | call called continued =>
          obtain ⟨first, value, remaining, isCalls, firstRan, nextRan⟩ :=
            inductionHypothesis _ continued
          exact ⟨_, value, remaining, by rw [isCalls, List.cons_append], .call called firstRan,
            nextRan⟩

/-- A whole run of the pool that starts at `first`, with the calls thread `t` made in it. -/
inductive Watched (sys : ThreadSystem S σ) (t : ThreadId) (first : Pool S σ) :
    List (σ × σ) → Pool S σ → Prop where
  | start : Watched sys t first [] first
  | own {calls : List (σ × σ)} {pool : Pool S σ} {c : S.Call} {rest : S.Reply c → Program S Unit}
      {reply : S.Reply c} {after : σ} (before : Watched sys t first calls pool)
      (running : pool.threads t = some (.call c rest))
      (called : sys.exec t pool.state c reply after) :
      Watched sys t first (calls ++ [(pool.state, after)])
        ⟨after, Function.update pool.threads t (some (rest reply))⟩
  | other {calls : List (σ × σ)} {pool next : Pool S σ} (before : Watched sys t first calls pool)
      (step : sys.Step pool next) (same : next.threads t = pool.threads t) :
      Watched sys t first calls next

/-- A program left its first call behind. -/
private theorem execution_resume {program : Program S Unit} {calls : List (σ × σ)} {c : S.Call}
    {rest : S.Reply c → Program S Unit} {reply : S.Reply c} {before after : σ}
    (called : sys.exec t before c reply after)
    (prior : ∀ {later}, sys.Execution t (.call c rest) later () →
      sys.Execution t program (calls ++ later) ()) {later : List (σ × σ)}
    (continued : sys.Execution t (rest reply) later ()) :
    sys.Execution t program (calls ++ [(before, after)] ++ later) () := by
  rw [List.append_assoc]
  exact prior (.call called continued)

/-- What a thread still has to do completes what it has done. -/
theorem Watched.execution {first pool : Pool S σ} {calls : List (σ × σ)}
    (watched : sys.Watched t first calls pool) {program : Program S Unit}
    (running : first.threads t = some program) :
    ∃ rest, pool.threads t = some rest ∧ ∀ {later}, sys.Execution t rest later () →
      sys.Execution t program (calls ++ later) () := by
  induction watched with
  | start => exact ⟨program, running, id⟩
  | own before isCall called inductionHypothesis =>
      obtain ⟨rest, isRest, prior⟩ := inductionHypothesis
      rw [isCall] at isRest
      cases isRest
      exact ⟨_, Function.update_self _ _ _, execution_resume called prior⟩
  | other before step same inductionHypothesis =>
      obtain ⟨rest, isRest, prior⟩ := inductionHypothesis
      exact ⟨rest, same.trans isRest, prior⟩

/-- A thread that ran a task to its end ran the code to its end. -/
theorem Watched.ended {first pool : Pool S σ} {calls : List (σ × σ)}
    (watched : sys.Watched t first calls pool) {code : Code S α}
    (running : first.threads t = some code.task) (ended : pool.threads t = some (.done ())) :
    ∃ result, sys.Execution t code.run calls result := by
  obtain ⟨rest, isRest, completes⟩ := watched.execution running
  rw [ended] at isRest
  cases isRest
  have ran := completes .done
  rw [List.append_nil] at ran
  obtain ⟨own, result, nothing, isCalls, codeRan, finished⟩ := execution_bind ran
  rw [isCalls, (execution_done finished).1, List.append_nil]
  exact ⟨result, codeRan⟩

/-! ### Code with exceptions -/

section Code

variable {code : Code S α} {calls : List (σ × σ)}

theorem execution_perform {c : S.Call} {result : S.Reply c}
    (ran : sys.Execution t (Code.perform c).run calls result) :
    ∃ before after, calls = [(before, after)] ∧ sys.exec t before c result after := by
  cases ran with
  | call called continued =>
      obtain ⟨rfl, rfl⟩ := execution_done continued
      exact ⟨_, _, rfl, called⟩

theorem execution_codeBind {next : α → Code S β} {result : Except S.Error β}
    (ran : sys.Execution t (code >>= next).run calls result) :
    (∃ first value rest, calls = first ++ rest ∧ sys.Execution t code.run first (.ok value) ∧
      sys.Execution t (next value).run rest result) ∨
    ∃ error, result = .error error ∧ sys.Execution t code.run calls (.error error) := by
  rw [ExceptT.run_bind] at ran
  obtain ⟨first, value, rest, isCalls, firstRan, restRan⟩ := execution_bind ran
  cases value with
  | ok value => exact .inl ⟨first, value, rest, isCalls, firstRan, restRan⟩
  | error error =>
      obtain ⟨rfl, rfl⟩ := execution_done restRan
      rw [List.append_nil] at isCalls
      exact .inr ⟨error, rfl, isCalls ▸ firstRan⟩

theorem execution_tryCatch {handle : S.Error → Code S α} {result : Except S.Error α}
    (ran : sys.Execution t (tryCatch code handle).run calls result) :
    (∃ value, result = .ok value ∧ sys.Execution t code.run calls (.ok value)) ∨
    ∃ first error rest, calls = first ++ rest ∧ sys.Execution t code.run first (.error error) ∧
      sys.Execution t (handle error).run rest result := by
  rw [ExceptT.run_tryCatch] at ran
  obtain ⟨first, value, rest, isCalls, firstRan, restRan⟩ := execution_bind ran
  cases value with
  | ok value =>
      obtain ⟨rfl, rfl⟩ := execution_done restRan
      rw [List.append_nil] at isCalls
      exact .inl ⟨value, rfl, isCalls ▸ firstRan⟩
  | error error => exact .inr ⟨first, error, rest, isCalls, firstRan, restRan⟩

end Code

end JobPlatform.Foundation.ThreadSystem
